import PhxPaxos.Batches.Queue

/-!
# The moves of a batch group

`Moves e s s'` lists what the event `e` can do, with what is known when it does it; every event is a move (`step_moves`), so
what each move preserves holds in every run (`BatchRun.invariant`).
-/

namespace PhxPaxos

/-! ## Groups that are proposed -/

namespace DoPropose

/-- The callers of the group. -/
def calls (d : DoPropose) : List Nat := d.request.map PendingProposal.call

/-- The notifications sent. -/
def sent (d : DoPropose) : List (Nat × ProposeRet) :=
  match d.result with
  | none => []
  | some (ret, _) => (d.calls.take d.notified).map fun call => (call, ret)

/-- The callers that are still to be notified. -/
def waiting (d : DoPropose) : List Nat := d.calls.drop d.notified

/-- `NewValueGetID` has not returned. -/
def Open (d : DoPropose) (c : Call) : Prop := d.call = some c ∧ ∀ ret instanceID, c.phase ≠ .returned ret instanceID

theorem Open.result {d : DoPropose} {c : Call} (h : d.Open c) : d.result = none := by
  unfold DoPropose.result
  rw [h.1]
  simp only []
  split
  · exact absurd ‹_› (h.2 _ _)
  · rfl

theorem start_calls (thread : Proposing) (request : List PendingProposal) :
    (start thread request).flatMap calls = request.map PendingProposal.call := by
  unfold start
  split
  · rename_i h
    rw [h]
    rfl
  · simp [calls]

theorem start_sent (thread : Proposing) (request : List PendingProposal) : (start thread request).flatMap sent = [] := by
  unfold start
  split
  · rfl
  · simp only [List.flatMap_cons, List.flatMap_nil, List.append_nil, sent, List.take_zero, List.map_nil]
    split <;> rfl

theorem mem_start {thread : Proposing} {request : List PendingProposal} {d : DoPropose} (h : d ∈ start thread request) :
    d = { thread := thread, request := request, call := newCall request } ∧ request ≠ [] := by
  unfold start at h
  split at h
  · cases h
  · exact ⟨List.mem_singleton.mp h, ‹_›⟩

theorem newCall_phase {request : List PendingProposal} {c : Call} (h : newCall request = some c) : c.phase = .waitLock := by
  unfold newCall at h
  split at h
  · cases h
    rfl
  · simp only [] at h
    split at h
    · cases h
      rfl
    · cases h

end DoPropose

/-! ## Moves -/

/-- What one event does to the group. -/
inductive BatchGroup.Moves (e : BatchEvent) : BatchGroup → BatchGroup → Prop
  | same {s} : Moves e s s
  | call {s call c} : s.callers call = none → (c.phase = .checked ∨ c.phase = .returned .systemError) →
      c.batchIndex = c.batchIndexBefore → Moves e s (s.setCaller call c)
  | leave {s call c} : s.callers call = some c → c.phase = .checked →
      Moves e s (s.setCaller call { c with phase := .returned .systemError })
  | answered {s call c ret} : s.callers call = some c → c.phase = .added → (call, ret) ∈ s.notes →
      Moves e s (s.setCaller call { c with phase := .returned ret })
  | add {s call c t now batch request} : e = .addProposal call t now → s.callers call = some c → c.phase = .checked →
      s.batch.addProposal ⟨call, c.value, c.smid, t⟩ now = (batch, request) →
      Moves e s
        { s.setCaller call { c with phase := .added } with
          batch := batch
          doing := s.doing ++ DoPropose.start (.caller call) request
          enqueued := call :: s.enqueued }
  -- the worker
  | pluck {s batch request} : s.worker = .top → Plucks s.batch batch request →
      Moves e s { s with batch := batch, doing := s.doing ++ DoPropose.start .worker request, worker := .relock }
  | work {s batch worker} : batch.queue = s.batch.queue → batch.nowQueueValueSize = s.batch.nowQueueValueSize →
      (worker = .ended → s.worker = .ended) → (s.worker = .ended → worker = .ended) →
      Moves e s { s with batch := batch, worker := worker }
  | drain {s} : e = .drain → s.worker = .drain →
      Moves e s
        { s with
          notes := s.notes ++ s.batch.queue.map fun p => (p.call, .systemError)
          drained := s.drained ++ s.batch.queue.map PendingProposal.call
          batch.queue := []
          worker := .ended }
  -- the committer
  | propose {s value smid} : Moves e s { s with doing := s.doing ++ [⟨.other, [], some (Call.new value smid), 0⟩] }
  | lock {s i d c timeoutMs} : s.doing[i]? = some d → d.Open c → (∀ d ∈ s.doing, d.holdsLock = false) →
      Moves e s
        { s.setDoing i { d with call := some { c with phase := .getResult } } with
          commitCtx := CommitCtx.newCommit (packPaxosValue c.value c.smid) timeoutMs }
  | lockFail {s i d c ret} : s.doing[i]? = some d → d.Open c → c.phase = .waitLock → ret ≠ .ok → ret ≠ .conflict →
      Moves e s (s.setDoing i { d with call := some { c with phase := .returned ret 0 } })
  | getResult {s i d c} : s.doing[i]? = some d → d.Open c → c.phase = .getResult → s.commitCtx.isCommitEnd = true →
      Moves e s
        (s.setDoing i { d with call := some (c.afterTry s.commitCtx.commitRet (s.commitCtx.instanceID.getD 0)) })
  | notify {s i d p ret instanceID} : s.doing[i]? = some d → d.result = some (ret, instanceID) →
      d.request[d.notified]? = some p →
      Moves e s
        { s.setDoing i { d with notified := d.notified + 1 } with
          callers := Function.update s.callers p.call ((s.callers p.call).map fun c => c.answer d ret instanceID)
          notes := s.notes ++ [(p.call, ret)] }
  -- the instance
  | startCommit {s} : s.commitCtx.isNewCommit = true →
      Moves e s { s with commitCtx := s.commitCtx.startCommit s.instanceID }
  | refuse {s ret} : s.commitCtx.isNewCommit = true → ret ≠ .ok →
      Moves e s { s with commitCtx := s.commitCtx.setResultOnlyRet ret }
  | commitFail {s ret value} : ret ≠ .ok →
      Moves e s { s with commitCtx := s.commitCtx.setResult ret (some s.instanceID) value }
  | learned {s value} :
      Moves e s
        { s with
          commitCtx := s.commitCtx.setResult .ok (some s.instanceID) value
          log := Function.update s.log s.instanceID (some value)
          instanceID := s.instanceID + 1 }
  | delete {s instanceID} : Moves e s { s with log := Function.update s.log instanceID none }

namespace BatchGroup

/-! ## Every event is a move -/

variable {e : BatchEvent} {s : BatchGroup}

theorem propose_moves {call : Nat} {value : Bytes} {smid : UInt32} {instanceID : Nat} {batchIndex : UInt32} :
    Moves e s (s.propose call value smid instanceID batchIndex) := by
  unfold propose
  split
  · exact .same
  · rename_i h
    have hnone : s.callers call = none := by simpa using h
    refine .call hnone ?_ rfl
    cases s.batch.isEnd with
    | true => exact Or.inr rfl
    | false => exact Or.inl rfl

theorem getNotifierFail_moves {call : Nat} : Moves e s (s.getNotifierFail call) := by
  unfold getNotifierFail
  split
  · exact .same
  · rename_i c hc
    split
    · exact .leave hc ‹_›
    · exact .same

theorem addProposal_moves {call absEnqueueTime now : Nat} :
    Moves (.addProposal call absEnqueueTime now) s (s.addProposal call absEnqueueTime now) := by
  unfold addProposal
  split
  · exact .same
  · rename_i c hc
    split
    · rename_i hphase
      obtain ⟨⟨batch, request⟩, hr⟩ : ∃ r, s.batch.addProposal ⟨call, c.value, c.smid, absEnqueueTime⟩ now = r := ⟨_, rfl⟩
      rw [hr]
      exact .add rfl hc hphase hr
    · exact .same

theorem waitNotify_moves {call : Nat} : Moves e s (s.waitNotify call) := by
  unfold waitNotify
  split
  · rename_i c ret hc hret
    split
    · rename_i h
      obtain ⟨l₁, l₂, heq, -⟩ := List.lookup_eq_some_iff.mp hret
      have hmem : (call, ret) ∈ s.notes := by
        rw [heq]
        simp
      exact .answered hc h.1 hmem
    · exact .same
  · exact .same

theorem loop_moves : Moves e s s.loop := by
  unfold loop
  split
  · exact .same
  · rename_i h
    have htop : s.worker = .top := not_not.mp h
    split
    · exact .work rfl rfl (by simp) (by simp [htop])
    · exact .pluck htop (pluckProposal_plucks s.batch)

theorem drain_moves : Moves .drain s s.drain := by
  unfold drain
  split
  · exact .same
  · rename_i h
    exact .drain rfl (not_not.mp h)

theorem lock_moves {i : Nat} {timeoutMs : Int} : Moves e s (s.lock i timeoutMs) := by
  unfold lock
  split
  · exact .same
  · rename_i d hd
    split
    · exact .same
    · rename_i c hc
      split
      · rename_i h
        refine .lock hd ⟨hc, by simp [h.1]⟩ ?_
        simpa using h.2
      · exact .same

theorem lockFail_moves {i : Nat} {tooManyThreadWaiting : Bool} : Moves e s (s.lockFail i tooManyThreadWaiting) := by
  unfold lockFail
  split
  · exact .same
  · rename_i d hd
    split
    · exact .same
    · rename_i c hc
      split
      · rename_i h
        have hopen : d.Open c := ⟨hc, by simp [h]⟩
        cases tooManyThreadWaiting with
        | true => exact .lockFail hd hopen h (by simp) (by simp)
        | false => exact .lockFail hd hopen h (by simp) (by simp)
      · exact .same

theorem getResult_moves {i : Nat} : Moves e s (s.getResult i) := by
  unfold getResult
  split
  · exact .same
  · rename_i d hd
    split
    · exact .same
    · rename_i c hc
      split
      · rename_i h
        exact .getResult hd ⟨hc, by simp [h.1]⟩ h.1 h.2
      · exact .same

theorem sendNotify_moves {i : Nat} : Moves e s (s.sendNotify i) := by
  unfold sendNotify
  split
  · exact .same
  · rename_i d hd
    split
    · rename_i ret instanceID p hret hp
      exact .notify hd hret hp
    · exact .same

theorem checkNewValue_moves {refused : Option PaxosTryCommitRet} : Moves e s (s.checkNewValue refused) := by
  unfold checkNewValue
  split
  · exact .same
  · rename_i h
    have hnew : s.commitCtx.isNewCommit = true := by simpa using h
    split
    · exact .startCommit hnew
    · split
      · rename_i ret hret
        refine .refuse hnew ?_
        rintro rfl
        simp at hret
      · exact .same

theorem learned_moves {value : Bytes} {executed : Bool} : Moves e s (s.learned value executed) := by
  unfold learned
  split
  · exact .learned
  · exact .commitFail (by simp)

/-- **Every event is a move.** -/
theorem step_moves (s : BatchGroup) (e : BatchEvent) : Moves e s (s.step e) := by
  cases e with
  | propose => exact propose_moves
  | getNotifierFail => exact getNotifierFail_moves
  | addProposal =>
    simp only [step]
    exact addProposal_moves
  | waitNotify => exact waitNotify_moves
  | run =>
    simp only [step]
    split
    · rename_i h
      exact .work rfl rfl (by simp) (by simp [h])
    · exact .same
  | loop => exact loop_moves
  | relock =>
    simp only [step]
    split
    · rename_i h
      exact @Moves.work _ _ _ .top rfl rfl (by simp) (by simp [h.1])
    · exact .same
  | drain => exact drain_moves
  | stop =>
    simp only [step]
    split
    · exact @Moves.work _ _ _ s.worker rfl rfl id id
    · exact .same
  | setBatchCount => exact @Moves.work _ _ _ s.worker rfl rfl id id
  | setBatchDelayTimeMs => exact @Moves.work _ _ _ s.worker rfl rfl id id
  | newValueGetID => exact .propose
  | lock => exact lock_moves
  | lockFail => exact lockFail_moves
  | getResult => exact getResult_moves
  | sendNotify => exact sendNotify_moves
  | checkNewValue => exact checkNewValue_moves
  | commitTimeout => exact .commitFail (by simp)
  | learned => exact learned_moves
  | delete => exact .delete

end BatchGroup

/-- **Induction over a run**: what holds at its beginning and is kept by every move holds in it. -/
theorem BatchRun.invariant {meets : BatchGroup → BatchEvent → Prop} {I : BatchGroup → Prop}
    (init : ∀ instanceID log, I { instanceID := instanceID, log := log })
    (move : ∀ {s e s'}, I s → meets s e → BatchGroup.Moves e s s' → I s') {s : BatchGroup} (h : BatchRun meets s) :
    I s := by
  induction h with
  | init instanceID log => exact init instanceID log
  | step e _ hmeets ih => exact move ih hmeets (BatchGroup.step_moves _ e)

end PhxPaxos
