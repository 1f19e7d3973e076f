import PhxPaxos.Batches.Accounts
import PhxPaxos.Batches.Commits

/-!
# A batch group goes on

As long as a proposal is in the queue or a group is not finished, some event of the worker, of a proposing thread or of the
instance brings the group closer to its end (`exists_progress`, measured by `BatchGroup.work`); so all callers can be notified
without any help from outside (`exists_settled`).
-/

namespace PhxPaxos

/-! ## Runs -/

namespace BatchGroup

def run (s : BatchGroup) (es : List BatchEvent) : BatchGroup := es.foldl step s

end BatchGroup

/-- What the worker, the proposing threads and the instance do of themselves: no call begins and nobody stops the batch. -/
def BatchEvent.Internal : BatchEvent → Prop
  | .run | .loop | .relock | .drain | .lock _ _ | .lockFail _ _ | .getResult _ | .sendNotify _ | .checkNewValue _
  | .commitTimeout | .learned _ _ => True
  | _ => False

/-! ## Work to do -/

/-- How many events the group needs at most, apart from those of its commit. -/
def DoPropose.work (d : DoPropose) : Nat :=
  match d.call with
  | none => d.request.length - d.notified
  | some c =>
    match c.phase with
    | .returned _ _ => d.request.length - d.notified
    | .waitLock => d.request.length + 1
    | .getResult => d.request.length + 2

/-- The commit is to start, to end. -/
def CommitCtx.work (ctx : CommitCtx) : Nat :=
  if ctx.isCommitEnd then 0 else if ctx.instanceID.isNone then 2 else 1

def Worker.work : Worker → Nat
  | .created => 2
  | .top => 1
  | .relock => 2
  | .drain => 0
  | .ended => 0

def BatchGroup.work (s : BatchGroup) : Nat :=
  5 * s.batch.queue.length + (s.doing.map DoPropose.work).sum + s.commitCtx.work + s.worker.work

/-- Nothing is in the queue and no group is being proposed. -/
def BatchGroup.Settled (s : BatchGroup) : Prop := s.batch.queue = [] ∧ ∀ d ∈ s.doing, d.finished = true

theorem DoPropose.work_le (d : DoPropose) (h : d.result ≠ none) : d.work = d.request.length - d.notified := by
  unfold DoPropose.result at h
  unfold DoPropose.work
  cases hc : d.call with
  | none => rfl
  | some c =>
    rw [hc] at h
    cases hp : c.phase with
    | returned ret i => simp [hp]
    | waitLock => simp [hp] at h
    | getResult => simp [hp] at h

theorem DoPropose.start_work (thread : Proposing) (request : List PendingProposal) :
    ((start thread request).map DoPropose.work).sum ≤ request.length + 1 := by
  unfold start
  split
  · simp
  · have hwork (call : Option Call) (hcall : ∀ c, call = some c → c.phase = .waitLock) :
        DoPropose.work { thread := thread, request := request, call := call } ≤ request.length + 1 := by
      unfold DoPropose.work
      cases hc : call with
      | none =>
        simp only []
        omega
      | some c => simp [hcall c hc]
    simpa using hwork _ fun c hc => newCall_phase hc

/-- A group that has less to do replaces another. -/
theorem BatchGroup.setDoing_work {s : BatchGroup} {i : Nat} {d d' : DoPropose} (hd : s.doing[i]? = some d)
    (hlt : d'.work < d.work) : (s.setDoing i d').work < s.work := by
  obtain ⟨l₁, l₂, heq, hset⟩ := exists_split_of_getElem? hd
  have hdoing : (s.setDoing i d').doing = l₁ ++ d' :: l₂ := hset d'
  have hbefore : s.work = 5 * s.batch.queue.length + (s.doing.map DoPropose.work).sum + s.commitCtx.work + s.worker.work := rfl
  have hafter : (s.setDoing i d').work =
      5 * s.batch.queue.length + ((s.setDoing i d').doing.map DoPropose.work).sum + s.commitCtx.work + s.worker.work := rfl
  simp only [hdoing, heq, List.map_append, List.map_cons, List.sum_append, List.sum_cons] at hbefore hafter
  omega

/-! ## Progress -/

namespace BatchGroup

variable {s : BatchGroup}

/-- A group whose result is known notifies its next caller. -/
theorem sendNotify_progress (hs : Accounts s) {i : Nat} {d : DoPropose} (hd : s.doing[i]? = some d)
    (hunfinished : d.finished = false) {ret : ProposeRet} {instanceID : Nat} (hresult : d.result = some (ret, instanceID)) :
    (s.step (.sendNotify i)).work < s.work := by
  have hle := (hs.notified d (List.mem_of_getElem? hd)).1
  have hne : d.notified ≠ d.request.length := by
    intro heq
    simp [DoPropose.finished, hresult, heq] at hunfinished
  have hlt : d.notified < d.request.length := by omega
  have hwork : DoPropose.work { d with notified := d.notified + 1 } < d.work := by
    rw [DoPropose.work_le d (by simp [hresult]),
      DoPropose.work_le { d with notified := d.notified + 1 } (by
        rw [show DoPropose.result { d with notified := d.notified + 1 } = d.result from rfl, hresult]
        simp)]
    show d.request.length - (d.notified + 1) < _
    omega
  have hstep : (s.step (.sendNotify i)).work = (s.setDoing i { d with notified := d.notified + 1 }).work := by
    simp only [step, sendNotify, hd, hresult, List.getElem?_eq_getElem hlt]
    rfl
  rw [hstep]
  exact setDoing_work hd hwork

/-- A call that waits for the lock may be refused it. -/
theorem lockFail_progress {i : Nat} {d : DoPropose} {c : Call} (hd : s.doing[i]? = some d) (hc : d.call = some c)
    (hphase : c.phase = .waitLock) : (s.step (.lockFail i false)).work < s.work := by
  have hafter : c.afterTry .timeout 0 = { c with phase := .returned .timeout 0 } := by simp [Call.afterTry]
  have hstep : s.step (.lockFail i false) = s.setDoing i { d with call := some { c with phase := .returned .timeout 0 } } := by
    simp [step, lockFail, hd, hc, hphase, hafter]
  rw [hstep]
  refine setDoing_work hd ?_
  simp only [DoPropose.work, hc, hphase]
  omega

/-- A commit that has ended gives its result. -/
theorem getResult_progress {i : Nat} {d : DoPropose} {c : Call} (hd : s.doing[i]? = some d) (hc : d.call = some c)
    (hphase : c.phase = .getResult) (hend : s.commitCtx.isCommitEnd = true) : (s.step (.getResult i)).work < s.work := by
  have hstep : s.step (.getResult i) = s.setDoing i { d with
      call := some (c.afterTry s.commitCtx.commitRet (s.commitCtx.instanceID.getD 0)) } := by
    simp [step, getResult, hd, hc, hphase, hend]
  rw [hstep]
  refine setDoing_work hd ?_
  rcases afterTry_phase c s.commitCtx.commitRet (s.commitCtx.instanceID.getD 0) with hp | hp
  · simp only [DoPropose.work, hc, hphase, hp]
    omega
  · simp only [DoPropose.work, hc, hphase, hp]
    omega

/-- The commit that a call waits for goes on. -/
theorem commit_progress (hs : s.CommitsOk) {d : DoPropose} {c : Call} (hd : d ∈ s.doing) (hc : d.call = some c)
    (hphase : c.phase = .getResult) (hgoing : s.commitCtx.isCommitEnd = false) :
    ∃ e : BatchEvent, e.Internal ∧ (s.step e).work < s.work := by
  have hmem : some c ∈ s.calls := List.mem_map.mpr ⟨d, hd, hc⟩
  obtain ⟨hvalue, hi⟩ := (Commits.current hs hmem hphase).going hgoing
  rcases hi with hi | hi
  · refine ⟨.checkNewValue none, trivial, ?_⟩
    have hnew : s.commitCtx.isNewCommit = true := by simp [CommitCtx.isNewCommit, hi, hvalue]
    have hwork : (s.commitCtx.startCommit s.instanceID).work < s.commitCtx.work := by
      simp [CommitCtx.work, CommitCtx.startCommit, hgoing, hi]
    simp only [step, checkNewValue, hnew, work]
    simp only [Bool.not_true, Bool.false_eq_true, if_false]
    omega
  · refine ⟨.learned [] true, trivial, ?_⟩
    have hwork : (s.commitCtx.setResult .ok (some s.instanceID) []).work < s.commitCtx.work := by
      rw [setResult_of_going hgoing hi]
      simp [CommitCtx.work, hgoing, hi]
    simp only [step, learned, if_true, work]
    omega

/-- A group that is not finished goes on. -/
theorem doing_progress (hs : Accounts s) (hcommits : s.CommitsOk) {d : DoPropose} (hd : d ∈ s.doing)
    (hunfinished : d.finished = false) : ∃ e : BatchEvent, e.Internal ∧ (s.step e).work < s.work := by
  obtain ⟨i, hi⟩ := List.mem_iff_getElem?.mp hd
  cases hresult : d.result with
  | some r => exact ⟨.sendNotify i, trivial, sendNotify_progress hs hi hunfinished hresult⟩
  | none =>
    cases hc : d.call with
    | none => simp [DoPropose.result, hc] at hresult
    | some c =>
      cases hphase : c.phase with
      | returned ret instanceID => simp [DoPropose.result, hc, hphase] at hresult
      | waitLock => exact ⟨.lockFail i false, trivial, lockFail_progress hi hc hphase⟩
      | getResult =>
        by_cases hend : s.commitCtx.isCommitEnd = true
        · exact ⟨.getResult i, trivial, getResult_progress hi hc hphase hend⟩
        · exact commit_progress hcommits hd hc hphase (by simpa using hend)

/-- The worker goes on to the queue. -/
theorem worker_progress (hqueue : s.batch.queue ≠ []) (hended : s.worker ≠ .ended) (hidle : s.idle .worker = true) :
    ∃ e : BatchEvent, e.Internal ∧ (s.step e).work < s.work := by
  have hpos : 0 < s.batch.queue.length := List.length_pos_of_ne_nil hqueue
  cases hworker : s.worker with
  | created =>
    refine ⟨.run, trivial, ?_⟩
    simp [step, hworker, work, Worker.work]
  | top =>
    refine ⟨.loop, trivial, ?_⟩
    by_cases hend : s.batch.isEnd = true
    · simp [step, loop, hworker, hend, work, Worker.work]
    · have hplucks := pluckProposal_plucks s.batch
      have hne := pluckProposal_ne_nil hqueue
      obtain ⟨⟨batch, request⟩, hr⟩ : ∃ r, s.batch.pluckProposal = r := ⟨_, rfl⟩
      rw [hr] at hplucks hne
      have hlen : request.length + batch.queue.length = s.batch.queue.length := by
        rw [← List.length_append, hplucks.queue]
      have hone : 0 < request.length := List.length_pos_of_ne_nil hne
      have hstart := DoPropose.start_work .worker request
      have hstep : s.step .loop =
          { s with batch := batch, doing := s.doing ++ DoPropose.start .worker request, worker := .relock } := by
        simp [step, loop, hworker, hend, hr]
      rw [hstep]
      simp only [work, hworker, Worker.work, List.map_append, List.sum_append]
      omega
  | relock =>
    refine ⟨.relock, trivial, ?_⟩
    simp [step, hworker, hidle, work, Worker.work]
  | drain =>
    refine ⟨.drain, trivial, ?_⟩
    simp only [step, drain, hworker, work, Worker.work, ne_eq, not_true_eq_false, if_false, List.length_nil]
    omega
  | ended => exact absurd hworker hended

/-- **As long as the group is not settled, it can go on by itself.** -/
theorem exists_progress (hs : Accounts s) (hcommits : s.CommitsOk) (hended : s.worker = .ended → s.batch.queue = [])
    (h : ¬ s.Settled) : ∃ e : BatchEvent, e.Internal ∧ (s.step e).work < s.work := by
  by_cases hdoing : ∀ d ∈ s.doing, d.finished = true
  · have hqueue : s.batch.queue ≠ [] := fun hqueue => h ⟨hqueue, hdoing⟩
    refine worker_progress hqueue (fun hend => hqueue (hended hend)) ?_
    unfold idle
    rw [List.all_eq_true]
    intro d hd
    rw [hdoing d hd, Bool.or_true]
  · rw [not_forall] at hdoing
    obtain ⟨d, hd⟩ := hdoing
    rw [Classical.not_imp] at hd
    exact doing_progress hs hcommits hd.1 (by simpa using hd.2)

/-! ## Until all is done -/

/-- No call begins meanwhile. -/
theorem Moves.internal {e : BatchEvent} {s s' : BatchGroup} (h : Moves e s s') (he : e.Internal) :
    s'.enqueued = s.enqueued ∧ ((s.worker = .ended → s.batch.queue = []) → s'.worker = .ended → s'.batch.queue = []) := by
  cases h with
  | add hadd =>
    subst hadd
    exact he.elim
  | pluck => exact ⟨rfl, fun _ hend => by cases hend⟩
  | work hqueue _ hended => exact ⟨rfl, fun h hend => hqueue.trans (h (hended hend))⟩
  | drain => exact ⟨rfl, fun _ _ => rfl⟩
  | _ => exact ⟨rfl, id⟩

/-- **The group can settle by itself.** -/
theorem exists_settled : ∀ (n : Nat) (s : BatchGroup), s.work = n → Accounts s → s.CommitsOk →
    (s.worker = .ended → s.batch.queue = []) →
    ∃ es : List BatchEvent, (∀ e ∈ es, e.Internal) ∧ (s.run es).Settled ∧ Accounts (s.run es) ∧
      (s.run es).enqueued = s.enqueued := by
  intro n
  induction n using Nat.strong_induction_on with
  | _ n ih =>
    intro s hn hs hcommits hended
    by_cases hsettled : s.Settled
    · exact ⟨[], by simp, hsettled, hs, rfl⟩
    · obtain ⟨e, he, hlt⟩ := exists_progress hs hcommits hended hsettled
      have hmove := step_moves s e
      obtain ⟨henqueued, hended'⟩ := hmove.internal he
      obtain ⟨es, hes, hsettled', hs', henq⟩ :=
        ih _ (hn ▸ hlt) (s.step e) rfl (hs.move hmove) (hcommits.move hmove) (hended' hended)
      refine ⟨e :: es, ?_, hsettled', hs', henq.trans henqueued⟩
      exact List.forall_mem_cons.mpr ⟨he, hes⟩

end BatchGroup

end PhxPaxos
