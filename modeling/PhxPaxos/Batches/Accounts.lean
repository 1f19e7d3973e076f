import PhxPaxos.Batches.Moves

/-!
# Where a proposal is

Every caller that added its proposal is in one place: in the queue, in one group, or among those that the worker notified at
its end (`Accounts.placed`); and the notifications sent are those of the groups, in their order, and those of the worker
(`Accounts.noted`). Both are kept by every move of the group.
-/

namespace PhxPaxos

/-! ## Replacing one group -/

theorem exists_split_of_getElem? {α : Type} {l : List α} {i : Nat} {a : α} (h : l[i]? = some a) :
    ∃ l₁ l₂, l = l₁ ++ a :: l₂ ∧ ∀ b, l.set i b = l₁ ++ b :: l₂ := by
  obtain ⟨hi, rfl⟩ := List.getElem?_eq_some_iff.mp h
  refine ⟨l.take i, l.drop (i + 1), ?_, fun b => ?_⟩
  · rw [← List.drop_eq_getElem_cons hi, List.take_append_drop]
  · exact List.set_eq_take_append_cons_drop.trans (if_pos hi)

namespace DoPropose

theorem sent_of_notified {d : DoPropose} (h : d.notified = 0) : d.sent = [] := by
  unfold sent
  split
  · rfl
  · simp [h]

theorem sent_notify {d : DoPropose} {p : PendingProposal} {ret : ProposeRet} {instanceID : Nat}
    (hresult : d.result = some (ret, instanceID)) (hp : d.request[d.notified]? = some p) :
    sent { d with notified := d.notified + 1 } = d.sent ++ [(p.call, ret)] := by
  have hresult' : result { d with notified := d.notified + 1 } = some (ret, instanceID) := hresult
  have hcall : d.calls[d.notified]? = some p.call := by
    unfold calls
    rw [List.getElem?_map, hp]
    rfl
  unfold sent
  rw [hresult, hresult']
  simp only [calls] at hcall ⊢
  rw [List.take_add_one, hcall]
  simp

end DoPropose

/-! ## Accounts -/

structure Accounts (s : BatchGroup) : Prop where
  enqueued : s.enqueued.Nodup
  added : ∀ call ∈ s.enqueued, ∃ c, s.callers call = some c ∧ c.phase ≠ .checked
  placed : ∀ call, (s.batch.queue.map PendingProposal.call).count call +
    (s.doing.flatMap DoPropose.calls).count call + s.drained.count call = s.enqueued.count call
  noted : ∀ note, s.notes.count note =
    (s.drained.map fun call => (call, ProposeRet.systemError)).count note + (s.doing.flatMap DoPropose.sent).count note
  notified : ∀ d ∈ s.doing, d.notified ≤ d.request.length ∧ (d.result = none → d.notified = 0)

namespace Accounts

variable {s : BatchGroup}

theorem init (instanceID : Nat) (log : Nat → Option Bytes) : Accounts { instanceID := instanceID, log := log } :=
  ⟨List.nodup_nil, by simp, by simp, by simp, by simp⟩

/-- A caller moves on, never back to the end check. -/
theorem setCaller (h : Accounts s) {call : Nat} {c : Caller} (hc : call ∈ s.enqueued → c.phase ≠ .checked) :
    Accounts (s.setCaller call c) where
  enqueued := h.enqueued
  added := by
    intro call' hmem
    by_cases heq : call' = call
    · subst heq
      exact ⟨c, Function.update_self .., hc hmem⟩
    · obtain ⟨c', hc', hphase⟩ := h.added call' hmem
      exact ⟨c', (Function.update_of_ne heq ..).trans hc', hphase⟩
  placed := h.placed
  noted := h.noted
  notified := h.notified

/-- A group is replaced by one with the same callers and the same notifications. -/
theorem setDoing (h : Accounts s) {i : Nat} {d d' : DoPropose} (hd : s.doing[i]? = some d) (hrequest : d'.request = d.request)
    (hsent : d'.sent = d.sent) (hnotified : d'.notified ≤ d'.request.length ∧ (d'.result = none → d'.notified = 0)) :
    Accounts (s.setDoing i d') := by
  obtain ⟨l₁, l₂, heq, hset⟩ := exists_split_of_getElem? hd
  have hdoing : (s.setDoing i d').doing = l₁ ++ d' :: l₂ := hset d'
  have hcalls : d'.calls = d.calls := congrArg (List.map PendingProposal.call) hrequest
  refine ⟨h.enqueued, h.added, ?_, ?_, ?_⟩
  · intro call
    have := h.placed call
    rw [heq] at this
    simpa only [BatchGroup.setDoing, hset, List.flatMap_append, List.flatMap_cons, hcalls] using this
  · intro note
    have := h.noted note
    rw [heq] at this
    simpa only [BatchGroup.setDoing, hset, List.flatMap_append, List.flatMap_cons, hsent] using this
  · intro e he
    rw [hdoing] at he
    rcases List.mem_append.mp he with he | he
    · exact h.notified e (heq ▸ List.mem_append_left _ he)
    · rcases List.mem_cons.mp he with rfl | he
      · exact hnotified
      · exact h.notified e (heq ▸ List.mem_append_right _ (List.mem_cons_of_mem _ he))

/-- A call of `NewValueGetID` goes on. -/
theorem setCall (h : Accounts s) {i : Nat} {d : DoPropose} {c : Call} (hd : s.doing[i]? = some d) (hopen : d.Open c)
    (c' : Call) : Accounts (s.setDoing i { d with call := some c' }) := by
  obtain ⟨hle, hzero⟩ := h.notified d (List.mem_of_getElem? hd)
  have hzero := hzero hopen.result
  refine h.setDoing hd rfl ?_ ⟨hle, fun _ => hzero⟩
  rw [DoPropose.sent_of_notified hzero, DoPropose.sent_of_notified (by exact hzero)]

/-- Proposals are taken out of the queue to be proposed. -/
theorem start (h : Accounts s) {thread : Proposing} {batch : ProposeBatch} {request : List PendingProposal} {worker : Worker}
    (hqueue : request ++ batch.queue = s.batch.queue) :
    Accounts { s with batch := batch, doing := s.doing ++ DoPropose.start thread request, worker := worker } := by
  refine ⟨h.enqueued, h.added, ?_, ?_, ?_⟩
  · intro call
    have := h.placed call
    rw [← hqueue] at this
    simp only [List.map_append, List.count_append, List.flatMap_append, DoPropose.start_calls] at this ⊢
    omega
  · intro note
    simpa only [List.flatMap_append, DoPropose.start_sent, List.append_nil] using h.noted note
  · intro d hd
    rcases List.mem_append.mp hd with hd | hd
    · exact h.notified d hd
    · obtain ⟨rfl, -⟩ := DoPropose.mem_start hd
      exact ⟨Nat.zero_le _, fun _ => rfl⟩

/-- A caller that passed the end check adds its proposal. -/
theorem add (h : Accounts s) {call : Nat} {c : Caller} {p : PendingProposal} (hc : s.callers call = some c)
    (hphase : c.phase = .checked) (hp : p.call = call) :
    Accounts { s.setCaller call { c with phase := .added } with
      batch := s.batch.push p, enqueued := call :: s.enqueued } := by
  have hnew : call ∉ s.enqueued := by
    intro hmem
    obtain ⟨c', hc', hne⟩ := h.added call hmem
    rw [hc] at hc'
    cases hc'
    exact hne hphase
  refine ⟨List.nodup_cons.mpr ⟨hnew, h.enqueued⟩, ?_, ?_, h.noted, h.notified⟩
  · intro call' hmem
    have hset := (@Accounts.setCaller _ h call { c with phase := .added } (by simp)).added
    rcases List.mem_cons.mp hmem with rfl | hmem
    · exact ⟨{ c with phase := .added }, Function.update_self .., by simp⟩
    · exact hset call' hmem
  · intro call'
    have := h.placed call'
    simp only [ProposeBatch.push, BatchGroup.setCaller, List.map_append, List.map_cons, List.map_nil, List.count_append,
      List.count_cons, List.count_nil, hp] at this ⊢
    omega

/-- The worker notifies all that are in the queue. -/
theorem drain (h : Accounts s) {worker : Worker} :
    Accounts { s with
      notes := s.notes ++ s.batch.queue.map fun p => (p.call, .systemError)
      drained := s.drained ++ s.batch.queue.map PendingProposal.call
      batch.queue := []
      worker := worker } := by
  refine ⟨h.enqueued, h.added, ?_, ?_, h.notified⟩
  · intro call
    have := h.placed call
    simp only [List.map_nil, List.count_append, List.count_nil] at this ⊢
    omega
  · intro note
    have := h.noted note
    simp only [List.map_append, List.count_append, List.map_map] at this ⊢
    rw [this]
    simp only [Function.comp_def]
    omega

/-- The next caller of a group is notified. -/
theorem notify (h : Accounts s) {i : Nat} {d : DoPropose} {p : PendingProposal} {ret : ProposeRet} {instanceID : Nat}
    (hd : s.doing[i]? = some d) (hresult : d.result = some (ret, instanceID)) (hp : d.request[d.notified]? = some p) :
    Accounts { s.setDoing i { d with notified := d.notified + 1 } with
      callers := Function.update s.callers p.call ((s.callers p.call).map fun c => c.answer d ret instanceID)
      notes := s.notes ++ [(p.call, ret)] } := by
  obtain ⟨l₁, l₂, heq, hset⟩ := exists_split_of_getElem? hd
  have hdoing : (s.setDoing i { d with notified := d.notified + 1 }).doing = l₁ ++ { d with notified := d.notified + 1 } :: l₂ :=
    hset _
  have hanswer (c : Caller) : (c.answer d ret instanceID).phase = c.phase := by
    unfold Caller.answer
    split
    · split <;> rfl
    · rfl
  refine ⟨h.enqueued, ?_, ?_, ?_, ?_⟩
  · intro call hmem
    obtain ⟨c, hc, hphase⟩ := h.added call hmem
    by_cases hcall : call = p.call
    · subst hcall
      refine ⟨c.answer d ret instanceID, ?_, by rwa [hanswer]⟩
      refine (Function.update_self ..).trans ?_
      rw [hc]
      rfl
    · exact ⟨c, (Function.update_of_ne hcall ..).trans hc, hphase⟩
  · intro call
    have := h.placed call
    rw [heq] at this
    have hcalls : DoPropose.calls { d with notified := d.notified + 1 } = d.calls := rfl
    simpa only [BatchGroup.setDoing, hset, List.flatMap_append, List.flatMap_cons, hcalls] using this
  · intro note
    have := h.noted note
    rw [heq] at this
    simp only [BatchGroup.setDoing, hset, List.flatMap_append, List.flatMap_cons, DoPropose.sent_notify hresult hp,
      List.count_append] at this ⊢
    omega
  · intro e he
    rw [hdoing] at he
    rcases List.mem_append.mp he with he | he
    · exact h.notified e (heq ▸ List.mem_append_left _ he)
    · rcases List.mem_cons.mp he with rfl | he
      · have hlt : d.notified < d.request.length := (List.getElem?_eq_some_iff.mp hp).1
        refine ⟨hlt, fun hnone => ?_⟩
        have hnone : d.result = none := hnone
        rw [hresult] at hnone
        cases hnone
      · exact h.notified e (heq ▸ List.mem_append_right _ (List.mem_cons_of_mem _ he))

theorem move {e : BatchEvent} {s' : BatchGroup} (h : Accounts s) (hmove : BatchGroup.Moves e s s') : Accounts s' := by
  cases hmove with
  | same => exact h
  | @call call c hnone _ _ =>
    refine h.setCaller fun hmem => ?_
    obtain ⟨c', hc', -⟩ := h.added call hmem
    rw [hnone] at hc'
    cases hc'
  | leave => exact h.setCaller (by simp)
  | answered => exact h.setCaller (by simp)
  | @add call c t now batch request he hc hphase hbatch =>
    have hplucks := addProposal_plucks s.batch ⟨call, c.value, c.smid, t⟩ now
    rw [hbatch] at hplucks
    exact (h.add (p := ⟨call, c.value, c.smid, t⟩) hc hphase rfl).start hplucks.queue
  | pluck _ hplucks => exact h.start hplucks.queue
  | work hqueue =>
    refine ⟨h.enqueued, h.added, ?_, h.noted, h.notified⟩
    intro call
    simp only [hqueue]
    exact h.placed call
  | drain => exact h.drain
  | propose =>
    refine ⟨h.enqueued, h.added, ?_, ?_, ?_⟩
    · intro call
      simpa [DoPropose.calls] using h.placed call
    · intro note
      have hnone : DoPropose.sent ⟨.other, [], some (Call.new ‹_› ‹_›), 0⟩ = [] := rfl
      simpa [hnone] using h.noted note
    · intro d hd
      rcases List.mem_append.mp hd with hd | hd
      · exact h.notified d hd
      · obtain rfl := List.mem_singleton.mp hd
        exact ⟨Nat.zero_le _, fun _ => rfl⟩
  | lock hd hopen _ => exact { h.setCall hd hopen _ with }
  | lockFail hd hopen _ _ _ => exact h.setCall hd hopen _
  | getResult hd hopen _ _ => exact h.setCall hd hopen _
  | notify hd hresult hp => exact h.notify hd hresult hp
  | startCommit | refuse | commitFail | learned | delete => exact { h with }

/-! ## What the accounts say -/

theorem count_enqueued_le (h : Accounts s) (call : Nat) : s.enqueued.count call ≤ 1 :=
  List.nodup_iff_count_le_one.mp h.enqueued call

end Accounts

theorem BatchRun.accounts {meets : BatchGroup → BatchEvent → Prop} {s : BatchGroup} (h : BatchRun meets s) : Accounts s :=
  h.invariant Accounts.init fun h _ hmove => h.move hmove

end PhxPaxos
