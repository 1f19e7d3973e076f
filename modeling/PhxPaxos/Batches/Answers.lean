import PhxPaxos.Batches.Progress

/-!
# Every batched proposal is answered once

What a batch group owes its callers (`Answered`): no caller is notified twice, each gets the result of the one commit that its
value was part of, and what goes on by itself can always go on until all are notified. It holds in every run in which no
proposal is left to a worker that has ended, none is in the queue when the worker ends, but for empty ones, and the queue
never holds more bytes than an `int` counts (`proposals_answered_once`). A caller that passes the end check just before the
worker's last critical section, and adds its proposal after it, waits for ever (`not_answered`).
-/

namespace PhxPaxos

/-! ## What callers are owed -/

/-- A proposal is not left to a worker that has ended, there are no bytes in the queue when the worker ends, and never more
than an `int` counts. -/
def BatchGroup.InTime (s : BatchGroup) : BatchEvent → Prop
  | .addProposal call t now => ∀ c, s.callers call = some c → c.phase = .checked →
    (s.worker = .ended → (s.batch.push ⟨call, c.value, c.smid, t⟩).needBatch now = true) ∧
      valueSize s.batch.queue + c.value.length < 2 ^ 31
  | .drain => s.worker = .drain → valueSize s.batch.queue = 0
  | _ => True

structure Answered (s : BatchGroup) : Prop where
  /-- No caller is notified twice, nor without a proposal. -/
  once : (s.notes.map Prod.fst).Nodup ∧ s.notes.map Prod.fst ⊆ s.enqueued
  /-- A value is part of one commit at most, and its caller is notified of the result; an error without a commit. -/
  commit : (s.doing.flatMap DoPropose.calls).Nodup ∧ ∀ call ret, (call, ret) ∈ s.notes →
    (∃ d ∈ s.doing, call ∈ d.calls ∧ ∃ instanceID, d.result = some (ret, instanceID)) ∨
      call ∉ s.doing.flatMap DoPropose.calls ∧ ret = .systemError
  /-- What a call returns is what it was notified of. -/
  returned : ∀ call c ret, s.callers call = some c → c.phase = .returned ret → call ∈ s.enqueued → (call, ret) ∈ s.notes
  /-- Whatever has happened, every caller can still be notified, exactly once. -/
  notified : ∃ es : List BatchEvent, (∀ e ∈ es, e.Internal) ∧
    ∀ call ∈ s.enqueued, ((s.run es).notes.map Prod.fst).count call = 1
  counter : s.batch.nowQueueValueSize = valueSize s.batch.queue
  /-- When the worker has ended, whoever is not notified is in a group that another thread is proposing. -/
  ended : s.worker = .ended → ∀ call ∈ s.enqueued, call ∉ s.notes.map Prod.fst →
    ∃ d ∈ s.doing, d.finished = false ∧ call ∈ d.waiting

/-! ## Notifications -/

theorem DoPropose.sent_calls {d : DoPropose} {note : Nat × ProposeRet} (h : note ∈ d.sent) :
    note.1 ∈ d.calls.take d.notified ∧ ∃ instanceID, d.result = some (note.2, instanceID) := by
  unfold sent at h
  split at h
  · cases h
  · rename_i ret instanceID hresult
    obtain ⟨call, hcall, rfl⟩ := List.mem_map.mp h
    exact ⟨hcall, instanceID, hresult⟩

theorem DoPropose.map_sent {d : DoPropose} (h : d.result = none → d.notified = 0) :
    d.sent.map Prod.fst = d.calls.take d.notified := by
  unfold sent
  split
  · rename_i hresult
    rw [h hresult]
    rfl
  · simp [Function.comp_def]

namespace Accounts

variable {s : BatchGroup}

theorem map_sent (h : Accounts s) :
    (s.doing.flatMap DoPropose.sent).map Prod.fst = s.doing.flatMap fun d => d.calls.take d.notified := by
  rw [List.map_flatMap]
  refine List.flatMap_congr fun d hd => ?_
  exact DoPropose.map_sent (h.notified d hd).2

/-- The callers that were notified: those that the worker notified at its end, and the first ones of each group. -/
theorem count_notes (h : Accounts s) (call : Nat) : (s.notes.map Prod.fst).count call =
    s.drained.count call + (s.doing.flatMap fun d => d.calls.take d.notified).count call := by
  have hperm : s.notes.Perm ((s.drained.map fun call => (call, ProposeRet.systemError)) ++
      s.doing.flatMap DoPropose.sent) := by
    refine List.perm_iff_count.mpr fun note => ?_
    rw [List.count_append]
    exact h.noted note
  rw [(hperm.map Prod.fst).count_eq, List.map_append, List.count_append, h.map_sent, List.map_map]
  simp [Function.comp_def]

theorem count_take_le (l : List DoPropose) (call : Nat) :
    (l.flatMap fun d => d.calls.take d.notified).count call + (l.flatMap DoPropose.waiting).count call =
      (l.flatMap DoPropose.calls).count call := by
  induction l with
  | nil => rfl
  | cons d l ih =>
    have hd : (d.calls.take d.notified).count call + d.waiting.count call = d.calls.count call := by
      rw [← List.count_append, DoPropose.waiting, List.take_append_drop]
    simp only [List.flatMap_cons, List.count_append]
    omega

/-- **A caller that added its proposal is in the queue, or in a group and not yet notified, or notified.** -/
theorem count_enqueued (h : Accounts s) (call : Nat) : (s.batch.queue.map PendingProposal.call).count call +
    (s.doing.flatMap DoPropose.waiting).count call + (s.notes.map Prod.fst).count call = s.enqueued.count call := by
  have hplaced := h.placed call
  have hnotes := h.count_notes call
  have htake := count_take_le s.doing call
  omega

theorem notes_nodup (h : Accounts s) : (s.notes.map Prod.fst).Nodup := by
  refine List.nodup_iff_count_le_one.mpr fun call => ?_
  have hcount := h.count_enqueued call
  have hle := h.count_enqueued_le call
  omega

theorem notes_subset (h : Accounts s) : s.notes.map Prod.fst ⊆ s.enqueued := by
  intro call hmem
  have hcount := h.count_enqueued call
  have hpos := List.count_pos_iff.mpr hmem
  exact List.count_pos_iff.mp (by omega)

theorem calls_nodup (h : Accounts s) : (s.doing.flatMap DoPropose.calls).Nodup := by
  refine List.nodup_iff_count_le_one.mpr fun call => ?_
  have hplaced := h.placed call
  have hle := h.count_enqueued_le call
  omega

/-- Where a notification comes from. -/
theorem note_cases (h : Accounts s) {call : Nat} {ret : ProposeRet} (hmem : (call, ret) ∈ s.notes) :
    (∃ d ∈ s.doing, call ∈ d.calls.take d.notified ∧ ∃ instanceID, d.result = some (ret, instanceID)) ∨
      call ∈ s.drained ∧ call ∉ s.doing.flatMap DoPropose.calls ∧ ret = .systemError := by
  have hcount := h.noted (call, ret)
  have hpos := List.count_pos_iff.mpr hmem
  by_cases hsent : (call, ret) ∈ s.doing.flatMap DoPropose.sent
  · obtain ⟨d, hd, hnote⟩ := List.mem_flatMap.mp hsent
    obtain ⟨hcall, hresult⟩ := DoPropose.sent_calls hnote
    exact Or.inl ⟨d, hd, hcall, hresult⟩
  · rw [List.count_eq_zero.mpr hsent, Nat.add_zero] at hcount
    rw [hcount] at hpos
    obtain ⟨call', hdrained, heq⟩ := List.mem_map.mp (List.count_pos_iff.mp hpos)
    cases heq
    refine Or.inr ⟨hdrained, fun hcalls => ?_, rfl⟩
    have hplaced := h.placed call
    have hle := h.count_enqueued_le call
    have h₁ := List.count_pos_iff.mpr hdrained
    have h₂ := List.count_pos_iff.mpr hcalls
    omega

end Accounts

/-! ## What calls return -/

/-- A call that added its proposal returns what it was notified of. -/
def BatchGroup.Returned (s : BatchGroup) : Prop :=
  ∀ call c, s.callers call = some c → (c.phase = .added → call ∈ s.enqueued) ∧
    ∀ ret, c.phase = .returned ret → (call, ret) ∈ s.notes ∨ call ∉ s.enqueued ∧ ret = .systemError

theorem BatchGroup.Returned.setCaller {s : BatchGroup} (h : s.Returned) {call : Nat} {c : Caller}
    (hc : (c.phase = .added → call ∈ s.enqueued) ∧
      ∀ ret, c.phase = .returned ret → (call, ret) ∈ s.notes ∨ call ∉ s.enqueued ∧ ret = .systemError) :
    (s.setCaller call c).Returned := by
  intro call' c' hc'
  by_cases heq : call' = call
  · subst heq
    have hc' : Function.update s.callers call' (some c) call' = some c' := hc'
    rw [Function.update_self] at hc'
    cases hc'
    exact hc
  · exact h call' c' ((Function.update_of_ne heq ..).symm.trans hc')

theorem Caller.answer_phase (c : Caller) (d : DoPropose) (ret : ProposeRet) (instanceID : Nat) :
    (c.answer d ret instanceID).phase = c.phase := by
  unfold answer
  split
  · split <;> rfl
  · rfl

theorem BatchGroup.Returned.move {e : BatchEvent} {s s' : BatchGroup} (h : s.Returned) (hs : Accounts s)
    (hmove : BatchGroup.Moves e s s') : s'.Returned := by
  have hnotin {call : Nat} {c : Caller} (hc : s.callers call = some c) (hphase : c.phase = .checked) :
      call ∉ s.enqueued := by
    intro hmem
    obtain ⟨c', hc', hne⟩ := hs.added call hmem
    rw [hc] at hc'
    cases hc'
    exact hne hphase
  cases hmove with
  | @call call c hnone hphase _ =>
    refine h.setCaller ⟨fun hp => ?_, fun ret hp => ?_⟩
    · rcases hphase with hphase | hphase <;> simp [hphase] at hp
    · rcases hphase with hphase | hphase
      · simp [hphase] at hp
      · rw [hphase] at hp
        cases hp
        refine Or.inr ⟨fun hmem => ?_, rfl⟩
        obtain ⟨c', hc', -⟩ := hs.added call hmem
        rw [hnone] at hc'
        cases hc'
  | leave hc hphase =>
    refine h.setCaller ⟨fun hp => (by cases hp), fun ret hp => ?_⟩
    cases hp
    exact Or.inr ⟨hnotin hc hphase, rfl⟩
  | answered hc _ hmem =>
    refine h.setCaller ⟨fun hp => (by cases hp), fun ret hp => ?_⟩
    cases hp
    exact Or.inl hmem
  | @add call c t now batch request _ hc hphase _ =>
    intro call' c' hc'
    have hc' : Function.update s.callers call (some { c with phase := .added }) call' = some c' := hc'
    by_cases heq : call' = call
    · subst heq
      rw [Function.update_self] at hc'
      cases hc'
      exact ⟨fun _ => List.mem_cons_self, fun ret hp => (by cases hp)⟩
    · rw [Function.update_of_ne heq] at hc'
      obtain ⟨hadded, hret⟩ := h call' c' hc'
      refine ⟨fun hp => List.mem_cons_of_mem _ (hadded hp), fun ret hp => ?_⟩
      rcases hret ret hp with hmem | ⟨hnot, hsys⟩
      · exact Or.inl hmem
      · exact Or.inr ⟨fun hmem => (List.mem_cons.mp hmem).elim heq hnot, hsys⟩
  | drain =>
    intro call c hc
    obtain ⟨hadded, hret⟩ := h call c hc
    exact ⟨hadded, fun ret hp => (hret ret hp).imp_left (List.mem_append_left _)⟩
  | @notify i d p ret instanceID hd hresult hp =>
    intro call c hc
    have hc : Function.update s.callers p.call ((s.callers p.call).map fun c => c.answer d ret instanceID) call = some c := hc
    by_cases heq : call = p.call
    · subst heq
      rw [Function.update_self, Option.map_eq_some_iff] at hc
      obtain ⟨c₀, hc₀, rfl⟩ := hc
      obtain ⟨hadded, hret⟩ := h p.call c₀ hc₀
      rw [Caller.answer_phase]
      exact ⟨hadded, fun ret hp => (hret ret hp).imp_left (List.mem_append_left _)⟩
    · rw [Function.update_of_ne heq] at hc
      obtain ⟨hadded, hret⟩ := h call c hc
      exact ⟨hadded, fun ret hp => (hret ret hp).imp_left (List.mem_append_left _)⟩
  | _ => exact h

/-! ## The queue when the worker has ended -/

def BatchGroup.Drained (s : BatchGroup) : Prop := s.worker = .ended → s.batch.queue = []

theorem BatchGroup.Drained.move {e : BatchEvent} {s s' : BatchGroup} (h : s.Drained) (hmeets : s.InTime e)
    (hmove : BatchGroup.Moves e s s') : s'.Drained := by
  cases hmove with
  | @add call c t now batch request he hc hphase hbatch =>
    subst he
    intro hend
    have hqueue := h hend
    have hneed := (hmeets c hc hphase).1 hend
    rw [addProposal_of_need hneed] at hbatch
    have hplucks := pluckProposal_plucks (s.batch.push ⟨call, c.value, c.smid, t⟩)
    have hne : request ≠ [] := by
      have := pluckProposal_ne_nil (b := s.batch.push ⟨call, c.value, c.smid, t⟩) (by simp [ProposeBatch.push])
      rwa [hbatch] at this
    rw [hbatch] at hplucks
    have hall : request ++ batch.queue = [⟨call, c.value, c.smid, t⟩] := by
      rw [hplucks.queue]
      simp [ProposeBatch.push, hqueue]
    obtain ⟨p, rest, rfl⟩ := List.exists_cons_of_ne_nil hne
    simp only [List.cons_append, List.cons.injEq, List.append_eq_nil_iff] at hall
    exact hall.2.2
  | pluck => exact fun hend => by cases hend
  | work hqueue _ hended => exact fun hend => hqueue.trans (h (hended hend))
  | drain => exact fun _ => rfl
  | _ => exact h

/-! ## The byte counter -/

/-- The counter and the bytes in the queue. -/
structure BatchGroup.Counted (s : BatchGroup) : Prop where
  counts : s.batch.Counts 0
  size : valueSize s.batch.queue < 2 ^ 31

theorem BatchGroup.Counted.init (instanceID : Nat) (log : Nat → Option Bytes) :
    BatchGroup.Counted { instanceID := instanceID, log := log } where
  counts := by
    unfold ProposeBatch.Counts
    simp
  size := by simp

theorem valueSize_le_of_append {q q₁ q₂ : List PendingProposal} (h : q₁ ++ q₂ = q) : valueSize q₂ ≤ valueSize q := by
  rw [← h, valueSize_append]
  omega

theorem BatchGroup.Counted.move {e : BatchEvent} {s s' : BatchGroup} (h : s.Counted) (hmeets : s.InTime e)
    (hmove : BatchGroup.Moves e s s') : s'.Counted := by
  cases hmove with
  | @add call c t now batch request he hc hphase hbatch =>
    subst he
    have hsize := (hmeets c hc hphase).2
    have hplucks := addProposal_plucks s.batch ⟨call, c.value, c.smid, t⟩ now
    rw [hbatch] at hplucks
    refine ⟨hplucks.counts (h.counts.push _), ?_⟩
    have hle := valueSize_le_of_append hplucks.queue
    have hpush : valueSize (s.batch.push ⟨call, c.value, c.smid, t⟩).queue = valueSize s.batch.queue + c.value.length := by
      simp [ProposeBatch.push, valueSize_cons]
    exact Nat.lt_of_le_of_lt (hle.trans (Nat.le_of_eq hpush)) hsize
  | pluck _ hplucks =>
    exact ⟨hplucks.counts h.counts, Nat.lt_of_le_of_lt (valueSize_le_of_append hplucks.queue) h.size⟩
  | @work batch worker hqueue hsize _ _ =>
    refine ⟨?_, ?_⟩
    · show batch.nowQueueValueSize = ((valueSize batch.queue + 0 : Nat) : Int).bmod (2 ^ 32)
      rw [hqueue, hsize]
      exact h.counts
    · show valueSize batch.queue < 2 ^ 31
      rw [hqueue]
      exact h.size
  | drain he hworker =>
    subst he
    have hzero := hmeets hworker
    refine ⟨?_, by simp⟩
    have hcounts := h.counts
    unfold ProposeBatch.Counts at hcounts
    rw [hzero] at hcounts
    exact hcounts
  | _ => exact ⟨h.counts, h.size⟩

/-! ## Main results -/

theorem DoPropose.waiting_of_finished {d : DoPropose} (h : d.finished = true) : d.waiting = [] := by
  have hall : d.result.isSome = true ∧ d.notified = d.request.length := by simpa [finished] using h
  unfold waiting calls
  rw [hall.2]
  exact List.drop_eq_nil_of_le (by rw [List.length_map])

/-- A group that is settled has notified every caller. -/
theorem Accounts.notified_of_settled {s : BatchGroup} (h : Accounts s) (hsettled : s.Settled) {call : Nat}
    (hmem : call ∈ s.enqueued) : (s.notes.map Prod.fst).count call = 1 := by
  have hwaiting : s.doing.flatMap DoPropose.waiting = [] := by
    exact List.flatMap_eq_nil_iff.mpr fun d hd => DoPropose.waiting_of_finished (hsettled.2 d hd)
  have hcount := h.count_enqueued call
  rw [hsettled.1, hwaiting] at hcount
  have hle := h.count_enqueued_le call
  have hpos := List.count_pos_iff.mpr hmem
  simp only [List.map_nil, List.count_nil] at hcount
  omega

/-- What a run keeps in which no event is late. -/
structure BatchGroup.Kept (s : BatchGroup) : Prop where
  accounts : Accounts s
  commits : s.CommitsOk
  returned : s.Returned
  drained : s.Drained
  counted : s.Counted

theorem BatchRun.kept {s : BatchGroup} (h : BatchRun BatchGroup.InTime s) : s.Kept :=
  h.invariant
    (fun instanceID log => ⟨Accounts.init instanceID log, Commits.init instanceID log, fun _ _ hc => (by cases hc),
      fun hend => (by cases hend), BatchGroup.Counted.init instanceID log⟩)
    fun h hmeets hmove => ⟨h.accounts.move hmove, h.commits.move hmove, h.returned.move h.accounts hmove,
      h.drained.move hmeets hmove, h.counted.move hmeets hmove⟩

/-- **Every batched proposal is answered once**, in every run in which no proposal is left to a worker that has ended, no
bytes are in the queue when it ends, and never more than an `int` counts. -/
theorem proposals_answered_once {s : BatchGroup} (h : BatchRun BatchGroup.InTime s) : Answered s := by
  obtain ⟨haccounts, hcommits, hreturned, hdrained, hcounted⟩ := h.kept
  refine ⟨⟨haccounts.notes_nodup, haccounts.notes_subset⟩, ⟨haccounts.calls_nodup, ?_⟩, ?_, ?_, ?_, ?_⟩
  · intro call ret hmem
    rcases haccounts.note_cases hmem with ⟨d, hd, hcall, hresult⟩ | ⟨-, hnot, hret⟩
    · exact Or.inl ⟨d, hd, List.mem_of_mem_take hcall, hresult⟩
    · exact Or.inr ⟨hnot, hret⟩
  · intro call c ret hc hphase hmem
    rcases (hreturned call c hc).2 ret hphase with hnote | ⟨hnot, -⟩
    · exact hnote
    · exact absurd hmem hnot
  · obtain ⟨es, hes, hsettled, haccounts', henqueued⟩ := BatchGroup.exists_settled _ s rfl haccounts hcommits hdrained
    refine ⟨es, hes, fun call hmem => haccounts'.notified_of_settled hsettled ?_⟩
    rwa [henqueued]
  · exact hcounted.counts.eq hcounted.size
  · intro hend call hmem hnote
    have hcount := haccounts.count_enqueued call
    rw [hdrained hend, List.count_eq_zero.mpr hnote] at hcount
    have hpos := List.count_pos_iff.mpr hmem
    simp only [List.map_nil, List.count_nil] at hcount
    obtain ⟨d, hd, hwaiting⟩ := List.mem_flatMap.mp (List.count_pos_iff.mp (by omega :
      0 < (s.doing.flatMap DoPropose.waiting).count call))
    refine ⟨d, hd, ?_, hwaiting⟩
    by_contra hfinished
    rw [DoPropose.waiting_of_finished (by simpa using hfinished)] at hwaiting
    cases hwaiting

namespace BatchGroup

/-- Whether the event is in time. -/
def isInTime (s : BatchGroup) : BatchEvent → Bool
  | .addProposal call t now =>
    match s.callers call with
    | none => true
    | some c =>
      c.phase != .checked ||
        (s.worker != .ended || (s.batch.push ⟨call, c.value, c.smid, t⟩).needBatch now) &&
          decide (valueSize s.batch.queue + c.value.length < 2 ^ 31)
  | .drain => s.worker != .drain || valueSize s.batch.queue == 0
  | _ => true

theorem isInTime_sound {s : BatchGroup} {e : BatchEvent} (h : s.isInTime e = true) : s.InTime e := by
  cases e with
  | addProposal call t now =>
    intro c hc hphase
    unfold isInTime at h
    simp only [hc, hphase, bne_self_eq_false, Bool.false_or, Bool.and_eq_true, Bool.or_eq_true, bne_iff_ne,
      decide_eq_true_eq] at h
    exact ⟨fun hend => h.1.resolve_left (not_not.mpr hend), h.2⟩
  | drain =>
    intro hworker
    unfold isInTime at h
    simpa [hworker] using h
  | _ => exact trivial

def runInTime : List BatchEvent → BatchGroup → Bool
  | [], _ => true
  | e :: es, s => s.isInTime e && runInTime es (s.step e)

end BatchGroup

theorem BatchRun.of_inTime {es : List BatchEvent} : ∀ {s : BatchGroup}, BatchRun BatchGroup.InTime s →
    s.runInTime es = true → BatchRun BatchGroup.InTime (s.run es) := by
  induction es with
  | nil => exact fun h _ => h
  | cons e es ih =>
    intro s h hes
    simp only [BatchGroup.runInTime, Bool.and_eq_true] at hes
    exact ih (h.step e (BatchGroup.isInTime_sound hes.1)) hes.2

/-- The callers 1 and 2, whose index variables are 3 and 9, are in a group of two, are notified and return. -/
def pairEvents : List BatchEvent :=
  [.run, .propose 1 [7] 5 0 3, .propose 2 [8] 6 0 9, .addProposal 1 0 0, .addProposal 2 0 0, .loop, .lock 0 0,
    .checkNewValue none,
    .learned (packPaxosValue (serializeBatchPaxosValues [⟨5, [7]⟩, ⟨6, [8]⟩]) batchProposeSMID) true,
    .getResult 0, .sendNotify 0, .sendNotify 0, .waitNotify 1, .waitNotify 2, .relock]

/-- Then the batch is stopped, and the worker notifies caller 3, with an empty value, when it ends. -/
def stoppedEvents : List BatchEvent :=
  pairEvents ++ [.propose 3 [] 0 0 0, .stop, .loop, .addProposal 3 0 0, .drain, .waitNotify 3]

theorem proposals_answered_once_stopped :
    let s := BatchGroup.run {} stoppedEvents
    Answered s ∧ s.worker = .ended ∧ s.notes = [(1, .commit .ok), (2, .commit .ok), (3, .systemError)] ∧
      ∀ note ∈ s.notes, (s.callers note.1).map Caller.phase = some (.returned note.2) :=
  ⟨proposals_answered_once (.of_inTime (.init 0 fun _ => none) (by decide +kernel)), by decide +kernel,
    by decide +kernel, by decide +kernel⟩

/-- The caller passes the end check, the worker ends, and then the caller adds its proposal. -/
def lateCaller : BatchGroup :=
  BatchGroup.run {} [.run, .propose 1 [7] 0 0 0, .stop, .loop, .drain, .addProposal 1 0 0]

/-- Nobody will ever notify it. -/
theorem not_answered : ¬ ∀ s, BatchRun (fun _ _ => True) s → Answered s := by
  intro h
  have hrun : BatchRun (fun _ _ => True) lateCaller :=
    .step (.addProposal 1 0 0) (.step .drain (.step .loop (.step .stop (.step (.propose 1 [7] 0 0 0) (.step .run
      (.init 0 fun _ => none) trivial) trivial) trivial) trivial) trivial) trivial
  obtain ⟨d, hd, -⟩ := (h _ hrun).ended (by decide) 1 (by decide) (by decide)
  have hnone : lateCaller.doing = [] := by decide
  rw [hnone] at hd
  cases hd

end PhxPaxos
