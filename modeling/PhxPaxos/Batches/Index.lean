import PhxPaxos.Batches.Answers
import PhxPaxos.Steps.RefineLearner

/-!
# What a batched proposal is called

The instance id and the batch index that `BatchPropose` returns name the proposal: `GetInstanceValue` has it there, no two calls
are given the same name, and the state machines execute the values of the instance in the order of the indices
(`batchPropose_names`). A proposal in a group of its own is the exception: nobody sets its batch index, so that its name is
right only if the caller's variable was 0 before (`not_named`).
-/

namespace PhxPaxos

/-! ## The callers' variables -/

/-- The proposal is that of its caller. -/
def BatchGroup.Matches (s : BatchGroup) (p : PendingProposal) : Prop :=
  ∃ c, s.callers p.call = some c ∧ c.value = p.value ∧ c.smid = p.smid

/-- The value that a group proposes. -/
structure DoPropose.Formed (d : DoPropose) : Prop where
  single : ∀ p c, d.request = [p] → d.call = some c → c.value = p.value ∧ c.smid = p.smid.toNat
  many : ∀ c, 2 ≤ d.request.length → d.call = some c →
    c.value = serializeBatchPaxosValues (batchValues d.request) ∧ c.smid = batchProposeSMID ∧ c.value.length < 2 ^ 31

/-- What a caller's variables are after it was notified as number `k` of the group. -/
def BatchGroup.Answers (s : BatchGroup) (d : DoPropose) (k : Nat) (p : PendingProposal) (instanceID : Nat) : Prop :=
  ∃ c, s.callers p.call = some c ∧ c.instanceID = instanceID ∧
    c.batchIndex = if d.request.length = 1 then c.batchIndexBefore else UInt32.ofNat k

structure BatchGroup.Variables (s : BatchGroup) : Prop where
  queued : ∀ p ∈ s.batch.queue, s.Matches p
  requested : ∀ d ∈ s.doing, ∀ p ∈ d.request, s.Matches p
  formed : ∀ d ∈ s.doing, d.Formed
  answered : ∀ d ∈ s.doing, ∀ k p instanceID, k < d.notified → d.request[k]? = some p →
    d.result = some (.commit .ok, instanceID) → s.Answers d k p instanceID
  before : ∀ call c, s.callers call = some c → call ∉ s.notes.map Prod.fst → c.batchIndex = c.batchIndexBefore

theorem DoPropose.formed_start {thread : Proposing} {request : List PendingProposal} {d : DoPropose}
    (h : d ∈ start thread request) : d.Formed := by
  obtain ⟨rfl, hne⟩ := mem_start h
  refine ⟨?_, ?_⟩
  · rintro p c rfl hc
    cases hc
    exact ⟨rfl, rfl⟩
  · intro c hlen hc
    have hc : newCall request = some c := hc
    unfold newCall at hc
    split at hc
    · simp at hlen
    · simp only [] at hc
      split at hc
      · cases hc
        exact ⟨rfl, rfl, ‹_›⟩
      · cases hc

/-- A call of `NewValueGetID` proposes the same value in each try. -/
theorem DoPropose.Formed.setCall {d : DoPropose} (h : d.Formed) {c c' : Call} (hc : d.call = some c)
    (hsame : c'.value = c.value ∧ c'.smid = c.smid) : DoPropose.Formed { d with call := some c' } := by
  refine ⟨fun p c₁ hp hc₁ => ?_, fun c₁ hlen hc₁ => ?_⟩
  · cases hc₁
    rw [hsame.1, hsame.2]
    exact h.single p c hp hc
  · cases hc₁
    rw [hsame.1, hsame.2]
    exact h.many c hlen hc

namespace BatchGroup

variable {s : BatchGroup}

theorem Variables.init (instanceID : Nat) (log : Nat → Option Bytes) :
    Variables { instanceID := instanceID, log := log } :=
  ⟨by simp, by simp, by simp, by simp, by simp⟩

/-- A caller goes on with the variables it has, or begins. -/
theorem Variables.setCaller (h : s.Variables) {call : Nat} {c : Caller}
    (hold : ∀ c₀, s.callers call = some c₀ → c.value = c₀.value ∧ c.smid = c₀.smid ∧ c.instanceID = c₀.instanceID ∧
      c.batchIndex = c₀.batchIndex ∧ c.batchIndexBefore = c₀.batchIndexBefore)
    (hnew : s.callers call = none → c.batchIndex = c.batchIndexBefore) : (s.setCaller call c).Variables := by
  have hcallers (call' : Nat) (c₀ : Caller) (hc₀ : s.callers call' = some c₀) :
      ∃ c₁, (s.setCaller call c).callers call' = some c₁ ∧ c₁.value = c₀.value ∧ c₁.smid = c₀.smid ∧
        c₁.instanceID = c₀.instanceID ∧ c₁.batchIndex = c₀.batchIndex ∧ c₁.batchIndexBefore = c₀.batchIndexBefore := by
    by_cases heq : call' = call
    · subst heq
      exact ⟨c, Function.update_self .., hold c₀ hc₀⟩
    · exact ⟨c₀, (Function.update_of_ne heq ..).trans hc₀, rfl, rfl, rfl, rfl, rfl⟩
  have hmatches {p : PendingProposal} (hp : s.Matches p) : (s.setCaller call c).Matches p := by
    obtain ⟨c₀, hc₀, hv, hsm⟩ := hp
    obtain ⟨c₁, hc₁, hv', hsm', -⟩ := hcallers p.call c₀ hc₀
    exact ⟨c₁, hc₁, hv'.trans hv, hsm'.trans hsm⟩
  refine ⟨fun p hp => hmatches (h.queued p hp), fun d hd p hp => hmatches (h.requested d hd p hp), h.formed, ?_, ?_⟩
  · intro d hd k p instanceID hk hp hresult
    obtain ⟨c₀, hc₀, hid, hindex⟩ := h.answered d hd k p instanceID hk hp hresult
    obtain ⟨c₁, hc₁, -, -, hid', hindex', hbefore'⟩ := hcallers p.call c₀ hc₀
    exact ⟨c₁, hc₁, hid'.trans hid, by rw [hindex', hindex, hbefore']⟩
  · intro call' c' hc' hnote
    by_cases heq : call' = call
    · subst heq
      have hc' : Function.update s.callers call' (some c) call' = some c' := hc'
      rw [Function.update_self] at hc'
      cases hc'
      cases hc₀ : s.callers call' with
      | none => exact hnew hc₀
      | some c₀ =>
        obtain ⟨-, -, -, hindex, hbefore⟩ := hold c₀ hc₀
        rw [hindex, hbefore]
        exact h.before call' c₀ hc₀ hnote
    · exact h.before call' c' ((Function.update_of_ne heq ..).symm.trans hc') hnote

/-- Proposals are taken out of the queue to be proposed. -/
theorem Variables.start (h : s.Variables) {thread : Proposing} {batch : ProposeBatch} {request : List PendingProposal}
    {worker : Worker} (hqueue : request ++ batch.queue = s.batch.queue) :
    Variables { s with batch := batch, doing := s.doing ++ DoPropose.start thread request, worker := worker } := by
  refine ⟨?_, ?_, ?_, ?_, h.before⟩
  · intro p hp
    exact h.queued p (hqueue ▸ List.mem_append_right _ hp)
  · intro d hd p hp
    rcases List.mem_append.mp hd with hd | hd
    · exact h.requested d hd p hp
    · obtain ⟨rfl, -⟩ := DoPropose.mem_start hd
      exact h.queued p (hqueue ▸ List.mem_append_left _ hp)
  · intro d hd
    rcases List.mem_append.mp hd with hd | hd
    · exact h.formed d hd
    · exact DoPropose.formed_start hd
  · intro d hd k p instanceID hk hp hresult
    rcases List.mem_append.mp hd with hd | hd
    · exact h.answered d hd k p instanceID hk hp hresult
    · obtain ⟨rfl, -⟩ := DoPropose.mem_start hd
      exact absurd hk (Nat.not_lt_zero k)

/-- A call of `NewValueGetID` goes on. -/
theorem Variables.setCall (h : s.Variables) (hs : Accounts s) {i : Nat} {d : DoPropose} {c c' : Call}
    (hd : s.doing[i]? = some d) (hopen : d.Open c) (hsame : c'.value = c.value ∧ c'.smid = c.smid) :
    (s.setDoing i { d with call := some c' }).Variables := by
  have hmem := List.mem_of_getElem? hd
  have hcases {e : DoPropose} (he : e ∈ (s.setDoing i { d with call := some c' }).doing) :
      e ∈ s.doing ∨ e = { d with call := some c' } := List.mem_or_eq_of_mem_set he
  refine ⟨h.queued, ?_, ?_, ?_, h.before⟩
  · intro e he p hp
    rcases hcases he with he | rfl
    · exact h.requested e he p hp
    · exact h.requested d hmem p hp
  · intro e he
    rcases hcases he with he | rfl
    · exact h.formed e he
    · exact (h.formed d hmem).setCall hopen.1 hsame
  · intro e he k p instanceID hk hp hresult
    rcases hcases he with he | rfl
    · exact h.answered e he k p instanceID hk hp hresult
    · have hzero := (hs.notified d hmem).2 hopen.result
      have hk : k < d.notified := hk
      omega

/-- The next caller of a group is notified. -/
theorem Variables.notify (h : s.Variables) (hs : Accounts s) {i : Nat} {d : DoPropose} {p : PendingProposal} {ret : ProposeRet}
    {instanceID : Nat} (hd : s.doing[i]? = some d) (hresult : d.result = some (ret, instanceID))
    (hp : d.request[d.notified]? = some p) :
    Variables { s.setDoing i { d with notified := d.notified + 1 } with
      callers := Function.update s.callers p.call ((s.callers p.call).map fun c => c.answer d ret instanceID)
      notes := s.notes ++ [(p.call, ret)] } := by
  have hmem := List.mem_of_getElem? hd
  have hlt : d.notified < d.request.length := (List.getElem?_eq_some_iff.mp hp).1
  -- the caller is still waiting, so it is none of those that were notified before
  have hnote : p.call ∉ s.notes.map Prod.fst := by
    intro hnote
    have hwaiting : p.call ∈ s.doing.flatMap DoPropose.waiting := by
      refine List.mem_flatMap.mpr ⟨d, hmem, ?_⟩
      have hget : d.waiting[0]? = some p.call := by
        simp [DoPropose.waiting, DoPropose.calls, hp]
      exact List.mem_of_getElem? hget
    have hcount := hs.count_enqueued p.call
    have hle := hs.count_enqueued_le p.call
    have h₁ := List.count_pos_iff.mpr hnote
    have h₂ := List.count_pos_iff.mpr hwaiting
    omega
  obtain ⟨c, hc, hvalue, hsmid⟩ := h.requested d hmem p (List.mem_of_getElem? hp)
  have hanswer : (c.answer d ret instanceID).value = c.value ∧ (c.answer d ret instanceID).smid = c.smid ∧
      (c.answer d ret instanceID).batchIndexBefore = c.batchIndexBefore := by
    unfold Caller.answer
    split
    · split <;> exact ⟨rfl, rfl, rfl⟩
    · exact ⟨rfl, rfl, rfl⟩
  have hcallers {call : Nat} (hne : call ≠ p.call) : Function.update s.callers p.call
      ((s.callers p.call).map fun c => c.answer d ret instanceID) call = s.callers call := Function.update_of_ne hne ..
  have hself : Function.update s.callers p.call ((s.callers p.call).map fun c => c.answer d ret instanceID) p.call =
      some (c.answer d ret instanceID) := by
    rw [Function.update_self, hc]
    rfl
  have hmatches {q : PendingProposal} (hq : s.Matches q) : ∃ c', Function.update s.callers p.call
      ((s.callers p.call).map fun c => c.answer d ret instanceID) q.call = some c' ∧ c'.value = q.value ∧ c'.smid = q.smid := by
    obtain ⟨c₀, hc₀, hv, hsm⟩ := hq
    by_cases heq : q.call = p.call
    · rw [heq, hc] at hc₀
      cases hc₀
      exact ⟨_, heq ▸ hself, hanswer.1.trans hv, hanswer.2.1.trans hsm⟩
    · exact ⟨c₀, (hcallers heq).trans hc₀, hv, hsm⟩
  have hcases {e : DoPropose} (he : e ∈ (s.setDoing i { d with notified := d.notified + 1 }).doing) :
      e ∈ s.doing ∨ e = { d with notified := d.notified + 1 } := List.mem_or_eq_of_mem_set he
  -- a caller that was notified before keeps its variables
  have hkept {e : DoPropose} (he : e ∈ s.doing) {k : Nat} {q : PendingProposal} {j : Nat} (hk : k < e.notified)
      (hq : e.request[k]? = some q) (hres : e.result = some (.commit .ok, j)) :
      ∃ c', Function.update s.callers p.call ((s.callers p.call).map fun c => c.answer d ret instanceID) q.call = some c' ∧
        c'.instanceID = j ∧ c'.batchIndex = if e.request.length = 1 then c'.batchIndexBefore else UInt32.ofNat k := by
    obtain ⟨c₀, hc₀, hid, hindex⟩ := h.answered e he k q j hk hq hres
    have hnoted : q.call ∈ s.notes.map Prod.fst := by
      have hget : (e.calls.take e.notified)[k]? = some q.call := by
        rw [List.getElem?_take_of_lt hk, DoPropose.calls, List.getElem?_map, hq]
        rfl
      have hcount := hs.count_notes q.call
      have hpos := List.count_pos_iff.mpr (List.mem_flatMap.mpr ⟨e, he, List.mem_of_getElem? hget⟩ :
        q.call ∈ s.doing.flatMap fun d => d.calls.take d.notified)
      exact List.count_pos_iff.mp (by omega)
    have hne : q.call ≠ p.call := fun heq => hnote (heq ▸ hnoted)
    exact ⟨c₀, (hcallers hne).trans hc₀, hid, hindex⟩
  refine ⟨fun q hq => hmatches (h.queued q hq), ?_, ?_, ?_, ?_⟩
  · intro e he q hq
    rcases hcases he with he | rfl
    · exact hmatches (h.requested e he q hq)
    · exact hmatches (h.requested d hmem q hq)
  · intro e he
    rcases hcases he with he | rfl
    · exact h.formed e he
    · exact ⟨(h.formed d hmem).single, (h.formed d hmem).many⟩
  · intro e he k q j hk hq hres
    rcases hcases he with he | rfl
    · exact hkept he hk hq hres
    · have hres : d.result = some (.commit .ok, j) := hres
      have hk : k < d.notified + 1 := hk
      have hq : d.request[k]? = some q := hq
      by_cases hlast : k = d.notified
      · subst hlast
        rw [hp] at hq
        cases hq
        rw [hresult] at hres
        cases hres
        refine ⟨c.answer d (.commit .ok) instanceID, hself, ?_⟩
        have hbefore := h.before p.call c hc hnote
        unfold Caller.answer
        split
        · rename_i q hsingle
          refine ⟨rfl, ?_⟩
          show c.batchIndex = if d.request.length = 1 then c.batchIndexBefore else UInt32.ofNat d.notified
          rw [if_pos (by rw [hsingle]; rfl)]
          exact hbefore
        · rename_i hmany
          refine ⟨rfl, ?_⟩
          show UInt32.ofNat d.notified = if d.request.length = 1 then c.batchIndexBefore else UInt32.ofNat d.notified
          rw [if_neg fun hone => ?_]
          obtain ⟨q, hq⟩ := List.length_eq_one_iff.mp hone
          exact hmany q hq
      · exact hkept hmem (by omega) hq hres
  · intro call c' hc' hnot
    rw [List.map_append, List.mem_append, not_or] at hnot
    have hne : call ≠ p.call := fun heq => hnot.2 (by simp [heq])
    exact h.before call c' ((hcallers hne).symm.trans hc') hnot.1

theorem Variables.move {e : BatchEvent} {s' : BatchGroup} (h : s.Variables) (hs : Accounts s) (hmove : Moves e s s') :
    s'.Variables := by
  cases hmove with
  | same => exact h
  | @call call c hnone _ hindex =>
    refine h.setCaller (fun c₀ hc₀ => ?_) fun _ => hindex
    rw [hnone] at hc₀
    cases hc₀
  | leave hc | answered hc =>
    refine h.setCaller (fun c₀ hc₀ => ?_) fun hnone => ?_
    · rw [hc] at hc₀
      cases hc₀
      exact ⟨rfl, rfl, rfl, rfl, rfl⟩
    · rw [hc] at hnone
      cases hnone
  | @add call c t now batch request _ hc hphase hbatch =>
    have hplucks := addProposal_plucks s.batch ⟨call, c.value, c.smid, t⟩ now
    rw [hbatch] at hplucks
    have hcaller : (s.setCaller call { c with phase := .added }).Variables := by
      refine h.setCaller (fun c₀ hc₀ => ?_) fun hnone => ?_
      · rw [hc] at hc₀
        cases hc₀
        exact ⟨rfl, rfl, rfl, rfl, rfl⟩
      · rw [hc] at hnone
        cases hnone
    have hpushed : Variables { s.setCaller call { c with phase := .added } with
        batch := s.batch.push ⟨call, c.value, c.smid, t⟩, enqueued := call :: s.enqueued } := by
      refine ⟨fun p hp => ?_, hcaller.requested, hcaller.formed, hcaller.answered, hcaller.before⟩
      rcases List.mem_append.mp hp with hp | hp
      · exact hcaller.queued p hp
      · obtain rfl := List.mem_singleton.mp hp
        exact ⟨{ c with phase := .added }, Function.update_self .., rfl, rfl⟩
    exact hpushed.start hplucks.queue
  | pluck _ hplucks => exact h.start hplucks.queue
  | @work batch worker hqueue _ _ _ =>
    refine ⟨fun p hp => h.queued p ?_, h.requested, h.formed, h.answered, h.before⟩
    have hp : p ∈ batch.queue := hp
    rwa [hqueue] at hp
  | drain =>
    refine ⟨by simp, h.requested, h.formed, h.answered, fun call c hc hnot => ?_⟩
    rw [List.map_append, List.mem_append, not_or] at hnot
    exact h.before call c hc hnot.1
  | propose =>
    have hcases {l : List DoPropose} {a d : DoPropose} (hd : d ∈ l ++ [a]) : d ∈ l ∨ d = a :=
      (List.mem_append.mp hd).imp_right List.mem_singleton.mp
    refine ⟨h.queued, ?_, ?_, ?_, h.before⟩
    · intro d hd p hp
      rcases hcases hd with hd | rfl
      · exact h.requested d hd p hp
      · cases hp
    · intro d hd
      rcases hcases hd with hd | rfl
      · exact h.formed d hd
      · exact ⟨fun p c hp => (by cases hp), fun c hlen => (by simp at hlen)⟩
    · intro d hd k p instanceID hk
      rcases hcases hd with hd | rfl
      · exact h.answered d hd k p instanceID hk
      · exact absurd hk (Nat.not_lt_zero k)
  | @lock i d c timeoutMs hd hopen _ =>
    have hset : (s.setDoing i { d with call := some { c with phase := .getResult } }).Variables :=
      h.setCall hs hd hopen ⟨rfl, rfl⟩
    exact ⟨hset.queued, hset.requested, hset.formed, hset.answered, hset.before⟩
  | lockFail hd hopen => exact h.setCall hs hd hopen ⟨rfl, rfl⟩
  | getResult hd hopen => exact h.setCall hs hd hopen (afterTry_value _ _ _)
  | notify hd hresult hp => exact h.notify hs hd hresult hp
  | startCommit | refuse | commitFail | learned | delete => exact { h with }

end BatchGroup

/-! ## What an instance holds -/

theorem valueSMID_packPaxosValue (v : Bytes) (smid : UInt32) : valueSMID (packPaxosValue v smid.toNat) = smid.toNat := by
  have hlt := smid.toNat_lt
  simp only [packPaxosValue, List.cons_append, List.nil_append, valueSMID, UInt8.toNat_ofNat']
  omega

theorem drop_packPaxosValue (v : Bytes) (smid : Nat) : (packPaxosValue v smid).drop 4 = v := rfl

theorem packPaxosValue_not_short (v : Bytes) (smid : Nat) : ¬ (packPaxosValue v smid).length < 4 := by
  simp [packPaxosValue]

theorem mem_of_mapM {α β : Type} {f : α → Option β} {l : List α} : ∀ {l' : List β}, l.mapM f = some l' →
    ∀ b ∈ l', ∃ a ∈ l, f a = some b := by
  induction l with
  | nil =>
    intro l' h b hb
    cases h
    cases hb
  | cons a l ih =>
    intro l' h b hb
    rw [List.mapM_cons] at h
    obtain ⟨b', hb', h⟩ := Option.bind_eq_some_iff.mp h
    obtain ⟨l'', hl'', h⟩ := Option.bind_eq_some_iff.mp h
    cases h
    rcases List.mem_cons.mp hb with rfl | hb
    · exact ⟨a, List.mem_cons_self, hb'⟩
    · obtain ⟨a', ha', hfa'⟩ := ih hl'' b hb
      exact ⟨a', List.mem_cons_of_mem _ ha', hfa'⟩

theorem batchValues_smid (request : List PendingProposal) : ∀ v ∈ batchValues request, v.smid < 2 ^ 32 := by
  intro v hv
  obtain ⟨p, -, rfl⟩ := List.mem_map.mp hv
  exact p.smid.toNat_lt

/-- A value of a batch is shorter than the batch. -/
theorem parseBatchPaxosValues_length {buffer : Bytes} {vs : List PaxosValue} (h : parseBatchPaxosValues buffer = some vs)
    {v : PaxosValue} (hv : v ∈ vs) : v.value.length < buffer.length := by
  obtain ⟨fields, hfields, h⟩ := Option.bind_eq_some_iff.mp h
  obtain ⟨b, hb, hparse⟩ := mem_of_mapM h v hv
  obtain ⟨fields', hfields', hparse⟩ := Option.bind_eq_some_iff.mp hparse
  obtain ⟨smid, -, hparse⟩ := Option.bind_eq_some_iff.mp hparse
  obtain ⟨value, hvalue, hparse⟩ := Option.bind_eq_some_iff.mp hparse
  cases hparse
  exact Nat.lt_trans (Wire.buffers_length hfields' (List.mem_of_getLast? hvalue)) (Wire.buffers_length hfields hb)

theorem length_le_serializeBatchPaxosValues (vs : List PaxosValue) :
    vs.length ≤ (serializeBatchPaxosValues vs).length := by
  have h := Wire.length_le_encode (vs.map fun v => (1, .bytes (serializePaxosValue v)))
  rwa [List.length_map] at h

/-! ## Executions -/

/-- The values that a state machine is called for, with their places from `index` on. -/
def subValues (index : Nat) (vs : List PaxosValue) : List (Nat × PaxosValue) :=
  ((vs.zipIdx index).filter fun x => x.1.smid ≠ 0).map fun x => (x.2, x.1)

/-- The place and the value of a call. -/
def SMCall.sub (c : SMCall) : Nat × PaxosValue := (c.index, ⟨c.smid, c.value⟩)

theorem subValues_cons (index : Nat) (v : PaxosValue) (vs : List PaxosValue) :
    subValues index (v :: vs) = if v.smid = 0 then subValues (index + 1) vs else (index, v) :: subValues (index + 1) vs := by
  unfold subValues
  rw [List.zipIdx_cons, List.filter_cons]
  by_cases h : v.smid = 0
  · simp [h]
  · simp [h]

section Executions

variable (P : Params) (instanceID : Nat)

/-- The state machines are called for the first `k` of the values. -/
def Calls (sub : List (Nat × PaxosValue)) (w : Proc) (r : Proc × Bool) : Prop :=
  ∃ k, r.1.smCalls.map SMCall.sub = w.smCalls.map SMCall.sub ++ sub.take k ∧ (r.2 = true → sub.length ≤ k)

theorem doExecute_subValues (index : Nat) (v : PaxosValue) (w : Proc) :
    Calls (subValues index [v]) w (doExecute P instanceID index v.value v.smid w) := by
  rw [subValues_cons]
  unfold doExecute
  by_cases h : v.smid = 0
  · rw [if_pos h, if_pos h]
    exact ⟨0, by simp, fun _ => Nat.le_refl _⟩
  · rw [if_neg h, if_neg h]
    refine ⟨1, ?_, fun _ => Nat.le_refl _⟩
    have hcalls := (callExecute_ghost (P := P) instanceID v.value v.smid w).1
    simp only [List.map_append, List.map_cons, List.map_nil, SMCall.sub]
    rw [hcalls]
    rfl

theorem batchExecute_subValues (vs : List PaxosValue) : ∀ (index : Nat) (w : Proc),
    Calls (subValues index vs) w (batchExecute P instanceID index vs w) := by
  induction vs with
  | nil => exact fun index w => ⟨0, by simp [batchExecute], fun _ => Nat.le_refl _⟩
  | cons v vs ih =>
    intro index w
    have hsplit : subValues index (v :: vs) = subValues index [v] ++ subValues (index + 1) vs := by
      rw [subValues_cons, subValues_cons]
      split <;> rfl
    obtain ⟨k, hk, hall⟩ := doExecute_subValues P instanceID index v w
    unfold batchExecute
    generalize doExecute P instanceID index v.value v.smid w = r at hk hall ⊢
    obtain ⟨w', ok⟩ := r
    simp only at hk hall ⊢
    rw [hsplit]
    cases ok with
    | false =>
      rw [if_neg Bool.false_ne_true]
      refine ⟨min k (subValues index [v]).length, ?_, fun h => by cases h⟩
      rw [List.take_append_of_le_length (Nat.min_le_right _ _), hk]
      congr 1
      rw [← List.take_take, List.take_length]
    | true =>
      rw [if_pos rfl]
      obtain ⟨j, hj, hall'⟩ := ih (index + 1) w'
      refine ⟨(subValues index [v]).length + j, ?_, fun h => ?_⟩
      · rw [hj, hk, List.take_length_add_append, List.take_of_length_le (hall rfl), List.append_assoc]
      · rw [List.length_append]
        exact Nat.add_le_add_left (hall' h) _

end Executions

/-! ## Names -/

namespace BatchGroup

/-- `GetInstanceValue` has the proposal where its caller was told. -/
def Named (s : BatchGroup) (c : Caller) : Prop :=
  ∀ vs, s.getInstanceValue c.instanceID = some vs → vs[c.batchIndex.toNat]? = some ⟨c.smid.toNat, c.value⟩

/-- The proposal was in a group of several, or it was in one of its own, and then the caller's variable was right as it was:
`0`, or anything if the value, with the id of batches, is no batch. -/
def Indexed (s : BatchGroup) (call : Nat) (c : Caller) : Prop :=
  (∃ d ∈ s.doing, call ∈ d.calls ∧ 2 ≤ d.request.length) ∨
    c.smid.toNat ≠ batchProposeSMID ∧ c.batchIndexBefore = 0 ∨
    c.smid.toNat = batchProposeSMID ∧ parseBatchPaxosValues c.value = none

/-- `BatchPropose` returned 0. -/
def Succeeded (s : BatchGroup) (call : Nat) (c : Caller) : Prop :=
  s.callers call = some c ∧ c.phase = .returned (.commit .ok)

variable {s : BatchGroup}

theorem getInstanceValue_eq {i : Nat} {value : Bytes} (hlt : i < s.instanceID) (hlog : s.log i = some value)
    (hlen : ¬ value.length < 4) : s.getInstanceValue i =
      if valueSMID value = batchProposeSMID then parseBatchPaxosValues (value.drop 4)
      else some [⟨valueSMID value, value.drop 4⟩] := by
  unfold getInstanceValue
  rw [if_neg (Nat.not_le_of_lt hlt), hlog]
  simp only []
  rw [if_neg hlen]

theorem getInstanceValue_some {i : Nat} {vs : List PaxosValue} (h : s.getInstanceValue i = some vs) :
    ∃ value, s.log i = some value ∧ ¬ value.length < 4 ∧
      (if valueSMID value = batchProposeSMID then parseBatchPaxosValues (value.drop 4)
        else some [⟨valueSMID value, value.drop 4⟩]) = some vs := by
  unfold getInstanceValue at h
  split at h
  · cases h
  · split at h
    · cases h
    · rename_i value hvalue
      split at h
      · cases h
      · exact ⟨value, hvalue, ‹_›, h⟩

/-- What is known of a caller that `BatchPropose` returned 0 to: its place in a group, the commit of the group and its
variables. -/
structure Place (s : BatchGroup) (call : Nat) (c : Caller) (d : DoPropose) (k : Nat) (p : PendingProposal) (t : Call) :
    Prop where
  mem : d ∈ s.doing
  request : d.request[k]? = some p
  same : p.call = call ∧ p.value = c.value ∧ p.smid = c.smid
  call : d.call = some t
  phase : t.phase = .returned .ok c.instanceID
  index : c.batchIndex = if d.request.length = 1 then c.batchIndexBefore else UInt32.ofNat k

theorem exists_place (haccounts : Accounts s) (hreturned : s.Returned) (hvariables : s.Variables) {call : Nat} {c : Caller}
    (h : s.Succeeded call c) : ∃ d k p t, s.Place call c d k p t := by
  obtain ⟨hc, hphase⟩ := h
  have hnote : (call, .commit .ok) ∈ s.notes := by
    rcases (hreturned call c hc).2 _ hphase with hnote | ⟨-, hsys⟩
    · exact hnote
    · cases hsys
  obtain ⟨d, hd, hcall, instanceID, hresult⟩ : ∃ d ∈ s.doing, call ∈ d.calls.take d.notified ∧
      ∃ instanceID, d.result = some (.commit .ok, instanceID) := by
    rcases haccounts.note_cases hnote with h | ⟨-, -, hsys⟩
    · exact h
    · cases hsys
  obtain ⟨k, hk⟩ := List.mem_iff_getElem?.mp hcall
  have hlt : k < d.notified := by
    have := (List.getElem?_eq_some_iff.mp hk).1
    rw [List.length_take] at this
    omega
  rw [List.getElem?_take_of_lt hlt, DoPropose.calls, List.getElem?_map, Option.map_eq_some_iff] at hk
  obtain ⟨p, hp, rfl⟩ := hk
  obtain ⟨c₁, hc₁, hvalue, hsmid⟩ := hvariables.requested d hd p (List.mem_of_getElem? hp)
  obtain ⟨c₂, hc₂, hid, hindex⟩ := hvariables.answered d hd k p instanceID hlt hp hresult
  rw [hc] at hc₁ hc₂
  cases hc₁
  cases hc₂
  obtain ⟨t, ht, hphase⟩ : ∃ t, d.call = some t ∧ t.phase = .returned .ok instanceID := by
    unfold DoPropose.result at hresult
    split at hresult
    · cases hresult
    · rename_i t ht
      split at hresult
      · rename_i ret i hp
        cases hresult
        exact ⟨t, ht, hp⟩
      · cases hresult
  exact ⟨d, k, p, t, hd, hp, ⟨rfl, hvalue.symm, hsmid.symm⟩, ht, hid.symm ▸ hphase, hindex⟩

theorem Place.mem_calls {call : Nat} {c : Caller} {d : DoPropose} {k : Nat} {p : PendingProposal} {t : Call}
    (h : s.Place call c d k p t) : call ∈ d.calls :=
  List.mem_map.mpr ⟨p, List.mem_of_getElem? h.request, h.same.1⟩

/-- The instance that the caller was told is decided, with the value of its group. -/
theorem Place.value {call : Nat} {c : Caller} {d : DoPropose} {k : Nat} {p : PendingProposal} {t : Call}
    (h : s.Place call c d k p t) (hcommits : s.CommitsOk) :
    c.instanceID < s.instanceID ∧ ∀ value, s.log c.instanceID = some value → value = packPaxosValue t.value t.smid :=
  Commits.returned hcommits (List.mem_map.mpr ⟨d, h.mem, h.call⟩) h.phase

/-- The record of the instance of a group of several is the group. -/
theorem Place.value_many {call : Nat} {c : Caller} {d : DoPropose} {k : Nat} {p : PendingProposal} {t : Call}
    (h : s.Place call c d k p t) (hcommits : s.CommitsOk) (hformed : d.Formed) (hmany : 2 ≤ d.request.length)
    {value : Bytes} (hlog : s.log c.instanceID = some value) :
    s.getInstanceValue c.instanceID = some (batchValues d.request) := by
  obtain ⟨htvalue, htsmid, -⟩ := hformed.many t hmany h.call
  obtain ⟨hlt, hholds⟩ := h.value hcommits
  obtain rfl := hholds value hlog
  have hsmid : valueSMID (packPaxosValue t.value t.smid) = batchProposeSMID := by
    rw [htsmid]
    exact valueSMID_packPaxosValue t.value (UInt32.ofNat batchProposeSMID)
  rw [getInstanceValue_eq hlt hlog (packPaxosValue_not_short _ _), if_pos hsmid, drop_packPaxosValue, htvalue,
    parse_serializeBatchPaxosValues (batchValues_smid _)]

/-- In a group of several, the index is the place in the group. -/
theorem Place.named_many {call : Nat} {c : Caller} {d : DoPropose} {k : Nat} {p : PendingProposal} {t : Call}
    (h : s.Place call c d k p t) (hcommits : s.CommitsOk) (hformed : d.Formed) (hmany : 2 ≤ d.request.length) :
    s.Named c := by
  intro vs hvs
  obtain ⟨value, hlog, -, -⟩ := getInstanceValue_some hvs
  obtain ⟨htvalue, -, htlen⟩ := hformed.many t hmany h.call
  rw [h.value_many hcommits hformed hmany hlog] at hvs
  cases hvs
  have hk : k < d.request.length := (List.getElem?_eq_some_iff.mp h.request).1
  have hbound : d.request.length < 2 ^ 31 := by
    have hle := length_le_serializeBatchPaxosValues (batchValues d.request)
    rw [← htvalue, batchValues, List.length_map] at hle
    omega
  have hindex : c.batchIndex.toNat = k := by
    rw [h.index, if_neg (by omega), UInt32.toNat_ofNat']
    omega
  rw [hindex, batchValues, List.getElem?_map, h.request, Option.map_some, h.same.2.1, h.same.2.2]

/-- In a group of its own, a proposal is at index 0. -/
theorem Place.value_single {call : Nat} {c : Caller} {d : DoPropose} {k : Nat} {p : PendingProposal} {t : Call}
    (h : s.Place call c d k p t) (hcommits : s.CommitsOk) (hformed : d.Formed) (hsingle : d.request = [p])
    {value : Bytes} (hlog : s.log c.instanceID = some value) : s.getInstanceValue c.instanceID =
      if c.smid.toNat = batchProposeSMID then parseBatchPaxosValues c.value else some [⟨c.smid.toNat, c.value⟩] := by
  obtain ⟨htvalue, htsmid⟩ := hformed.single p t hsingle h.call
  obtain ⟨hlt, hholds⟩ := h.value hcommits
  obtain rfl := hholds value hlog
  rw [getInstanceValue_eq hlt hlog (packPaxosValue_not_short _ _), htsmid, htvalue, valueSMID_packPaxosValue,
    drop_packPaxosValue, h.same.2.1, h.same.2.2]

theorem Place.single_of_length {call : Nat} {c : Caller} {d : DoPropose} {k : Nat} {p : PendingProposal} {t : Call}
    (h : s.Place call c d k p t) (hlen : ¬ 2 ≤ d.request.length) : d.request = [p] := by
  have hk : k < d.request.length := (List.getElem?_eq_some_iff.mp h.request).1
  obtain ⟨q, hq⟩ := List.length_eq_one_iff.mp (by omega : d.request.length = 1)
  have hp := List.mem_of_getElem? h.request
  rw [hq, List.mem_singleton] at hp
  rw [hq, hp]

/-- A call that is in a group of its own is in no group of several. -/
theorem Place.not_many {call : Nat} {c : Caller} {d : DoPropose} {k : Nat} {p : PendingProposal} {t : Call}
    (h : s.Place call c d k p t) (haccounts : Accounts s) (hsingle : d.request = [p]) :
    ¬ ∃ d ∈ s.doing, call ∈ d.calls ∧ 2 ≤ d.request.length := by
  rintro ⟨d', hd', hcall', hmany⟩
  obtain ⟨i, hi⟩ := List.mem_iff_getElem?.mp h.mem
  obtain ⟨l₁, l₂, heq, -⟩ := exists_split_of_getElem? hi
  have hnodup := haccounts.calls_nodup
  rw [heq] at hnodup hd'
  have hmem : d' ∈ l₁ ∨ d' ∈ l₂ := by
    rcases List.mem_append.mp hd' with hd' | hd'
    · exact Or.inl hd'
    · rcases List.mem_cons.mp hd' with rfl | hd'
      · rw [hsingle] at hmany
        exact absurd hmany (by simp)
      · exact Or.inr hd'
  have hcount := List.nodup_iff_count_le_one.mp hnodup call
  have hone := List.count_pos_iff.mpr h.mem_calls
  simp only [List.flatMap_append, List.flatMap_cons, List.count_append] at hcount
  rcases hmem with hmem | hmem
  · have hpos := List.count_pos_iff.mpr (List.mem_flatMap.mpr ⟨d', hmem, hcall'⟩)
    omega
  · have hpos := List.count_pos_iff.mpr (List.mem_flatMap.mpr ⟨d', hmem, hcall'⟩)
    omega

theorem Place.lt {call : Nat} {c : Caller} {d : DoPropose} {k : Nat} {p : PendingProposal} {t : Call}
    (h : s.Place call c d k p t) (hformed : d.Formed) : k < 2 ^ 31 := by
  have hk : k < d.request.length := (List.getElem?_eq_some_iff.mp h.request).1
  by_cases hmany : 2 ≤ d.request.length
  · obtain ⟨htvalue, -, htlen⟩ := hformed.many t hmany h.call
    have hle := length_le_serializeBatchPaxosValues (batchValues d.request)
    rw [← htvalue, batchValues, List.length_map] at hle
    omega
  · omega

/-! ## Main results -/

/-- No two calls are given the same name. -/
def Distinct (s : BatchGroup) : Prop :=
  ∀ call call' c c', s.Succeeded call c → s.Succeeded call' c' → call ≠ call' →
    ¬ (c.instanceID = c'.instanceID ∧ c.batchIndex = c'.batchIndex)

/-- The state machines execute the values of an instance in the order of the indices. -/
def Executed (s : BatchGroup) : Prop :=
  ∀ i vs value, s.getInstanceValue i = some vs → s.log i = some value → ∀ (smids : List Nat) (w : Proc),
    Calls (subValues 0 vs) { w with smCalls := [] } (smExecute (Params.protobuf smids) i value { w with smCalls := [] })

theorem distinct (haccounts : Accounts s) (hreturned : s.Returned) (hvariables : s.Variables) (hcommits : s.CommitsOk) :
    s.Distinct := by
  rintro call call' c c' h h' hne ⟨hid, hindex⟩
  obtain ⟨d, k, p, t, hplace⟩ := exists_place haccounts hreturned hvariables h
  obtain ⟨d', k', p', t', hplace'⟩ := exists_place haccounts hreturned hvariables h'
  obtain ⟨i, hi⟩ := List.mem_iff_getElem?.mp hplace.mem
  obtain ⟨j, hj⟩ := List.mem_iff_getElem?.mp hplace'.mem
  have hti : s.calls[i]? = some (some t) := by
    rw [calls, List.getElem?_map, hi, Option.map_some, hplace.call]
  have htj : s.calls[j]? = some (some t') := by
    rw [calls, List.getElem?_map, hj, Option.map_some, hplace'.call]
  -- both were told the same instance, so they were in the same group
  obtain rfl : i = j := Commits.distinct hcommits hti htj (hid ▸ hplace.phase) hplace'.phase
  rw [hi] at hj
  cases hj
  have hk : k < d.request.length := (List.getElem?_eq_some_iff.mp hplace.request).1
  have hk' : k' < d.request.length := (List.getElem?_eq_some_iff.mp hplace'.request).1
  have hsame : k = k' := by
    by_cases hone : d.request.length = 1
    · omega
    · have hlt := hplace.lt (hvariables.formed d hplace.mem)
      have hlt' := hplace'.lt (hvariables.formed d hplace.mem)
      have heq : UInt32.ofNat k = UInt32.ofNat k' := by
        rw [hplace.index, hplace'.index, if_neg hone, if_neg hone] at hindex
        exact hindex
      have hnat := congrArg UInt32.toNat heq
      rw [UInt32.toNat_ofNat', UInt32.toNat_ofNat'] at hnat
      omega
  subst hsame
  have hp := hplace.request.symm.trans hplace'.request
  cases hp
  exact hne (hplace.same.1.symm.trans hplace'.same.1)

theorem executed (s : BatchGroup) : s.Executed := by
  intro i vs value hvs hlog smids w
  obtain ⟨value', hlog', hlen, hparse⟩ := getInstanceValue_some hvs
  rw [hlog] at hlog'
  cases hlog'
  unfold smExecute
  rw [if_neg hlen]
  by_cases hbatch : valueSMID value = batchProposeSMID
  · rw [if_pos hbatch] at hparse
    have hzero : valueSMID value ≠ 0 := by
      rw [hbatch]
      decide
    rw [if_neg hzero, if_pos hbatch, show (Params.protobuf smids).parseBatchPaxosValues = parseBatchPaxosValues from rfl,
      hparse]
    exact batchExecute_subValues _ i vs 0 _
  · rw [if_neg hbatch] at hparse
    cases hparse
    by_cases hzero : valueSMID value = 0
    · rw [if_pos hzero]
      refine ⟨0, by simp, fun _ => ?_⟩
      rw [subValues_cons, if_pos hzero]
      exact Nat.le_refl _
    · rw [if_neg hzero, if_neg hbatch]
      exact doExecute_subValues _ i 0 ⟨valueSMID value, value.drop 4⟩ _

/-- While the record of its instance is there, `GetInstanceValue` returns a list, unless the value was proposed alone with the
id of batches and is no batch. -/
theorem listed (haccounts : Accounts s) (hreturned : s.Returned) (hvariables : s.Variables) (hcommits : s.CommitsOk)
    {call : Nat} {c : Caller} (h : s.Succeeded call c) (hrecord : s.log c.instanceID ≠ none) :
    (s.getInstanceValue c.instanceID).isSome = true ∨
      c.smid.toNat = batchProposeSMID ∧ parseBatchPaxosValues c.value = none := by
  obtain ⟨d, k, p, t, hplace⟩ := exists_place haccounts hreturned hvariables h
  have hformed := hvariables.formed d hplace.mem
  obtain ⟨value, hlog⟩ := Option.ne_none_iff_exists'.mp hrecord
  by_cases hmany : 2 ≤ d.request.length
  · rw [hplace.value_many hcommits hformed hmany hlog]
    exact Or.inl rfl
  · rw [hplace.value_single hcommits hformed (hplace.single_of_length hmany) hlog]
    by_cases hsmid : c.smid.toNat = batchProposeSMID
    · rw [if_pos hsmid]
      cases hparse : parseBatchPaxosValues c.value with
      | some vs => exact Or.inl rfl
      | none => exact Or.inr ⟨hsmid, rfl⟩
    · rw [if_neg hsmid]
      exact Or.inl rfl

/-- When `GetInstanceValue` has a proposal where its caller was told. -/
theorem named_iff (haccounts : Accounts s) (hreturned : s.Returned) (hvariables : s.Variables) (hcommits : s.CommitsOk)
    {call : Nat} {c : Caller} (h : s.Succeeded call c) :
    (s.Indexed call c → s.Named c) ∧ (s.log c.instanceID ≠ none → s.Named c → s.Indexed call c) := by
  obtain ⟨d, k, p, t, hplace⟩ := exists_place haccounts hreturned hvariables h
  have hformed := hvariables.formed d hplace.mem
  by_cases hmany : 2 ≤ d.request.length
  · exact ⟨fun _ => hplace.named_many hcommits hformed hmany, fun _ _ => Or.inl ⟨d, hplace.mem, hplace.mem_calls, hmany⟩⟩
  · have hsingle := hplace.single_of_length hmany
    have hindex : c.batchIndex = c.batchIndexBefore := by
      rw [hplace.index, hsingle]
      rfl
    have hnot := hplace.not_many haccounts hsingle
    refine ⟨fun hindexed => ?_, fun hrecord hnamed => ?_⟩
    · intro vs hvs
      obtain ⟨value, hlog, -, -⟩ := getInstanceValue_some hvs
      rw [hplace.value_single hcommits hformed hsingle hlog] at hvs
      rcases hindexed with hgroup | ⟨hsmid, hzero⟩ | ⟨hsmid, hnone⟩
      · exact absurd hgroup hnot
      · rw [if_neg hsmid] at hvs
        cases hvs
        rw [hindex, hzero]
        rfl
      · rw [if_pos hsmid, hnone] at hvs
        cases hvs
    · obtain ⟨value, hlog⟩ := Option.ne_none_iff_exists'.mp hrecord
      have hvalue := hplace.value_single hcommits hformed hsingle hlog
      refine Or.inr ?_
      by_cases hsmid : c.smid.toNat = batchProposeSMID
      · rw [if_pos hsmid] at hvalue
        refine Or.inr ⟨hsmid, ?_⟩
        cases hparse : parseBatchPaxosValues c.value with
        | none => rfl
        | some vs =>
          -- a value of a batch cannot be the batch itself
          have hmem := List.mem_of_getElem? (hnamed vs (hvalue.trans hparse))
          exact absurd (parseBatchPaxosValues_length hparse hmem) (Nat.lt_irrefl _)
      · rw [if_neg hsmid] at hvalue
        have hat := hnamed _ hvalue
        refine Or.inl ⟨hsmid, ?_⟩
        have hlt := (List.getElem?_eq_some_iff.mp hat).1
        rw [List.length_singleton] at hlt
        rw [← hindex]
        exact UInt32.toNat_inj.mp (by rw [UInt32.toNat_zero]; omega)

end BatchGroup

/-- What every run keeps. -/
structure BatchGroup.Booked (s : BatchGroup) : Prop where
  accounts : Accounts s
  commits : s.CommitsOk
  returned : s.Returned
  told : s.Variables

theorem BatchRun.booked {meets : BatchGroup → BatchEvent → Prop} {s : BatchGroup} (h : BatchRun meets s) : s.Booked :=
  h.invariant
    (fun instanceID log => ⟨Accounts.init instanceID log, Commits.init instanceID log, fun _ _ hc => (by cases hc),
      BatchGroup.Variables.init instanceID log⟩)
    fun h _ hmove => ⟨h.accounts.move hmove, h.commits.move hmove, h.returned.move h.accounts hmove,
      h.told.move h.accounts hmove⟩

/-- The list that a name refers to is there. -/
theorem BatchRun.listed {meets : BatchGroup → BatchEvent → Prop} {s : BatchGroup} (h : BatchRun meets s) {call : Nat}
    {c : Caller} (hc : s.Succeeded call c) (hrecord : s.log c.instanceID ≠ none) :
    (s.getInstanceValue c.instanceID).isSome = true ∨
      c.smid.toNat = batchProposeSMID ∧ parseBatchPaxosValues c.value = none := by
  obtain ⟨haccounts, hcommits, hreturned, hvariables⟩ := h.booked
  exact BatchGroup.listed haccounts hreturned hvariables hcommits hc hrecord

/-- **`BatchPropose` names the proposal**, in every run, for each call whose proposal was in a group of several or whose index
variable was right before; no two calls are given the same name, and the values are executed in the order of the
indices. -/
theorem batchPropose_names {s : BatchGroup} (h : BatchRun (fun _ _ => True) s) :
    (∀ call c, s.Succeeded call c →
      (s.Indexed call c → s.Named c) ∧ (s.log c.instanceID ≠ none → s.Named c → s.Indexed call c)) ∧
    s.Distinct ∧ s.Executed := by
  obtain ⟨haccounts, hcommits, hreturned, hvariables⟩ := h.booked
  refine ⟨fun call c hc => ?_, ?_, BatchGroup.executed s⟩
  · exact BatchGroup.named_iff haccounts hreturned hvariables hcommits hc
  · exact BatchGroup.distinct haccounts hreturned hvariables hcommits

theorem BatchRun.of_run (es : List BatchEvent) : ∀ {s : BatchGroup}, BatchRun (fun _ _ => True) s →
    BatchRun (fun _ _ => True) (s.run es) := by
  induction es with
  | nil => exact fun h => h
  | cons e es ih => exact fun h => ih (.step e h trivial)

/-- After `pairEvents`, caller 3 is in a group of its own, with its index variable 0. -/
def twoGroupsEvents : List BatchEvent :=
  pairEvents ++ [.propose 3 [9] 5 0 0, .addProposal 3 0 0, .loop, .lock 1 0, .checkNewValue none,
    .learned (packPaxosValue [9] 5) true, .getResult 1, .sendNotify 1, .waitNotify 3]

/-- The callers 1 and 2 are told instance 0 with the indices 0 and 1, caller 3 instance 1 with index 0. -/
theorem batchPropose_names_twoGroups :
    let s := BatchGroup.run {} twoGroupsEvents
    let told (value : Bytes) (smid : UInt32) (instanceID : Nat) (batchIndex batchIndexBefore : UInt32) : Caller :=
      ⟨value, smid, instanceID, batchIndex, batchIndexBefore, .returned (.commit .ok)⟩
    s.Named (told [7] 5 0 0 3) ∧ s.Named (told [8] 6 0 1 9) ∧ s.Named (told [9] 5 1 0 0) ∧
      s.getInstanceValue 0 = some [⟨5, [7]⟩, ⟨6, [8]⟩] ∧ s.getInstanceValue 1 = some [⟨5, [9]⟩] ∧
      s.Distinct ∧ s.Executed := by
  intro s told
  obtain ⟨hnames, hdistinct, hexecuted⟩ := batchPropose_names (BatchRun.of_run twoGroupsEvents (.init 0 fun _ => none))
  have hgroup (call : Nat) (hcall : call = 1 ∨ call = 2) :
      ∃ d ∈ (BatchGroup.run {} twoGroupsEvents).doing, call ∈ d.calls ∧ 2 ≤ d.request.length := by
    rcases hcall with rfl | rfl <;> decide +kernel
  refine ⟨?_, ?_, ?_, by decide +kernel, by decide +kernel, hdistinct, hexecuted⟩
  · exact (hnames 1 (told [7] 5 0 0 3) ⟨by decide +kernel, rfl⟩).1 (Or.inl (hgroup 1 (Or.inl rfl)))
  · exact (hnames 2 (told [8] 6 0 1 9) ⟨by decide +kernel, rfl⟩).1 (Or.inl (hgroup 2 (Or.inr rfl)))
  · exact (hnames 3 (told [9] 5 1 0 0) ⟨by decide +kernel, rfl⟩).1 (Or.inr (Or.inl ⟨by decide, rfl⟩))

/-- A caller whose index variable is 3 has its proposal in a group of its own. -/
def aloneEvents : List BatchEvent :=
  [.run, .propose 1 [7] 5 0 3, .addProposal 1 0 0, .loop, .lock 0 0, .checkNewValue none,
    .learned (packPaxosValue [7] 5) true, .getResult 0, .sendNotify 0, .waitNotify 1]

/-- Its proposal is at index 0 of the instance, and the caller is told 3. -/
theorem not_named : ¬ ∀ s, BatchRun (fun _ _ => True) s →
    (∀ call c, s.Succeeded call c → s.Named c) ∧ s.Distinct ∧ s.Executed := by
  intro h
  have hnamed := (h _ (BatchRun.of_run aloneEvents (.init 0 fun _ => none))).1 1
    ⟨[7], 5, 0, 3, 3, .returned (.commit .ok)⟩ ⟨by decide, rfl⟩ [⟨5, [7]⟩] (by decide)
  exact absurd hnamed (by decide)

end PhxPaxos
