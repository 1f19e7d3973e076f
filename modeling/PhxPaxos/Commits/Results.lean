import PhxPaxos.Safety.Agreement
import PhxPaxos.Safety.Offered

/-!
# What a propose call is told

Each try of `Committer::NewValueGetID` proposes its value in one instance, and is tried again only after another value
was learned there. So every instance in which the value was proposed, but for the last one, is lost for it
(`Call.Exact`), and the result of the call tells what became of the value (`propose_exact`): with `ok` it is chosen in
the instance that is returned, after a conflict or a refusal it is chosen nowhere, and it is never chosen twice.
-/

namespace PhxPaxos

variable {P : Params} {G : Group}

/-- The value that is proposed for the call. -/
def Call.paxosValue (c : Call) : Bytes := packPaxosValue c.value c.smid

/-! ## What became of a value -/

section Tries

variable (n : NodeID) (h : List Obs) (v : Bytes)

def HasLearned (i : Nat) : Prop := ∃ how, .learn n i v how ∈ h

/-- Another value was learned in instance `i`. -/
def Missed (i : Nat) : Prop := ∃ w how, .learn n i w how ∈ h ∧ w ≠ v

/-- The value is lost wherever it was proposed. -/
def AllMissed : Prop := ∀ i, .newValue n i v ∈ h → Missed n h v i

/-- The value is lost wherever it was proposed, but for instance `i`. -/
def MissedBut (i : Nat) : Prop := ∀ j, .newValue n j v ∈ h → j = i ∨ Missed n h v j

/-- What became of the value, as the result with instance `i` says. -/
def Says (ret : PaxosTryCommitRet) (i : Nat) : Prop :=
  match ret with
  | .ok => MissedBut n h v i ∧ HasLearned n h v i
  | .timeout | .executeFail => ∃ j, MissedBut n h v j
  | _ => AllMissed n h v

/-- The commit is for the value: it goes on, before or after it was proposed, or it has its result. -/
structure CommitCtx.Serves (ctx : CommitCtx) : Prop where
  value : ctx.isCommitEnd = false → ctx.value = some v
  new : ctx.isCommitEnd = false → ctx.instanceID = none → AllMissed n h v
  started : ∀ i, ctx.isCommitEnd = false → ctx.instanceID = some i → MissedBut n h v i
  ended : ctx.isCommitEnd = true → Says n h v ctx.commitRet (ctx.instanceID.getD 0)

/-- What became of the value of the call. -/
def Call.Exact (ctx : CommitCtx) (c : Call) : Prop :=
  match c.phase with
  | .waitLock => AllMissed n h c.paxosValue
  | .getResult => ctx.Serves n h c.paxosValue
  | .returned ret i => Says n h c.paxosValue ret i

end Tries

section Mono

variable {n : NodeID} {h h' : List Obs} {v : Bytes} {i : Nat} {ret : PaxosTryCommitRet} {ctx : CommitCtx}

theorem Missed.mono (hsub : h ⊆ h') (hm : Missed n h v i) : Missed n h' v i := by
  obtain ⟨w, how, hl, hne⟩ := hm
  exact ⟨w, how, hsub hl, hne⟩

theorem HasLearned.mono (hsub : h ⊆ h') (hl : HasLearned n h v i) : HasLearned n h' v i := hl.imp fun _ hm => hsub hm

section

variable (hsub : h ⊆ h') (hnew : ∀ j, .newValue n j v ∈ h' → .newValue n j v ∈ h)
include hsub hnew

theorem AllMissed.mono (ha : AllMissed n h v) : AllMissed n h' v := fun j hj => (ha j (hnew j hj)).mono hsub

theorem MissedBut.mono (hb : MissedBut n h v i) : MissedBut n h' v i :=
  fun j hj => (hb j (hnew j hj)).imp_right (Missed.mono hsub)

theorem Says.mono (hs : Says n h v ret i) : Says n h' v ret i := by
  cases ret with
  | ok => exact ⟨hs.1.mono hsub hnew, hs.2.mono hsub⟩
  | timeout | executeFail => exact hs.imp fun _ hb => hb.mono hsub hnew
  | _ => exact AllMissed.mono hsub hnew hs

theorem CommitCtx.Serves.mono (hs : ctx.Serves n h v) : ctx.Serves n h' v where
  value := hs.value
  new hgoing hi := (hs.new hgoing hi).mono hsub hnew
  started j hgoing hi := (hs.started j hgoing hi).mono hsub hnew
  ended hend := (hs.ended hend).mono hsub hnew

end

theorem Call.Exact.mono {c : Call} (hsub : h ⊆ h') (hnew : ∀ j, .newValue n j c.paxosValue ∈ h' → .newValue n j c.paxosValue ∈ h)
    (hc : c.Exact n h ctx) : c.Exact n h' ctx := by
  unfold Call.Exact at hc ⊢
  split <;> rename_i hphase <;> simp only [hphase] at hc
  · exact hc.mono hsub hnew
  · exact hc.mono hsub hnew
  · exact hc.mono hsub hnew

theorem AllMissed.but (ha : AllMissed n h v) (i : Nat) : MissedBut n h v i := fun j hj => Or.inr (ha j hj)

/-- The value is lost everywhere, when another one was learned in the instance that was left. -/
theorem MissedBut.all (hb : MissedBut n h v i) (hm : Missed n h v i) : AllMissed n h v := by
  intro j hj
  rcases hb j hj with rfl | hj
  · exact hm
  · exact hj

/-- Whatever the result says, the value is left in at most one instance. -/
theorem Says.but (hs : Says n h v ret i) : ∃ j, MissedBut n h v j := by
  cases ret with
  | ok => exact ⟨i, hs.1⟩
  | timeout | executeFail => exact hs
  | _ => exact ⟨0, AllMissed.but hs 0⟩

theorem Call.Exact.but {c : Call} (hc : c.Exact n h ctx) : ∃ j, MissedBut n h c.paxosValue j := by
  unfold Call.Exact at hc
  split at hc
  · exact ⟨0, hc.but 0⟩
  · cases hend : ctx.isCommitEnd with
    | true => exact (hc.ended hend).but
    | false =>
      cases hi : ctx.instanceID with
      | none => exact ⟨0, (hc.new hend hi).but 0⟩
      | some i => exact ⟨i, hc.started i hend hi⟩
  · exact hc.but

/-- A try ends: the call returns, or waits for the lock again after a conflict. -/
theorem Call.exact_afterTry {c : Call} (hs : Says n h c.paxosValue ret i) : (c.afterTry ret i).Exact n h ctx := by
  unfold Call.afterTry
  split
  · exact hs
  · rename_i hagain
    have hconflict : ret = .conflict := by
      by_contra hne
      exact hagain (Or.inl hne)
    subst hconflict
    exact hs

/-- A result is set, or the commit has one or is for another instance. -/
theorem CommitCtx.Serves.setResult (hs : ctx.Serves n h v) {inst : Option Nat} {u : Bytes}
    (hmet : ctx.isCommitEnd = false → ctx.instanceID = inst →
      Says n h v (if ret = .ok ∧ some v ≠ some u then .conflict else ret) (inst.getD 0)) :
    (ctx.setResult ret inst u).Serves n h v := by
  unfold CommitCtx.setResult
  split
  · exact hs
  · rename_i hopen
    simp only [Bool.or_eq_true, decide_eq_true_eq, not_or, Bool.not_eq_true, not_not] at hopen
    obtain ⟨hgoing, hinst⟩ := hopen
    have hresult := hmet hgoing hinst
    constructor
    · exact fun hend => by cases hend
    · exact fun hend => by cases hend
    · exact fun _ hend => by cases hend
    · intro _
      rw [hs.value hgoing, hinst]
      exact hresult

/-- A commit that still has its value goes on. -/
theorem CommitCtx.setResult_going {u w : Bytes} {inst : Option Nat} (hv : (ctx.setResult ret inst u).value = some w) :
    ctx.setResult ret inst u = ctx := by
  unfold CommitCtx.setResult at hv ⊢
  split at hv
  · rename_i hstays
    exact if_pos hstays
  · cases hv

end Mono

/-! ## The calls of a node -/

/-- Only one call of the node has the value, which is no first value of the system variables. -/
structure Loc.Alone (n : NodeID) (v : Bytes) (l : Loc) : Prop where
  calls : ∀ c ∈ l.core.calls, ∀ d ∈ l.core.calls, c.paxosValue = v → d.paxosValue = v → c.callID = d.callID
  init : ∀ i, .initSystemVariables n i v ∉ l.hist

/-- The calls of node `n`, its commit and what was proposed for them. -/
structure CommitsFit (n : NodeID) (v : Bytes) (l : Loc) : Prop where
  proposed : ∀ {i u}, .newValue n i u ∈ l.hist →
    (∃ c ∈ l.core.calls, c.paxosValue = u) ∨ ∃ j, .initSystemVariables n j u ∈ l.hist
  commit : ∀ {u}, l.core.commitCtx.value = some u → l.core.commitCtx.isCommitEnd = false ∧
    ∃ c ∈ l.core.calls, c.phase = .getResult ∧ c.paxosValue = u
  learned : l.core.learner.isLearned = true → HasLearned n l.hist l.core.learner.learnedValue l.core.instanceID
  exact : ∀ c ∈ l.core.calls, c.paxosValue = v → c.Exact n l.hist l.core.commitCtx

/-- No two calls of a node have the same id. -/
def Core.OwnIds (c : Core) : Prop := ∀ a ∈ c.calls, ∀ b ∈ c.calls, a.callID = b.callID → a = b

theorem Call.afterTry_frame (c : Call) (ret : PaxosTryCommitRet) (i : Nat) :
    (c.afterTry ret i).callID = c.callID ∧ (c.afterTry ret i).paxosValue = c.paxosValue := by
  unfold Call.afterTry
  split <;> exact ⟨rfl, rfl⟩

section Replace

variable {calls : List Call} {c c' : Call}

/-- The calls with one of them replaced. -/
def replaceCall (c c' : Call) (calls : List Call) : List Call := calls.map fun d => if d.callID = c.callID then c' else d

theorem mem_replaceCall (hids : ∀ a ∈ calls, ∀ b ∈ calls, a.callID = b.callID → a = b) (hc : c ∈ calls) {d : Call} :
    d ∈ replaceCall c c' calls ↔ d = c' ∨ d ∈ calls ∧ d ≠ c := by
  unfold replaceCall
  rw [List.mem_map]
  constructor
  · rintro ⟨e, he, rfl⟩
    split
    · exact Or.inl rfl
    · rename_i hne
      exact Or.inr ⟨he, fun heq => hne (by rw [heq])⟩
  · rintro (rfl | ⟨hd, hne⟩)
    · exact ⟨c, hc, if_pos rfl⟩
    · exact ⟨d, hd, if_neg fun heq => hne (hids d hd c hc heq)⟩

theorem ownIds_replaceCall (hids : ∀ a ∈ calls, ∀ b ∈ calls, a.callID = b.callID → a = b) (hc : c ∈ calls)
    (hid : c'.callID = c.callID) :
    ∀ a ∈ replaceCall c c' calls, ∀ b ∈ replaceCall c c' calls, a.callID = b.callID → a = b := by
  intro a ha b hb heq
  rw [mem_replaceCall hids hc] at ha hb
  rcases ha with rfl | ⟨ha, hane⟩ <;> rcases hb with rfl | ⟨hb, hbne⟩
  · rfl
  · exact absurd (hids b hb c hc (heq.symm.trans hid)) hbne
  · exact absurd (hids a ha c hc (heq.trans hid)) hane
  · exact hids a ha b hb heq

end Replace

section Step

variable {n : NodeID} {v : Bytes} {l l' : Loc}

/-- What a step does to the calls. -/
inductive CallStep (l l' : Loc) : Prop
  | same : l'.core.calls = l.core.calls → CallStep l l'
  | new (c : Call) : (∀ d ∈ l.core.calls, d.callID ≠ c.callID) → l'.core.calls = c :: l.core.calls → CallStep l l'
  | replace (c c' : Call) : c ∈ l.core.calls → (c.phase = .waitLock ∨ c.phase = .getResult) → c'.callID = c.callID →
      c'.paxosValue = c.paxosValue → l'.core.calls = replaceCall c c' l.core.calls → CallStep l l'

theorem Act.callStep {can : PaxosMsg → Prop} (hact : Act P can n l l') (hno : NoRestart l'.hist) : CallStep l l' := by
  cases hact with
  | newCall hnew => exact .new _ hnew rfl
  | @lock c timeoutMs hc hphase => exact .replace c { c with phase := .getResult } hc (Or.inl hphase) rfl rfl rfl
  | @lockFail c ret hc hphase =>
    obtain ⟨hid, hvalue⟩ := c.afterTry_frame ret 0
    exact .replace c _ hc (Or.inl hphase) hid hvalue rfl
  | @getResult c hc hphase =>
    obtain ⟨hid, hvalue⟩ := c.afterTry_frame l.core.commitCtx.commitRet (l.core.commitCtx.instanceID.getD 0)
    exact .replace c _ hc (Or.inr hphase) hid hvalue rfl
  | restart _ _ _ hstart => exact absurd hstart.restart_mem (hno n _ _)
  | restartFail _ hstart => exact absurd hstart.restart_mem (hno n _ _)
  | _ => exact .same rfl

theorem CallStep.ownIds (hs : CallStep l l') (hids : l.core.OwnIds) : l'.core.OwnIds := by
  unfold Core.OwnIds
  cases hs with
  | same heq =>
    rw [heq]
    exact hids
  | new c hnew heq =>
    rw [heq]
    intro a ha b hb hab
    rcases List.mem_cons.mp ha with ha | ha <;> rcases List.mem_cons.mp hb with hb | hb
    · rw [ha, hb]
    · exact absurd (hab.symm.trans (by rw [ha])) (hnew b hb)
    · exact absurd (hab.trans (by rw [hb])) (hnew a ha)
    · exact hids a ha b hb hab
  | replace c c' hc _ hid _ heq =>
    rw [heq]
    exact ownIds_replaceCall hids hc hid

/-- No call is lost. -/
theorem CallStep.kept (hs : CallStep l l') (hids : l.core.OwnIds) {c : Call} (hc : c ∈ l.core.calls) :
    ∃ c' ∈ l'.core.calls, c'.callID = c.callID ∧ c'.paxosValue = c.paxosValue := by
  cases hs with
  | same heq => exact ⟨c, heq ▸ hc, rfl, rfl⟩
  | new d _ heq => exact ⟨c, heq ▸ List.mem_cons_of_mem d hc, rfl, rfl⟩
  | replace d d' hd _ hid hvalue heq =>
    rw [heq]
    by_cases hcd : c = d
    · subst hcd
      exact ⟨d', (mem_replaceCall hids hd).mpr (Or.inl rfl), hid, hvalue⟩
    · exact ⟨c, (mem_replaceCall hids hd).mpr (Or.inr ⟨hc, hcd⟩), rfl, rfl⟩

/-- A call that has returned stays as it is. -/
theorem CallStep.returned (hs : CallStep l l') (hids : l.core.OwnIds) {c : Call} {ret : PaxosTryCommitRet} {i : Nat}
    (hc : c ∈ l.core.calls) (hphase : c.phase = .returned ret i) : c ∈ l'.core.calls := by
  cases hs with
  | same heq => exact heq ▸ hc
  | new d _ heq => exact heq ▸ List.mem_cons_of_mem d hc
  | replace d d' hd hwaits _ _ heq =>
    rw [heq, mem_replaceCall hids hd]
    refine Or.inr ⟨hc, fun hcd => ?_⟩
    rw [← hcd, hphase] at hwaits
    rcases hwaits with hwaits | hwaits <;> cases hwaits

theorem Loc.Alone.of_step (hids : l.core.OwnIds) (hs : CallStep l l') (hsub : l.hist ⊆ l'.hist) (h : l'.Alone n v) :
    l.Alone n v := by
  constructor
  · intro c hc d hd hcv hdv
    obtain ⟨c', hc', hidc, hvc⟩ := hs.kept hids hc
    obtain ⟨d', hd', hidd, hvd⟩ := hs.kept hids hd
    exact hidc.symm.trans ((h.calls c' hc' d' hd' (hvc.trans hcv) (hvd.trans hdv)).trans hidd)
  · exact fun i hm => h.init i (hsub hm)

/-- A step that proposes nothing and leaves calls and commit alone. -/
theorem CommitsFit.of_step (h : CommitsFit n v l) (hsub : l.hist ⊆ l'.hist)
    (hnew : ∀ {i u}, .newValue n i u ∈ l'.hist → .newValue n i u ∈ l.hist)
    (hcalls : l'.core.calls = l.core.calls) (hctx : l'.core.commitCtx = l.core.commitCtx)
    (hlearned : l'.core.learner.isLearned = true →
      HasLearned n l'.hist l'.core.learner.learnedValue l'.core.instanceID) : CommitsFit n v l' := by
  constructor
  · intro i u hm
    rw [hcalls]
    exact (h.proposed (hnew hm)).imp_right (Exists.imp fun _ hj => hsub hj)
  · rw [hctx, hcalls]
    exact h.commit
  · exact hlearned
  · rw [hctx, hcalls]
    exact fun c hc hv => (h.exact c hc hv).mono hsub fun _ => hnew

/-- A step that changes the commit only by a result that is right. -/
theorem CommitsFit.of_result (h : CommitsFit n v l) (hsub : l.hist ⊆ l'.hist)
    (hnew : ∀ {i u}, .newValue n i u ∈ l'.hist → .newValue n i u ∈ l.hist)
    (hcalls : l'.core.calls = l.core.calls) {ret : PaxosTryCommitRet} {inst : Option Nat} {u : Bytes}
    (hctx : l'.core.commitCtx = l.core.commitCtx.setResult ret inst u)
    (hmet : l.core.commitCtx.Serves n l.hist v → l.core.commitCtx.isCommitEnd = false → l.core.commitCtx.instanceID = inst →
      Says n l.hist v (if ret = .ok ∧ some v ≠ some u then .conflict else ret) (inst.getD 0))
    (hlearned : l'.core.learner.isLearned = true →
      HasLearned n l'.hist l'.core.learner.learnedValue l'.core.instanceID) : CommitsFit n v l' := by
  constructor
  · intro i w hm
    rw [hcalls]
    exact (h.proposed (hnew hm)).imp_right (Exists.imp fun _ hj => hsub hj)
  · rw [hctx, hcalls]
    intro w hw
    have hsame := CommitCtx.setResult_going hw
    rw [hsame] at hw ⊢
    exact h.commit hw
  · exact hlearned
  · rw [hcalls, hctx]
    intro c hc hv
    have hexact := h.exact c hc hv
    refine Call.Exact.mono hsub (fun _ => hnew) ?_
    unfold Call.Exact at hexact ⊢
    split <;> rename_i hphase <;> simp only [hphase] at hexact
    · exact hexact
    · rw [hv] at hexact ⊢
      exact hexact.setResult (hmet hexact)
    · exact hexact

/-- A value is proposed: the one of the commit, or the first system variables. -/
theorem CommitsFit.of_newValue (h : CommitsFit n v l) (hids : l.core.OwnIds) (halone : l.Alone n v) {u : Bytes}
    (hu : l.core.commitCtx.value = some u ∧ l.core.commitCtx.instanceID = some l.core.instanceID ∨
      .initSystemVariables n l.core.instanceID u ∈ l.hist)
    (hh : l'.hist = .newValue n l.core.instanceID u :: l.hist) (hcalls : l'.core.calls = l.core.calls)
    (hctx : l'.core.commitCtx = l.core.commitCtx) (hi : l'.core.instanceID = l.core.instanceID)
    (hl : l'.core.learner = l.core.learner) : CommitsFit n v l' := by
  have hsub : l.hist ⊆ l'.hist := by
    rw [hh]
    exact List.subset_cons_self _ _
  constructor
  · intro i w hm
    rw [hcalls]
    rw [hh] at hm
    rcases List.mem_cons.mp hm with heq | hm
    · cases heq
      rcases hu with ⟨hvalue, -⟩ | hinit
      · obtain ⟨-, c, hc, -, hcu⟩ := h.commit hvalue
        exact Or.inl ⟨c, hc, hcu⟩
      · exact Or.inr ⟨_, hsub hinit⟩
    · exact (h.proposed hm).imp_right (Exists.imp fun _ hj => hsub hj)
  · rw [hctx, hcalls]
    exact h.commit
  · rw [hl, hi]
    exact fun hlearned => (h.learned hlearned).mono hsub
  · rw [hctx, hcalls]
    intro c hc hv
    have hexact := h.exact c hc hv
    by_cases huv : u = v
    · -- it is the try of this call
      subst huv
      rcases hu with ⟨hvalue, hinst⟩ | hinit
      · obtain ⟨hgoing, d, hd, hphase, hdu⟩ := h.commit hvalue
        obtain rfl : d = c := hids d hd c hc (halone.calls d hd c hc hdu hv)
        unfold Call.Exact at hexact ⊢
        simp only [hphase] at hexact ⊢
        constructor
        · exact hexact.value
        · intro _ hnone
          rw [hinst] at hnone
          cases hnone
        · intro i hend hsome
          have hbut := hexact.started i hend hsome
          rw [hinst, Option.some.injEq] at hsome
          intro j hj
          rw [hh] at hj
          rcases List.mem_cons.mp hj with heq | hj
          · cases heq
            exact Or.inl hsome
          · exact (hbut j hj).imp_right (Missed.mono hsub)
        · intro hend
          rw [hgoing] at hend
          cases hend
      · exact absurd hinit (halone.init _)
    · refine hexact.mono hsub fun j hj => ?_
      rw [hh] at hj
      refine (List.mem_cons.mp hj).resolve_left fun heq => huv ?_
      cases heq
      exact hv

/-- One call is replaced by what it becomes. -/
theorem CommitsFit.of_replace (h : CommitsFit n v l) (hids : l.core.OwnIds) {c : Call} (c' : Call) (hc : c ∈ l.core.calls)
    (hvalue : c'.paxosValue = c.paxosValue) (hh : l'.hist = l.hist) (hi : l'.core.instanceID = l.core.instanceID)
    (hl : l'.core.learner = l.core.learner) (hcalls : l'.core.calls = replaceCall c c' l.core.calls)
    (hcommit : ∀ {u}, l'.core.commitCtx.value = some u → l'.core.commitCtx.isCommitEnd = false ∧
      ∃ d ∈ l'.core.calls, d.phase = .getResult ∧ d.paxosValue = u)
    (hself : c.paxosValue = v → c'.Exact n l.hist l'.core.commitCtx)
    (hothers : ∀ d ∈ l.core.calls, d ≠ c → d.Exact n l.hist l.core.commitCtx → d.Exact n l.hist l'.core.commitCtx) :
    CommitsFit n v l' := by
  constructor
  · rw [hh, hcalls]
    intro i u hm
    rcases h.proposed hm with ⟨d, hd, hdu⟩ | hinit
    · left
      by_cases hdc : d = c
      · exact ⟨c', (mem_replaceCall hids hc).mpr (Or.inl rfl), by rw [hvalue, ← hdc, hdu]⟩
      · exact ⟨d, (mem_replaceCall hids hc).mpr (Or.inr ⟨hd, hdc⟩), hdu⟩
    · exact Or.inr hinit
  · exact hcommit
  · rw [hh, hi, hl]
    exact h.learned
  · rw [hh, hcalls]
    intro d hd hdv
    rcases (mem_replaceCall hids hc).mp hd with rfl | ⟨hd, hne⟩
    · exact hself (hvalue.symm.trans hdv)
    · exact hothers d hd hne (h.exact d hd hdv)

theorem CommitsFit.act {can : PaxosMsg → Prop} (h : CommitsFit n v l) (hids : l.core.OwnIds) (halone : l'.Alone n v)
    (hclosed : P.openChangeValueBeforePropose = false) (hact : Act P can n l l') (hno : NoRestart l'.hist) :
    CommitsFit n v l' := by
  have hsub : l.hist ⊆ l'.hist := hact.hist_suffix.subset
  have hold : l.Alone n v := halone.of_step hids (hact.callStep hno) hsub
  have hsaid {ret : PaxosTryCommitRet} (hret : ret ≠ .ok) {u : Bytes} :
      (if ret = .ok ∧ some v ≠ some u then .conflict else ret) = ret := if_neg fun hok => hret hok.1
  cases hact with
  | newValue _ _ _ hu => exact h.of_newValue hids hold hu rfl rfl rfl rfl rfl
  | learnBySuccess => exact h.of_step hsub (by simp) rfl rfl fun _ => ⟨_, List.mem_cons_self⟩
  | learnValue => exact h.of_step hsub (by simp) rfl rfl fun _ => ⟨_, List.mem_cons_self⟩
  | executeFail =>
    refine h.of_result hsub (by simp) rfl rfl (fun hserves hgoing hinst => ?_) fun hl => (h.learned hl).mono hsub
    rw [hsaid (by simp)]
    exact ⟨_, hserves.started _ hgoing hinst⟩
  | advance hl =>
    have hlearned := h.learned hl
    refine h.of_result hsub (by simp) rfl rfl (fun hserves hgoing hinst => ?_) fun hl => by cases hl
    have hbut := hserves.started _ hgoing hinst
    by_cases hv : l.core.learner.learnedValue = v
    · rw [if_neg (by simp [hv])]
      exact ⟨hbut, hv ▸ hlearned⟩
    · -- another value was learned
      have hne : some v ≠ some l.core.learner.learnedValue := fun heq => hv (Option.some.inj heq).symm
      rw [if_pos ⟨rfl, hne⟩]
      obtain ⟨how, hm⟩ := hlearned
      exact hbut.all ⟨_, how, hm, hv⟩
  | commitTimeout =>
    refine h.of_result hsub id rfl rfl (fun hserves hgoing hinst => ?_) fun hl => h.learned hl
    rw [hsaid (by simp)]
    exact ⟨_, hserves.started _ hgoing hinst⟩
  | commitRefused _ hret =>
    refine h.of_result hsub id rfl rfl (fun hserves hgoing hinst => ?_) fun hl => h.learned hl
    have hmissed := hserves.new hgoing hinst
    rcases hret with rfl | rfl | rfl <;> exact hmissed
  | @startCommit u u' hnew hu hu' =>
    obtain rfl : u' = u := hu'.resolve_right fun hopen => by rw [hclosed] at hopen; cases hopen.1
    have hnone : l.core.commitCtx.instanceID = none := by
      simp only [CommitCtx.isNewCommit, Bool.and_eq_true, Option.isNone_iff_eq_none] at hnew
      exact hnew.1
    constructor
    · exact h.proposed
    · intro w hw
      obtain rfl : u' = w := Option.some.inj hw
      exact h.commit hu
    · exact h.learned
    · intro c hc hv
      have hexact := h.exact c hc hv
      unfold Call.Exact at hexact ⊢
      split <;> rename_i hphase <;> simp only [hphase] at hexact
      · exact hexact
      · constructor
        · exact fun hgoing => hu.symm.trans (hexact.value hgoing)
        · exact fun _ hi => by cases hi
        · exact fun i hgoing _ => (hexact.new hgoing hnone).but i
        · intro hend
          cases (h.commit hu).1.symm.trans hend
      · exact hexact
  | newCall hfresh hphase =>
    rename_i c
    constructor
    · exact fun hm => (h.proposed hm).imp_left fun ⟨d, hd, hdu⟩ => ⟨d, List.mem_cons_of_mem _ hd, hdu⟩
    · intro u hu
      obtain ⟨hgoing, d, hd, hd'⟩ := h.commit hu
      exact ⟨hgoing, d, List.mem_cons_of_mem _ hd, hd'⟩
    · exact h.learned
    · intro d hd hdv
      rcases List.mem_cons.mp hd with rfl | hd
      · -- nothing was proposed for it yet
        unfold Call.Exact
        simp only [hphase]
        intro i hm
        rw [hdv] at hm
        rcases h.proposed hm with ⟨e, he, hev⟩ | ⟨j, hinit⟩
        · exact absurd (halone.calls e (List.mem_cons_of_mem _ he) d List.mem_cons_self hev hdv) (hfresh e he)
        · exact absurd hinit (halone.init j)
      · exact h.exact d hd hdv
  | @lock c timeoutMs hc hphase hfree =>
    refine h.of_replace hids { c with phase := .getResult } hc rfl rfl rfl rfl rfl ?_ ?_ ?_
    · intro u hu
      exact ⟨rfl, _, (mem_replaceCall hids hc).mpr (Or.inl rfl), rfl, Option.some.inj hu⟩
    · intro hv
      have hmissed := h.exact c hc hv
      unfold Call.Exact at hmissed ⊢
      simp only [hphase] at hmissed
      constructor
      · exact fun _ => rfl
      · exact fun _ _ => hmissed
      · exact fun _ _ hi => by cases hi
      · exact fun hend => by cases hend
    · intro d hd _ hexact
      unfold Call.Exact at hexact ⊢
      split <;> rename_i hd' <;> simp only [hd'] at hexact
      · exact hexact
      · exact absurd hd' (hfree d hd)
      · exact hexact
  | @lockFail c ret hc hphase hret =>
    obtain ⟨-, hvalue⟩ := c.afterTry_frame ret 0
    refine h.of_replace hids _ hc hvalue rfl rfl rfl rfl ?_ ?_ fun _ _ _ hexact => hexact
    · intro u hu
      obtain ⟨hgoing, d, hd, hd', hdu⟩ := h.commit hu
      refine ⟨hgoing, d, (mem_replaceCall hids hc).mpr (Or.inr ⟨hd, fun heq => ?_⟩), hd', hdu⟩
      rw [heq, hphase] at hd'
      cases hd'
    · intro hv
      have hmissed := h.exact c hc hv
      unfold Call.Exact at hmissed
      simp only [hphase] at hmissed
      apply Call.exact_afterTry
      rcases hret with rfl | rfl
      · exact hmissed
      · exact ⟨0, hmissed.but 0⟩
  | @getResult c hc hphase hend =>
    obtain ⟨-, hvalue⟩ := c.afterTry_frame l.core.commitCtx.commitRet (l.core.commitCtx.instanceID.getD 0)
    refine h.of_replace hids _ hc hvalue rfl rfl rfl rfl ?_ ?_ fun _ _ _ hexact => hexact
    · intro u hu
      rw [(h.commit hu).1] at hend
      cases hend
    · intro hv
      have hserves := h.exact c hc hv
      unfold Call.Exact at hserves
      simp only [hphase] at hserves
      exact Call.exact_afterTry (hserves.ended hend)
  | restart _ _ _ hstart => exact absurd hstart.restart_mem (hno n _ _)
  | restartFail _ hstart => exact absurd hstart.restart_mem (hno n _ _)
  | _ => exact h.of_step hsub (by simp) rfl rfl fun hl => (h.learned hl).mono hsub

end Step

/-! ## Runs -/

theorem Stepping.ownIds {D : Deliver} {s : Abs} (hs : Stepping P D G s) (hno : NoRestart s.hist) (n : NodeID) :
    (s.core n).OwnIds := by
  refine hs.forall_loc NoRestart NoRestart.suffix (I := fun _ l => l.core.OwnIds) ?_ ?_ ?_ hno n
  · exact fun n a ha => absurd ha List.not_mem_nil
  · exact fun _ hg ih hact => (hact.callStep hg).ownIds (ih _)
  · exact fun _ _ ih _ _ => ih _

theorem Stepping.commits {s : Abs} (hs : Stepping P inNetwork G s) (hclosed : P.openChangeValueBeforePropose = false)
    (hno : NoRestart s.hist) (n : NodeID) (v : Bytes) (halone : (s.loc n).Alone n v) : CommitsFit n v (s.loc n) := by
  refine hs.forall_loc NoRestart NoRestart.suffix (I := fun n l => l.Alone n v → CommitsFit n v l) ?_ ?_ ?_ hno n halone
  · intro n _
    constructor
    · exact fun hm => absurd hm List.not_mem_nil
    · exact fun hu => by cases hu
    · exact fun hl => by cases hl
    · exact fun c hc => absurd hc List.not_mem_nil
  · intro s n l hs hg ih hact halone
    have hsuf := hact.hist_suffix
    have hids := hs.ownIds (hg.suffix hsuf) n
    have hold : (s.loc n).Alone n v := halone.of_step hids (hact.callStep hg) hsuf.subset
    exact (ih n hold).act hids halone hclosed hact hg
  · intro s n l k _ _ ih hact hk halone
    obtain ⟨obs, hh, hobs⟩ := hact.obs
    have hsub : s.hist ⊆ l.hist := hact.hist_suffix.subset
    have hold : (s.loc k).Alone k v := ⟨halone.calls, fun i hm => halone.init i (hsub hm)⟩
    refine (ih k hold).of_step hsub ?_ rfl rfl fun hl => ((ih k hold).learned hl).mono hsub
    intro i u hm
    change .newValue k i u ∈ l.hist at hm
    rw [hh] at hm
    exact (List.mem_append.mp hm).resolve_left fun ho => hk (hobs _ ho)

/-- Only this call of the group has its value, which is no first value of the system variables. -/
structure Call.Alone (s : Sys) (n : NodeID) (c : Call) : Prop where
  calls : ∀ m, ∀ d ∈ (s.node m).calls, d.paxosValue = c.paxosValue → m = n ∧ d.callID = c.callID
  init : ∀ m i, .initSystemVariables m i c.paxosValue ∉ s.hist

/-- The value of a call is proposed by its node only. -/
theorem Reachable.proposed_by {s : Sys} (hs : Reachable P inNetwork G s) (hclosed : P.openChangeValueBeforePropose = false)
    (hno : NoRestart s.hist) {n m : NodeID} {c : Call} (halone : c.Alone s n) {i : Nat}
    (hm : .newValue m i c.paxosValue ∈ s.hist) : m = n := by
  have hloc : (s.abs.loc m).Alone m c.paxosValue := by
    refine ⟨fun a ha b hb hav hbv => ?_, fun j => halone.init m j⟩
    exact (halone.calls m a ha hav).2.trans (halone.calls m b hb hbv).2.symm
  rcases (hs.stepping.commits hclosed hno m c.paxosValue hloc).proposed hm with ⟨d, hd, hdv⟩ | ⟨j, hinit⟩
  · exact (halone.calls m d hd hdv).1
  · exact absurd hinit (halone.init m j)

/-- A call that has returned never changes again. -/
theorem Reachable.returned_stays {D : Deliver} {s : Sys} (hs : Reachable P D G s) {e : Event} (he : e.CanHappen D s)
    (hno : NoRestart (s.step P e).hist) {n : NodeID} {c : Call} {ret : PaxosTryCommitRet} {i : Nat}
    (hc : c ∈ (s.node n).calls) (hphase : c.phase = .returned ret i) : c ∈ ((s.step P e).node n).calls := by
  have hready := hs.stepping.ready e.node
  have hacts : Relation.ReflTransGen (Act P (D.Can s.net e.node) e.node) ((s.proc e.node e.env).loc none)
      ((handle P e.kind (s.proc e.node e.env)).loc none) :=
    handle_acts (w := s.proc e.node e.env) hready.me (fun gid msg hk => ⟨gid, he gid msg hk⟩) hready.retryQueue hready.commit
  by_cases hn : n = e.node
  · subst hn
    have hkept {l : Loc} (h : Relation.ReflTransGen (Act P (D.Can s.net e.node) e.node) (s.abs.loc e.node) l)
        (hl : NoRestart l.hist) : l.core.OwnIds ∧ c ∈ l.core.calls := by
      induction h with
      | refl => exact ⟨hs.stepping.ownIds hl e.node, hc⟩
      | tail _ hact ih =>
        obtain ⟨hids, hmem⟩ := ih (hl.suffix hact.hist_suffix)
        have hstep := hact.callStep hl
        exact ⟨hstep.ownIds hids, hstep.returned hids hmem hphase⟩
    have hnode : (s.step P e).node e.node = (handle P e.kind (s.proc e.node e.env)).node := Function.update_self ..
    rw [hnode]
    exact (hkept hacts hno).2
  · have hnode : (s.step P e).node n = s.node n := Function.update_of_ne hn ..
    rw [hnode]
    exact hc

/-- **The result of a propose call is exact**, when no process is started again, the state machines do not change what is
proposed, no other call has the same value, at most one value is chosen for each instance, and what is learned was chosen.
The value is chosen for at most one instance; with `ok` it is chosen for the one that is returned; when the call is told
anything but `ok`, a timeout or a failed execution it is chosen for none, then and, as a call that has returned stays as
it is, later. -/
theorem propose_exact {s : Sys} (hs : Reachable P inNetwork G s) (hclosed : P.openChangeValueBeforePropose = false)
    (hno : NoRestart s.hist) (hunique : ∀ {i v w}, Chosen G s.hist i v → Chosen G s.hist i w → v = w)
    (hlearned : ∀ {n i v how}, .learn n i v how ∈ s.hist → Chosen G s.hist i v)
    {n : NodeID} {c : Call} (hc : c ∈ (s.node n).calls) (halone : c.Alone s n) :
    (∀ i j, Chosen G s.hist i c.paxosValue → Chosen G s.hist j c.paxosValue → i = j) ∧
      (∀ i, c.phase = .returned .ok i → Chosen G s.hist i c.paxosValue) ∧
      (∀ ret i, c.phase = .returned ret i → ret ≠ .ok → ret ≠ .timeout → ret ≠ .executeFail →
        ∀ j, ¬ Chosen G s.hist j c.paxosValue) ∧
      ∀ ret i, c.phase = .returned ret i → ∀ e : Event, e.CanHappen inNetwork s → NoRestart (s.step P e).hist →
        c ∈ ((s.step P e).node n).calls := by
  have hloc : (s.abs.loc n).Alone n c.paxosValue := by
    refine ⟨fun a ha b hb hav hbv => ?_, fun j => halone.init n j⟩
    exact (halone.calls n a ha hav).2.trans (halone.calls n b hb hbv).2.symm
  have hexact := (hs.stepping.commits hclosed hno n c.paxosValue hloc).exact c hc rfl
  -- where the value is chosen it was proposed by this node, and nothing else was learned
  have hproposed {i : Nat} (hchosen : Chosen G s.hist i c.paxosValue) : .newValue n i c.paxosValue ∈ s.hist := by
    obtain ⟨m, hm⟩ := hs.stepping.chosen_offered hno (packPaxosValue_ne_nil c.value c.smid) hchosen
    obtain rfl := hs.proposed_by hclosed hno halone hm
    exact hm
  have hnotMissed {i : Nat} (hchosen : Chosen G s.hist i c.paxosValue) : ¬ Missed n s.hist c.paxosValue i := by
    rintro ⟨w, how, hm, hne⟩
    exact hne (hunique (hlearned hm) hchosen)
  refine ⟨?_, ?_, ?_, fun ret i hphase e he hnone => hs.returned_stays he hnone hc hphase⟩
  · intro i j hi hj
    obtain ⟨k, hbut⟩ := hexact.but
    have hik := (hbut i (hproposed hi)).resolve_right (hnotMissed hi)
    have hjk := (hbut j (hproposed hj)).resolve_right (hnotMissed hj)
    exact hik.trans hjk.symm
  · intro i hphase
    unfold Call.Exact at hexact
    simp only [hphase] at hexact
    obtain ⟨how, hm⟩ := hexact.2
    exact hlearned hm
  · intro ret i hphase hok htimeout hfail j hchosen
    unfold Call.Exact at hexact
    simp only [hphase] at hexact
    have hmissed : AllMissed n s.hist c.paxosValue := by
      cases ret with
      | ok => exact absurd rfl hok
      | timeout => exact absurd rfl htimeout
      | executeFail => exact absurd rfl hfail
      | _ => exact hexact
    exact hnotMissed hchosen (hmissed j (hproposed hchosen))

/-- A run changes only the nodes that its events are at. -/
theorem run_node {es : List Event} {n : NodeID} (hn : ∀ e ∈ es, e.node ≠ n) : ∀ s : Sys, (s.run P es).node n = s.node n := by
  induction es with
  | nil => exact fun s => rfl
  | cons e es ih =>
    intro s
    calc ((s.step P e).run P es).node n = (s.step P e).node n := ih (fun e he => hn e (List.mem_cons_of_mem _ he)) _
      _ = s.node n := Function.update_of_ne (hn e List.mem_cons_self).symm ..

/-- After `learnRun` the call of node 1 takes its result. -/
def returnRun : List Event := learnRun ++ [⟨1, .getResult 0, {}⟩]

/-- The call of `returnRun`. -/
def returnedCall : Call := { callID := 0, value := [7], smid := 0, retryCount := 2, phase := .returned .ok 0 }

theorem returnedCall_alone : returnedCall.Alone (Sys.run .plain returnRun (Sys.init .plain (.ofList [1, 2, 3]))) 1 := by
  constructor
  · intro m d hd _
    by_cases hm : m ∈ returnRun.map Event.node
    · have hall : ∀ m ∈ returnRun.map Event.node,
          ∀ d ∈ ((Sys.run .plain returnRun (Sys.init .plain (.ofList [1, 2, 3]))).node m).calls, m = 1 ∧ d.callID = 0 := by
        decide +kernel
      exact hall m hm d hd
    · have hother : ∀ e ∈ returnRun, e.node ≠ m := fun e he heq => hm (List.mem_map.mpr ⟨e, he, heq⟩)
      rw [run_node hother] at hd
      cases hd
  · intro m i hm
    have hall : (Sys.run .plain returnRun (Sys.init .plain (.ofList [1, 2, 3]))).hist.all (fun
        | .initSystemVariables _ _ _ => false
        | _ => true) = true := by decide +kernel
    exact absurd (List.all_eq_true.mp hall _ hm) (by simp)

theorem propose_exact_returnRun : Chosen (.ofList [1, 2, 3])
    (Sys.run .plain returnRun (Sys.init .plain (.ofList [1, 2, 3]))).hist 0 (packPaxosValue [7] 0) := by
  have hs : Reachable .plain inNetwork (.ofList [1, 2, 3]) (Sys.run .plain returnRun (Sys.init .plain (.ofList [1, 2, 3]))) :=
    .of_run .plain .init (by decide +kernel)
  have hr : Regular (.ofList [1, 2, 3]) (Sys.run .plain returnRun (Sys.init .plain (.ofList [1, 2, 3]))).hist :=
    Regular.of_pastAll (by decide +kernel)
  have hc : returnedCall ∈ ((Sys.run .plain returnRun (Sys.init .plain (.ofList [1, 2, 3]))).node 1).calls := by
    decide +kernel
  refine (propose_exact hs rfl hr.steady.noRestart ?_ ?_ hc returnedCall_alone).2.1 0 rfl
  · exact fun hv hw => hs.stepping.chosen_unique hr.steady hr.ownPromiseFirst hv hw
  · exact fun hm => (hs.stepping.learns hr _).2.chosen_of_mem hm

end PhxPaxos
