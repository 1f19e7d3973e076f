import PhxPaxos.Batches.Moves

/-!
# The commits of a batch group

At most one call of `NewValueGetID` holds the lock, and the commit context is that call's (`Commits.current`). So a call
that returned `ok` names an instance that has its value and that no other call is given (`Commits.returned`,
`Commits.distinct`).
-/

namespace PhxPaxos

/-- The calls of `NewValueGetID`, one for each group. -/
def BatchGroup.calls (s : BatchGroup) : List (Option Call) := s.doing.map DoPropose.call

/-- The record of the instance, if it is still there, holds the value of the call. -/
def Holds (log : Nat → Option Bytes) (instanceID : Nat) (c : Call) : Prop :=
  ∀ value, log instanceID = some value → value = packPaxosValue c.value c.smid

/-- The commit context is that of the call `c`. -/
structure Current (calls : List (Option Call)) (ctx : CommitCtx) (instanceID : Nat) (log : Nat → Option Bytes) (c : Call) :
    Prop where
  going : ctx.isCommitEnd = false →
    ctx.value = some (packPaxosValue c.value c.smid) ∧ (ctx.instanceID = none ∨ ctx.instanceID = some instanceID)
  ok : ctx.isCommitEnd = true → ctx.commitRet = .ok → ∃ i, ctx.instanceID = some i ∧ i < instanceID ∧ Holds log i c ∧
    ∀ c', some c' ∈ calls → c'.phase ≠ .returned .ok i

structure Commits (calls : List (Option Call)) (ctx : CommitCtx) (instanceID : Nat) (log : Nat → Option Bytes) : Prop where
  ended : ctx.isCommitEnd = true → ctx.value = none
  holder : ∀ {i j : Nat} {c c' : Call}, calls[i]? = some (some c) → calls[j]? = some (some c') → c.phase = .getResult →
    c'.phase = .getResult → i = j
  current : ∀ {c : Call}, some c ∈ calls → c.phase = .getResult → Current calls ctx instanceID log c
  returned : ∀ {c : Call} {i : Nat}, some c ∈ calls → c.phase = .returned .ok i → i < instanceID ∧ Holds log i c
  distinct : ∀ {i j : Nat} {c c' : Call} {k : Nat}, calls[i]? = some (some c) → calls[j]? = some (some c') → c.phase = .returned .ok k →
    c'.phase = .returned .ok k → i = j

theorem afterTry_value (c : Call) (ret : PaxosTryCommitRet) (i : Nat) :
    (c.afterTry ret i).value = c.value ∧ (c.afterTry ret i).smid = c.smid := by
  unfold Call.afterTry
  split <;> exact ⟨rfl, rfl⟩

theorem afterTry_phase (c : Call) (ret : PaxosTryCommitRet) (i : Nat) :
    (c.afterTry ret i).phase = .returned ret i ∨ (c.afterTry ret i).phase = .waitLock := by
  unfold Call.afterTry
  split
  · exact Or.inl rfl
  · exact Or.inr rfl

theorem getElem?_set_cases {α : Type} {l : List α} {i j : Nat} {a b : α} (h : (l.set i b)[j]? = some a) :
    j = i ∧ a = b ∨ j ≠ i ∧ l[j]? = some a := by
  by_cases hj : i = j
  · subst hj
    rw [List.getElem?_set_self'] at h
    cases hi : l[i]? with
    | none => simp [hi] at h
    | some x =>
      rw [hi] at h
      exact Or.inl ⟨rfl, (Option.some.inj h).symm⟩
  · rw [List.getElem?_set_ne hj] at h
    exact Or.inr ⟨fun heq => hj heq.symm, h⟩

namespace Commits

variable {calls : List (Option Call)} {ctx : CommitCtx} {instanceID : Nat} {log : Nat → Option Bytes}

theorem init (instanceID : Nat) (log : Nat → Option Bytes) : Commits [] {} instanceID log :=
  ⟨by simp, by simp, by simp, by simp, by simp⟩

/-- A call that has just begun. -/
theorem append (h : Commits calls ctx instanceID log) {c : Option Call} (hc : ∀ c', c = some c' → c'.phase = .waitLock) :
    Commits (calls ++ [c]) ctx instanceID log := by
  have hat {i : Nat} {c' : Call} (hi : (calls ++ [c])[i]? = some (some c')) (hphase : c'.phase ≠ .waitLock) :
      calls[i]? = some (some c') := by
    rw [List.getElem?_append] at hi
    split at hi
    · exact hi
    · obtain heq := List.mem_singleton.mp (List.mem_of_getElem? hi)
      exact absurd (hc c' heq.symm) hphase
  have hmem {c' : Call} (hi : some c' ∈ calls ++ [c]) (hphase : c'.phase ≠ .waitLock) : some c' ∈ calls := by
    rcases List.mem_append.mp hi with hi | hi
    · exact hi
    · exact absurd (hc c' (List.mem_singleton.mp hi).symm) hphase
  refine ⟨h.ended, ?_, ?_, ?_, ?_⟩
  · intro i j c₁ c₂ h₁ h₂ hp₁ hp₂
    exact h.holder (hat h₁ (by simp [hp₁])) (hat h₂ (by simp [hp₂])) hp₁ hp₂
  · intro c₁ h₁ hp₁
    have hcur := h.current (hmem h₁ (by simp [hp₁])) hp₁
    refine ⟨hcur.going, fun hend hret => ?_⟩
    obtain ⟨i, hi, hlt, hholds, hfresh⟩ := hcur.ok hend hret
    exact ⟨i, hi, hlt, hholds, fun c' hc' heq => hfresh c' (hmem hc' (by simp [heq])) heq⟩
  · intro c₁ i h₁ hp₁
    exact h.returned (hmem h₁ (by simp [hp₁])) hp₁
  · intro i j c₁ c₂ k h₁ h₂ hp₁ hp₂
    exact h.distinct (hat h₁ (by simp [hp₁])) (hat h₂ (by simp [hp₂])) hp₁ hp₂

/-- A call of which nothing is claimed replaces another. -/
theorem set (h : Commits calls ctx instanceID log) {i : Nat} {c' : Call} (hget : c'.phase ≠ .getResult)
    (hret : ∀ k, c'.phase ≠ .returned .ok k) : Commits (calls.set i (some c')) ctx instanceID log := by
  have hat {j : Nat} {c : Call} (hj : (calls.set i (some c'))[j]? = some (some c))
      (hphase : c.phase = .getResult ∨ ∃ k, c.phase = .returned .ok k) : calls[j]? = some (some c) := by
    rcases getElem?_set_cases hj with ⟨-, heq⟩ | ⟨-, hj⟩
    · cases heq
      rcases hphase with hp | ⟨k, hp⟩
      · exact absurd hp hget
      · exact absurd hp (hret k)
    · exact hj
  have hmem {c : Call} (hc : some c ∈ calls.set i (some c'))
      (hphase : c.phase = .getResult ∨ ∃ k, c.phase = .returned .ok k) : some c ∈ calls := by
    obtain ⟨j, hj⟩ := List.mem_iff_getElem?.mp hc
    exact List.mem_of_getElem? (hat hj hphase)
  refine ⟨h.ended, ?_, ?_, ?_, ?_⟩
  · intro j k c₁ c₂ h₁ h₂ hp₁ hp₂
    exact h.holder (hat h₁ (Or.inl hp₁)) (hat h₂ (Or.inl hp₂)) hp₁ hp₂
  · intro c₁ h₁ hp₁
    have hcur := h.current (hmem h₁ (Or.inl hp₁)) hp₁
    refine ⟨hcur.going, fun hend hok => ?_⟩
    obtain ⟨k, hk, hlt, hholds, hfresh⟩ := hcur.ok hend hok
    exact ⟨k, hk, hlt, hholds, fun c hc heq => hfresh c (hmem hc (Or.inr ⟨k, heq⟩)) heq⟩
  · intro c₁ k h₁ hp₁
    exact h.returned (hmem h₁ (Or.inr ⟨k, hp₁⟩)) hp₁
  · intro j k c₁ c₂ m h₁ h₂ hp₁ hp₂
    exact h.distinct (hat h₁ (Or.inr ⟨m, hp₁⟩)) (hat h₂ (Or.inr ⟨m, hp₂⟩)) hp₁ hp₂

/-- The lock is given to a call while no other has it. -/
theorem lock (h : Commits calls ctx instanceID log) (hfree : ∀ c, some c ∈ calls → c.phase ≠ .getResult) {i : Nat} {c : Call}
    {timeoutMs : Int} :
    Commits (calls.set i (some { c with phase := .getResult }))
      (CommitCtx.newCommit (packPaxosValue c.value c.smid) timeoutMs) instanceID log := by
  have hat {j : Nat} {c' : Call} (hj : (calls.set i (some { c with phase := .getResult }))[j]? = some (some c')) :
      j = i ∧ c' = { c with phase := .getResult } ∨ calls[j]? = some (some c') := by
    rcases getElem?_set_cases hj with ⟨hji, heq⟩ | ⟨-, hj⟩
    · exact Or.inl ⟨hji, Option.some.inj heq⟩
    · exact Or.inr hj
  refine ⟨by simp [CommitCtx.newCommit], ?_, ?_, ?_, ?_⟩
  · intro j k c₁ c₂ h₁ h₂ hp₁ hp₂
    rcases hat h₁ with ⟨rfl, -⟩ | h₁
    · rcases hat h₂ with ⟨rfl, -⟩ | h₂
      · rfl
      · exact absurd hp₂ (hfree _ (List.mem_of_getElem? h₂))
    · exact absurd hp₁ (hfree _ (List.mem_of_getElem? h₁))
  · intro c₁ h₁ hp₁
    obtain ⟨j, hj⟩ := List.mem_iff_getElem?.mp h₁
    rcases hat hj with ⟨-, rfl⟩ | hj
    · exact ⟨fun _ => ⟨rfl, Or.inl rfl⟩, fun hend => by cases hend⟩
    · exact absurd hp₁ (hfree _ (List.mem_of_getElem? hj))
  · intro c₁ k h₁ hp₁
    obtain ⟨j, hj⟩ := List.mem_iff_getElem?.mp h₁
    rcases hat hj with ⟨-, rfl⟩ | hj
    · cases hp₁
    · exact h.returned (List.mem_of_getElem? hj) hp₁
  · intro j k c₁ c₂ m h₁ h₂ hp₁ hp₂
    rcases hat h₁ with ⟨-, rfl⟩ | h₁
    · cases hp₁
    · rcases hat h₂ with ⟨-, rfl⟩ | h₂
      · cases hp₂
      · exact h.distinct h₁ h₂ hp₁ hp₂

/-- The call that holds the lock is given the result of its commit. -/
theorem getResult (h : Commits calls ctx instanceID log) {i : Nat} {c : Call} (hi : calls[i]? = some (some c))
    (hphase : c.phase = .getResult) (hend : ctx.isCommitEnd = true) :
    Commits (calls.set i (some (c.afterTry ctx.commitRet (ctx.instanceID.getD 0)))) ctx instanceID log := by
  obtain ⟨hvalue, hsmid⟩ := afterTry_value c ctx.commitRet (ctx.instanceID.getD 0)
  rcases afterTry_phase c ctx.commitRet (ctx.instanceID.getD 0) with hp | hp
  · by_cases hret : ctx.commitRet = .ok
    · obtain ⟨k, hk, hlt, hholds, hfresh⟩ := (h.current (List.mem_of_getElem? hi) hphase).ok hend hret
      rw [hret, hk] at hp hvalue hsmid ⊢
      rw [Option.getD_some] at hp hvalue hsmid ⊢
      generalize c.afterTry .ok k = c' at hp hvalue hsmid ⊢
      have hat {j : Nat} {c₁ : Call} (hj : (calls.set i (some c'))[j]? = some (some c₁)) :
          j = i ∧ c₁ = c' ∨ j ≠ i ∧ calls[j]? = some (some c₁) := by
        rcases getElem?_set_cases hj with ⟨hji, heq⟩ | hj
        · exact Or.inl ⟨hji, Option.some.inj heq⟩
        · exact Or.inr hj
      have hothers {j : Nat} {c₁ : Call} (hj : (calls.set i (some c'))[j]? = some (some c₁)) : c₁.phase ≠ .getResult := by
        rcases hat hj with ⟨-, rfl⟩ | ⟨hne, hj⟩
        · simp [hp]
        · exact fun hget => hne (h.holder hj hi hget hphase)
      refine ⟨h.ended, ?_, ?_, ?_, ?_⟩
      · intro j m c₁ c₂ h₁ _ hp₁ _
        exact absurd hp₁ (hothers h₁)
      · intro c₁ h₁ hp₁
        obtain ⟨j, hj⟩ := List.mem_iff_getElem?.mp h₁
        exact absurd hp₁ (hothers hj)
      · intro c₁ m h₁ hp₁
        obtain ⟨j, hj⟩ := List.mem_iff_getElem?.mp h₁
        rcases hat hj with ⟨-, rfl⟩ | ⟨-, hj⟩
        · rw [hp] at hp₁
          cases hp₁
          refine ⟨hlt, fun v hv => ?_⟩
          rw [hvalue, hsmid]
          exact hholds v hv
        · exact h.returned (List.mem_of_getElem? hj) hp₁
      · intro j m c₁ c₂ n h₁ h₂ hp₁ hp₂
        rcases hat h₁ with ⟨rfl, rfl⟩ | ⟨-, hold₁⟩
        · rw [hp] at hp₁
          cases hp₁
          rcases hat h₂ with ⟨rfl, -⟩ | ⟨-, hold₂⟩
          · rfl
          · exact absurd hp₂ (hfresh _ (List.mem_of_getElem? hold₂))
        · rcases hat h₂ with ⟨rfl, rfl⟩ | ⟨-, hold₂⟩
          · rw [hp] at hp₂
            cases hp₂
            exact absurd hp₁ (hfresh _ (List.mem_of_getElem? hold₁))
          · exact h.distinct hold₁ hold₂ hp₁ hp₂
    · refine h.set (by simp [hp]) fun k heq => ?_
      rw [hp] at heq
      exact hret (CallPhase.returned.inj heq).1
  · exact h.set (by simp [hp]) (by simp [hp])

/-- The commit context changes, and the log grows perhaps or loses a record. -/
theorem commit (h : Commits calls ctx instanceID log) {ctx' : CommitCtx} {instanceID' : Nat} {log' : Nat → Option Bytes}
    (hended : ctx'.isCommitEnd = true → ctx'.value = none) (hle : instanceID ≤ instanceID')
    (hlog : ∀ i < instanceID, ∀ v, log' i = some v → log i = some v)
    (hcurrent : ∀ c, Current calls ctx instanceID log c →
      (∀ c' k, some c' ∈ calls → c'.phase = .returned .ok k → k < instanceID) → Current calls ctx' instanceID' log' c) :
    Commits calls ctx' instanceID' log' := by
  refine ⟨hended, h.holder, ?_, ?_, h.distinct⟩
  · intro c hc hphase
    exact hcurrent c (h.current hc hphase) fun c' k hc' hk => (h.returned hc' hk).1
  · intro c i hc hphase
    obtain ⟨hlt, hholds⟩ := h.returned hc hphase
    exact ⟨by omega, fun v hv => hholds v (hlog i hlt v hv)⟩

end Commits

/-! ## The commit context -/

theorem setResult_ended {ctx : CommitCtx} {ret : PaxosTryCommitRet} {i : Option Nat} {v : Bytes}
    (hended : ctx.isCommitEnd = true → ctx.value = none) :
    (ctx.setResult ret i v).isCommitEnd = true → (ctx.setResult ret i v).value = none := by
  unfold CommitCtx.setResult
  split
  · exact hended
  · exact fun _ => rfl

theorem setResult_of_ended {ctx : CommitCtx} {ret : PaxosTryCommitRet} {i : Option Nat} {v : Bytes}
    (hend : ctx.isCommitEnd = true) : ctx.setResult ret i v = ctx := by
  simp [CommitCtx.setResult, hend]

theorem setResult_of_ne {ctx : CommitCtx} {ret : PaxosTryCommitRet} {i : Option Nat} {v : Bytes}
    (h : ctx.instanceID ≠ i) : ctx.setResult ret i v = ctx := by
  simp [CommitCtx.setResult, h]

theorem setResult_of_going {ctx : CommitCtx} {ret : PaxosTryCommitRet} {i : Option Nat} {v : Bytes}
    (hend : ctx.isCommitEnd = false) (h : ctx.instanceID = i) :
    ctx.setResult ret i v =
      { ctx with
        commitRet := if ret = .ok ∧ ctx.value ≠ some v then .conflict else ret
        isCommitEnd := true
        value := none } := by
  simp [CommitCtx.setResult, hend, h]

variable {calls : List (Option Call)} {ctx : CommitCtx} {instanceID : Nat} {log : Nat → Option Bytes} {c : Call}

theorem Current.startCommit (h : Current calls ctx instanceID log c) (hgoing : ctx.isCommitEnd = false) :
    Current calls (ctx.startCommit instanceID) instanceID log c :=
  ⟨fun _ => ⟨(h.going hgoing).1, Or.inr rfl⟩, fun hend => by
    rw [show (ctx.startCommit instanceID).isCommitEnd = ctx.isCommitEnd from rfl, hgoing] at hend
    cases hend⟩

/-- A commit that fails names no instance. -/
theorem Current.fail (h : Current calls ctx instanceID log c) {ret : PaxosTryCommitRet} (hret : ret ≠ .ok) {i : Option Nat}
    {v : Bytes} : Current calls (ctx.setResult ret i v) instanceID log c := by
  by_cases hend : ctx.isCommitEnd = true
  · rwa [setResult_of_ended hend]
  · have hgoing : ctx.isCommitEnd = false := by simpa using hend
    by_cases hi : ctx.instanceID = i
    · rw [setResult_of_going hgoing hi]
      refine ⟨fun h' => Bool.noConfusion h', fun _ hok => ?_⟩
      simp [hret] at hok
    · rwa [setResult_of_ne hi]

/-- The instance of a commit has learned a value: the commit succeeds if it is its own. -/
theorem Current.learned (h : Current calls ctx instanceID log c)
    (hold : ∀ c' k, some c' ∈ calls → c'.phase = .returned .ok k → k < instanceID) {v : Bytes} :
    Current calls (ctx.setResult .ok (some instanceID) v) (instanceID + 1)
      (Function.update log instanceID (some v)) c := by
  have hbelow {i : Nat} (hlt : i < instanceID) (hholds : Holds log i c) :
      Holds (Function.update log instanceID (some v)) i c := by
    intro w hw
    rw [Function.update_of_ne (by omega)] at hw
    exact hholds w hw
  by_cases hend : ctx.isCommitEnd = true
  · rw [setResult_of_ended hend]
    refine ⟨fun hgoing => by simp [hend] at hgoing, fun _ hok => ?_⟩
    obtain ⟨i, hi, hlt, hholds, hfresh⟩ := h.ok hend hok
    exact ⟨i, hi, by omega, hbelow hlt hholds, hfresh⟩
  · have hgoing : ctx.isCommitEnd = false := by simpa using hend
    obtain ⟨hvalue, hi⟩ := h.going hgoing
    by_cases hsame : ctx.instanceID = some instanceID
    · rw [setResult_of_going hgoing hsame]
      refine ⟨fun h' => Bool.noConfusion h', fun _ hok => ⟨instanceID, hsame, Nat.lt_succ_self _, ?_, ?_⟩⟩
      · intro w hw
        rw [Function.update_self] at hw
        cases hw
        by_cases hown : ctx.value = some v
        · rw [hvalue] at hown
          exact (Option.some.inj hown).symm
        · simp [hown] at hok
      · intro c' hc' hk
        exact absurd (hold c' instanceID hc' hk) (by omega)
    · rw [setResult_of_ne hsame]
      refine ⟨fun _ => ⟨hvalue, Or.inl (hi.resolve_right hsame)⟩, fun h' => absurd h' hend⟩

theorem Current.delete (h : Current calls ctx instanceID log c) {i : Nat} :
    Current calls ctx instanceID (Function.update log i none) c := by
  refine ⟨h.going, fun hend hok => ?_⟩
  obtain ⟨k, hk, hlt, hholds, hfresh⟩ := h.ok hend hok
  refine ⟨k, hk, hlt, fun v hv => ?_, hfresh⟩
  by_cases heq : k = i
  · subst heq
    rw [Function.update_self] at hv
    cases hv
  · rw [Function.update_of_ne heq] at hv
    exact hholds v hv

/-! ## Every move -/

namespace BatchGroup

variable {e : BatchEvent} {s s' : BatchGroup}

def CommitsOk (s : BatchGroup) : Prop := Commits s.calls s.commitCtx s.instanceID s.log

theorem calls_setDoing {i : Nat} {d : DoPropose} : (s.setDoing i d).calls = s.calls.set i d.call := by
  simp [calls, setDoing, List.map_set]

theorem calls_start {thread : Proposing} {request : List PendingProposal} {doing : List DoPropose}
    (h : Commits (doing.map DoPropose.call) ctx instanceID log) :
    Commits ((doing ++ DoPropose.start thread request).map DoPropose.call) ctx instanceID log := by
  unfold DoPropose.start
  split
  · rwa [List.append_nil]
  · rw [List.map_append]
    exact h.append fun c hc => DoPropose.newCall_phase hc

theorem CommitsOk.move (h : CommitsOk s) (hmove : Moves e s s') : CommitsOk s' := by
  have hat {i : Nat} {d : DoPropose} {c : Call} (hd : s.doing[i]? = some d) (hopen : d.Open c) :
      s.calls[i]? = some (some c) := by
    unfold calls
    rw [List.getElem?_map, hd, Option.map_some, hopen.1]
  cases hmove with
  | same | call | leave | answered | work | drain => exact h
  | add => exact calls_start h
  | pluck => exact calls_start h
  | propose =>
    show Commits ((s.doing ++ _).map DoPropose.call) _ _ _
    rw [List.map_append]
    exact Commits.append h fun c hc => by cases hc; rfl
  | lock hd hopen hfree =>
    show Commits (setDoing s _ _).calls _ _ _
    rw [calls_setDoing]
    refine Commits.lock h fun c' hc' hphase => ?_
    obtain ⟨d', hd', hcall⟩ := List.mem_map.mp hc'
    have := hfree d' hd'
    simp [DoPropose.holdsLock, hcall, hphase] at this
  | lockFail hd hopen hphase hok hconflict =>
    show Commits (setDoing s _ _).calls _ _ _
    rw [calls_setDoing]
    exact Commits.set h (by simp) (by simp [hok])
  | getResult hd hopen hphase hend =>
    show Commits (setDoing s _ _).calls _ _ _
    rw [calls_setDoing]
    exact Commits.getResult h (hat hd hopen) hphase hend
  | @notify i d p ret instanceID hd hresult hp =>
    show Commits (setDoing s _ _).calls _ _ _
    rw [calls_setDoing]
    have hcall : s.calls[i]? = some d.call := by
      unfold calls
      rw [List.getElem?_map, hd, Option.map_some]
    obtain ⟨hi, heq⟩ := List.getElem?_eq_some_iff.mp hcall
    have hsame : s.calls.set i d.call = s.calls := by rw [← heq, List.set_getElem_self]
    rw [hsame]
    exact h
  | startCommit hnew =>
    have hgoing : s.commitCtx.isCommitEnd = false := by
      by_contra hend
      have hvalue := Commits.ended h (by simpa using hend)
      simp [CommitCtx.isNewCommit, hvalue] at hnew
    refine Commits.commit h (fun hend => ?_) le_rfl (fun _ _ _ hv => hv) fun c hc _ => hc.startCommit hgoing
    exact absurd hend (by simp [CommitCtx.startCommit, hgoing])
  | refuse _ hret => exact Commits.commit h (setResult_ended h.ended) le_rfl (fun _ _ _ hv => hv) fun c hc _ => hc.fail hret
  | commitFail hret => exact Commits.commit h (setResult_ended h.ended) le_rfl (fun _ _ _ hv => hv) fun c hc _ => hc.fail hret
  | learned =>
    refine Commits.commit h (setResult_ended h.ended) (Nat.le_succ _) (fun i hi v hv => ?_) fun c hc hold => hc.learned hold
    have hv : Function.update s.log s.instanceID _ i = some v := hv
    rwa [Function.update_of_ne (Nat.ne_of_lt hi)] at hv
  | @delete i =>
    refine Commits.commit h h.ended le_rfl (fun k _ v hv => ?_) fun c hc _ => hc.delete
    have hv : Function.update s.log i none k = some v := hv
    by_cases heq : k = i
    · subst heq
      rw [Function.update_self] at hv
      cases hv
    · rwa [Function.update_of_ne heq] at hv

end BatchGroup

end PhxPaxos
