import Mathlib.Data.Finset.Card
import PhxPaxos.Abstract.History
import PhxPaxos.Model.WaitLock

/-!
# One commit at a time

Whatever the threads do that propose values, at most one of them is between `Lock` and `UnLock` (`Holding`), the count of the
lock is that of the threads that wait (`Waiting`), and the commit context serves one call at a time (`Serves`): a value is handed
over only when the result of the one before was taken, and each call takes the result that was set for its own value
(`Committer.Reachable.serves`). The lock refuses at most 98 of 100 calls for their waiting time (`WaitLock.Sane`).
-/

namespace PhxPaxos

/-- The thread is between `Lock` and `UnLock`. -/
def CommitPoint.holds : CommitPoint → Bool
  | .locked _ _ | .getResult _ | .unLock _ _ _ => true
  | _ => false

/-- The thread is in the loop of `Lock`. -/
def CommitPoint.waits : CommitPoint → Bool
  | .wait _ _ => true
  | _ => false

/-- The thread is in `GetResult`. -/
def CommitPoint.inResult : CommitPoint → Bool
  | .getResult _ => true
  | _ => false

variable {τ : Type*} [DecidableEq τ]

/-! ## Who holds the lock -/

/-- `isLockUsing` says whether a thread holds the lock, and at most one does. -/
structure Holding (isLockUsing : Bool) (point : τ → CommitPoint) : Prop where
  using_iff : isLockUsing = true ↔ ∃ t, (point t).holds = true
  unique : ∀ t t', (point t).holds = true → (point t').holds = true → t = t'

/-- `count` threads wait for the lock. -/
def Waiting (count : Nat) (point : τ → CommitPoint) : Prop :=
  ∃ F : Finset τ, (∀ t, t ∈ F ↔ (point t).waits = true) ∧ F.card = count

section Update

variable {isLockUsing : Bool} {count : Nat} {point : τ → CommitPoint} {t : τ} {p : CommitPoint}

theorem holds_update (t' : τ) :
    (Function.update point t p t').holds = if t' = t then p.holds else (point t').holds := by
  by_cases h : t' = t
  · subst h
    simp
  · simp [h]

theorem waits_update (t' : τ) :
    (Function.update point t p t').waits = if t' = t then p.waits else (point t').waits := by
  by_cases h : t' = t
  · subst h
    simp
  · simp [h]

theorem Holding.same (h : Holding isLockUsing point) (heq : p.holds = (point t).holds) :
    Holding isLockUsing (Function.update point t p) := by
  have hsame (t' : τ) : (Function.update point t p t').holds = (point t').holds := by
    rw [holds_update]
    split
    case isTrue ht => rw [ht, heq]
    case isFalse => rfl
  constructor
  · simpa only [hsame] using h.using_iff
  · simpa only [hsame] using h.unique

/-- The lock is taken where nobody holds it. -/
theorem Holding.take (h : Holding false point) (hp : p.holds = true) : Holding true (Function.update point t p) := by
  have hfree (t' : τ) : (point t').holds = false := by
    by_contra hne
    exact absurd (h.using_iff.mpr ⟨t', Bool.eq_true_of_not_eq_false hne⟩) Bool.false_ne_true
  have hself (t' : τ) (ht' : (Function.update point t p t').holds = true) : t' = t := by
    by_contra hne
    rw [holds_update, if_neg hne, hfree] at ht'
    exact absurd ht' Bool.false_ne_true
  constructor
  · exact iff_of_true rfl ⟨t, by rw [holds_update, if_pos rfl, hp]⟩
  · intro t' t'' ht' ht''
    rw [hself t' ht', hself t'' ht'']

/-- The holder leaves. -/
theorem Holding.free (h : Holding isLockUsing point) (ht : (point t).holds = true) (hp : p.holds = false) :
    Holding false (Function.update point t p) := by
  have hnone (t' : τ) : (Function.update point t p t').holds = false := by
    rw [holds_update]
    split
    case isTrue => exact hp
    case isFalse hne => exact Bool.eq_false_iff.mpr fun ht' => hne (h.unique t' t ht' ht)
  constructor
  · simp only [hnone, Bool.false_eq_true, exists_false]
  · intro t' _ ht'
    rw [hnone] at ht'
    exact absurd ht' Bool.false_ne_true

theorem Waiting.same (h : Waiting count point) (heq : p.waits = (point t).waits) : Waiting count (Function.update point t p) := by
  obtain ⟨F, hmem, hcard⟩ := h
  refine ⟨F, fun t' => ?_, hcard⟩
  rw [hmem, waits_update]
  split
  case isTrue ht => rw [ht, heq]
  case isFalse => rfl

theorem Waiting.insert (h : Waiting count point) (ht : (point t).waits = false) (hp : p.waits = true) :
    Waiting (count + 1) (Function.update point t p) := by
  obtain ⟨F, hmem, hcard⟩ := h
  have hnot : t ∉ F := fun hin => by simp [(hmem t).mp hin] at ht
  refine ⟨Insert.insert t F, fun t' => ?_, by rw [Finset.card_insert_of_notMem hnot, hcard]⟩
  rw [Finset.mem_insert, hmem, waits_update]
  split
  case isTrue heq => simp [heq, hp]
  case isFalse hne => simp [hne]

theorem Waiting.erase (h : Waiting count point) (ht : (point t).waits = true) (hp : p.waits = false) :
    Waiting (count - 1) (Function.update point t p) := by
  obtain ⟨F, hmem, hcard⟩ := h
  refine ⟨F.erase t, fun t' => ?_, by rw [Finset.card_erase_of_mem ((hmem t).mpr ht), hcard]⟩
  rw [Finset.mem_erase, hmem, waits_update]
  split
  case isTrue heq => simp [heq, hp]
  case isFalse hne => simp [hne]

end Update

/-! ## The limits -/

namespace WaitLock

/-- No more threads wait than may, and the reject rate is one. -/
structure Sane (l : WaitLock) : Prop where
  bounded : l.maxWaitLockCount ≠ -1 → l.waitLockCount = 0 ∨ (l.waitLockCount : Int) ≤ l.maxWaitLockCount
  rate_nonneg : 0 ≤ l.rejectRate
  rate_le : l.rejectRate ≤ 98

variable {l : WaitLock}

/-- Only the statistics change. -/
theorem refleshRejectRate_same (useTimeMs : Nat) (l : WaitLock) :
    (l.refleshRejectRate useTimeMs).isLockUsing = l.isLockUsing ∧
      (l.refleshRejectRate useTimeMs).waitLockCount = l.waitLockCount ∧
      (l.refleshRejectRate useTimeMs).maxWaitLockCount = l.maxWaitLockCount := by
  unfold refleshRejectRate
  dsimp only
  split
  · exact ⟨rfl, rfl, rfl⟩
  · split
    · split <;> exact ⟨rfl, rfl, rfl⟩
    · exact ⟨rfl, rfl, rfl⟩

theorem refleshRejectRate_rate (useTimeMs : Nat) (h0 : 0 ≤ l.rejectRate) (h98 : l.rejectRate ≤ 98) :
    0 ≤ (l.refleshRejectRate useTimeMs).rejectRate ∧ (l.refleshRejectRate useTimeMs).rejectRate ≤ 98 := by
  unfold refleshRejectRate
  dsimp only
  split
  · exact ⟨h0, h98⟩
  · split
    · split <;> dsimp only <;> split <;> (try split) <;> constructor <;> omega
    · exact ⟨h0, h98⟩

theorem leave_isLockUsing (getLock : Bool) (useTimeMs : Nat) (l : WaitLock) :
    (l.leave getLock useTimeMs).isLockUsing = (getLock || l.isLockUsing) := by
  have hsame := (refleshRejectRate_same useTimeMs { l with waitLockCount := l.waitLockCount - 1 }).1
  cases getLock
  · exact hsame
  · rfl

theorem leave_waitLockCount (getLock : Bool) (useTimeMs : Nat) (l : WaitLock) :
    (l.leave getLock useTimeMs).waitLockCount = l.waitLockCount - 1 := by
  have hsame := (refleshRejectRate_same useTimeMs { l with waitLockCount := l.waitLockCount - 1 }).2.1
  cases getLock <;> exact hsame

theorem Sane.leave (h : l.Sane) (getLock : Bool) (useTimeMs : Nat) : (l.leave getLock useTimeMs).Sane := by
  have hsame := (refleshRejectRate_same useTimeMs { l with waitLockCount := l.waitLockCount - 1 }).2.2
  have hmax : (l.leave getLock useTimeMs).maxWaitLockCount = l.maxWaitLockCount := by cases getLock <;> exact hsame
  have hrate := refleshRejectRate_rate (l := { l with waitLockCount := l.waitLockCount - 1 }) useTimeMs h.rate_nonneg h.rate_le
  refine ⟨fun hne => ?_, ?_, ?_⟩
  · rw [hmax] at hne ⊢
    rw [leave_waitLockCount]
    have hold := h.bounded hne
    omega
  · cases getLock <;> exact hrate.1
  · cases getLock <;> exact hrate.2

/-- A thread that may lock is counted. -/
theorem Sane.enter (h : l.Sane) {rand : Nat} (hcan : l.canLock rand = true) :
    { l with waitLockCount := l.waitLockCount + 1 }.Sane := by
  refine ⟨fun hne => Or.inr ?_, h.rate_nonneg, h.rate_le⟩
  unfold canLock at hcan
  split at hcan
  · cases hcan
  case isFalse hnot =>
    have hlt : ¬ ((l.waitLockCount : Int) ≥ l.maxWaitLockCount) := fun hge => hnot ⟨hne, hge⟩
    simp only at hne ⊢
    omega

end WaitLock
namespace Committer

variable {s : Committer τ} {t : τ} {c : CommitTry}

/-! ## The lock over a run -/

/-- What the lock is, at every step of every thread. -/
structure Locked (s : Committer τ) : Prop where
  holding : Holding s.waitLock.isLockUsing s.point
  waiting : Waiting s.waitLock.waitLockCount s.point
  sane : s.waitLock.Sane

/-- The end of a try is neither in the lock nor before it. -/
theorem afterTry_out (c : CommitTry) (ret : PaxosTryCommitRet) (instanceID : Nat) :
    (afterTry c ret instanceID).holds = false ∧ (afterTry c ret instanceID).waits = false := by
  unfold afterTry
  split <;> exact ⟨rfl, rfl⟩

/-- A thread moves outside of the lock, or inside of it. -/
theorem Locked.goTo (h : s.Locked) {p : CommitPoint} (hholds : p.holds = (s.point t).holds) (hwaits : p.waits = (s.point t).waits) :
    (s.goTo t p).Locked where
  holding := h.holding.same hholds
  waiting := h.waiting.same hwaits
  sane := h.sane

/-- A thread that waits takes the lock if it is free. -/
theorem tryTake_locked {begin : Nat} (h : (s.goTo t (.wait c begin)).Locked) : (s.tryTake t c begin).Locked := by
  have hwait : Function.update s.point t (.wait c begin) t = .wait c begin := Function.update_self ..
  unfold tryTake
  split
  · exact h
  case isFalse hfree =>
    have hfree' := Bool.eq_false_iff.mpr hfree
    have htwice (p : CommitPoint) :
        Function.update (Function.update s.point t (.wait c begin)) t p = Function.update s.point t p :=
      Function.update_idem ..
    have hholding : Holding false (Function.update s.point t (.wait c begin)) := hfree' ▸ h.holding
    refine ⟨?_, ?_, h.sane.leave true _⟩
    · have htake := hholding.take (t := t) (p := .locked c (s.now - begin)) rfl
      simpa only [Committer.goTo, WaitLock.leave_isLockUsing, Bool.true_or, htwice] using htake
    · have herase := h.waiting.erase (t := t) (p := .locked c (s.now - begin)) (by simp only [Committer.goTo, hwait]; rfl) rfl
      simpa only [Committer.goTo, WaitLock.leave_waitLockCount, htwice] using herase

theorem Locked.enterLock (h : s.Locked) (t : τ) (begin rand : Nat) : (s.enterLock t begin rand).Locked := by
  unfold Committer.enterLock
  split
  case h_1 c hpoint =>
    split
    case isTrue hcan =>
      exact tryTake_locked ⟨h.holding.same (by rw [hpoint]; rfl), h.waiting.insert (by rw [hpoint]; rfl) rfl, h.sane.enter hcan⟩
    case isFalse =>
      obtain ⟨hholds, hwaits⟩ := afterTry_out c (lockFailRet 0) 0
      exact h.goTo (by rw [hpoint, hholds]; rfl) (by rw [hpoint, hwaits]; rfl)
  case h_2 => exact h

theorem Locked.wake (h : s.Locked) (t : τ) (timedOut : Bool) : (s.wake t timedOut).Locked := by
  unfold Committer.wake
  split
  case h_1 c begin hpoint =>
    split
    case isTrue =>
      obtain ⟨hholds, hwaits⟩ := afterTry_out c (lockFailRet (s.now - begin)) 0
      refine ⟨?_, ?_, h.sane.leave false _⟩
      · simp only [Committer.goTo, WaitLock.leave_isLockUsing, Bool.false_or]
        exact h.holding.same (by rw [hpoint, hholds]; rfl)
      · simp only [Committer.goTo, WaitLock.leave_waitLockCount]
        exact h.waiting.erase (by rw [hpoint]; rfl) hwaits
    case isFalse => exact tryTake_locked (h.goTo (by rw [hpoint]) (by rw [hpoint]))
  case h_2 => exact h

theorem Locked.newCommit (h : s.Locked) (t : τ) : (s.newCommit t).Locked := by
  unfold Committer.newCommit
  split
  case h_1 c useTimeMs hpoint =>
    dsimp only
    split
    · exact h.goTo (by rw [hpoint]; rfl) (by rw [hpoint]; rfl)
    · exact ⟨h.holding.same (by rw [hpoint]; rfl), h.waiting.same (by rw [hpoint]; rfl), h.sane⟩
  case h_2 => exact h

theorem Locked.getResult (h : s.Locked) (t : τ) : (s.getResult t).Locked := by
  unfold Committer.getResult
  split
  case h_1 c hpoint =>
    split
    · exact ⟨h.holding.same (by rw [hpoint]; rfl), h.waiting.same (by rw [hpoint]; rfl), h.sane⟩
    · exact h
  case h_2 => exact h

theorem Locked.unLock (h : s.Locked) (t : τ) : (s.unLock t).Locked := by
  unfold Committer.unLock
  split
  case h_1 c ret instanceID hpoint =>
    obtain ⟨hholds, hwaits⟩ := afterTry_out c ret instanceID
    exact ⟨h.holding.free (by rw [hpoint]; rfl) hholds, h.waiting.same (by rw [hpoint, hwaits]; rfl), ⟨h.sane.bounded,
      h.sane.rate_nonneg, h.sane.rate_le⟩⟩
  case h_2 => exact h

theorem Locked.call (h : s.Locked) (t : τ) (value : Bytes) (smid : Nat) : (s.call t value smid).Locked := by
  unfold Committer.call
  split
  case h_1 hpoint => exact h.goTo (by rw [hpoint]; rfl) (by rw [hpoint]; rfl)
  case h_2 hpoint => exact h.goTo (by rw [hpoint]; rfl) (by rw [hpoint]; rfl)
  case h_3 => exact h

omit [DecidableEq τ] in
/-- The commit context is not the lock. -/
theorem setResult_lock (ret : PaxosTryCommitRet) (instanceID : Option Nat) (learnValue : Bytes) (s : Committer τ) :
    (s.setResult ret instanceID learnValue).waitLock = s.waitLock ∧ (s.setResult ret instanceID learnValue).point = s.point := by
  unfold Committer.setResult
  dsimp only
  split <;> exact ⟨rfl, rfl⟩

omit [DecidableEq τ] in
theorem Locked.setResult (h : s.Locked) (ret : PaxosTryCommitRet) (instanceID : Option Nat) (learnValue : Bytes) :
    (s.setResult ret instanceID learnValue).Locked := by
  obtain ⟨hlock, hpoint⟩ := setResult_lock ret instanceID learnValue s
  exact ⟨by rw [hlock, hpoint]; exact h.holding, by rw [hlock, hpoint]; exact h.waiting, by rw [hlock]; exact h.sane⟩

theorem Locked.step (h : s.Locked) (e : Event τ) : (s.step e).Locked := by
  cases e with
  | tick ms => exact ⟨h.holding, h.waiting, h.sane⟩
  | call t value smid => exact h.call t value smid
  | enterLock t begin rand => exact h.enterLock t begin rand
  | wake t timedOut => exact h.wake t timedOut
  | newCommit t => exact h.newCommit t
  | getResult t => exact h.getResult t
  | unLock t => exact h.unLock t
  | checkNewValue refuse instanceID value =>
    simp only [Committer.step, Committer.checkNewValue]
    split
    · cases refuse with
      | some ret => exact h.setResult ret none []
      | none => exact ⟨h.holding, h.waiting, h.sane⟩
    · exact h
  | setResult ret instanceID learnValue => exact h.setResult ret (some instanceID) learnValue

omit [DecidableEq τ] in
theorem locked_start (maxHoldThreads waitTimeThresholdMS timeoutMs : Int) :
    (start maxHoldThreads waitTimeThresholdMS timeoutMs : Committer τ).Locked where
  holding := ⟨by simp [start, CommitPoint.holds], fun t t' ht => by cases ht⟩
  waiting := ⟨∅, fun t => by simp [start, CommitPoint.waits], rfl⟩
  sane := ⟨fun _ => Or.inl rfl, le_rfl, show (0 : Int) ≤ 98 from by decide⟩

theorem Reachable.locked (h : Reachable s) : s.Locked := by
  induction h with
  | start => exact locked_start ..
  | step e _ ih => exact ih.step e

/-! ## One call after the other -/

/-- Nothing was handed over yet, or the last result was taken. -/
def Closed (h : List (CommitEvent τ)) : Prop := h = [] ∨ ∃ t ret i rest, h = .getResult t ret i :: rest

/-- The value of `t` was handed over last, and maybe proposed. -/
inductive Handed (t : τ) : List (CommitEvent τ) → Prop
  | newCommit (v : Bytes) (rest : List (CommitEvent τ)) : Handed t (.newCommit t v :: rest)
  | startCommit (i : Nat) (v' v : Bytes) (rest : List (CommitEvent τ)) :
      Handed t (.startCommit i v' :: .newCommit t v :: rest)

/-- What may come before an event: a value is handed over when the result of the one before was taken, it is proposed once, one
result is set for it, and the thread that handed it over takes this result. The result is a success only where the value that was
proposed is the one that was learned, at the instance that the call returns. -/
def Lawful : CommitEvent τ → List (CommitEvent τ) → Prop
  | .newCommit _ _, older => Closed older
  | .startCommit _ _, older => ∃ t v rest, older = .newCommit t v :: rest
  | .setResult ret i learnValue, older =>
    (i = none ∧ ret ≠ .ok ∧ ∃ t v rest, older = .newCommit t v :: rest) ∨
      ∃ i' v' t v rest, i = some i' ∧ older = .startCommit i' v' :: .newCommit t v :: rest ∧ (ret = .ok → learnValue = v')
  | .getResult t ret i, older =>
    ∃ i' learnValue rest, older = .setResult ret i' learnValue :: rest ∧ Handed t rest ∧ (ret = .ok → i' = some i)

/-- The commit context while `t` is in `GetResult`. -/
inductive Serving (t : τ) (ctx : CommitCtx) : List (CommitEvent τ) → Prop
  | handed {v : Bytes} {rest : List (CommitEvent τ)} (hend : ctx.isCommitEnd = false) (hid : ctx.instanceID = none)
      (hvalue : ctx.value = some v) (hne : v ≠ []) : Serving t ctx (.newCommit t v :: rest)
  | started {i : Nat} {v' v : Bytes} {rest : List (CommitEvent τ)} (hend : ctx.isCommitEnd = false)
      (hid : ctx.instanceID = some i) (hvalue : ctx.value = some v') :
      Serving t ctx (.startCommit i v' :: .newCommit t v :: rest)
  | ended {learnValue : Bytes} {rest : List (CommitEvent τ)} (hend : ctx.isCommitEnd = true) (hvalue : ctx.value = none)
      (hok : ctx.commitRet = .ok → ctx.instanceID ≠ none) (hhanded : Handed t rest) :
      Serving t ctx (.setResult ctx.commitRet ctx.instanceID learnValue :: rest)

/-- The commit context serves the thread that is in `GetResult`, and rests where none is. -/
structure Serves (s : Committer τ) : Prop where
  lawful : ∀ {o older}, Past s.hist o older → Lawful o older
  serving : ∀ t, (s.point t).inResult = true → Serving t s.commitCtx s.hist
  free : (∀ t, (s.point t).inResult = false) →
    Closed s.hist ∧ s.commitCtx.value = none ∧ (s.commitCtx.isCommitEnd = true ∨ s.commitCtx.instanceID = none)

theorem inResult_update {point : τ → CommitPoint} {p : CommitPoint} (t' : τ) :
    (Function.update point t p t').inResult = if t' = t then p.inResult else (point t').inResult := by
  by_cases h : t' = t
  · subst h
    simp
  · simp [h]

omit [DecidableEq τ] in
/-- A thread in `GetResult` holds the lock, so it is the only one. -/
theorem Locked.inResult_unique (h : s.Locked) {t t' : τ} (ht : (s.point t).holds = true) (ht' : (s.point t').inResult = true) :
    t' = t := by
  refine h.holding.unique t' t ?_ ht
  cases hpoint : s.point t' <;> rw [hpoint] at ht' <;> first | rfl | cases ht'

omit [DecidableEq τ] in
/-- What neither hands over a value nor takes a result, and leaves the context alone. -/
theorem Serves.frame {s' : Committer τ} (h : s.Serves) (hpoint : ∀ t, (s'.point t).inResult = (s.point t).inResult)
    (hctx : s'.commitCtx = s.commitCtx) (hhist : s'.hist = s.hist) : s'.Serves := by
  refine ⟨?_, fun t ht => ?_, fun hnone => ?_⟩
  · rw [hhist]
    exact h.lawful
  · rw [hctx, hhist]
    exact h.serving t (hpoint t ▸ ht)
  · rw [hctx, hhist]
    exact h.free fun t => (hpoint t).symm.trans (hnone t)

theorem Serves.goTo {s' : Committer τ} (h : s.Serves) {p : CommitPoint} (hp : p.inResult = (s.point t).inResult)
    (hpoint : s'.point = Function.update s.point t p) (hctx : s'.commitCtx = s.commitCtx) (hhist : s'.hist = s.hist) :
    s'.Serves := by
  refine h.frame (fun t' => ?_) hctx hhist
  rw [hpoint, inResult_update]
  split
  case isTrue heq => rw [heq, hp]
  case isFalse => rfl

theorem afterTry_inResult (c : CommitTry) (ret : PaxosTryCommitRet) (instanceID : Nat) :
    (afterTry c ret instanceID).inResult = false := by
  unfold afterTry
  split <;> rfl

theorem tryTake_serves {begin : Nat} (h : s.Serves) (hpoint : (s.point t).inResult = false) : (s.tryTake t c begin).Serves := by
  unfold tryTake
  split
  · exact h.goTo (p := .wait c begin) hpoint.symm rfl rfl rfl
  · exact h.goTo (p := .locked c (s.now - begin)) hpoint.symm rfl rfl rfl

theorem Serves.enterLock (h : s.Serves) (t : τ) (begin rand : Nat) : (s.enterLock t begin rand).Serves := by
  unfold Committer.enterLock
  split
  case h_1 c hpoint =>
    have hout : (s.point t).inResult = false := by rw [hpoint]; rfl
    split
    · exact tryTake_serves (h.frame (fun _ => rfl) rfl rfl) hout
    · exact h.goTo ((afterTry_inResult ..).trans hout.symm) rfl rfl rfl
  case h_2 => exact h

theorem Serves.wake (h : s.Serves) (t : τ) (timedOut : Bool) : (s.wake t timedOut).Serves := by
  unfold Committer.wake
  split
  case h_1 c begin hpoint =>
    have hout : (s.point t).inResult = false := by rw [hpoint]; rfl
    split
    · exact h.goTo ((afterTry_inResult ..).trans hout.symm) rfl rfl rfl
    · exact tryTake_serves h hout
  case h_2 => exact h

theorem Serves.unLock (h : s.Serves) (t : τ) : (s.unLock t).Serves := by
  unfold Committer.unLock
  split
  case h_1 c ret instanceID hpoint =>
    exact h.goTo ((afterTry_inResult ..).trans (by rw [hpoint]; rfl)) rfl rfl rfl
  case h_2 => exact h

theorem Serves.call (h : s.Serves) (t : τ) (value : Bytes) (smid : Nat) : (s.call t value smid).Serves := by
  unfold Committer.call
  split
  case h_1 hpoint => exact h.goTo (p := .lock ⟨value, smid, 2⟩) (by rw [hpoint]; rfl) rfl rfl rfl
  case h_2 hpoint => exact h.goTo (p := .lock ⟨value, smid, 2⟩) (by rw [hpoint]; rfl) rfl rfl rfl
  case h_3 => exact h

/-- The holder of the lock hands over its value: no result is pending. -/
theorem Serves.newCommit (h : s.Serves) (hl : s.Locked) (t : τ) : (s.newCommit t).Serves := by
  unfold Committer.newCommit
  split
  case h_1 c useTimeMs hpoint =>
    have hholds : (s.point t).holds = true := by rw [hpoint]; rfl
    have hnone (t' : τ) : (s.point t').inResult = false := by
      refine Bool.eq_false_iff.mpr fun ht' => ?_
      rw [hl.inResult_unique hholds ht', hpoint] at ht'
      cases ht'
    dsimp only
    split
    · exact h.goTo (p := .unLock c .timeout 0) (hnone t).symm rfl rfl rfl
    · obtain ⟨hclosed, -, -⟩ := h.free hnone
      refine ⟨Past.forall_cons hclosed h.lawful, fun t' ht' => ?_, fun hfree => ?_⟩
      · have heq : t' = t := by
          by_contra hne
          simp only [Committer.goTo, inResult_update, if_neg hne, hnone] at ht'
          cases ht'
        subst heq
        exact .handed rfl rfl rfl (by simp [packPaxosValue])
      · have hin := hfree t
        simp only [Committer.goTo, inResult_update, if_true] at hin
        cases hin
  case h_2 => exact h

/-- The thread takes the result that was set for its value. -/
theorem Serves.getResult (h : s.Serves) (hl : s.Locked) (t : τ) : (s.getResult t).Serves := by
  unfold Committer.getResult
  split
  case h_1 c hpoint =>
    have hin : (s.point t).inResult = true := by rw [hpoint]; rfl
    have hholds : (s.point t).holds = true := by rw [hpoint]; rfl
    split
    case isTrue hend =>
      have hout (t' : τ) : (Function.update s.point t (.unLock c s.commitCtx.commitRet
          (if s.commitCtx.commitRet = .ok then s.commitCtx.instanceID.getD 0 else 0)) t').inResult = false := by
        rw [inResult_update]
        split
        case isTrue => rfl
        case isFalse hne => exact Bool.eq_false_iff.mpr fun ht' => hne (hl.inResult_unique hholds ht')
      obtain ⟨learnValue, rest, hhist, hvalue, hok, hhanded⟩ : ∃ learnValue rest,
          s.hist = .setResult s.commitCtx.commitRet s.commitCtx.instanceID learnValue :: rest ∧ s.commitCtx.value = none ∧
            (s.commitCtx.commitRet = .ok → s.commitCtx.instanceID ≠ none) ∧ Handed t rest := by
        generalize hh : s.hist = hist
        have hs := h.serving t hin
        rw [hh] at hs
        cases hs with
        | handed hopen => rw [hend] at hopen; cases hopen
        | started hopen => rw [hend] at hopen; cases hopen
        | ended _ hvalue hok hhanded => exact ⟨_, _, rfl, hvalue, hok, hhanded⟩
      have hid (hret : s.commitCtx.commitRet = .ok) : s.commitCtx.instanceID =
          some (if s.commitCtx.commitRet = .ok then s.commitCtx.instanceID.getD 0 else 0) := by
        obtain ⟨i, hi⟩ := Option.ne_none_iff_exists'.mp (hok hret)
        rw [hi, if_pos hret]
        rfl
      refine ⟨Past.forall_cons ⟨_, learnValue, rest, hhist, hhanded, hid⟩ h.lawful, ?_,
        fun _ => ⟨Or.inr ⟨_, _, _, _, rfl⟩, hvalue, Or.inl hend⟩⟩
      intro t' ht'
      exact absurd (ht'.symm.trans (hout t')) Bool.true_eq_false_eq_False
    case isFalse => exact h
  case h_2 => exact h

omit [DecidableEq τ] in
/-- A result that the commit context accepts is one for the value of the thread it serves. -/
theorem Serving.setResult {ctx : CommitCtx} {hist : List (CommitEvent τ)} {learnValue : Bytes} (h : Serving t ctx hist)
    (ret : PaxosTryCommitRet) (hopen : ctx.isCommitEnd = false) (hrefuse : ctx.instanceID = none → learnValue = []) :
    let ctx' := ctx.setResult ret ctx.instanceID learnValue
    Lawful (.setResult ctx'.commitRet ctx.instanceID learnValue) hist ∧
      Serving t ctx' (.setResult ctx'.commitRet ctx.instanceID learnValue :: hist) := by
  have hctx : ctx.setResult ret ctx.instanceID learnValue =
      { ctx with
        commitRet := if ret = .ok ∧ ctx.value ≠ some learnValue then .conflict else ret
        isCommitEnd := true
        value := none } := by
    simp [CommitCtx.setResult, hopen]
  have hok (hret : (if ret = .ok ∧ ctx.value ≠ some learnValue then .conflict else ret) = PaxosTryCommitRet.ok) :
      ctx.value = some learnValue := by
    by_contra hne
    split at hret
    · cases hret
    case isFalse hnot => exact hnot ⟨hret, hne⟩
  rw [hctx]
  dsimp only
  cases h with
  | @handed v rest _ hid hvalue hne =>
    have hnot : (if ret = .ok ∧ ctx.value ≠ some learnValue then .conflict else ret) ≠ PaxosTryCommitRet.ok := by
      intro hret
      rw [hok hret, Option.some.injEq] at hvalue
      exact hne (hvalue.symm.trans (hrefuse hid))
    exact ⟨Or.inl ⟨hid, hnot, t, v, rest, rfl⟩, .ended rfl rfl (fun hret => absurd hret hnot) (.newCommit v rest)⟩
  | @started i v' v rest _ hid hvalue =>
    refine ⟨Or.inr ⟨i, v', t, v, rest, hid, rfl, fun hret => ?_⟩, .ended rfl rfl (fun _ => ?_) (.startCommit i v' v rest)⟩
    · rw [hok hret] at hvalue
      exact Option.some.inj hvalue
    · rw [hid]
      exact Option.some_ne_none i
  | ended hend =>
    rw [hopen] at hend
    cases hend

omit [DecidableEq τ] in
theorem Serves.setResult (h : s.Serves) (ret : PaxosTryCommitRet) {instanceID : Option Nat} {learnValue : Bytes}
    (hrefuse : instanceID = none → s.commitCtx.value ≠ none ∧ learnValue = []) :
    (s.setResult ret instanceID learnValue).Serves := by
  unfold Committer.setResult
  dsimp only
  split
  · exact h
  case isFalse hset =>
    rw [Bool.or_eq_true, not_or, Bool.not_eq_true, decide_eq_true_eq, not_not] at hset
    obtain ⟨hopen, rfl⟩ := hset
    have hset (t : τ) (ht : (s.point t).inResult = true) :=
      (h.serving t ht).setResult ret hopen fun hid => (hrefuse hid).2
    by_cases hsome : ∃ t, (s.point t).inResult = true
    · obtain ⟨t, ht⟩ := hsome
      exact ⟨Past.forall_cons (hset t ht).1 h.lawful, fun t' ht' => (hset t' ht').2, fun hnone =>
        absurd (ht.symm.trans (hnone t)) Bool.true_eq_false_eq_False⟩
    · -- Nobody waits for a result: the context is not open.
      obtain ⟨-, hvalue, hend | hid⟩ := h.free fun t => Bool.eq_false_iff.mpr fun ht => hsome ⟨t, ht⟩
      · rw [hopen] at hend
        cases hend
      · exact absurd hvalue (hrefuse hid).1

omit [DecidableEq τ] in
/-- The event loop refuses the value that was handed over last, or starts its commit. -/
theorem Serves.checkNewValue (h : s.Serves) (refuse : Option PaxosTryCommitRet) (instanceID : Nat) (value : Bytes) :
    (s.checkNewValue refuse instanceID value).Serves := by
  unfold Committer.checkNewValue
  split
  case isTrue hnew =>
    simp only [CommitCtx.isNewCommit, Bool.and_eq_true, Option.isNone_iff_eq_none, Option.isSome_iff_ne_none] at hnew
    obtain ⟨hid, hvalue⟩ := hnew
    cases refuse with
    | some ret => exact h.setResult ret fun _ => ⟨hvalue, rfl⟩
    | none =>
      have hstart (t : τ) (ht : (s.point t).inResult = true) : ∃ v rest, s.hist = .newCommit t v :: rest ∧
          s.commitCtx.isCommitEnd = false := by
        generalize hh : s.hist = hist
        have hs := h.serving t ht
        rw [hh] at hs
        cases hs with
        | handed hend => exact ⟨_, _, rfl, hend⟩
        | started _ hstarted => exact absurd (hid.symm.trans hstarted) (Option.some_ne_none _).symm
        | ended _ hnone => exact absurd hnone hvalue
      by_cases hsome : ∃ t, (s.point t).inResult = true
      · obtain ⟨t, ht⟩ := hsome
        obtain ⟨v, rest, hhist, -⟩ := hstart t ht
        refine ⟨Past.forall_cons ⟨t, v, rest, hhist⟩ h.lawful, fun t' ht' => ?_, fun hnone =>
          absurd (ht.symm.trans (hnone t)) Bool.true_eq_false_eq_False⟩
        obtain ⟨v', rest', hhist', hend⟩ := hstart t' ht'
        dsimp only
        rw [hhist']
        exact .started hend rfl rfl
      · exact absurd (h.free fun t => Bool.eq_false_iff.mpr fun ht => hsome ⟨t, ht⟩).2.1 hvalue
  case isFalse => exact h

theorem Serves.step (h : s.Serves) (hl : s.Locked) (e : Event τ) : (s.step e).Serves := by
  cases e with
  | tick ms => exact h.frame (fun _ => rfl) rfl rfl
  | call t value smid => exact h.call t value smid
  | enterLock t begin rand => exact h.enterLock t begin rand
  | wake t timedOut => exact h.wake t timedOut
  | newCommit t => exact h.newCommit hl t
  | getResult t => exact h.getResult hl t
  | unLock t => exact h.unLock t
  | checkNewValue refuse instanceID value => exact h.checkNewValue refuse instanceID value
  | setResult ret instanceID learnValue => exact h.setResult ret fun hnone => absurd hnone (Option.some_ne_none _)

omit [DecidableEq τ] in
theorem serves_start (maxHoldThreads waitTimeThresholdMS timeoutMs : Int) :
    (start maxHoldThreads waitTimeThresholdMS timeoutMs : Committer τ).Serves where
  lawful p := absurd p Past.nil_iff
  serving t ht := by cases ht
  free _ := ⟨Or.inl rfl, rfl, Or.inr rfl⟩

/-- **One commit at a time.** -/
theorem Reachable.serves (h : Reachable s) : s.Locked ∧ ∀ o older, Past s.hist o older → Lawful o older := by
  have hserves : s.Serves := by
    induction h with
    | start => exact serves_start ..
    | step e hr ih => exact ih.step hr.locked e
  exact ⟨h.locked, fun _ _ p => hserves.lawful p⟩

theorem Reachable.steps (es : List (Event τ)) (h : Reachable s) : Reachable (es.foldl (fun s e => s.step e) s) := by
  induction es generalizing s with
  | nil => exact h
  | cons e es ih => exact ih (h.step e)

/-- Two threads propose at once: the second one waits until the first took its result, and loses its instance to another node. -/
def twoThreads : List (Event Bool) :=
  [.call true [1] 0, .call false [2] 0, .enterLock true 0 0, .enterLock false 0 0, .newCommit true, .wake false false,
    .checkNewValue none 7 [0, 0, 0, 0, 1], .setResult .ok 7 [0, 0, 0, 0, 1], .wake false false, .getResult true, .unLock true,
    .wake false false, .newCommit false, .checkNewValue none 8 [0, 0, 0, 0, 2], .setResult .ok 8 [0, 0, 0, 0, 3], .getResult false]

theorem serves_twoThreads :
    let s := twoThreads.foldl (fun s e => s.step e) (start 2 (-1) (-1))
    s.hist = [.getResult false .conflict 0, .setResult .conflict (some 8) [0, 0, 0, 0, 3],
      .startCommit 8 [0, 0, 0, 0, 2], .newCommit false [0, 0, 0, 0, 2], .getResult true .ok 7,
      .setResult .ok (some 7) [0, 0, 0, 0, 1], .startCommit 7 [0, 0, 0, 0, 1], .newCommit true [0, 0, 0, 0, 1]] ∧
    s.Locked ∧ ∀ o older, Past s.hist o older → Lawful o older := by
  refine ⟨by decide, ?_⟩
  exact Reachable.serves ((Reachable.start 2 (-1) (-1)).steps twoThreads)

end Committer
end PhxPaxos
