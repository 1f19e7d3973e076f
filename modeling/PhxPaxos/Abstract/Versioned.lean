import Mathlib.Data.Nat.Basic
import Mathlib.Data.Nat.Init
import Mathlib.Logic.Function.Basic

/-!
# Registers with versions

A register holds a value with a version, and an operation changes it only when it names this version. `after ops k` is what
the first `k` operations leave. When no operation names a version that the register does not have yet, an operation that
was seen changes nothing more, however many came after it (`applyTo_past`), and of the operations that name one version of a
register at most one takes effect (`succeeds_once`).
-/

namespace Versioned

variable {κ α : Type*}

structure Entry (α : Type*) where
  value : α
  version : ℕ

/-- The version of a register, `0` when it holds nothing. -/
def versionOf : Option (Entry α) → ℕ
  | none => 0
  | some e => e.version

/-- The register `key` gets a new value if it has the version. -/
structure Op (κ α : Type*) where
  key : κ
  version : ℕ
  update : Option α → α

namespace Op

def Succeeds (op : Op κ α) (d : Option (Entry α)) : Prop := versionOf d = op.version

instance (op : Op κ α) (d : Option (Entry α)) : Decidable (op.Succeeds d) := inferInstanceAs (Decidable (_ = _))

def apply (op : Op κ α) (d : Option (Entry α)) : Option (Entry α) :=
  if op.Succeeds d then some ⟨op.update (d.map Entry.value), op.version + 1⟩ else d

variable {op : Op κ α} {d : Option (Entry α)}

theorem apply_of_succeeds (h : op.Succeeds d) : op.apply d = some ⟨op.update (d.map Entry.value), op.version + 1⟩ := if_pos h

theorem apply_of_not_succeeds (h : ¬ op.Succeeds d) : op.apply d = d := if_neg h

theorem versionOf_apply_of_succeeds (h : op.Succeeds d) : versionOf (op.apply d) = op.version + 1 := by
  rw [apply_of_succeeds h]
  rfl

theorem le_versionOf_apply (op : Op κ α) (d : Option (Entry α)) : versionOf d ≤ versionOf (op.apply d) := by
  by_cases h : op.Succeeds d
  · rw [versionOf_apply_of_succeeds h, h]
    omega
  · rw [apply_of_not_succeeds h]

end Op

variable [DecidableEq κ]

/-- What an operation, if there is one, makes of the registers. -/
def applyTo : Option (Op κ α) → (κ → Option (Entry α)) → κ → Option (Entry α)
  | none, f => f
  | some op, f => Function.update f op.key (op.apply (f op.key))

/-- What the first operations leave in the registers. -/
def after (ops : ℕ → Option (Op κ α)) : ℕ → κ → Option (Entry α)
  | 0 => fun _ => none
  | k + 1 => applyTo (ops k) (after ops k)

/-- No operation names a version that the register does not have yet. -/
def NotFuture (ops : ℕ → Option (Op κ α)) : Prop :=
  ∀ i op, ops i = some op → op.version ≤ versionOf (after ops i op.key)

variable {ops : ℕ → Option (Op κ α)} {op op' : Op κ α} {i j k : ℕ} {key : κ}

theorem applyTo_some (op : Op κ α) (f : κ → Option (Entry α)) :
    applyTo (some op) f = Function.update f op.key (op.apply (f op.key)) := rfl

theorem applyTo_of_not_succeeds {f : κ → Option (Entry α)} (h : ¬ op.Succeeds (f op.key)) : applyTo (some op) f = f := by
  rw [applyTo_some, Op.apply_of_not_succeeds h]
  exact Function.update_eq_self _ _

theorem applyTo_ne {o : Option (Op κ α)} {f : κ → Option (Entry α)} (h : ∀ op, o = some op → op.key ≠ key) :
    applyTo o f key = f key := by
  cases o with
  | none => rfl
  | some op => exact Function.update_of_ne (h op rfl).symm _ _

/-- Another operation on the same registers gives the same. -/
theorem applyTo_congr {o : Option (Op κ α)} {f f' : κ → Option (Entry α)} (h : f key = f' key) :
    applyTo o f key = applyTo o f' key := by
  cases o with
  | none => exact h
  | some op =>
    rw [applyTo_some, applyTo_some]
    by_cases hkey : key = op.key
    · subst hkey
      rw [Function.update_self, Function.update_self, h]
    · rw [Function.update_of_ne hkey, Function.update_of_ne hkey, h]

theorem after_succ (h : ops k = some op) : after ops (k + 1) op.key = op.apply (after ops k op.key) := by
  rw [after, h, applyTo_some, Function.update_self]

/-- Nothing changes where no operation is. -/
theorem after_of_none (hjk : j ≤ k) (h : ∀ i, j ≤ i → i < k → ops i = none) : after ops k = after ops j := by
  induction k, hjk using Nat.le_induction with
  | base => rfl
  | succ k hjk ih =>
    rw [after, h k hjk (Nat.lt_succ_self k)]
    exact ih fun i hji hik => h i hji (Nat.lt_succ_of_lt hik)

theorem version_le_applyTo (o : Option (Op κ α)) (f : κ → Option (Entry α)) (key : κ) :
    versionOf (f key) ≤ versionOf (applyTo o f key) := by
  cases o with
  | none => exact Nat.le_refl _
  | some op =>
    rw [applyTo_some]
    by_cases hkey : key = op.key
    · subst hkey
      rw [Function.update_self]
      exact op.le_versionOf_apply _
    · rw [Function.update_of_ne hkey]

/-- The version of a register only grows. -/
theorem version_mono (ops : ℕ → Option (Op κ α)) (hjk : j ≤ k) (key : κ) :
    versionOf (after ops j key) ≤ versionOf (after ops k key) := by
  induction k, hjk using Nat.le_induction with
  | base => exact Nat.le_refl _
  | succ k _ ih => exact Nat.le_trans ih (version_le_applyTo _ _ key)

/-- An operation that was seen does not succeed again. -/
theorem not_succeeds_past (hnot : NotFuture ops) (hop : ops i = some op) (hik : i < k) :
    ¬ op.Succeeds (after ops k op.key) := by
  intro h
  have hmono := version_mono ops hik op.key
  rw [after_succ hop] at hmono
  by_cases hi : op.Succeeds (after ops i op.key)
  · rw [Op.versionOf_apply_of_succeeds hi, h] at hmono
    omega
  · rw [Op.apply_of_not_succeeds hi, h] at hmono
    exact hi (Nat.le_antisymm hmono (hnot i op hop))

/-- **An operation that was seen changes nothing more.** -/
theorem applyTo_past (hnot : NotFuture ops) (hik : i < k) : applyTo (ops i) (after ops k) = after ops k := by
  cases hop : ops i with
  | none => rfl
  | some op => exact applyTo_of_not_succeeds (not_succeeds_past hnot hop hik)

/-- The version that an operation names when it succeeds is gone afterwards. -/
theorem version_lt_of_succeeds (hop : ops i = some op) (hi : op.Succeeds (after ops i op.key)) (hij : i < j) :
    op.version < versionOf (after ops j op.key) := by
  have hmono := version_mono ops hij op.key
  rw [after_succ hop, Op.versionOf_apply_of_succeeds hi] at hmono
  omega

/-- **Of the operations that name one version of a register at most one succeeds.** -/
theorem succeeds_once (hop : ops i = some op) (hop' : ops j = some op') (hkey : op.key = op'.key)
    (hversion : op.version = op'.version) (hi : op.Succeeds (after ops i op.key))
    (hj : op'.Succeeds (after ops j op'.key)) : i = j := by
  rcases Nat.lt_trichotomy i j with hij | heq | hji
  · have hlt := version_lt_of_succeeds hop hi hij
    rw [hkey, hj, hversion] at hlt
    exact absurd hlt (Nat.lt_irrefl _)
  · exact heq
  · have hlt := version_lt_of_succeeds hop' hj hji
    rw [← hkey, hi, hversion] at hlt
    exact absurd hlt (Nat.lt_irrefl _)

end Versioned
