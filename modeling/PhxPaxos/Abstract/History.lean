import Mathlib.Data.List.Basic

/-!
# Histories

A history is a list of events, the latest first. `Past h o older`: the event `o` happened in `h`, when the history was
`older`. What is true of every event of a history at the time it happened is shown event by event (`Past.forall_cons`),
and stays true as the history grows.
-/

variable {α : Type*}

/-- `o` happened when the history was `older`. -/
def Past (h : List α) (o : α) (older : List α) : Prop := o :: older <:+ h

instance [DecidableEq α] (h : List α) (o : α) (older : List α) : Decidable (Past h o older) :=
  inferInstanceAs (Decidable (o :: older <:+ h))

namespace Past

variable {h h' older older' : List α} {o a : α}

theorem nil_iff : ¬ Past [] o older := by
  simp [Past]

@[simp] theorem cons_iff : Past (a :: h) o older ↔ (o = a ∧ older = h) ∨ Past h o older := by
  unfold Past
  rw [List.suffix_cons_iff, List.cons.injEq]

theorem head : Past (o :: h) o h := List.suffix_rfl

theorem mem (p : Past h o older) : o ∈ h := p.subset List.mem_cons_self

theorem suffix (p : Past h o older) : older <:+ h := (List.suffix_cons _ _).trans p

theorem mono (p : Past h o older) (hsuf : h <:+ h') : Past h' o older := p.trans hsuf

theorem of_cons (p : Past h o older) : Past (a :: h) o older := p.mono (List.suffix_cons _ _)

theorem trans (p : Past h o older) (p' : Past older a older') : Past h a older' := p'.mono p.suffix

/-- What holds of a new event and of all before it. -/
theorem forall_cons {p : α → List α → Prop} (ha : p a h) (hh : ∀ {o older}, Past h o older → p o older) :
    ∀ {o older}, Past (a :: h) o older → p o older := by
  intro o older hp
  rcases cons_iff.mp hp with ⟨rfl, rfl⟩ | hp
  · exact ha
  · exact hh hp

/-- Every event of a history happened at some time. -/
theorem exists_of_mem (hm : o ∈ h) : ∃ older, Past h o older := by
  obtain ⟨newer, older, rfl⟩ := List.append_of_mem hm
  exact ⟨older, newer, rfl⟩

/-- Of two events of a history, either one is among the earlier of the other or both are the same. -/
theorem total (p : Past h o older) (p' : Past h a older') :
    Past older' o older ∨ (o = a ∧ older = older') ∨ Past older a older' := by
  rcases List.suffix_or_suffix_of_suffix p p' with hs | hs
  · rcases List.suffix_cons_iff.mp hs with heq | hs
    · exact Or.inr (Or.inl (List.cons.inj heq))
    · exact Or.inl hs
  · rcases List.suffix_cons_iff.mp hs with heq | hs
    · obtain ⟨h₁, h₂⟩ := List.cons.inj heq
      exact Or.inr (Or.inl ⟨h₁.symm, h₂.symm⟩)
    · exact Or.inr (Or.inr hs)

/-- Among the events with a property there is a first one. -/
theorem exists_first {p : α → Prop} (hm : ∃ o ∈ h, p o) : ∃ o older, Past h o older ∧ p o ∧ ∀ a ∈ older, ¬ p a := by
  induction h with
  | nil => simp at hm
  | cons a h ih =>
    by_cases hh : ∃ o ∈ h, p o
    · obtain ⟨o, older, hpast, ho⟩ := ih hh
      exact ⟨o, older, hpast.of_cons, ho⟩
    · obtain ⟨o, ho, hp⟩ := hm
      rcases List.mem_cons.mp ho with rfl | ho
      · exact ⟨o, h, head, hp, fun a ha hpa => hh ⟨a, ha, hpa⟩⟩
      · exact absurd ⟨o, ho, hp⟩ hh

/-- The events with a property are those of the older history when the new events lack it. -/
theorem append_iff {obs : List α} {p : α → Prop} (hobs : ∀ a ∈ obs, ¬ p a) (ho : p o) :
    Past (obs ++ h) o older ↔ Past h o older := by
  induction obs with
  | nil => rfl
  | cons a obs ih =>
    rw [List.cons_append, cons_iff, ih fun a ha => hobs a (List.mem_cons_of_mem _ ha)]
    constructor
    · rintro (⟨rfl, -⟩ | hp)
      · exact absurd ho (hobs o List.mem_cons_self)
      · exact hp
    · exact Or.inr

end Past

/-! ## Checking a history -/

/-- Every event satisfies the check with what was before it. -/
def pastAll (p : α → List α → Bool) : List α → Bool
  | [] => true
  | a :: h => p a h && pastAll p h

theorem pastAll_iff {p : α → List α → Bool} {h : List α} :
    pastAll p h = true ↔ ∀ o older, Past h o older → p o older = true := by
  induction h with
  | nil => simp [pastAll, Past.nil_iff]
  | cons a h ih =>
    rw [pastAll, Bool.and_eq_true, ih]
    constructor
    · rintro ⟨ha, hh⟩ o older hp
      rcases Past.cons_iff.mp hp with ⟨rfl, rfl⟩ | hp
      · exact ha
      · exact hh o older hp
    · intro hall
      exact ⟨hall a h Past.head, fun o older hp => hall o older hp.of_cons⟩
