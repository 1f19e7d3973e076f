import Mathlib.Data.Prod.Lex
import PhxPaxos.Abstract.History

/-!
# Alarms

Alarms with ids that are counted up are set for a time, may be cancelled, and ring. A history is lawful (`Lawful`) when what
rings is armed, due, and the first of all that are armed. Then each alarm rings at most once, not before it is due and not
after it was cancelled, and alarms ring in the order of time and id (`Lawful.inOrder`).
-/

namespace Alarms

/-- An alarm is set at the time `now`, is cancelled, or rings at the time `now`. -/
inductive Event (ι τ : Type*)
  | set (id : ι) (due now : τ)
  | cancel (id : ι)
  | ring (id : ι) (now : τ)
deriving DecidableEq

open Event

variable {ι τ : Type*} [LinearOrder ι] [LinearOrder τ]

/-- The alarms that were set and neither rang nor were cancelled since, with the times they are set for. -/
def armed : List (Event ι τ) → List (ι × τ)
  | [] => []
  | .set id due _ :: h => (id, due) :: armed h
  | .cancel id :: h => (armed h).filter fun a => a.1 ≠ id
  | .ring id _ :: h => (armed h).filter fun a => a.1 ≠ id

/-- What the order of alarms goes by. -/
def key (a : ι × τ) : Lex (τ × ι) := toLex (a.2, a.1)

/-- What the law says of an event when it happens. -/
def Event.Lawful (older : List (Event ι τ)) : Event ι τ → Prop
  | .set id _ now => (∀ id' due' now', .set id' due' now' ∈ older → id' < id) ∧ ∀ id' now', .ring id' now' ∈ older → now' ≤ now
  | .cancel _ => True
  | .ring id now => ∃ due ≤ now, (id, due) ∈ armed older ∧ ∀ a ∈ armed older, key (id, due) ≤ key a

def Lawful (h : List (Event ι τ)) : Prop := ∀ e older, Past h e older → e.Lawful older

theorem lawful_nil : Lawful ([] : List (Event ι τ)) := fun _ _ hp => absurd hp Past.nil_iff

theorem Lawful.cons {h : List (Event ι τ)} {e : Event ι τ} (hh : Lawful h) (he : e.Lawful h) : Lawful (e :: h) :=
  fun _ _ hp => Past.forall_cons (p := fun e older => Event.Lawful older e) he (hh _ _) hp

theorem Lawful.suffix {h h' : List (Event ι τ)} (hh : Lawful h) (hsuf : h' <:+ h) : Lawful h' :=
  fun _ _ hp => hh _ _ (hp.mono hsuf)

/-! ## What is armed -/

section Armed

variable {h older : List (Event ι τ)} {id : ι} {due now : τ}

omit [LinearOrder τ] in
theorem mem_armed_of_filter {id' : ι} (ha : (id, due) ∈ (armed h).filter fun a => a.1 ≠ id') : (id, due) ∈ armed h ∧ id ≠ id' := by
  rw [List.mem_filter, decide_eq_true_eq] at ha
  exact ha

omit [LinearOrder τ] in
/-- What is armed was set. -/
theorem exists_set_of_armed (ha : (id, due) ∈ armed h) : ∃ now, .set id due now ∈ h := by
  induction h with
  | nil => exact absurd ha List.not_mem_nil
  | cons e h ih =>
    have hold (ha : (id, due) ∈ armed h) : ∃ now, .set id due now ∈ e :: h := by
      obtain ⟨now, hm⟩ := ih ha
      exact ⟨now, List.mem_cons_of_mem e hm⟩
    cases e with
    | set id' due' now' =>
      rcases List.mem_cons.mp ha with he | ha
      · obtain ⟨rfl, rfl⟩ := Prod.mk.inj he
        exact ⟨now', List.mem_cons_self⟩
      · exact hold ha
    | cancel _ => exact hold (mem_armed_of_filter ha).1
    | ring _ _ => exact hold (mem_armed_of_filter ha).1

/-- No id is used twice. -/
theorem Lawful.set_unique (hh : Lawful h) {due' now' : τ} (hs : .set id due now ∈ h) (hs' : .set id due' now' ∈ h) :
    due = due' := by
  obtain ⟨older, hp⟩ := Past.exists_of_mem hs
  obtain ⟨older', hp'⟩ := Past.exists_of_mem hs'
  rcases hp.total hp' with hlater | ⟨heq, -⟩ | hearlier
  · exact absurd ((hh _ _ hp').1 id due now hlater.mem) (lt_irrefl id)
  · exact (Event.set.inj heq).2.1
  · exact absurd ((hh _ _ hp).1 id due' now' hearlier.mem) (lt_irrefl id)

/-- What is armed has been so since it was set. -/
theorem Lawful.armed_since (hh : Lawful h) {h' : List (Event ι τ)} (hsuf : h' <:+ h) {due' now' : τ}
    (hs : .set id due' now' ∈ h') (ha : (id, due) ∈ armed h) : (id, due) ∈ armed h' := by
  induction h with
  | nil => exact absurd ha List.not_mem_nil
  | cons e h ih =>
    rcases List.suffix_cons_iff.mp hsuf with rfl | hsuf'
    · exact ha
    · refine ih (hh.suffix (List.suffix_cons e h)) hsuf' ?_
      cases e with
      | set id'' due'' now'' =>
        rcases List.mem_cons.mp ha with he | ha
        · obtain ⟨rfl, -⟩ := Prod.mk.inj he
          exact absurd ((hh _ _ Past.head).1 id due' now' (hsuf'.subset hs)) (lt_irrefl id)
        · exact ha
      | cancel _ => exact (mem_armed_of_filter ha).1
      | ring _ _ => exact (mem_armed_of_filter ha).1

end Armed

/-! ## What rings -/

section Ring

variable {h older older' : List (Event ι τ)} {id id' : ι} {due due' now now' set set' : τ}

/-- An alarm that rings is armed, due, and the first. -/
theorem Lawful.ring (hh : Lawful h) (hp : Past h (.ring id now) older) :
    ∃ due ≤ now, (id, due) ∈ armed older ∧ ∀ a ∈ armed older, key (id, due) ≤ key a := hh _ _ hp

/-- **At most once.** -/
theorem Lawful.rings_once (hh : Lawful h) (hp : Past h (.ring id now) older) : .ring id now' ∉ older := by
  intro hm
  obtain ⟨older', hp'⟩ := Past.exists_of_mem hm
  obtain ⟨due, -, ha, -⟩ := hh.ring hp
  obtain ⟨due', -, ha', -⟩ := hh.ring (hp.trans hp')
  obtain ⟨set', hs'⟩ := exists_set_of_armed ha'
  have hstill : (id, due) ∈ armed (.ring id now' :: older') :=
    (hh.suffix hp.suffix).armed_since hp' (List.mem_cons_of_mem _ hs') ha
  exact (mem_armed_of_filter hstill).2 rfl

/-- **Not after it was cancelled.** -/
theorem Lawful.not_cancelled (hh : Lawful h) (hp : Past h (.ring id now) older) (hc : Past older (.cancel id) older') :
    .set id due set ∉ older' := by
  intro hs
  obtain ⟨due', -, ha, -⟩ := hh.ring hp
  have hstill : (id, due') ∈ armed (.cancel id :: older') :=
    (hh.suffix hp.suffix).armed_since hc (List.mem_cons_of_mem _ hs) ha
  exact (mem_armed_of_filter hstill).2 rfl

/-- **Not before it is due.** -/
theorem Lawful.rings_due (hh : Lawful h) (hp : Past h (.ring id now) older) : ∃ due ≤ now, ∃ set, .set id due set ∈ older := by
  obtain ⟨due, hle, ha, -⟩ := hh.ring hp
  exact ⟨due, hle, exists_set_of_armed ha⟩

/-- Of two alarms the earlier one rings first, unless the other one was set in the past after that. -/
theorem Lawful.rings_in_order (hh : Lawful h) (hp : Past h (.ring id' now') older) (hp' : Past older (.ring id now) older')
    (hs : .set id due set ∈ h) (hs' : .set id' due' set' ∈ h) (hset : set' ≤ due' ∨ .set id' due' set' ∈ older') :
    key (id, due) < key (id', due') := by
  obtain ⟨d, hd, ha, hfirst⟩ := hh.ring (hp.trans hp')
  obtain ⟨d', -, ha', -⟩ := hh.ring hp
  obtain ⟨s, hm⟩ := exists_set_of_armed ha
  obtain ⟨s', hm'⟩ := exists_set_of_armed ha'
  obtain rfl : d = due := hh.set_unique ((hp.trans hp').suffix.subset hm) hs
  obtain rfl : d' = due' := hh.set_unique (hp.suffix.subset hm') hs'
  have hne : id ≠ id' := fun he => hh.rings_once hp (he ▸ hp'.mem)
  by_cases hbefore : .set id' d' set' ∈ older'
  · -- the later one was armed as well when the earlier one rang
    have harmed : (id', d') ∈ armed older' := (hh.suffix hp.suffix).armed_since hp'.suffix hbefore ha'
    refine lt_of_le_of_ne (hfirst _ harmed) fun he => hne ?_
    exact (Prod.mk.inj (toLex.injective he)).2
  · obtain ⟨o, hset'⟩ := Past.exists_of_mem hs'
    have hring : .ring id now ∈ o := by
      rcases (hp.trans hp').total hset' with hlater | ⟨heq, -⟩ | hearlier
      · exact hlater.mem
      · exact nomatch heq
      · exact absurd hearlier.mem hbefore
    obtain ⟨o', hpo⟩ := Past.exists_of_mem hring
    obtain ⟨d₁, -, s₁, hs₁⟩ := hh.rings_due (hset'.trans hpo)
    have hle : d ≤ d' := hd.trans (((hh _ _ hset').2 id now hring).trans (hset.resolve_right hbefore))
    have hid : id < id' := (hh _ _ hset').1 id d₁ s₁ (hpo.suffix.subset hs₁)
    rw [key, key, Prod.Lex.toLex_lt_toLex]
    rcases hle.lt_or_eq with hlt | heq
    · exact Or.inl hlt
    · exact Or.inr ⟨heq, hid⟩

end Ring

/-- What those who set alarms rely on. -/
structure InOrder (h : List (Event ι τ)) : Prop where
  once : ∀ {id now older}, Past h (.ring id now) older → ∀ now', .ring id now' ∉ older
  due : ∀ {id now older}, Past h (.ring id now) older → ∃ due ≤ now, ∃ set, .set id due set ∈ older
  not_cancelled : ∀ {id now older older'}, Past h (.ring id now) older → Past older (.cancel id) older' →
    ∀ due set, .set id due set ∉ older'
  set_once : ∀ {id due now older}, Past h (.set id due now) older → ∀ due' now', .set id due' now' ∉ older
  ordered : ∀ {id id' due due' set set' now now' older older'}, Past h (.ring id' now') older → Past older (.ring id now) older' →
    .set id due set ∈ h → .set id' due' set' ∈ h → (set' ≤ due' ∨ .set id' due' set' ∈ older') → key (id, due) < key (id', due')

/-- **Alarms of a lawful history ring in order**, each at most once, when it is due, and not after it was cancelled. -/
theorem Lawful.inOrder {h : List (Event ι τ)} (hh : Lawful h) : InOrder h where
  once hp _ := hh.rings_once hp
  due hp := hh.rings_due hp
  not_cancelled hp hc _ _ := hh.not_cancelled hp hc
  set_once {id} _ _ _ hp due' now' hm := lt_irrefl id ((hh _ _ hp).1 id due' now' hm)
  ordered hp hp' hs hs' hset := hh.rings_in_order hp hp' hs hs' hset

end Alarms
