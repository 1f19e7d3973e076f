import Mathlib.Data.Finset.Card
import Mathlib.Order.WellFounded

/-!
# Voting in ballots

The agreement argument of Paxos for one decision, over any acceptors, ballots and values. A `Voting` is what can be said
of such a protocol at one moment: which values were proposed in which ballots, who voted for them, and that every
proposal was safe when it was made: a quorum had voted for nothing in lower ballots and never will, or what it last
voted for is the value proposed. Then all values that are chosen are equal (`Voting.chosen_unique`).
-/

/-! ## Majorities -/

/-- More than half of `M`. -/
def Majority {α : Type*} (M Q : Finset α) : Prop := Q ⊆ M ∧ M.card < 2 * Q.card

/-- Two majorities meet. -/
theorem Majority.inter {α : Type*} [DecidableEq α] {M Q R : Finset α} (hQ : Majority M Q) (hR : Majority M R) :
    ∃ a ∈ Q, a ∈ R := by
  by_contra hne
  have hdisj : Disjoint Q R := by
    rw [Finset.disjoint_left]
    exact fun a haQ haR => hne ⟨a, haQ, haR⟩
  have hle : (Q ∪ R).card ≤ M.card := Finset.card_le_card (Finset.union_subset hQ.1 hR.1)
  rw [Finset.card_union_of_disjoint hdisj] at hle
  have := hQ.2
  have := hR.2
  omega

/-! ## Votings -/

/-- The proposal `v` in ballot `b` was safe for the quorum `Q`: below `b` its members vote for nothing, or the highest
ballot they vote in below `b` was for `v`. -/
def SafeAt {A B V : Type*} [LT B] [LE B] (voted : A → B → V → Prop) (proposed : B → V → Prop) (Q : Finset A) (b : B)
    (v : V) : Prop :=
  (∀ a ∈ Q, ∀ c < b, ∀ w, ¬ voted a c w) ∨
    ∃ c < b, proposed c v ∧ ∀ a ∈ Q, ∀ d < b, ∀ w, voted a d w → d ≤ c

structure Voting (A B V : Type*) [LinearOrder B] where
  quorum : Finset A → Prop
  proposed : B → V → Prop
  voted : A → B → V → Prop
  meet : ∀ {Q R}, quorum Q → quorum R → ∃ a ∈ Q, a ∈ R
  /-- A vote is for what was proposed in its ballot. -/
  voted_proposed : ∀ {a b v}, voted a b v → proposed b v
  /-- In one ballot one value is proposed. -/
  one_value : ∀ {b v w}, proposed b v → proposed b w → v = w
  safe : ∀ {b v}, proposed b v → ∃ Q, quorum Q ∧ SafeAt voted proposed Q b v

namespace Voting

variable {A B V : Type*} [LinearOrder B] (S : Voting A B V)

/-- A quorum voted for `v` in ballot `b`. -/
def Chosen (b : B) (v : V) : Prop := ∃ Q, S.quorum Q ∧ ∀ a ∈ Q, S.voted a b v

theorem Chosen.proposed {b : B} {v : V} (h : S.Chosen b v) : S.proposed b v := by
  obtain ⟨Q, hQ, hvoted⟩ := h
  obtain ⟨a, ha, -⟩ := S.meet hQ hQ
  exact S.voted_proposed (hvoted a ha)

/-- What is proposed from the ballot of a choice on is the chosen value. -/
theorem eq_of_chosen_le [WellFoundedLT B] {b : B} {v : V} (hchosen : S.Chosen b v) :
    ∀ {c : B}, b ≤ c → ∀ {w : V}, S.proposed c w → w = v := by
  intro c
  induction c using WellFoundedLT.induction with
  | ind c ih =>
    intro hle w hw
    rcases hle.eq_or_lt with rfl | hlt
    · exact S.one_value hw hchosen.proposed
    · obtain ⟨R, hR, hsafe⟩ := S.safe hw
      obtain ⟨Q, hQ, hvoted⟩ := hchosen
      obtain ⟨a, haQ, haR⟩ := S.meet hQ hR
      have hvote := hvoted a haQ
      rcases hsafe with hnone | ⟨d, hd, hpd, hmax⟩
      · exact absurd hvote (hnone a haR b hlt v)
      · exact ih d hd (hmax a haR b hlt v hvote) hpd

/-- **Agreement**: all chosen values are equal. -/
theorem chosen_unique [WellFoundedLT B] {b c : B} {v w : V} (hv : S.Chosen b v) (hw : S.Chosen c w) : v = w := by
  rcases le_total b c with h | h
  · exact (S.eq_of_chosen_le hv h hw.proposed).symm
  · exact S.eq_of_chosen_le hw h hv.proposed

end Voting
