import Mathlib.Logic.Function.Basic
import Mathlib.Order.Lattice

/-!
# Replicas of a log

A replica executes the entries of a log in order. It may be stopped at any time and start again with an earlier entry,
and it may adopt the state of another replica. When a state stays as it is under entries that it has seen, under a
recovery, and under the adoption of an older state, then every replica is where a straight execution of the entries it
has ever reached would have left it (`Run.follows`).
-/

/-- A replica: its state, the entry that comes next, and how many entries the state has seen. -/
structure Replica (σ : Type*) where
  state : σ
  next : Nat
  reached : Nat

/-- What the entries of a log and the events around it do to a state. -/
structure Replicated (ι σ : Type*) where
  length : Nat
  init : ι → σ → Prop
  exec : ι → Nat → σ → σ → Prop
  recover : ι → σ → σ → Prop
  /-- `adopt n s t s'`: in state `s`, replica `n` adopts what a replica in state `t` gives it. -/
  adopt : ι → σ → σ → σ → Prop

namespace Replicated

variable {ι σ : Type*} [DecidableEq ι]

/-- One replica executes an entry, is started again, or adopts the state of another. -/
inductive Step (M : Replicated ι σ) (r : ι → Replica σ) : (ι → Replica σ) → Prop
  | exec {n s} : (r n).next < M.length → M.exec n (r n).next (r n).state s →
      Step M r (Function.update r n ⟨s, (r n).next + 1, max (r n).reached ((r n).next + 1)⟩)
  | restart {n s k} : M.recover n (r n).state s → k ≤ (r n).reached →
      Step M r (Function.update r n ⟨s, k, (r n).reached⟩)
  | adopt {n m s k} : M.adopt n (r n).state (r m).state s → k ≤ max (r n).reached (r m).reached →
      Step M r (Function.update r n ⟨s, k, max (r n).reached (r m).reached⟩)

/-- The states that replicas reach. -/
inductive Run (M : Replicated ι σ) : (ι → Replica σ) → Prop
  | init {s : ι → σ} : (∀ n, M.init n (s n)) → Run M fun n => ⟨s n, 0, 0⟩
  | step {r r'} : Run M r → Step M r r' → Run M r'

/-- The same replicas, where a state is adopted only when `p` holds of the state before and the state adopted. -/
def adoptWhen (M : Replicated ι σ) (p : σ → σ → Prop) : Replicated ι σ :=
  { M with adopt := fun n s t s' => p s t ∧ M.adopt n s t s' }

/-- `R n k s`: the state `s` of replica `n` is the one after `k` entries. -/
structure Follows (M : Replicated ι σ) (R : ι → Nat → σ → Prop) : Prop where
  init : ∀ {n s}, M.init n s → R n 0 s
  exec_next : ∀ {n k s s'}, k < M.length → R n k s → M.exec n k s s' → R n (k + 1) s'
  exec_past : ∀ {n i k s s'}, i < k → k ≤ M.length → R n k s → M.exec n i s s' → R n k s'
  recover : ∀ {n k s s'}, R n k s → M.recover n s s' → R n k s'
  adopt : ∀ {n m k j s t s'}, k ≤ M.length → j ≤ M.length → R n k s → R m j t → M.adopt n s t s' → R n (max k j) s'

variable {M : Replicated ι σ} {R : ι → Nat → σ → Prop} {r r' : ι → Replica σ}

/-- The replica is where the entries that it has reached leave it. -/
def Within (M : Replicated ι σ) (R : ι → Nat → σ → Prop) (n : ι) (x : Replica σ) : Prop :=
  R n x.reached x.state ∧ x.next ≤ x.reached ∧ x.reached ≤ M.length

theorem Step.follows (hR : Follows M R) (h : Step M r r') (hr : ∀ n, M.Within R n (r n)) (n : ι) :
    M.Within R n (r' n) ∧ (r n).reached ≤ (r' n).reached := by
  cases h with
  | @exec m s hlt hexec =>
    by_cases hn : n = m
    · subst hn
      obtain ⟨hstate, hnext, hlen⟩ := hr n
      rw [Function.update_self]
      refine ⟨⟨?_, le_max_right _ _, max_le hlen hlt⟩, le_max_left _ _⟩
      rcases hnext.eq_or_lt with heq | hpast
      · -- an entry that the state has not seen
        rw [heq, max_eq_right (Nat.le_succ _)]
        rw [heq] at hlt hexec
        exact hR.exec_next hlt hstate hexec
      · rw [max_eq_left hpast]
        exact hR.exec_past hpast hlen hstate hexec
    · rw [Function.update_of_ne hn]
      exact ⟨hr n, Nat.le_refl _⟩
  | @restart m s k hrecover hk =>
    by_cases hn : n = m
    · subst hn
      rw [Function.update_self]
      exact ⟨⟨hR.recover (hr n).1 hrecover, hk, (hr n).2.2⟩, Nat.le_refl _⟩
    · rw [Function.update_of_ne hn]
      exact ⟨hr n, Nat.le_refl _⟩
  | @adopt m l s k hadopt hk =>
    by_cases hn : n = m
    · subst hn
      rw [Function.update_self]
      exact ⟨⟨hR.adopt (hr n).2.2 (hr l).2.2 (hr n).1 (hr l).1 hadopt, hk, max_le (hr n).2.2 (hr l).2.2⟩, le_max_left _ _⟩
    · rw [Function.update_of_ne hn]
      exact ⟨hr n, Nat.le_refl _⟩

/-- **Every replica follows the log.** -/
theorem Run.follows (hR : Follows M R) (h : Run M r) (n : ι) : M.Within R n (r n) := by
  induction h generalizing n with
  | init hs => exact ⟨hR.init (hs n), Nat.le_refl 0, Nat.zero_le _⟩
  | step _ hstep ih => exact (hstep.follows hR ih n).1

/-- A replica that has come to the end of the log has seen all of it. -/
theorem Run.at_end (hR : Follows M R) (h : Run M r) {n : ι} (hend : (r n).next = M.length) : R n M.length (r n).state := by
  obtain ⟨hstate, hnext, hlen⟩ := h.follows hR n
  have heq : (r n).reached = M.length := le_antisymm hlen (hend ▸ hnext)
  rwa [heq] at hstate

end Replicated
