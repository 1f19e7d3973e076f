import Mathlib.Algebra.GroupWithZero.Nat
import PhxPaxos.Model.ProposeBatch

/-!
# The queue of a batch

What the critical sections of `ProposeBatch` do to its queue and to its byte counter: `PluckProposal` takes proposals from
the front, at least one if there is one (`pluckProposal_plucks`), and `AddProposal` adds one at the end before it may do
the same (`addProposal_plucks`). The byte counter follows the queue up to a constant (`Counts`), as an `int` does.
-/

namespace PhxPaxos

/-- The bytes of the values. -/
def valueSize (queue : List PendingProposal) : Nat := (queue.map fun p => p.value.length).sum

@[simp] theorem valueSize_nil : valueSize [] = 0 := rfl

@[simp] theorem valueSize_append (q₁ q₂ : List PendingProposal) :
    valueSize (q₁ ++ q₂) = valueSize q₁ + valueSize q₂ := by
  simp [valueSize]

theorem valueSize_cons (p : PendingProposal) (q : List PendingProposal) :
    valueSize (p :: q) = p.value.length + valueSize q := by
  simp [valueSize]

/-! ## The byte counter -/

theorem addInt_bmod (a n : Int) : addInt (a.bmod (2 ^ 32)) n = (a + n).bmod (2 ^ 32) := by
  unfold addInt
  exact Int.bmod_add_bmod

/-- The byte counter is what an `int` makes of the bytes of the queue and `extra` bytes. -/
def ProposeBatch.Counts (b : ProposeBatch) (extra : Nat) : Prop :=
  b.nowQueueValueSize = ((valueSize b.queue + extra : Nat) : Int).bmod (2 ^ 32)

theorem ProposeBatch.Counts.push {b : ProposeBatch} {extra : Nat} (h : b.Counts extra) (p : PendingProposal) :
    (b.push p).Counts extra := by
  have hsize : (valueSize (b.push p).queue + extra : Nat) = (valueSize b.queue + extra : Nat) + p.value.length := by
    simp only [ProposeBatch.push, valueSize_append, valueSize_cons, valueSize_nil]
    omega
  calc (b.push p).nowQueueValueSize = addInt b.nowQueueValueSize (toInt p.value.length) := rfl
    _ = (((valueSize b.queue + extra : Nat) : Int) + toInt p.value.length).bmod (2 ^ 32) := by rw [h, addInt_bmod]
    _ = (((valueSize b.queue + extra : Nat) : Int) + p.value.length).bmod (2 ^ 32) := Int.add_bmod_bmod
    _ = ((valueSize (b.push p).queue + extra : Nat) : Int).bmod (2 ^ 32) := by rw [hsize, Int.natCast_add _ p.value.length]

/-- As long as an `int` can count the bytes, the counter is their number. -/
theorem ProposeBatch.Counts.eq {b : ProposeBatch} (h : b.Counts 0) (hsize : valueSize b.queue < 2 ^ 31) :
    b.nowQueueValueSize = valueSize b.queue := by
  rw [h, Nat.add_zero]
  refine Int.bmod_eq_of_le ?_ ?_
  · omega
  · omega

/-! ## Taking proposals -/

/-- `request` was taken from the front of the queue of `b`, which left `b'`. -/
structure Plucks (b b' : ProposeBatch) (request : List PendingProposal) : Prop where
  queue : request ++ b'.queue = b.queue
  counts : ∀ {extra}, b.Counts extra → b'.Counts extra
  isEnd : b'.isEnd = b.isEnd
  isStarted : b'.isStarted = b.isStarted

theorem pluckLoop_queue (batchCount : Int) (queue : List PendingProposal) : ∀ pluckCount pluckSize size : Int,
    (pluckLoop batchCount pluckCount pluckSize size queue).1 ++
      (pluckLoop batchCount pluckCount pluckSize size queue).2.1 = queue := by
  induction queue with
  | nil => exact fun _ _ _ => rfl
  | cons p queue ih =>
    intro pluckCount pluckSize size
    unfold pluckLoop
    simp only []
    split
    · rfl
    · rw [List.cons_append, ih]

theorem pluckLoop_size (batchCount : Int) (extra : Nat) (queue : List PendingProposal) :
    ∀ pluckCount pluckSize size : Int, size = ((valueSize queue + extra : Nat) : Int).bmod (2 ^ 32) →
      (pluckLoop batchCount pluckCount pluckSize size queue).2.2 =
        ((valueSize (pluckLoop batchCount pluckCount pluckSize size queue).2.1 + extra : Nat) : Int).bmod (2 ^ 32) := by
  induction queue with
  | nil => exact fun _ _ _ h => h
  | cons p queue ih =>
    intro pluckCount pluckSize size h
    have hsize : addInt size (-p.value.length) = ((valueSize queue + extra : Nat) : Int).bmod (2 ^ 32) := by
      rw [h, addInt_bmod, valueSize_cons]
      congr 1
      push_cast
      omega
    unfold pluckLoop
    simp only []
    split
    · exact hsize
    · exact ih _ _ _ hsize

theorem pluckLoop_ne_nil (batchCount pluckCount pluckSize size : Int) {queue : List PendingProposal} (h : queue ≠ []) :
    (pluckLoop batchCount pluckCount pluckSize size queue).1 ≠ [] := by
  obtain ⟨p, queue, rfl⟩ := List.exists_cons_of_ne_nil h
  unfold pluckLoop
  simp only []
  split
  · exact List.cons_ne_nil _ _
  · exact List.cons_ne_nil _ _

theorem pluckProposal_plucks (b : ProposeBatch) : Plucks b b.pluckProposal.1 b.pluckProposal.2 where
  queue := pluckLoop_queue _ _ _ _ _
  counts := by
    intro extra h
    exact pluckLoop_size b.batchCount extra b.queue 0 0 b.nowQueueValueSize h
  isEnd := rfl
  isStarted := rfl

/-- A queue with proposals gives at least one. -/
theorem pluckProposal_ne_nil {b : ProposeBatch} (h : b.queue ≠ []) : b.pluckProposal.2 ≠ [] :=
  pluckLoop_ne_nil _ _ _ _ h

theorem Plucks.none (b : ProposeBatch) : Plucks b b [] := ⟨rfl, fun h => h, rfl, rfl⟩

theorem addProposal_of_need {b : ProposeBatch} {p : PendingProposal} {now : Nat} (h : (b.push p).needBatch now = true) :
    b.addProposal p now = (b.push p).pluckProposal := by
  unfold ProposeBatch.addProposal
  rw [if_pos h]

theorem addProposal_of_not_need {b : ProposeBatch} {p : PendingProposal} {now : Nat}
    (h : ¬ (b.push p).needBatch now = true) : b.addProposal p now = (b.push p, []) := by
  unfold ProposeBatch.addProposal
  rw [if_neg h]

/-- **`AddProposal`** adds the proposal and takes some from the front, or none. -/
theorem addProposal_plucks (b : ProposeBatch) (p : PendingProposal) (now : Nat) :
    Plucks (b.push p) (b.addProposal p now).1 (b.addProposal p now).2 := by
  by_cases h : (b.push p).needBatch now = true
  · rw [addProposal_of_need h]
    exact pluckProposal_plucks _
  · rw [addProposal_of_not_need h]
    exact Plucks.none _

end PhxPaxos
