import Mathlib.Algebra.Group.Int.Defs
import Mathlib.Algebra.Group.Nat.Defs
import Mathlib.Data.List.Infix
import Mathlib.Data.List.Perm.Subperm

/-!
# Files of bytes

The content of a file as a list of bytes, with writing at an offset, integers in little-endian order, and `At f off bs`:
the bytes `bs` lie at `off`. A write leaves alone what lies before it (`At.writeAt`), and integers are read back
(`decodeLE_encodeLE`). A directory is a list of entries, the latest first.
-/

namespace Files

abbrev Content := List UInt8

/-! ## Zeros -/

def Zeros (f : Content) : Prop := ∀ b ∈ f, b = 0

section Zeros

variable {f g : Content}

theorem Zeros.nil : Zeros [] := by
  simp [Zeros]

theorem Zeros.replicate (n : Nat) : Zeros (List.replicate n 0) := by
  intro b hb
  exact List.eq_of_mem_replicate hb

theorem Zeros.drop (hf : Zeros f) (n : Nat) : Zeros (f.drop n) := fun b hb => hf b (List.mem_of_mem_drop hb)

theorem Zeros.take (hf : Zeros f) (n : Nat) : Zeros (f.take n) := fun b hb => hf b (List.mem_of_mem_take hb)

end Zeros

/-! ## Integers -/

/-- The `k` lowest bytes of `n`, the lowest first. -/
def encodeLE : Nat → Nat → Content
  | 0, _ => []
  | k + 1, n => UInt8.ofNat n :: encodeLE k (n / 256)

def decodeLE : Content → Nat
  | [] => 0
  | b :: bs => b.toNat + 256 * decodeLE bs

@[simp] theorem encodeLE_length (k n : Nat) : (encodeLE k n).length = k := by
  induction k generalizing n with
  | zero => rfl
  | succ k ih => rw [encodeLE, List.length_cons, ih]

theorem decodeLE_encodeLE {k n : Nat} (h : n < 256 ^ k) : decodeLE (encodeLE k n) = n := by
  induction k generalizing n with
  | zero =>
    rw [Nat.pow_zero] at h
    rw [encodeLE, decodeLE]
    omega
  | succ k ih =>
    have hdiv : n / 256 < 256 ^ k := by
      rw [Nat.pow_succ] at h
      omega
    rw [encodeLE, decodeLE, ih hdiv, UInt8.toNat_ofNat']
    omega

theorem decodeLE_lt (bs : Content) : decodeLE bs < 256 ^ bs.length := by
  induction bs with
  | nil => simp [decodeLE]
  | cons b bs ih =>
    have hb : b.toNat < 256 := b.toNat_lt
    rw [decodeLE, List.length_cons, Nat.pow_succ]
    omega

theorem encodeLE_decodeLE (bs : Content) : encodeLE bs.length (decodeLE bs) = bs := by
  induction bs with
  | nil => rfl
  | cons b bs ih =>
    have hb : b.toNat < 256 := b.toNat_lt
    have hdiv : (b.toNat + 256 * decodeLE bs) / 256 = decodeLE bs := by omega
    have hmod : UInt8.ofNat (b.toNat + 256 * decodeLE bs) = b := by
      apply UInt8.toNat_inj.mp
      rw [UInt8.toNat_ofNat']
      omega
    rw [decodeLE, List.length_cons, encodeLE, hdiv, ih, hmod]

theorem decodeLE_zeros {f : Content} (h : Zeros f) : decodeLE f = 0 := by
  induction f with
  | nil => rfl
  | cons b bs ih =>
    rw [decodeLE, ih fun c hc => h c (List.mem_cons_of_mem _ hc), h b List.mem_cons_self]
    rfl

/-! ## Reading and writing at an offset -/

/-- `bs` is written at `off`; a file that is shorter is filled up with zeros. -/
def writeAt (f : Content) (off : Nat) (bs : Content) : Content :=
  f.take off ++ List.replicate (off - f.length) 0 ++ bs ++ f.drop (off + bs.length)

/-- The bytes `bs` lie at `off`. -/
def At (f : Content) (off : Nat) (bs : Content) : Prop := bs <+: f.drop off

section At

variable {f bs ws : Content} {off woff : Nat}

theorem At.le_length (h : At f off bs) (hbs : bs ≠ []) : off + bs.length ≤ f.length := by
  have hle := h.length_le
  have hpos := List.length_pos_iff.mpr hbs
  rw [List.length_drop] at hle
  omega

theorem At.take (h : At f off bs) : (f.drop off).take bs.length = bs := (List.prefix_iff_eq_take.mp h).symm

theorem At.drop (h : At f off bs) : f.drop off = bs ++ f.drop (off + bs.length) := by
  obtain ⟨rest, hrest⟩ := h
  have hdrop : f.drop (off + bs.length) = rest := by
    rw [← List.drop_drop, ← hrest, List.drop_left]
  rw [hdrop, hrest]

theorem length_filled (f : Content) (off : Nat) : (f.take off ++ List.replicate (off - f.length) (0 : UInt8)).length = off := by
  rw [List.length_append, List.length_take, List.length_replicate]
  omega

theorem At.written (f : Content) (off : Nat) (bs : Content) : At (writeAt f off bs) off bs := by
  unfold At writeAt
  rw [List.append_assoc, List.drop_left' (length_filled f off)]
  exact List.prefix_append _ _

theorem drop_writeAt (f : Content) (off : Nat) (bs : Content) :
    (writeAt f off bs).drop (off + bs.length) = f.drop (off + bs.length) := by
  unfold writeAt
  rw [List.drop_left' (by rw [List.length_append, length_filled])]

theorem length_writeAt (f : Content) (off : Nat) (bs : Content) :
    (writeAt f off bs).length = max f.length (off + bs.length) := by
  unfold writeAt
  rw [List.length_append, List.length_append, length_filled, List.length_drop]
  omega

theorem take_writeAt {f : Content} {off : Nat} (h : off ≤ f.length) (bs : Content) :
    (writeAt f off bs).take (off + bs.length) = f.take off ++ bs := by
  have hlen : (f.take off ++ bs).length = off + bs.length := by
    rw [List.length_append, List.length_take, Nat.min_eq_left h]
  have hzero : off - f.length = 0 := by omega
  unfold writeAt
  rw [hzero, List.replicate_zero, List.append_nil, List.take_left' hlen]

/-- What lies before the write stays. -/
theorem At.writeAt (h : At f off bs) (hbs : bs ≠ []) (hle : off + bs.length ≤ woff) : At (writeAt f woff ws) off bs := by
  have hlen := h.le_length hbs
  unfold At Files.writeAt
  have hsplit : f.take woff = f.take off ++ (f.drop off).take (woff - off) := by
    rw [← List.take_add, Nat.add_sub_cancel' (by omega)]
  have hprefix : bs <+: (f.drop off).take (woff - off) := by
    rw [List.prefix_take_iff]
    exact ⟨h, by omega⟩
  rw [hsplit, List.append_assoc, List.append_assoc, List.append_assoc,
    List.drop_left' (by rw [List.length_take]; omega)]
  exact hprefix.trans (List.prefix_append _ _)

theorem At.left {as : Content} (h : At f off (as ++ bs)) : At f off as := (List.prefix_append as bs).trans h

theorem At.right {as : Content} (h : At f off (as ++ bs)) : At f (off + as.length) bs := by
  obtain ⟨rest, hrest⟩ := h
  refine ⟨rest, ?_⟩
  rw [← List.drop_drop, ← hrest, List.append_assoc, List.drop_left]

/-- What lies in the part that is kept stays. -/
theorem At.truncate {n : Nat} (h : At f off bs) (hle : off + bs.length ≤ n) : At (f.take n) off bs := by
  unfold At
  rw [List.drop_take, List.prefix_take_iff]
  exact ⟨h, by omega⟩

end At

/-! ## Directories -/

section Directory

variable {κ α : Type*} [DecidableEq κ]

/-- The entry of `k` is set to `a`. -/
def set (l : List (κ × α)) (k : κ) (a : α) : List (κ × α) := (k, a) :: l

/-- The entries with `p` are removed. -/
def remove (l : List (κ × α)) (p : κ → Prop) [DecidablePred p] : List (κ × α) := l.filter fun x => ¬ p x.1

@[simp] theorem lookup_set (l : List (κ × α)) (k j : κ) (a : α) :
    (set l k a).lookup j = if j = k then some a else l.lookup j := by
  unfold set
  rw [List.lookup_cons]
  by_cases h : j = k
  · simp [h]
  · simp [h, beq_eq_false_iff_ne.mpr h]

theorem lookup_remove (l : List (κ × α)) (p : κ → Prop) [DecidablePred p] (k : κ) :
    (remove l p).lookup k = if p k then none else l.lookup k := by
  unfold remove
  induction l with
  | nil => simp
  | cons x l ih =>
    obtain ⟨j, a⟩ := x
    by_cases hj : p j
    · rw [List.filter_cons_of_neg (by simpa using hj), ih]
      by_cases hk : k = j
      · simp [hk, hj]
      · rw [List.lookup_cons, beq_eq_false_iff_ne.mpr hk]
    · rw [List.filter_cons_of_pos (by simpa using hj), List.lookup_cons, List.lookup_cons, ih]
      by_cases hk : k = j
      · simp [hk, hj]
      · rw [beq_eq_false_iff_ne.mpr hk]

theorem lookup_of_mem {l : List (κ × α)} {x : κ × α} (h : x ∈ l) : ∃ a, l.lookup x.1 = some a := by
  cases hx : l.lookup x.1 with
  | some a => exact ⟨a, rfl⟩
  | none => exact absurd (List.lookup_eq_none_iff.mp hx x h) (by simp)

theorem mem_of_lookup {l : List (κ × α)} {k : κ} {a : α} (h : l.lookup k = some a) : (k, a) ∈ l := by
  obtain ⟨l₁, l₂, rfl, -⟩ := List.lookup_eq_some_iff.mp h
  simp

/-- A directory with entries for all numbers from `a` to `b` has that many. -/
theorem length_of_lookup {l : List (Nat × α)} {a b : Nat} (h : ∀ k, a ≤ k → k ≤ b → ∃ x, l.lookup k = some x) :
    b + 1 ≤ a + l.length := by
  have hsub : List.range' a (b + 1 - a) ⊆ l.map Prod.fst := by
    intro k hk
    rw [List.mem_range'_1] at hk
    obtain ⟨x, hx⟩ := h k hk.1 (by omega)
    exact List.mem_map_of_mem (mem_of_lookup hx)
  have hle := (List.subperm_of_subset List.nodup_range' hsub).length_le
  rw [List.length_range', List.length_map] at hle
  omega

end Directory

end Files
