import Mathlib.Logic.Function.Iterate

/-!
# Cyclic redundancy checks

The remainder of a reflected CRC of any width and polynomial, a bit at a time (`shift`) and a byte at a time from a table
(`feed_eq_table`). A shift is linear, and it is injective where the polynomial has its top bit. So as many successive bytes as
the remainder holds can be read off it (`feedAll_eq`), and a change within so many bytes always changes it (`feedAll_burst`).
-/

namespace Crc

variable {w : Nat} (p : BitVec w)

/-! ## Shifts -/

/-- The division by the polynomial goes on by a bit. -/
def shift (c : BitVec w) : BitVec w := if c.getLsbD 0 then (c >>> 1) ^^^ p else c >>> 1

def shifts (n : Nat) : BitVec w → BitVec w := (shift p)^[n]

@[simp] theorem shifts_zero (c : BitVec w) : shifts p 0 c = c := rfl

theorem shifts_succ (n : Nat) (c : BitVec w) : shifts p (n + 1) c = shift p (shifts p n c) :=
  Function.iterate_succ_apply' (shift p) n c

theorem shifts_add (m n : Nat) (c : BitVec w) : shifts p (m + n) c = shifts p m (shifts p n c) :=
  Function.iterate_add_apply (shift p) m n c

theorem xor_xor_xor_cancel (a b : BitVec w) : a ^^^ p ^^^ (b ^^^ p) = a ^^^ b := by
  rw [BitVec.xor_comm b p, BitVec.xor_assoc, ← BitVec.xor_assoc p p b, BitVec.xor_self, BitVec.zero_xor]

/-- A shift is linear. -/
theorem shift_xor (a b : BitVec w) : shift p (a ^^^ b) = shift p a ^^^ shift p b := by
  unfold shift
  simp only [BitVec.getLsbD_xor, BitVec.ushiftRight_xor_distrib]
  cases a.getLsbD 0 <;> cases b.getLsbD 0 <;> simp only [Bool.xor_self, Bool.false_xor, Bool.xor_false, if_true, Bool.false_eq_true,
    if_false]
  · exact (BitVec.xor_assoc _ _ _)
  · rw [BitVec.xor_assoc, BitVec.xor_assoc, BitVec.xor_comm (b >>> 1) p]
  · exact (xor_xor_xor_cancel p _ _).symm

theorem shifts_xor (n : Nat) (a b : BitVec w) : shifts p n (a ^^^ b) = shifts p n a ^^^ shifts p n b := by
  induction n with
  | zero => rfl
  | succ n ih => rw [shifts_succ, shifts_succ, shifts_succ, ih, shift_xor]

variable {p}

theorem eq_zero_of_shift (hp : p.msb = true) {c : BitVec w} (h : shift p c = 0#w) : c = 0#w := by
  have htop : (c >>> 1).msb = false := by simp [BitVec.msb_ushiftRight]
  unfold shift at h
  split at h
  case isTrue =>
    have hmsb := congrArg BitVec.msb h
    rw [BitVec.msb_xor, htop, hp] at hmsb
    simp at hmsb
  case isFalse hlow =>
    refine BitVec.eq_of_getLsbD_eq fun i hi => ?_
    cases i with
    | zero => simpa using hlow
    | succ i =>
      have hbit := congrArg (fun x : BitVec w => x.getLsbD i) h
      simpa [BitVec.getLsbD_ushiftRight, Nat.add_comm] using hbit

/-- No two remainders are shifted to the same. -/
theorem shift_injective (hp : p.msb = true) : Function.Injective (shift p) := by
  intro a b h
  have hzero : shift p (a ^^^ b) = 0#w := by rw [shift_xor, h, BitVec.xor_self]
  have hxor := eq_zero_of_shift hp hzero
  exact BitVec.xor_eq_zero_iff.mp hxor

theorem shifts_injective (hp : p.msb = true) (n : Nat) : Function.Injective (shifts p n) := (shift_injective hp).iterate n

variable (p)

/-- Where the low bits are clear, nothing is subtracted. -/
theorem shifts_shiftLeft {n : Nat} (c : BitVec w) : ∀ {k : Nat}, k ≤ n → shifts p k (c <<< n) = (c <<< n) >>> k := by
  intro k hk
  induction k with
  | zero => simp
  | succ k ih =>
    have hlow : ((c <<< n) >>> k).getLsbD 0 = false := by
      simp [BitVec.getLsbD_ushiftRight, BitVec.getLsbD_shiftLeft, Nat.lt_of_succ_le hk]
    rw [shifts_succ, ih (Nat.le_of_succ_le hk), shift, hlow, if_neg Bool.false_ne_true, BitVec.shiftRight_add]

/-! ## Bytes -/

/-- The remainder after a byte. -/
def feed (c : BitVec w) (b : BitVec 8) : BitVec w := shifts p 8 (c ^^^ b.setWidth w)

def feedAll (c : BitVec w) (bs : List (BitVec 8)) : BitVec w := bs.foldl (feed p) c

/-- The entry of the table for a byte. -/
def tableEntry (b : BitVec 8) : BitVec w := shifts p 8 (b.setWidth w)

theorem eq_low_xor_high (c : BitVec w) : c = (c.setWidth 8).setWidth w ^^^ ((c >>> 8) <<< 8) := by
  refine BitVec.eq_of_getLsbD_eq fun i hi => ?_
  simp only [BitVec.getLsbD_xor, BitVec.getLsbD_setWidth, BitVec.getLsbD_shiftLeft, BitVec.getLsbD_ushiftRight, hi]
  by_cases hlow : i < 8
  · simp [hlow]
  · simp [hlow, Nat.add_sub_cancel' (Nat.le_of_not_lt hlow)]

theorem shiftRight_shiftLeft_shiftRight (c : BitVec w) (n : Nat) : ((c >>> n) <<< n) >>> n = c >>> n := by
  refine BitVec.eq_of_getLsbD_eq fun i hi => ?_
  simp only [BitVec.getLsbD_ushiftRight, BitVec.getLsbD_shiftLeft, Nat.add_sub_cancel_left]
  by_cases hin : n + i < w
  · simp [hin]
  · simp [hin, BitVec.getLsbD_of_ge c (n + i) (Nat.le_of_not_lt hin)]

theorem setWidth_byte_shiftRight (b : BitVec 8) : (b.setWidth w) >>> 8 = 0#w := by
  refine BitVec.eq_of_getLsbD_eq fun i hi => ?_
  simp [BitVec.getLsbD_ushiftRight]

/-- **A byte at a time from the table.** -/
theorem feed_eq_table (c : BitVec w) (b : BitVec 8) :
    feed p c b = tableEntry p ((c ^^^ b.setWidth w).setWidth 8) ^^^ (c >>> 8) := by
  have hhigh : (c ^^^ b.setWidth w) >>> 8 = c >>> 8 := by
    rw [BitVec.ushiftRight_xor_distrib, setWidth_byte_shiftRight, BitVec.xor_zero]
  unfold feed
  generalize c ^^^ b.setWidth w = x at hhigh
  calc shifts p 8 x = shifts p 8 ((x.setWidth 8).setWidth w ^^^ ((x >>> 8) <<< 8)) := by rw [← eq_low_xor_high x]
    _ = tableEntry p (x.setWidth 8) ^^^ (x >>> 8) := by
      rw [shifts_xor, shifts_shiftLeft p _ (Nat.le_refl 8), shiftRight_shiftLeft_shiftRight, tableEntry]
    _ = tableEntry p (x.setWidth 8) ^^^ (c >>> 8) := by rw [hhigh]

theorem feedAll_append (c : BitVec w) (xs ys : List (BitVec 8)) :
    feedAll p c (xs ++ ys) = feedAll p (feedAll p c xs) ys := List.foldl_append

/-! ## Bursts -/

/-- The bytes side by side, the first one lowest. -/
def pack : List (BitVec 8) → BitVec w
  | [] => 0#w
  | b :: bs => b.setWidth w ^^^ (pack bs <<< 8)

theorem pack_high (bs : List (BitVec 8)) : ∀ {i : Nat}, 8 * bs.length ≤ i → (pack bs : BitVec w).getLsbD i = false := by
  induction bs with
  | nil => simp [pack]
  | cons b bs ih =>
    intro i hi
    rw [List.length_cons] at hi
    have hbyte : b.getLsbD i = false := BitVec.getLsbD_of_ge b i (by omega)
    have hrest : (pack bs : BitVec w).getLsbD (i - 8) = false := ih (by omega)
    simp [pack, hbyte, hrest]

/-- Where the bytes fit, shifting past the first one brings the others down. -/
theorem pack_shift {bs : List (BitVec 8)} (h : 8 * (bs.length + 1) ≤ w) :
    shifts p 8 (pack bs <<< 8 : BitVec w) = pack bs := by
  rw [shifts_shiftLeft p _ (Nat.le_refl 8)]
  refine BitVec.eq_of_getLsbD_eq fun i hi => ?_
  by_cases hin : 8 + i < w
  · have hlow : ¬ 8 + i < 8 := by omega
    simp only [BitVec.getLsbD_ushiftRight, BitVec.getLsbD_shiftLeft, hin, hlow, decide_true, decide_false, Bool.not_false,
      Bool.true_and, Nat.add_sub_cancel_left]
  · have hhigh : (pack bs : BitVec w).getLsbD i = false := pack_high bs (by omega)
    simp [BitVec.getLsbD_ushiftRight, BitVec.getLsbD_shiftLeft, hin, hhigh]

/-- As many bytes as the remainder holds are added to it before it is shifted. -/
theorem feedAll_eq (bs : List (BitVec 8)) : ∀ {c : BitVec w}, 8 * bs.length ≤ w →
    feedAll p c bs = shifts p (8 * bs.length) (c ^^^ pack bs) := by
  induction bs with
  | nil => simp [feedAll, pack]
  | cons b bs ih =>
    intro c h
    rw [List.length_cons] at h
    calc feedAll p c (b :: bs) = feedAll p (feed p c b) bs := rfl
      _ = shifts p (8 * bs.length) (feed p c b ^^^ pack bs) := ih (by omega)
      _ = shifts p (8 * bs.length) (shifts p 8 (c ^^^ pack (b :: bs))) := by
        rw [feed, pack, ← BitVec.xor_assoc, shifts_xor p 8 _ (pack bs <<< 8), pack_shift p h]
      _ = shifts p (8 * (b :: bs).length) (c ^^^ pack (b :: bs)) := by
        rw [← shifts_add, List.length_cons, Nat.mul_succ]

theorem pack_injective {xs : List (BitVec 8)} : ∀ {ys : List (BitVec 8)}, xs.length = ys.length → 8 * xs.length ≤ w →
    (pack xs : BitVec w) = pack ys → xs = ys := by
  induction xs with
  | nil =>
    intro ys hlength _ _
    exact (List.length_eq_zero_iff.mp hlength.symm).symm
  | cons x xs ih =>
    intro ys hlength hfits h
    cases ys with
    | nil => cases hlength
    | cons y ys =>
      rw [List.length_cons] at hfits
      have hbits (i : Nat) : (pack (x :: xs) : BitVec w).getLsbD i = (pack (y :: ys) : BitVec w).getLsbD i := by rw [h]
      have hx : x = y := by
        refine BitVec.eq_of_getLsbD_eq fun i hi => ?_
        have hbit := hbits i
        simpa [pack, hi, show i < w by omega] using hbit
      have hrest : (pack xs : BitVec w) = pack ys := by
        refine BitVec.eq_of_getLsbD_eq fun i hi => ?_
        by_cases hin : i + 8 < w
        · have hbit := hbits (i + 8)
          have hx := BitVec.getLsbD_of_ge x (i + 8) (by omega)
          have hy := BitVec.getLsbD_of_ge y (i + 8) (by omega)
          have hlow : ¬ i + 8 < 8 := by omega
          simpa only [pack, BitVec.getLsbD_xor, BitVec.getLsbD_setWidth, BitVec.getLsbD_shiftLeft, hin, hx, hy, hlow, decide_true,
            decide_false, Bool.and_false, Bool.true_and, Bool.not_false, Bool.false_xor, Nat.add_sub_cancel] using hbit
        · have hlengths := Nat.succ.inj hlength
          rw [pack_high xs (by omega), pack_high ys (by omega)]
      rw [hx, ih (Nat.succ.inj hlength) (by omega) hrest]

variable {p}

theorem feed_injective (hp : p.msb = true) (b : BitVec 8) : Function.Injective fun c => feed p c b := by
  intro c c' h
  have hxor := shifts_injective hp 8 h
  have hcancel := congrArg (· ^^^ b.setWidth w) hxor
  simpa [BitVec.xor_assoc] using hcancel

/-- Different remainders stay different. -/
theorem feedAll_injective (hp : p.msb = true) (bs : List (BitVec 8)) : Function.Injective fun c => feedAll p c bs := by
  induction bs with
  | nil => exact fun _ _ h => h
  | cons b bs ih => exact fun _ _ h => feed_injective hp b (ih h)

/-- **Every burst is seen.** Two texts that differ in at most as many successive bytes as the remainder holds have different
remainders. -/
theorem feedAll_burst (hp : p.msb = true) {c : BitVec w} {l xs ys r : List (BitVec 8)} (hlength : xs.length = ys.length)
    (hfits : 8 * xs.length ≤ w) (h : feedAll p c (l ++ xs ++ r) = feedAll p c (l ++ ys ++ r)) : xs = ys := by
  rw [feedAll_append, feedAll_append, feedAll_append, feedAll_append] at h
  have hburst := feedAll_injective hp r h
  rw [feedAll_eq p xs hfits, feedAll_eq p ys (hlength ▸ hfits), hlength] at hburst
  have hxor := shifts_injective hp _ hburst
  have hpack := congrArg (feedAll p c l ^^^ ·) hxor
  simp only [← BitVec.xor_assoc, BitVec.xor_self, BitVec.zero_xor] at hpack
  exact pack_injective hlength hfits hpack

end Crc
