import Mathlib.Algebra.Group.Int.Defs
import Mathlib.Algebra.Group.Nat.Defs
import Mathlib.Data.List.Basic
import Mathlib.Data.Nat.Log

/-!
# The protobuf wire format

Messages as lists of numbered fields, each a varint or a string of bytes. What is encoded is decoded again
(`decode_encode`). A varint takes a byte for each seven bits (`length_encodeVarint`).
-/

namespace Wire

abbrev Buffer := List UInt8

/-! ## Varints -/

/-- The groups of seven bits of `n`, least significant first, all but the last with the high bit set; `k` bounds their
number. -/
def varint : Nat → Nat → Buffer
  | 0, n => [UInt8.ofNat n]
  | k + 1, n => if n < 128 then [UInt8.ofNat n] else UInt8.ofNat (n % 128 + 128) :: varint k (n / 128)

def encodeVarint (n : Nat) : Buffer := varint n n

def decodeVarint : Buffer → Option (Nat × Buffer)
  | [] => none
  | b :: bs =>
    if b.toNat < 128 then some (b.toNat, bs)
    else (decodeVarint bs).map fun (n, rest) => (b.toNat - 128 + 128 * n, rest)

theorem decode_varint {k n : Nat} (h : n ≤ k) (rest : Buffer) : decodeVarint (varint k n ++ rest) = some (n, rest) := by
  induction k generalizing n with
  | zero =>
    obtain rfl : n = 0 := Nat.le_zero.mp h
    rfl
  | succ k ih =>
    unfold varint
    by_cases hn : n < 128
    · have htoNat : (UInt8.ofNat n).toNat = n := by rw [UInt8.toNat_ofNat']; omega
      rw [if_pos hn, List.singleton_append, decodeVarint, htoNat, if_pos hn]
    · have htoNat : (UInt8.ofNat (n % 128 + 128)).toNat = n % 128 + 128 := by rw [UInt8.toNat_ofNat']; omega
      rw [if_neg hn, List.cons_append, decodeVarint, htoNat, if_neg (by omega), ih (by omega)]
      simp only [Option.map_some, Option.some.injEq, Prod.mk.injEq, and_true]
      omega

theorem decode_encodeVarint (n : Nat) (rest : Buffer) : decodeVarint (encodeVarint n ++ rest) = some (n, rest) :=
  decode_varint (Nat.le_refl n) rest

theorem encodeVarint_ne_nil (n : Nat) : encodeVarint n ≠ [] := by
  unfold encodeVarint varint
  split
  · simp
  · split <;> simp

theorem length_varint {k n : Nat} (h : n ≤ k) : (varint k n).length = Nat.log 128 n + 1 := by
  induction k generalizing n with
  | zero =>
    obtain rfl : n = 0 := Nat.le_zero.mp h
    simp [varint]
  | succ k ih =>
    unfold varint
    by_cases hn : n < 128
    · rw [if_pos hn, Nat.log_of_lt hn]
      rfl
    · have hlog : Nat.log 128 n = Nat.log 128 (n / 128) + 1 := Nat.log_of_one_lt_of_le (by omega) (by omega)
      rw [if_neg hn, List.length_cons, ih (by omega), hlog]

/-- The size of a varint. -/
theorem length_encodeVarint (n : Nat) : (encodeVarint n).length = Nat.log 128 n + 1 :=
  length_varint (Nat.le_refl n)

theorem length_encodeVarint_le {n k : Nat} (hk : k ≠ 0) (h : n < 128 ^ k) : (encodeVarint n).length ≤ k := by
  have hlog : Nat.log 128 n < k := Nat.log_lt_of_lt_pow' hk h
  rw [length_encodeVarint]
  omega

/-! ## Fields -/

inductive Value
  | varint (n : Nat)
  | bytes (bs : Buffer)
deriving DecidableEq

abbrev Field := Nat × Value

def encodeField : Field → Buffer
  | (number, .varint n) => encodeVarint (8 * number) ++ encodeVarint n
  | (number, .bytes bs) => encodeVarint (8 * number + 2) ++ (encodeVarint bs.length ++ bs)

def decodeField (bs : Buffer) : Option (Field × Buffer) :=
  match decodeVarint bs with
  | none => none
  | some (tag, bs) =>
    match decodeVarint bs with
    | none => none
    | some (n, bs) =>
      if tag % 8 = 0 then some ((tag / 8, .varint n), bs)
      else if tag % 8 = 2 then
        if n ≤ bs.length then some ((tag / 8, .bytes (bs.take n)), bs.drop n) else none
      else none

theorem decode_encodeField (f : Field) (rest : Buffer) : decodeField (encodeField f ++ rest) = some (f, rest) := by
  obtain ⟨number, v⟩ := f
  cases v with
  | varint n =>
    have hmod : 8 * number % 8 = 0 := by omega
    have hdiv : 8 * number / 8 = number := by omega
    simp only [encodeField, decodeField, List.append_assoc, decode_encodeVarint, hmod, hdiv, if_true]
  | bytes bs =>
    have hmod : (8 * number + 2) % 8 = 2 := by omega
    have hdiv : (8 * number + 2) / 8 = number := by omega
    simp only [encodeField, decodeField, List.append_assoc, decode_encodeVarint, hmod, hdiv, if_true]
    simp

theorem encodeField_ne_nil (f : Field) : encodeField f ≠ [] := by
  obtain ⟨number, v⟩ := f
  cases v <;> simp [encodeField, encodeVarint_ne_nil]

theorem length_encodeField_varint (number n : Nat) :
    (encodeField (number, .varint n)).length = (encodeVarint (8 * number)).length + (encodeVarint n).length := by
  rw [encodeField, List.length_append]

theorem length_encodeField_bytes (number : Nat) (bs : Buffer) :
    (encodeField (number, .bytes bs)).length =
      (encodeVarint (8 * number + 2)).length + (encodeVarint bs.length).length + bs.length := by
  rw [encodeField, List.length_append, List.length_append]
  omega

/-! ## Messages -/

def encode (fs : List Field) : Buffer := fs.flatMap encodeField

/-- At most `k` fields. -/
def decodeFields : Nat → Buffer → Option (List Field)
  | _, [] => some []
  | 0, _ :: _ => none
  | k + 1, bs =>
    match decodeField bs with
    | none => none
    | some (f, rest) => (decodeFields k rest).map (f :: ·)

def decode (bs : Buffer) : Option (List Field) := decodeFields bs.length bs

theorem encode_cons (f : Field) (fs : List Field) : encode (f :: fs) = encodeField f ++ encode fs := by
  simp [encode]

@[simp] theorem encode_nil : encode [] = [] := rfl

theorem decodeFields_encode (fs : List Field) : ∀ {k : Nat}, fs.length ≤ k → decodeFields k (encode fs) = some fs := by
  induction fs with
  | nil =>
    intro k _
    cases k <;> rfl
  | cons f fs ih =>
    intro k hk
    obtain ⟨k, rfl⟩ : ∃ j, k = j + 1 := ⟨k - 1, by simp at hk; omega⟩
    have hne : encode (f :: fs) ≠ [] := by simp [encode, encodeField_ne_nil]
    obtain ⟨b, bs, hb⟩ := List.exists_cons_of_ne_nil hne
    have hfield : decodeField (encode (f :: fs)) = some (f, encode fs) := decode_encodeField f _
    rw [hb] at hfield ⊢
    simp only [decodeFields, hfield, ih (Nat.le_of_succ_le_succ hk), Option.map_some]

theorem length_le_encode (fs : List Field) : fs.length ≤ (encode fs).length := by
  induction fs with
  | nil => exact Nat.le_refl _
  | cons f fs ih =>
    have hpos := List.length_pos_of_ne_nil (encodeField_ne_nil f)
    simp only [encode, List.flatMap_cons, List.length_append, List.length_cons] at ih ⊢
    omega

/-- **Round trip.** -/
theorem decode_encode (fs : List Field) : decode (encode fs) = some fs :=
  decodeFields_encode fs (length_le_encode fs)

/-- The values of the varint fields with the number. -/
def varints (number : Nat) (fs : List Field) : List Nat :=
  fs.filterMap fun
    | (m, .varint n) => if m = number then some n else none
    | _ => none

/-- The values of the byte fields with the number. -/
def buffers (number : Nat) (fs : List Field) : List Buffer :=
  fs.filterMap fun
    | (m, .bytes bs) => if m = number then some bs else none
    | _ => none

/-! ## Sizes of what is decoded -/

theorem decodeVarint_length {bs : Buffer} : ∀ {n : Nat} {rest : Buffer}, decodeVarint bs = some (n, rest) →
    rest.length < bs.length := by
  induction bs with
  | nil =>
    intro n rest h
    cases h
  | cons b bs ih =>
    intro n rest h
    unfold decodeVarint at h
    split at h
    · cases h
      exact Nat.lt_succ_self _
    · obtain ⟨⟨m, rest'⟩, hrec, heq⟩ := Option.map_eq_some_iff.mp h
      cases heq
      exact Nat.lt_succ_of_lt (ih hrec)

/-- A field leaves less than there was, and what it holds is shorter. -/
theorem decodeField_length {bs rest : Buffer} {f : Field} (h : decodeField bs = some (f, rest)) :
    rest.length < bs.length ∧ ∀ b, f.2 = .bytes b → b.length < bs.length := by
  unfold decodeField at h
  split at h
  · cases h
  · rename_i tag bs₁ h₁
    have hlen₁ := decodeVarint_length h₁
    split at h
    · cases h
    · rename_i n bs₂ h₂
      have hlen₂ := decodeVarint_length h₂
      split at h
      · cases h
        refine ⟨by omega, fun b hb => ?_⟩
        cases hb
      · split at h
        · split at h
          · cases h
            refine ⟨by rw [List.length_drop]; omega, fun b hb => ?_⟩
            cases hb
            rw [List.length_take]
            omega
          · cases h
        · cases h

theorem decodeFields_length {k : Nat} : ∀ {bs : Buffer} {fs : List Field}, decodeFields k bs = some fs →
    ∀ number b, (number, .bytes b) ∈ fs → b.length < bs.length := by
  induction k with
  | zero =>
    intro bs fs h number b hmem
    cases bs with
    | nil =>
      cases h
      cases hmem
    | cons _ _ => cases h
  | succ k ih =>
    intro bs fs h number b hmem
    cases bs with
    | nil =>
      cases h
      cases hmem
    | cons x xs =>
      simp only [decodeFields] at h
      split at h
      · cases h
      · rename_i f rest hfield
        obtain ⟨hrest, hbytes⟩ := decodeField_length hfield
        obtain ⟨fs', hfs', rfl⟩ := Option.map_eq_some_iff.mp h
        rcases List.mem_cons.mp hmem with rfl | hmem
        · exact hbytes b rfl
        · exact Nat.lt_trans (ih hfs' number b hmem) hrest

/-- The strings in a message are shorter than the message. -/
theorem buffers_length {bs : Buffer} {fs : List Field} (h : decode bs = some fs) {number : Nat} {b : Buffer}
    (hmem : b ∈ buffers number fs) : b.length < bs.length := by
  obtain ⟨⟨m, v⟩, hf, hv⟩ := List.mem_filterMap.mp hmem
  cases v with
  | varint n => cases hv
  | bytes b' =>
    simp only [] at hv
    split at hv
    · cases hv
      exact decodeFields_length h m b hf
    · cases hv

end Wire
