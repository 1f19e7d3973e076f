import PhxPaxos.Abstract.Files

/-!
# Messages in a stream of bytes

A message is sent as its length with that of the length field, in four bytes, the highest first, and its bytes. A stream
that begins with the frames of some messages is read in one way only (`frames_prefix`, `frames_inj`), as long as what
follows them does not begin with a frame (`Partial`).
-/

namespace Framing

open Files

/-! ## Integers in network order -/

/-- `htonl` -/
def encodeBE (n : Nat) : Content := (encodeLE 4 n).reverse

/-- `ntohl` -/
def decodeBE (bs : Content) : Nat := decodeLE bs.reverse

@[simp] theorem encodeBE_length (n : Nat) : (encodeBE n).length = 4 := by
  rw [encodeBE, List.length_reverse, encodeLE_length]

theorem decodeBE_encodeBE {n : Nat} (h : n < 2 ^ 32) : decodeBE (encodeBE n) = n := by
  rw [decodeBE, encodeBE, List.reverse_reverse]
  exact decodeLE_encodeLE h

theorem encodeBE_inj {n k : Nat} (hn : n < 2 ^ 32) (hk : k < 2 ^ 32) (h : encodeBE n = encodeBE k) : n = k := by
  rw [← decodeBE_encodeBE hn, ← decodeBE_encodeBE hk, h]

/-! ## Frames -/

/-- A message whose frame has a length of 32 bits. -/
def Short (m : Content) : Prop := m.length + 4 < 2 ^ 32

def frame (m : Content) : Content := encodeBE (m.length + 4) ++ m

def frames (ms : List Content) : Content := ms.flatMap frame

section Frames

variable {m n p q : Content} {ms ds : List Content}

@[simp] theorem frame_length (m : Content) : (frame m).length = m.length + 4 := by
  rw [frame, List.length_append, encodeBE_length, Nat.add_comm]

@[simp] theorem frames_nil : frames [] = [] := rfl

@[simp] theorem frames_cons (m : Content) (ms : List Content) : frames (m :: ms) = frame m ++ frames ms := by
  simp [frames]

@[simp] theorem frames_append (ms ds : List Content) : frames (ms ++ ds) = frames ms ++ frames ds := by
  simp [frames]

/-- A frame is no proper beginning of another. -/
theorem frame_append_inj (hm : Short m) (hn : Short n) (h : frame m ++ p = frame n ++ q) : m = n ∧ p = q := by
  unfold frame at h
  rw [List.append_assoc, List.append_assoc] at h
  obtain ⟨hhead, hrest⟩ := List.append_inj h (by rw [encodeBE_length, encodeBE_length])
  have hlen := encodeBE_inj hm hn hhead
  exact List.append_inj hrest (by omega)

/-- No frame lies at the beginning. -/
def Partial (p : Content) : Prop := ∀ m, Short m → ¬ frame m <+: p

theorem Partial.nil : Partial [] := by
  intro m _ h
  have hlen := h.length_le
  rw [frame_length, List.length_nil] at hlen
  omega

theorem Partial.head (h : p.length < 4) : Partial p := by
  intro m _ hm
  have hlen := hm.length_le
  rw [frame_length] at hlen
  omega

/-- A length with fewer bytes behind it. -/
theorem Partial.body {len : Nat} (hlen : len + 4 < 2 ^ 32) (h : q.length < len) : Partial (encodeBE (len + 4) ++ q) := by
  rintro m hm ⟨rest, hrest⟩
  unfold frame at hrest
  rw [List.append_assoc] at hrest
  obtain ⟨hhead, htail⟩ := List.append_inj hrest (by rw [encodeBE_length, encodeBE_length])
  have heq := encodeBE_inj hm hlen hhead
  have hle : m.length ≤ q.length := by
    rw [← htail, List.length_append]
    omega
  omega

/-- A proper beginning of a frame. -/
theorem Partial.of_begin (hm : Short m) (hp : p <+: frame m) (hne : p ≠ frame m) : Partial p := by
  rintro n hn ⟨rest, hrest⟩
  obtain ⟨rest', hrest'⟩ := hp
  rw [← hrest, List.append_assoc] at hrest'
  obtain ⟨rfl, hnil⟩ := frame_append_inj (q := []) hn hm (by rw [hrest', List.append_nil])
  obtain ⟨rfl, -⟩ := List.append_eq_nil_iff.mp hnil
  exact hne (by rw [← hrest, List.append_nil])

/-- A length was read from the beginning of frames: it is that of the first message. -/
theorem frames_uncons (hp : p.length = 4) (h : p ++ q <+: frames ms) :
    ∃ m ms', ms = m :: ms' ∧ p = encodeBE (m.length + 4) ∧ q <+: m ++ frames ms' := by
  obtain ⟨rest, hrest⟩ := h
  cases ms with
  | nil =>
    have hlen := congrArg List.length hrest
    simp only [List.length_append, frames_nil, List.length_nil] at hlen
    omega
  | cons m ms' =>
    rw [frames_cons, frame, List.append_assoc, List.append_assoc] at hrest
    obtain ⟨hhead, htail⟩ := List.append_inj hrest (by rw [hp, encodeBE_length])
    exact ⟨m, ms', rfl, hhead, rest, htail⟩

/-- **What has been read is what was sent first.** -/
theorem frames_prefix (hds : ∀ d ∈ ds, Short d) (hms : ∀ m ∈ ms, Short m) (hq : Partial q)
    (h : frames ds ++ p <+: frames ms ++ q) : ds <+: ms := by
  induction ds generalizing ms with
  | nil => exact List.nil_prefix
  | cons d ds ih =>
    obtain ⟨rest, hrest⟩ := h
    rw [frames_cons, List.append_assoc, List.append_assoc] at hrest
    cases ms with
    | nil => exact absurd ⟨_, hrest⟩ (hq d (hds d List.mem_cons_self))
    | cons m ms =>
      rw [frames_cons, List.append_assoc] at hrest
      obtain ⟨rfl, htail⟩ := frame_append_inj (hds d List.mem_cons_self) (hms m List.mem_cons_self) hrest
      have hpre : frames ds ++ p <+: frames ms ++ q := ⟨rest, by rw [List.append_assoc, htail]⟩
      rw [List.cons_prefix_cons]
      exact ⟨rfl, ih (fun x hx => hds x (List.mem_cons_of_mem _ hx)) (fun x hx => hms x (List.mem_cons_of_mem _ hx)) hpre⟩

/-- A stream is read in one way. -/
theorem frames_inj (hds : ∀ d ∈ ds, Short d) (hms : ∀ m ∈ ms, Short m) (hp : Partial p) (hq : Partial q)
    (h : frames ds ++ p = frames ms ++ q) : ds = ms ∧ p = q := by
  have hle : ds <+: ms := frames_prefix hds hms hq (by rw [h])
  have hge : ms <+: ds := frames_prefix hms hds hp (by rw [h])
  have heq : ds = ms := hle.eq_of_length_le hge.length_le
  subst heq
  exact ⟨rfl, List.append_cancel_left h⟩

end Frames

end Framing
