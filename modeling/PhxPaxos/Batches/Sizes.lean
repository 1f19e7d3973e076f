import PhxPaxos.Batches.Queue

/-!
# The sizes of groups

`PluckProposal` counts the bytes of the values and stops after it has crossed its limit; `CheckNewValue` looks at what the
group is serialized to. So a group with a large value is refused where each of its proposals alone is not:
`group_fits_iff` says exactly when. Where the limit leaves room for what `PluckProposal` may take before its last value,
and for the fields of the entries, no group is refused (`group_fits`).
-/

namespace PhxPaxos

/-! ## The serialized size -/

/-- The bytes of a varint. -/
def varintLength (n : Nat) : Nat := Nat.log 128 n + 1

/-- The bytes of a `PaxosValue`. -/
def entrySize (p : PendingProposal) : Nat :=
  1 + varintLength (int32Varint p.smid.toNat) + (1 + varintLength p.value.length + p.value.length)

/-- The bytes of the `BatchPaxosValues` of a group. -/
def groupSize (request : List PendingProposal) : Nat :=
  (request.map fun p => 1 + varintLength (entrySize p) + entrySize p).sum

theorem length_serializePaxosValue (p : PendingProposal) :
    (serializePaxosValue ⟨p.smid.toNat, p.value⟩).length = entrySize p := by
  unfold serializePaxosValue
  rw [Wire.encode_cons, Wire.encode_cons, Wire.encode_nil, List.append_nil, List.length_append,
    Wire.length_encodeField_varint, Wire.length_encodeField_bytes]
  simp only [Wire.length_encodeVarint]
  rfl

theorem length_serializeBatch (request : List PendingProposal) :
    (serializeBatchPaxosValues (batchValues request)).length = groupSize request := by
  unfold serializeBatchPaxosValues batchValues groupSize
  induction request with
  | nil => rfl
  | cons p request ih =>
    simp only [List.map_cons, Wire.encode_cons, List.length_append, List.sum_cons, ih, Wire.length_encodeField_bytes,
      length_serializePaxosValue, Wire.length_encodeVarint]
    rfl

theorem varintLength_le {n k : Nat} (hk : k ≠ 0) (h : n < 128 ^ k) : varintLength n ≤ k :=
  (Wire.length_encodeVarint n).ge.trans (Wire.length_encodeVarint_le hk h)

/-- A negative `int32` takes ten bytes. -/
theorem varintLength_int32_le (n : UInt32) : varintLength (int32Varint n.toNat) ≤ 10 := by
  have hlt := n.toNat_lt
  refine varintLength_le (by decide) ?_
  unfold int32Varint
  split
  · omega
  · omega

/-- The fields of an entry take at most 21 bytes. -/
theorem entry_le {p : PendingProposal} (hlen : p.value.length ≤ 52428800) :
    1 + varintLength (entrySize p) + entrySize p ≤ p.value.length + 21 := by
  have hsmid := varintLength_int32_le p.smid
  have hvalue : varintLength p.value.length ≤ 4 := varintLength_le (by decide) (by omega)
  have hentry : entrySize p ≤ p.value.length + 16 := by
    unfold entrySize
    omega
  have hvarint : varintLength (entrySize p) ≤ 4 := varintLength_le (by decide) (by omega)
  omega

theorem groupSize_cons (p : PendingProposal) (request : List PendingProposal) :
    groupSize (p :: request) = 1 + varintLength (entrySize p) + entrySize p + groupSize request := by
  simp [groupSize]

/-- What a group is serialized to is its values and at most 21 bytes for each. -/
theorem groupSize_le (request : List PendingProposal) (hlen : ∀ p ∈ request, p.value.length ≤ 52428800) :
    groupSize request ≤ valueSize request + 21 * request.length := by
  induction request with
  | nil => exact le_rfl
  | cons p request ih =>
    have hp := entry_le (hlen p List.mem_cons_self)
    have htail := ih fun q hq => hlen q (List.mem_cons_of_mem _ hq)
    rw [groupSize_cons, valueSize_cons, List.length_cons]
    omega

theorem valueSize_le_groupSize (request : List PendingProposal) : valueSize request ≤ groupSize request := by
  induction request with
  | nil => exact le_rfl
  | cons p request ih =>
    have hentry : p.value.length ≤ entrySize p := by
      unfold entrySize
      omega
    rw [groupSize_cons, valueSize_cons]
    omega

/-! ## The size check -/

/-- The size check of `CheckNewValue` lets the value of a `Propose` through, as it reaches the instance. -/
def Admitted (isLargeBufferMode : Bool) (value : Bytes) (smid : Nat) : Prop :=
  valueSizeTooLarge isLargeBufferMode (packPaxosValue value smid) = false

theorem length_packPaxosValue (value : Bytes) (smid : Nat) : (packPaxosValue value smid).length = value.length + 4 := by
  simp [packPaxosValue]

/-- What a length comes to as an `int`. -/
theorem toInt_le_iff {n max : Nat} (hn : n < 2 ^ 31 + 4) (hmax : max < 2 ^ 31) :
    toInt n ≤ max ↔ n ≤ max ∨ 2 ^ 31 ≤ n := by
  unfold toInt
  rcases Nat.lt_or_ge n (2 ^ 31) with hlt | hge
  · rw [Int.bmod_eq_of_le (by omega) (by omega)]
    omega
  · have hmod : (n : Int) % ((2 ^ 32 : Nat) : Int) = n := Int.emod_eq_of_lt (by omega) (by omega)
    rw [Int.bmod_neg _ _ (by rw [hmod]; omega), hmod]
    omega

/-- A value is admitted when it fits; so is one of which an `int` cannot count the bytes. -/
theorem admitted_iff {isLargeBufferMode : Bool} {value : Bytes} {smid : Nat} (hlen : value.length < 2 ^ 31) :
    Admitted isLargeBufferMode value smid ↔
      value.length + 4 ≤ maxValueSize isLargeBufferMode ∨ 2 ^ 31 ≤ value.length + 4 := by
  have hmax := maxValueSize_bounds isLargeBufferMode
  unfold Admitted valueSizeTooLarge
  rw [decide_eq_false_iff_not, not_lt, length_packPaxosValue, toInt_le_iff (by omega) (by omega)]

/-- No value that `DoPropose` proposes for the group is refused for its size. -/
def GroupFits (isLargeBufferMode : Bool) (request : List PendingProposal) : Prop :=
  ∀ thread, ∀ d ∈ DoPropose.start thread request, ∀ c, d.call = some c → Admitted isLargeBufferMode c.value c.smid

theorem groupFits_nil (isLargeBufferMode : Bool) : GroupFits isLargeBufferMode [] := fun _ _ hd => absurd hd List.not_mem_nil

theorem fits_single {isLargeBufferMode : Bool} {p : PendingProposal} :
    GroupFits isLargeBufferMode [p] ↔ Admitted isLargeBufferMode p.value p.smid.toNat := by
  constructor
  · intro h
    have hmem : ({ thread := .worker, request := [p], call := some (Call.new p.value p.smid.toNat) } : DoPropose) ∈
        DoPropose.start .worker [p] := List.mem_singleton.mpr rfl
    exact h .worker _ hmem (Call.new p.value p.smid.toNat) rfl
  · intro h thread d hd c hc
    rw [List.mem_singleton.mp hd] at hc
    cases hc
    exact h

/-- Several proposals are serialized. -/
theorem fits_several {isLargeBufferMode : Bool} {request : List PendingProposal} (hlen : 1 < request.length) :
    GroupFits isLargeBufferMode request ↔
      groupSize request + 4 ≤ maxValueSize isLargeBufferMode ∨ 2 ^ 31 ≤ groupSize request + 4 := by
  match request, hlen with
  | p :: q :: request, _ =>
    have hcall : DoPropose.newCall (p :: q :: request) =
        if (serializeBatchPaxosValues (batchValues (p :: q :: request))).length < 2 ^ 31 then
          some (Call.new (serializeBatchPaxosValues (batchValues (p :: q :: request))) batchProposeSMID)
        else none := rfl
    have hsize := length_serializeBatch (p :: q :: request)
    generalize serializeBatchPaxosValues (batchValues (p :: q :: request)) = buffer at hcall hsize
    rw [← hsize]
    have hfits : GroupFits isLargeBufferMode (p :: q :: request) ↔
        (buffer.length < 2 ^ 31 → Admitted isLargeBufferMode buffer batchProposeSMID) := by
      constructor
      · intro h hlt
        refine h .worker _ (List.mem_singleton.mpr rfl) (Call.new buffer batchProposeSMID) ?_
        exact hcall.trans (if_pos hlt)
      · intro h thread d hd c hc
        rw [List.mem_singleton.mp hd] at hc
        have hc : DoPropose.newCall (p :: q :: request) = some c := hc
        rw [hcall] at hc
        split at hc
        · cases hc
          exact h ‹_›
        · cases hc
    rw [hfits]
    rcases Nat.lt_or_ge buffer.length (2 ^ 31) with hlt | hge
    · rw [admitted_iff hlt]
      exact ⟨fun h => h hlt, fun h _ => h⟩
    · exact ⟨fun _ => Or.inr (by omega), fun _ hlt => absurd hlt (Nat.not_lt.mpr hge)⟩

/-! ## The group that is taken -/

/-- The proposals reach the count or the size where `PluckProposal` stops, as an `int` counts them. -/
def ProposeBatch.reaches (b : ProposeBatch) (request : List PendingProposal) : Bool :=
  decide (toInt request.length ≥ b.batchCount ∨ toInt (valueSize request) ≥ batchMaxSize)

/-- How many proposals make the next group: the fewest that reach a limit, or all. -/
def ProposeBatch.groupLength (b : ProposeBatch) : Nat :=
  ((List.range b.queue.length).find? fun k => b.reaches (b.queue.take (k + 1))).elim b.queue.length (· + 1)

/-- The next group, from the front of the queue. -/
def ProposeBatch.group (b : ProposeBatch) : List PendingProposal := b.queue.take b.groupLength

theorem addInt_toInt (n k : Nat) : addInt (toInt n) k = toInt (n + k) := by
  unfold toInt
  rw [addInt_bmod, Int.natCast_add]

/-- The loop after it has taken `pre`. -/
theorem pluckLoop_eq (b : ProposeBatch) (queue : List PendingProposal) : ∀ (pre : List PendingProposal) (count sum size : Int),
    count = toInt pre.length → sum = toInt (valueSize pre) → (pluckLoop b.batchCount count sum size queue).1 =
      queue.take (((List.range queue.length).find? fun k => b.reaches (pre ++ queue.take (k + 1))).elim queue.length
        (· + 1)) := by
  induction queue with
  | nil => exact fun _ _ _ _ _ _ => rfl
  | cons p queue ih =>
    intro pre count sum size hcount hsum
    have hcount : addInt count 1 = toInt (pre ++ [p]).length := by
      rw [List.length_append, List.length_singleton, ← addInt_toInt, Int.natCast_one, hcount]
    have hsum : addInt sum p.value.length = toInt (valueSize (pre ++ [p])) := by
      rw [valueSize_append, valueSize_cons, valueSize_nil, Nat.add_zero, ← addInt_toInt, hsum]
    have hpre (k : Nat) : pre ++ (p :: queue).take (k + 1) = pre ++ [p] ++ queue.take k := by simp
    have ih := ih (pre ++ [p]) _ _ (addInt size (-p.value.length)) hcount hsum
    unfold pluckLoop
    rw [List.length_cons, List.range_succ_eq_map]
    simp only [hpre]
    cases hreach : b.reaches (pre ++ [p]) with
    | true =>
      have hstop := of_decide_eq_true hreach
      rw [← hcount, ← hsum] at hstop
      rw [if_pos hstop, List.find?_cons_of_pos (by rw [List.take_zero, List.append_nil, hreach])]
      rfl
    | false =>
      have hgo := of_decide_eq_false hreach
      rw [← hcount, ← hsum] at hgo
      rw [if_neg hgo, List.find?_cons_of_neg (by rw [List.take_zero, List.append_nil, hreach]; decide), List.find?_map, ih,
        Function.comp_def]
      generalize (List.range queue.length).find? (fun k => b.reaches (pre ++ [p] ++ queue.take k.succ)) = first
      cases first with
      | none => rfl
      | some k => rfl

theorem pluckProposal_group (b : ProposeBatch) : b.pluckProposal.2 = b.group :=
  pluckLoop_eq b b.queue [] 0 0 b.nowQueueValueSize (by decide) (by decide)

/-- **A group is admitted exactly when what it is serialized to fits**, or when it is a single proposal. -/
theorem group_fits_iff (isLargeBufferMode : Bool) (b : ProposeBatch)
    (hadmitted : ∀ p ∈ b.queue, Admitted isLargeBufferMode p.value p.smid.toNat) :
    GroupFits isLargeBufferMode b.pluckProposal.2 ↔
      b.group.length ≤ 1 ∨ groupSize b.group + 4 ≤ maxValueSize isLargeBufferMode ∨ 2 ^ 31 ≤ groupSize b.group + 4 := by
  rw [pluckProposal_group]
  have hmem : ∀ p ∈ b.group, p ∈ b.queue := fun p hp => List.mem_of_mem_take hp
  generalize b.group = request at hmem
  match request with
  | [] => exact iff_of_true (groupFits_nil _) (Or.inl (Nat.zero_le _))
  | [p] =>
    have hp := hadmitted p (hmem p List.mem_cons_self)
    exact iff_of_true (fits_single.mpr hp) (Or.inl le_rfl)
  | p :: q :: request =>
    have hlen : 1 < (p :: q :: request).length := by simp
    rw [fits_several hlen]
    exact ⟨Or.inr, fun h => h.resolve_left (Nat.not_le.mpr hlen)⟩

/-! ## A limit for the values -/

/-- What `PluckProposal` takes before the last proposal is below its limits, as long as an `int` can count the queue. -/
theorem pluckLoop_bounds (batchCount : Int) (queue : List PendingProposal) : ∀ (k s : Nat) (size : Int),
    k + queue.length < 2 ^ 31 → s + valueSize queue < 2 ^ 31 → s < 500 * 1024 →
    (k + (pluckLoop batchCount k s size queue).1.length : Int) ≤ max batchCount (k + 1) ∧
      s + valueSize (pluckLoop batchCount k s size queue).1.dropLast < 500 * 1024 := by
  induction queue with
  | nil =>
    intro k s size _ _ hs
    exact ⟨le_max_of_le_right (by simp only [pluckLoop, List.length_nil]; omega), by simpa [pluckLoop] using hs⟩
  | cons p queue ih =>
    intro k s size hk hsum hs
    rw [List.length_cons] at hk
    rw [valueSize_cons] at hsum
    have hcount : addInt k 1 = ((k + 1 : Nat) : Int) := Int.bmod_eq_of_le (by omega) (by omega)
    have hsize : addInt s p.value.length = ((s + p.value.length : Nat) : Int) := Int.bmod_eq_of_le (by omega) (by omega)
    unfold pluckLoop
    simp only [hcount, hsize]
    split
    · exact ⟨le_max_of_le_right (by simp), by simpa using hs⟩
    · rename_i hgo
      rw [not_or, not_le, not_le] at hgo
      have hlt : s + p.value.length < 500 * 1024 := by
        have := hgo.2
        unfold batchMaxSize at this
        omega
      obtain ⟨hlen, hval⟩ := ih (k + 1) (s + p.value.length) (addInt size (-p.value.length)) (by omega) (by omega) hlt
      generalize pluckLoop batchCount ((k + 1 : Nat) : Int) ((s + p.value.length : Nat) : Int)
        (addInt size (-p.value.length)) queue = r at hlen hval
      obtain ⟨request, rest, size'⟩ := r
      simp only at hlen hval ⊢
      constructor
      · rw [List.length_cons]
        have hle := hgo.1
        omega
      · cases request with
        | nil => simpa using hs
        | cons q request =>
          rw [List.dropLast_cons_of_ne_nil (List.cons_ne_nil _ _), valueSize_cons]
          omega

/-- **Where the limit leaves room** for what a group takes before its last value and for the fields of its entries, no
group is refused. -/
theorem group_fits (isLargeBufferMode : Bool) (b : ProposeBatch) {most : Nat} (hcount : b.queue.length < 2 ^ 31)
    (hsize : valueSize b.queue < 2 ^ 31) (hvalues : ∀ p ∈ b.queue, p.value.length ≤ most)
    (hroom : most + 500 * 1024 + 21 * (max b.batchCount 1).toNat + 4 ≤ maxValueSize isLargeBufferMode) :
    GroupFits isLargeBufferMode b.pluckProposal.2 := by
  have hmax := (maxValueSize_bounds isLargeBufferMode).2
  have hmem : ∀ p ∈ b.pluckProposal.2, p ∈ b.queue := by
    intro p hp
    rw [← (pluckProposal_plucks b).queue]
    exact List.mem_append_left _ hp
  obtain ⟨hlen, hval⟩ := pluckLoop_bounds b.batchCount b.queue 0 0 b.nowQueueValueSize (by omega) (by omega) (by omega)
  change (((0 : Nat) : Int) + b.pluckProposal.2.length : Int) ≤ max b.batchCount (((0 : Nat) : Int) + 1) at hlen
  change 0 + valueSize b.pluckProposal.2.dropLast < 500 * 1024 at hval
  generalize b.pluckProposal.2 = request at hmem hlen hval
  rcases Nat.lt_or_ge 1 request.length with hseveral | hone
  · have hne : request ≠ [] := List.ne_nil_of_length_pos (by omega)
    have hlast := hvalues _ (hmem _ (List.getLast_mem hne))
    have hsum : valueSize request = valueSize request.dropLast + (request.getLast hne).value.length := by
      conv_lhs => rw [← List.dropLast_append_getLast hne]
      rw [valueSize_append, valueSize_cons, valueSize_nil, Nat.add_zero]
    have hgroup := groupSize_le request fun p hp => (hvalues p (hmem p hp)).trans (by omega)
    rw [fits_several hseveral]
    left
    omega
  · match request, hone with
    | [], _ => exact groupFits_nil _
    | [p], _ =>
      have hp := hvalues p (hmem p List.mem_cons_self)
      rw [fits_single, admitted_iff (by omega)]
      left
      omega

/-! ## Two proposals -/

/-- A queue with a proposal of one byte before one of `n`. -/
def twoProposals (n : Nat) : ProposeBatch := { queue := [⟨1, [7], 0, 0⟩, ⟨2, List.replicate n 0, 0, 0⟩] }

theorem twoProposals_length {n : Nat} : ∀ p ∈ (twoProposals n).queue, p.value.length ≤ max 1 n := by
  refine List.forall_mem_cons.mpr ⟨le_max_left _ _, List.forall_mem_singleton.mpr ?_⟩
  rw [List.length_replicate]
  exact le_max_right _ _

theorem valueSize_twoProposals (n : Nat) : valueSize (twoProposals n).queue = n + 1 := by
  unfold twoProposals valueSize
  simp only [List.map_cons, List.map_nil, List.sum_cons, List.sum_nil, List.length_replicate, List.length_singleton]
  omega

theorem twoProposals_admitted {n : Nat} (hn : n + 4 ≤ 10485760) :
    ∀ p ∈ (twoProposals n).queue, Admitted false p.value p.smid.toNat := by
  intro p hp
  have hlen := twoProposals_length p hp
  have hmax : maxValueSize false = 10485760 := rfl
  rw [admitted_iff (by omega), hmax]
  left
  omega

theorem pluckProposal_request (b : ProposeBatch) :
    b.pluckProposal.2 = (pluckLoop b.batchCount 0 0 b.nowQueueValueSize b.queue).1 := rfl

theorem pluckLoop_go {batchCount k s size : Int} {p : PendingProposal} {queue : List PendingProposal}
    (h : ¬ (addInt k 1 ≥ batchCount ∨ addInt s p.value.length ≥ batchMaxSize)) :
    (pluckLoop batchCount k s size (p :: queue)).1 =
      p :: (pluckLoop batchCount (addInt k 1) (addInt s p.value.length) (addInt size (-p.value.length)) queue).1 := by
  conv_lhs => unfold pluckLoop
  simp only [if_neg h]

theorem pluckLoop_single (batchCount k s size : Int) (p : PendingProposal) :
    (pluckLoop batchCount k s size [p]).1 = [p] := by
  unfold pluckLoop
  simp only [pluckLoop]
  split
  · rfl
  · rfl

/-- They make a group. -/
theorem pluck_twoProposals (n : Nat) : (twoProposals n).pluckProposal.2 = (twoProposals n).queue := by
  have hsize : addInt 0 ([7] : Bytes).length = 1 := Int.bmod_eq_of_le (by simp) (by simp)
  have hcount : addInt 0 1 = 1 := Int.bmod_eq_of_le (by omega) (by omega)
  have hgo : ¬ (addInt 0 1 ≥ 5 ∨ addInt 0 ([7] : Bytes).length ≥ batchMaxSize) := by
    rw [hsize, hcount]
    unfold batchMaxSize
    omega
  have hqueue : (twoProposals n).queue = [⟨1, [7], 0, 0⟩, ⟨2, List.replicate n 0, 0, 0⟩] := rfl
  have hbatchCount : (twoProposals n).batchCount = 5 := rfl
  rw [pluckProposal_request, hqueue, hbatchCount, pluckLoop_go hgo, pluckLoop_single]

theorem group_fits_iff_twoProposals : GroupFits false (twoProposals 1).pluckProposal.2 := by
  refine (group_fits_iff false (twoProposals 1) (twoProposals_admitted (by omega))).mpr (Or.inr (Or.inl ?_))
  rw [← pluckProposal_group, pluck_twoProposals]
  have hle := groupSize_le (twoProposals 1).queue fun p hp => (twoProposals_length p hp).trans (by omega)
  have hmax : maxValueSize false = 10485760 := rfl
  have hlen : (twoProposals 1).queue.length = 2 := rfl
  rw [valueSize_twoProposals, hlen] at hle
  omega

/-- A proposal of 10 MB, less its four bytes, is admitted alone, and refused in a group with one of a single byte. -/
theorem grouped_refused : ∃ b : ProposeBatch, (∀ p ∈ b.queue, Admitted false p.value p.smid.toNat) ∧
    ¬ GroupFits false b.pluckProposal.2 := by
  obtain ⟨n, hn⟩ : ∃ n : Nat, n = 10485756 := ⟨_, rfl⟩
  refine ⟨twoProposals n, twoProposals_admitted (by omega), ?_⟩
  have hmax : maxValueSize false = 10485760 := rfl
  have hlen : (twoProposals n).queue.length = 2 := rfl
  have hge := valueSize_le_groupSize (twoProposals n).queue
  have hle := groupSize_le (twoProposals n).queue fun p hp => (twoProposals_length p hp).trans (by omega)
  rw [valueSize_twoProposals] at hge hle
  rw [pluck_twoProposals, fits_several (by omega), hmax]
  omega

end PhxPaxos
