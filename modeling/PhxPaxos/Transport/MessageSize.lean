import PhxPaxos.Transport.BaseMsg

/-!
# The size of the messages about a value

`CheckNewValue` and `Communicate::Send` compare with the same limit, the one a value and the other a message that carries
it. All messages about a value can be sent exactly when 89 bytes are left below the limit (`transportable_iff`); a value
that is admitted with fewer than 33 bytes left can be sent to nobody (`accept_refused`). What is sent is received
(`onReceive_packMsg`).
-/

namespace PhxPaxos

/-! ## The size of a field -/

section Size

variable {number n : Nat} {fs : List Wire.Field} {bs : Bytes}

/-- The number of bytes of a varint. -/
def varintSize (n : Nat) : Nat := (Wire.encodeVarint n).length

theorem varintSize_pos (n : Nat) : 1 ≤ varintSize n := by
  rw [varintSize, Wire.length_encodeVarint]
  omega

theorem varintSize_small (h : n < 128) : varintSize n = 1 := by
  rw [varintSize, Wire.length_encodeVarint, Nat.log_of_lt h]

theorem varintSize_ge {k : Nat} (h : 128 ^ k ≤ n) : k + 1 ≤ varintSize n := by
  have hpos : n ≠ 0 := by
    have : 0 < 128 ^ k := Nat.pow_pos (by omega)
    omega
  rw [varintSize, Wire.length_encodeVarint]
  exact Nat.succ_le_succ (Nat.le_log_of_pow_le (by omega) h)

theorem varintSize_uint64_le (x : UInt64) : varintSize x.toNat ≤ 10 :=
  Wire.length_encodeVarint_le (by omega) (Nat.lt_of_lt_of_le x.toNat_lt (by omega))

theorem varintSize_uint32_le (x : UInt32) : varintSize x.toNat ≤ 5 :=
  Wire.length_encodeVarint_le (by omega) (Nat.lt_of_lt_of_le x.toNat_lt (by omega))

theorem length_encode_varint (h : number < 16) :
    (Wire.encode ((number, .varint n) :: fs)).length = 1 + varintSize n + (Wire.encode fs).length := by
  have htag : (Wire.encodeVarint (8 * number)).length = 1 := varintSize_small (by omega)
  rw [Wire.encode_cons, List.length_append, Wire.length_encodeField_varint, htag, varintSize]

theorem length_encode_bytes (h : number < 15) :
    (Wire.encode ((number, .bytes bs) :: fs)).length = 1 + varintSize bs.length + bs.length + (Wire.encode fs).length := by
  have htag : (Wire.encodeVarint (8 * number + 2)).length = 1 := varintSize_small (by omega)
  rw [Wire.encode_cons, List.length_append, Wire.length_encodeField_bytes, htag, varintSize]

end Size

/-! ## The size of a message -/

namespace Carrier

variable (c : Carrier) (value : Bytes)

/-- The group, the header and the checksum. -/
theorem length_packMsg (fs : List Wire.Field) :
    (c.packMsg fs).length = 17 + varintSize c.gid.toNat + (Wire.encode fs).length := by
  have hheader : (protobufHeader.serialize (packedHeader c.gid msgCmdPaxosMsg)).length = 7 + varintSize c.gid.toNat := by
    have hfields : (packedHeader c.gid msgCmdPaxosMsg).fields =
        [(1, .varint c.gid.toNat), (2, .varint 0), (3, .varint 1), (4, .varint 1)] := rfl
    show (Wire.encode (packedHeader c.gid msgCmdPaxosMsg).fields).length = _
    rw [hfields, length_encode_varint (by omega), length_encode_varint (by omega), length_encode_varint (by omega),
      length_encode_varint (by omega), varintSize_small (show 0 < 128 by omega), varintSize_small (show 1 < 128 by omega),
      Wire.encode_nil, List.length_nil]
    omega
  rw [packMsg, packBaseMsg_length, packedBodyPos, hheader]
  unfold groupIdxLen headLenLen checksumLen
  omega

theorem length_acceptFields :
    (Wire.encode (c.acceptFields value)).length = 7 + varintSize c.instanceID.toNat + varintSize c.nodeID.toNat +
      varintSize c.proposalID.toNat + varintSize value.length + value.length + varintSize c.lastChecksum.toNat := by
  have htype : varintSize (MsgType.number .paxosAccept) = 1 := varintSize_small (by decide)
  unfold acceptFields
  rw [length_encode_varint (by omega), length_encode_varint (by omega), length_encode_varint (by omega),
    length_encode_varint (by omega), length_encode_bytes (by omega), length_encode_varint (by omega), htype,
    Wire.encode_nil, List.length_nil]
  omega

theorem length_prepareReplyFields :
    (Wire.encode (c.prepareReplyFields value)).length = 8 + varintSize c.instanceID.toNat + varintSize c.nodeID.toNat +
      varintSize c.proposalID.toNat + varintSize value.length + value.length + varintSize c.ballot.1.toNat +
      varintSize c.ballot.2.toNat := by
  have htype : varintSize (MsgType.number .paxosPrepareReply) = 1 := varintSize_small (by decide)
  unfold prepareReplyFields
  rw [length_encode_varint (by omega), length_encode_varint (by omega), length_encode_varint (by omega),
    length_encode_varint (by omega), length_encode_bytes (by omega), length_encode_varint (by omega),
    length_encode_varint (by omega), htype, Wire.encode_nil, List.length_nil]
  omega

theorem length_sendLearnValueFields_le :
    (Wire.encode (c.sendLearnValueFields value)).length ≤ 10 + varintSize c.instanceID.toNat + varintSize c.nodeID.toNat +
      varintSize c.ballot.1.toNat + varintSize c.ballot.2.toNat + varintSize value.length + value.length +
      varintSize c.lastChecksum.toNat := by
  have htype : varintSize (MsgType.number .learnerSendLearnValue) = 1 := varintSize_small (by decide)
  have hack : (Wire.encode (if c.needAck then [(13, .varint sendLearnValueNeedAck)] else [])).length ≤ 2 := by
    split
    · rw [length_encode_varint (by omega), varintSize_small (by decide), Wire.encode_nil, List.length_nil]
    · simp
  unfold sendLearnValueFields
  simp only [List.cons_append, List.nil_append]
  rw [length_encode_varint (by omega), length_encode_varint (by omega), length_encode_varint (by omega),
    length_encode_varint (by omega), length_encode_varint (by omega), length_encode_bytes (by omega),
    length_encode_varint (by omega), htype]
  omega

/-- A carrier with the largest numbers. -/
def largest : Carrier where
  groupIdx := 0
  gid := 0xffffffffffffffff
  instanceID := 0xffffffffffffffff
  nodeID := 0xffffffffffffffff
  proposalID := 0xffffffffffffffff
  ballot := (0xffffffffffffffff, 0xffffffffffffffff)
  lastChecksum := 0xffffffff
  needAck := true

/-- The longest message about a value is the reply to a prepare. -/
theorem length_largest : (largest.packMsg (largest.prepareReplyFields value)).length = 85 + varintSize value.length + value.length := by
  have hmax : varintSize (0xffffffffffffffff : UInt64).toNat = 10 :=
    Nat.le_antisymm (varintSize_uint64_le _) (varintSize_ge (k := 9) (by decide))
  rw [length_packMsg, length_prepareReplyFields]
  simp only [largest, hmax]
  omega

end Carrier

/-! ## The limit -/

section Limit

variable {isLargeBufferMode : Bool} {value message : Bytes}

/-- `Communicate::Send` does not refuse a message that is no longer than the limit. -/
theorem messageSizeTooLarge_of_le (h : message.length ≤ maxValueSize isLargeBufferMode) :
    messageSizeTooLarge isLargeBufferMode message = false := by
  have hmax := maxValueSize_bounds isLargeBufferMode
  unfold messageSizeTooLarge
  rw [toInt_of_lt (by omega), decide_eq_false_iff_not]
  omega

/-- `CheckNewValue` on a value of less than two gigabytes. -/
theorem valueSizeTooLarge_iff (h : value.length < 2 ^ 31) :
    valueSizeTooLarge isLargeBufferMode value = true ↔ value.length > maxValueSize isLargeBufferMode := by
  unfold valueSizeTooLarge
  rw [toInt_of_lt h, decide_eq_true_iff]
  omega

/-- The message is no longer than the limit, and is not refused. -/
def Fits (isLargeBufferMode : Bool) (message : Bytes) : Prop :=
  message.length ≤ maxValueSize isLargeBufferMode ∧ messageSizeTooLarge isLargeBufferMode message = false

theorem fits_iff : Fits isLargeBufferMode message ↔ message.length ≤ maxValueSize isLargeBufferMode :=
  ⟨And.left, fun h => ⟨h, messageSizeTooLarge_of_le h⟩⟩

/-- The messages about the value fit, whatever numbers they carry. -/
def Transportable (isLargeBufferMode : Bool) (value : Bytes) : Prop :=
  ∀ c : Carrier, Fits isLargeBufferMode (c.packMsg (c.acceptFields value)) ∧
    Fits isLargeBufferMode (c.packMsg (c.prepareReplyFields value)) ∧
    Fits isLargeBufferMode (c.packMsg (c.sendLearnValueFields value))

/-- **Which values can be transported**: 89 bytes have to be left. -/
theorem transportable_iff :
    Transportable isLargeBufferMode value ↔ value.length + 89 ≤ maxValueSize isLargeBufferMode := by
  have hmax := maxValueSize_bounds isLargeBufferMode
  constructor
  · intro h
    have hlen := fits_iff.mp (h Carrier.largest).2.1
    rw [Carrier.length_largest] at hlen
    by_cases hv : 128 ^ 3 ≤ value.length
    · have hsize : 4 ≤ varintSize value.length := varintSize_ge hv
      omega
    · omega
  · intro h c
    have hgid := varintSize_uint64_le c.gid
    have hinstance := varintSize_uint64_le c.instanceID
    have hnode := varintSize_uint64_le c.nodeID
    have hproposal := varintSize_uint64_le c.proposalID
    have hid := varintSize_uint64_le c.ballot.1
    have hballot := varintSize_uint64_le c.ballot.2
    have hsum := varintSize_uint32_le c.lastChecksum
    have hsize : varintSize value.length ≤ 4 := Wire.length_encodeVarint_le (by omega) (by omega)
    have hlearn := c.length_sendLearnValueFields_le value
    refine ⟨fits_iff.mpr ?_, fits_iff.mpr ?_, fits_iff.mpr ?_⟩
    · rw [Carrier.length_packMsg, Carrier.length_acceptFields]
      omega
    · rw [Carrier.length_packMsg, Carrier.length_prepareReplyFields]
      omega
    · rw [Carrier.length_packMsg]
      omega

theorem transportable_nil : Transportable isLargeBufferMode [] := by
  have hmax := maxValueSize_bounds isLargeBufferMode
  rw [transportable_iff, List.length_nil]
  omega

/-- With fewer than 33 bytes left the value can be sent to nobody. -/
theorem accept_refused (h : maxValueSize isLargeBufferMode < value.length + 33) (c : Carrier) :
    ¬ Fits isLargeBufferMode (c.packMsg (c.acceptFields value)) := by
  have hmax := maxValueSize_bounds isLargeBufferMode
  have hgid := varintSize_pos c.gid.toNat
  have hinstance := varintSize_pos c.instanceID.toNat
  have hnode := varintSize_pos c.nodeID.toNat
  have hproposal := varintSize_pos c.proposalID.toNat
  have hsum := varintSize_pos c.lastChecksum.toNat
  have hsize : 4 ≤ varintSize value.length := varintSize_ge (by omega)
  rw [fits_iff, Carrier.length_packMsg, Carrier.length_acceptFields]
  omega

theorem packPaxosValue_length (value : Bytes) (smid : Nat) : (packPaxosValue value smid).length = value.length + 4 := by
  simp only [packPaxosValue, List.cons_append, List.nil_append, List.length_cons]

/-- A value of the largest size that is admitted. -/
theorem admitted_not_transportable (smid : Nat) (h : value.length + 4 = maxValueSize isLargeBufferMode) :
    valueSizeTooLarge isLargeBufferMode (packPaxosValue value smid) = false ∧
      ¬ Transportable isLargeBufferMode (packPaxosValue value smid) := by
  have hmax := maxValueSize_bounds isLargeBufferMode
  have hlen := packPaxosValue_length value smid
  constructor
  · rw [← Bool.not_eq_true, valueSizeTooLarge_iff (by omega)]
    omega
  · rw [transportable_iff]
    omega

/-- Not every value that is admitted can be transported. -/
theorem not_transportable :
    ¬ ∀ (isLargeBufferMode : Bool) (value : Bytes) (smid : Nat),
      valueSizeTooLarge isLargeBufferMode (packPaxosValue value smid) = false →
      Transportable isLargeBufferMode (packPaxosValue value smid) := by
  intro h
  have hlen : (List.replicate 10485756 0 : Bytes).length + 4 = maxValueSize false := by
    rw [List.length_replicate]
    rfl
  obtain ⟨hadmitted, hnot⟩ := admitted_not_transportable 1 hlen
  exact hnot (h false _ 1 hadmitted)

end Limit

/-! ## What is sent is received -/

namespace Carrier

variable (c : Carrier) (value : Bytes)

theorem ofFields_acceptFields : PaxosMsg.ofFields (c.acceptFields value) = some
    { msgType := .paxosAccept, instanceID := c.instanceID.toNat, nodeID := c.nodeID.toNat,
      proposalID := c.proposalID.toNat, value := value, lastChecksum := c.lastChecksum.toNat } := rfl

theorem ofFields_prepareReplyFields : PaxosMsg.ofFields (c.prepareReplyFields value) = some
    { msgType := .paxosPrepareReply, instanceID := c.instanceID.toNat, nodeID := c.nodeID.toNat,
      proposalID := c.proposalID.toNat, value := value, preAcceptID := c.ballot.1.toNat,
      preAcceptNodeID := c.ballot.2.toNat } := rfl

theorem ofFields_sendLearnValueFields : PaxosMsg.ofFields (c.sendLearnValueFields value) = some
    { msgType := .learnerSendLearnValue, instanceID := c.instanceID.toNat, nodeID := c.nodeID.toNat,
      proposalID := c.ballot.1.toNat, proposalNodeID := c.ballot.2.toNat, value := value,
      lastChecksum := c.lastChecksum.toNat, flag := if c.needAck then sendLearnValueNeedAck else 0 } := by
  unfold sendLearnValueFields
  cases c.needAck <;> rfl

/-- **A message that is packed is received**, by a node of the same gid or where one of the two has none. -/
theorem onReceive_packMsg {fs : List Wire.Field} {msg : PaxosMsg} {gid : UInt64} (hfs : PaxosMsg.ofFields fs = some msg)
    (hgid : receiveMsgHeaderCheck gid (packedHeader c.gid msgCmdPaxosMsg) = true) (hlen : (Wire.encode fs).length < 2 ^ 31) :
    ∃ pos, protobufCodecs.onReceive gid false (c.packMsg fs) = .ok (.paxosMsg pos (Wire.encode fs).length msg) := by
  have hunpack : unPackBaseMsg protobufHeader (c.packMsg fs) = _ := unPackBaseMsg_packBaseMsg protobufHeader_faithful
  have hbody : ((c.packMsg fs).drop (packedBodyPos protobufHeader c.gid msgCmdPaxosMsg)).take (Wire.encode fs).length =
      Wire.encode fs := packBaseMsg_body
  have hsize := length_packMsg c fs
  have hpos : packedBodyPos protobufHeader c.gid msgCmdPaxosMsg + (Wire.encode fs).length ≤ (c.packMsg fs).length := by
    rw [packMsg, packBaseMsg_length]
    omega
  refine ⟨packedBodyPos protobufHeader c.gid msgCmdPaxosMsg, ?_⟩
  unfold Codecs.onReceive
  rw [if_neg (by omega)]
  change (unPackBaseMsg protobufHeader (c.packMsg fs) >>= fun _ => _) = _
  rw [hunpack, ok_bind]
  change parseMsg protobufCodecs.parsePaxosMsg .paxosMsg gid (c.packMsg fs) _ _ _ = _
  unfold parseMsg
  change (readAt (c.packMsg fs) _ (toInt (Wire.encode fs).length).toNat >>= fun _ => _) = _
  rw [toInt_of_lt hlen, Int.toNat_natCast, readAt_ok hpos, hbody, ok_bind]
  have hparse : protobufCodecs.parsePaxosMsg (Wire.encode fs) = some msg := by
    show (Wire.decode (Wire.encode fs)).bind PaxosMsg.ofFields = some msg
    rw [Wire.decode_encode, Option.bind_some, hfs]
  rw [hparse]
  exact if_pos hgid

end Carrier

end PhxPaxos
