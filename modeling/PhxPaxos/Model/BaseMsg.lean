import PhxPaxos.Abstract.Files
import PhxPaxos.Abstract.Wire
import PhxPaxos.Model.Run

/-!
# Buffers on the wire

`Base::PackBaseMsg` puts the group, the header and a checksum around a message, `Base::UnPackBaseMsg` finds the message
again in a buffer that came from anywhere, and `Instance::OnReceive` parses it. Accesses to memory and computations with
`size_t` are checked: one that leaves the buffer or wraps is a `Fault`. `Communicate::Send` refuses what is too long.

Protobuf is a parameter (`HeaderCodec`, `Codecs`); `protobufHeader` is the codec of `Header` in the wire format.
-/

namespace PhxPaxos

open Files

/-! ## Memory and machine integers -/

inductive Fault
  | outOfBounds
  | wrapped
deriving DecidableEq

/-- The `len` bytes of the buffer from `pos` on. -/
def readAt (buffer : Bytes) (pos len : Nat) : Except Fault Bytes :=
  if pos + len ≤ buffer.length then .ok ((buffer.drop pos).take len) else .error .outOfBounds

/-- `a + b`, as `size_t` -/
def sizeAdd (a b : Nat) : Except Fault Nat := if a + b < 2 ^ 64 then .ok (a + b) else .error .wrapped

/-- `a - b`, as `size_t` -/
def sizeSub (a b : Nat) : Except Fault Nat := if b ≤ a then .ok (a - b) else .error .wrapped

/-- `(int)n` -/
def toInt (n : Nat) : Int := (n : Int).bmod (2 ^ 32)

/-! ## The checksum -/

/-- `NET_CRC32SKIP` -/
def netCrc32Skip : Nat := 7

/-- The bytes that `crc32` reads: one, then every `skiplen`-th; the second argument counts down to the next. -/
def crc32Sample (skiplen : Nat) : Nat → Bytes → Bytes
  | _, [] => []
  | 0, b :: bs => b :: crc32Sample skiplen (skiplen - 1) bs
  | k + 1, _ :: bs => crc32Sample skiplen k bs

/-- `crc32(0, buffer, size, NET_CRC32SKIP)`; the loop ends at once where `size` is not positive. -/
def netCrc32 (buffer : Bytes) (size : Int) : UInt32 :=
  (crc32Sample netCrc32Skip 0 (buffer.take size.toNat)).foldl
    (fun (c : UInt32) (b : UInt8) => UInt32.ofNat (crc32Tab ((c.toNat ^^^ b.toNat) % 256)) ^^^ (c >>> 8))
    0xffffffff ^^^ 0xffffffff

/-! ## The header -/

/-- An unset `version` reads as zero. -/
structure Header where
  gid : UInt64
  rid : UInt64
  cmdID : Int32
  version : Int32
deriving DecidableEq

structure HeaderCodec where
  /-- `SerializeToString` -/
  serialize : Header → Bytes
  /-- `ParseFromArray` -/
  parse : Bytes → Option Header

/-- What is serialized is parsed again, and four varints of at most ten bytes, with their tags, are short. -/
structure HeaderCodec.Faithful (C : HeaderCodec) : Prop where
  parse_serialize : ∀ h, C.parse (C.serialize h) = some h
  length_le : ∀ h, (C.serialize h).length ≤ 44

/-- `GROUPIDXLEN` -/
def groupIdxLen : Nat := 4

/-- `HEADLEN_LEN` -/
def headLenLen : Nat := 2

/-- `CHECKSUM_LEN` -/
def checksumLen : Nat := 4

/-- `MsgCmd_PaxosMsg` -/
def msgCmdPaxosMsg : Int32 := 1

/-- `MsgCmd_CheckpointMsg` -/
def msgCmdCheckpointMsg : Int32 := 2

/-! ## Packing and unpacking -/

section Codec

variable (C : HeaderCodec)

/-- The header that `Base::PackBaseMsg` writes. -/
def packedHeader (gid : UInt64) (cmd : Int32) : Header := { gid := gid, rid := 0, cmdID := cmd, version := 1 }

/-- The buffer of `Base::PackBaseMsg` without its checksum. -/
def packBaseMsgPrefix (groupIdx : Int32) (gid : UInt64) (body : Bytes) (cmd : Int32) : Bytes :=
  let header := C.serialize (packedHeader gid cmd)
  encodeLE groupIdxLen groupIdx.toUInt32.toNat ++ encodeLE headLenLen header.length ++ header ++ body

/-- `Base::PackBaseMsg` -/
def packBaseMsg (groupIdx : Int32) (gid : UInt64) (body : Bytes) (cmd : Int32) : Bytes :=
  let buffer := packBaseMsgPrefix C groupIdx gid body cmd
  buffer ++ encodeLE checksumLen (netCrc32 buffer (toInt buffer.length)).toNat

/-- The end of `Base::UnPackBaseMsg`, for a header of version one or later. -/
def checkChecksum (buffer : Bytes) (header : Header) (bodyStartPos : Nat) :
    Except Fault (Option (Header × Nat × Nat)) := do
  let needed ← sizeAdd bodyStartPos checksumLen
  if needed > buffer.length then
    return none
  else
    let checked ← sizeSub buffer.length checksumLen
    let bodyLen ← sizeSub checked bodyStartPos
    let bufferChecksum ← readAt buffer checked checksumLen
    if (netCrc32 buffer (toInt checked)).toNat ≠ decodeLE bufferChecksum then return none
    else return some (header, bodyStartPos, bodyLen)

/-- `Base::UnPackBaseMsg`: the header, the start of the body and its length, or `none` for -1. -/
def unPackBaseMsg (buffer : Bytes) : Except Fault (Option (Header × Nat × Nat)) := do
  let headerLen ← readAt buffer groupIdxLen headLenLen
  let headerStartPos := groupIdxLen + headLenLen
  let bodyStartPos ← sizeAdd headerStartPos (decodeLE headerLen)
  if bodyStartPos > buffer.length then
    return none
  else
    let headerBytes ← readAt buffer headerStartPos (decodeLE headerLen)
    match C.parse headerBytes with
    | none => return none
    | some header =>
      if header.version ≥ 1 then checkChecksum buffer header bodyStartPos
      else
        let bodyLen ← sizeSub buffer.length bodyStartPos
        return some (header, bodyStartPos, bodyLen)

end Codec

/-! ## Receiving -/

/-- The parsers of the messages: `M` for `PaxosMsg`, `K` for `CheckpointMsg`. -/
structure Codecs (M K : Type) where
  header : HeaderCodec
  parsePaxosMsg : Bytes → Option M
  parseCheckpointMsg : Bytes → Option K

/-- Where `Instance::OnReceive` ends; `pos` and `size` say which bytes it parsed. -/
inductive Received (M K : Type)
  | skipped
  | parseError (pos size : Nat)
  | headerNotSame (pos size : Nat)
  | paxosMsg (pos size : Nat) (msg : M)
  | checkpointMsg (pos size : Nat) (msg : K)

/-- The position and the number of the bytes that were parsed as a message. -/
def Received.parsed {M K : Type} : Received M K → Option (Nat × Nat)
  | .skipped => none
  | .parseError pos size | .headerNotSame pos size | .paxosMsg pos size _ | .checkpointMsg pos size _ => some (pos, size)

/-- `Instance::ReceiveMsgHeaderCheck` -/
def receiveMsgHeaderCheck (gid : UInt64) (header : Header) : Bool :=
  gid == 0 || header.gid == 0 || gid == header.gid

section Receive

variable {M K : Type}

/-- `ParseFromArray(buffer + pos, len)`, where the length becomes an `int`, and the header check. -/
def parseMsg {X : Type} (parse : Bytes → Option X) (accept : Nat → Nat → X → Received M K) (gid : UInt64) (buffer : Bytes)
    (header : Header) (pos len : Nat) : Except Fault (Received M K) := do
  let size := (toInt len).toNat
  let bytes ← readAt buffer pos size
  match parse bytes with
  | none => return .parseError pos size
  | some msg =>
    if receiveMsgHeaderCheck gid header then return accept pos size msg
    else return .headerNotSame pos size

/-- `Instance::OnReceive` -/
def Codecs.onReceive (C : Codecs M K) (gid : UInt64) (inAskforCheckpointMode : Bool) (buffer : Bytes) :
    Except Fault (Received M K) := do
  if buffer.length ≤ 6 then
    return .skipped
  else
    match ← unPackBaseMsg C.header buffer with
    | none => return .skipped
    | some (header, bodyStartPos, bodyLen) =>
      if header.cmdID = msgCmdPaxosMsg then
        if inAskforCheckpointMode then return .skipped
        else parseMsg C.parsePaxosMsg .paxosMsg gid buffer header bodyStartPos bodyLen
      else if header.cmdID = msgCmdCheckpointMsg then
        parseMsg C.parseCheckpointMsg .checkpointMsg gid buffer header bodyStartPos bodyLen
      else return .skipped

end Receive

/-! ## The wire format of the messages -/

namespace Header

def fields (h : Header) : List Wire.Field :=
  [(1, .varint h.gid.toNat), (2, .varint h.rid.toNat), (3, .varint h.cmdID.toInt64.toUInt64.toNat),
    (4, .varint h.version.toInt64.toUInt64.toNat)]

def ofFields (fs : List Wire.Field) : Option Header := do
  let gid ← (Wire.varints 1 fs).getLast?
  let rid ← (Wire.varints 2 fs).getLast?
  let cmdID ← (Wire.varints 3 fs).getLast?
  let version := ((Wire.varints 4 fs).getLast?).getD 0
  some { gid := UInt64.ofNat gid, rid := UInt64.ofNat rid, cmdID := (UInt64.ofNat cmdID).toInt64.toInt32,
         version := (UInt64.ofNat version).toInt64.toInt32 }

end Header

def protobufHeader : HeaderCodec where
  serialize h := Wire.encode h.fields
  parse buffer := (Wire.decode buffer).bind Header.ofFields

def MsgType.number : MsgType → Nat
  | .paxosPrepare => 1
  | .paxosPrepareReply => 2
  | .paxosAccept => 3
  | .paxosAcceptReply => 4
  | .learnerAskforLearn => 5
  | .learnerSendLearnValue => 6
  | .learnerProposerSendSuccess => 7
  | .proposalSendNewValue => 8
  | .learnerSendNowInstanceID => 9
  | .learnerComfirmAskforLearn => 10
  | .learnerSendLearnValueAck => 11
  | .learnerAskforCheckpoint => 12
  | .learnerOnAskforCheckpoint => 13

def MsgType.ofNumber (n : Nat) : Option MsgType :=
  [.paxosPrepare, .paxosPrepareReply, .paxosAccept, .paxosAcceptReply, .learnerAskforLearn, .learnerSendLearnValue,
    .learnerProposerSendSuccess, .proposalSendNewValue, .learnerSendNowInstanceID, .learnerComfirmAskforLearn,
    .learnerSendLearnValueAck, .learnerAskforCheckpoint, .learnerOnAskforCheckpoint].find? fun t => t.number == n

/-- A message with a type that is not known is not parsed here; the library ignores it later. -/
def PaxosMsg.ofFields (fs : List Wire.Field) : Option PaxosMsg := do
  let n ← (Wire.varints 1 fs).getLast?
  let msgType ← MsgType.ofNumber n
  let number (k : Nat) : Nat := ((Wire.varints k fs).getLast?).getD 0
  let bytes (k : Nat) : Bytes := ((Wire.buffers k fs).getLast?).getD []
  some { msgType := msgType, instanceID := number 2, nodeID := number 3, proposalID := number 4, proposalNodeID := number 5,
         value := bytes 6, preAcceptID := number 7, preAcceptNodeID := number 8, rejectByPromiseID := number 9,
         nowInstanceID := number 10, minChosenInstanceID := number 11, lastChecksum := number 12, flag := number 13,
         systemVariables := bytes 14 }

/-- The numbers in a message about a value: those of the sender, and the ballot of the value. -/
structure Carrier where
  groupIdx : Int32
  gid : UInt64
  instanceID : UInt64
  nodeID : UInt64
  proposalID : UInt64
  ballot : UInt64 × UInt64
  lastChecksum : UInt32
  needAck : Bool
deriving DecidableEq

namespace Carrier

variable (c : Carrier) (value : Bytes)

/-- The fields that `Proposer::Accept` sets. -/
def acceptFields : List Wire.Field :=
  [(1, .varint (MsgType.number .paxosAccept)), (2, .varint c.instanceID.toNat), (3, .varint c.nodeID.toNat),
    (4, .varint c.proposalID.toNat), (6, .bytes value), (12, .varint c.lastChecksum.toNat)]

/-- The fields that `Acceptor::OnPrepare` sets when it promises and has accepted the value. -/
def prepareReplyFields : List Wire.Field :=
  [(1, .varint (MsgType.number .paxosPrepareReply)), (2, .varint c.instanceID.toNat), (3, .varint c.nodeID.toNat),
    (4, .varint c.proposalID.toNat), (6, .bytes value), (7, .varint c.ballot.1.toNat), (8, .varint c.ballot.2.toNat)]

/-- The fields that `Learner::SendLearnValue` sets. -/
def sendLearnValueFields : List Wire.Field :=
  [(1, .varint (MsgType.number .learnerSendLearnValue)), (2, .varint c.instanceID.toNat), (3, .varint c.nodeID.toNat),
    (4, .varint c.ballot.1.toNat), (5, .varint c.ballot.2.toNat), (6, .bytes value), (12, .varint c.lastChecksum.toNat)] ++
    if c.needAck then [(13, .varint sendLearnValueNeedAck)] else []

/-- `Base::PackMsg` -/
def packMsg (fields : List Wire.Field) : Bytes :=
  packBaseMsg protobufHeader c.groupIdx c.gid (Wire.encode fields) msgCmdPaxosMsg

end Carrier

/-! ## The limits -/

/-- `MAX_VALUE_SIZE`, which depends on `bIsLargeValueMode` -/
def maxValueSize (isLargeBufferMode : Bool) : Nat := if isLargeBufferMode then 52428800 else 10485760

theorem maxValueSize_bounds (isLargeBufferMode : Bool) :
    10485760 ≤ maxValueSize isLargeBufferMode ∧ maxValueSize isLargeBufferMode ≤ 52428800 := by
  unfold maxValueSize
  split <;> omega

/-- The size check of `Instance::CheckNewValue`. -/
def valueSizeTooLarge (isLargeBufferMode : Bool) (value : Bytes) : Bool :=
  decide (toInt value.length > maxValueSize isLargeBufferMode)

/-- The size check of `Communicate::Send`. -/
def messageSizeTooLarge (isLargeBufferMode : Bool) (message : Bytes) : Bool :=
  decide (toInt message.length > maxValueSize isLargeBufferMode)

end PhxPaxos
