import Mathlib.Algebra.Group.Int.Defs
import Mathlib.Algebra.Group.Nat.Defs
import Mathlib.Data.Finset.Card
import Mathlib.Data.Prod.Lex
import Mathlib.Order.Lattice

/-!
# Ballots, messages and log records

The plain data of the library: ballot numbers with the comparison operators of `BallotNumber`, the protobuf messages
(an unset optional field reads as its default), the record of an instance in the log, and the limits and codecs that
the node is built with.

The `uint64_t` counters (instance ids, proposal ids, timer ids) are natural numbers: each grows by one at a time, so
none reaches `2^64` in a run.
-/

namespace PhxPaxos

abbrev NodeID := Nat

def nullnode : NodeID := 0

/-- A `std::string`. -/
abbrev Bytes := List UInt8

/-! ## Ballot numbers -/

structure BallotNumber where
  proposalID : Nat := 0
  nodeID : Nat := nullnode
deriving DecidableEq, Repr

namespace BallotNumber

/-- `operator >=` -/
def ge (b other : BallotNumber) : Bool :=
  if b.proposalID = other.proposalID then decide (other.nodeID ≤ b.nodeID)
  else decide (other.proposalID ≤ b.proposalID)

/-- `operator >` -/
def gt (b other : BallotNumber) : Bool :=
  if b.proposalID = other.proposalID then decide (other.nodeID < b.nodeID)
  else decide (other.proposalID < b.proposalID)

def isnull (b : BallotNumber) : Bool := b.proposalID == 0

def null : BallotNumber := {}

theorem toLex_injective : Function.Injective fun b : BallotNumber => toLex (b.proposalID, b.nodeID) := by
  rintro ⟨p, n⟩ ⟨q, m⟩ h
  simpa using h

/-- Ballots are ordered by proposal id, then by node id. -/
instance : LinearOrder BallotNumber := LinearOrder.lift' _ toLex_injective

theorem le_iff {b c : BallotNumber} :
    b ≤ c ↔ b.proposalID < c.proposalID ∨ b.proposalID = c.proposalID ∧ b.nodeID ≤ c.nodeID :=
  Prod.Lex.le_iff

theorem lt_iff {b c : BallotNumber} :
    b < c ↔ b.proposalID < c.proposalID ∨ b.proposalID = c.proposalID ∧ b.nodeID < c.nodeID :=
  Prod.Lex.lt_iff

@[simp] theorem ge_iff {b c : BallotNumber} : b.ge c = true ↔ c ≤ b := by
  rw [le_iff]
  unfold ge
  split
  · simp; omega
  · simp; omega

@[simp] theorem gt_iff {b c : BallotNumber} : b.gt c = true ↔ c < b := by
  rw [lt_iff]
  unfold gt
  split
  · simp; omega
  · simp; omega

@[simp] theorem isnull_iff {b : BallotNumber} : b.isnull = true ↔ b.proposalID = 0 := by
  simp [isnull]

theorem proposalID_le {b c : BallotNumber} (h : b ≤ c) : b.proposalID ≤ c.proposalID := by
  rw [le_iff] at h
  omega

@[simp] theorem null_proposalID : null.proposalID = 0 := rfl

/-- The null ballot is below every other. -/
theorem null_le (b : BallotNumber) : null ≤ b := by
  rw [le_iff]
  show 0 < b.proposalID ∨ 0 = b.proposalID ∧ 0 ≤ b.nodeID
  omega

end BallotNumber

/-! ## Messages -/

/-- `PaxosMsgType` -/
inductive MsgType
  | paxosPrepare
  | paxosPrepareReply
  | paxosAccept
  | paxosAcceptReply
  | learnerAskforLearn
  | learnerSendLearnValue
  | learnerProposerSendSuccess
  | proposalSendNewValue
  | learnerSendNowInstanceID
  | learnerComfirmAskforLearn
  | learnerSendLearnValueAck
  | learnerAskforCheckpoint
  | learnerOnAskforCheckpoint
deriving DecidableEq, Repr

structure PaxosMsg where
  msgType : MsgType
  instanceID : Nat := 0
  nodeID : NodeID := 0
  proposalID : Nat := 0
  proposalNodeID : NodeID := 0
  value : Bytes := []
  preAcceptID : Nat := 0
  preAcceptNodeID : NodeID := 0
  rejectByPromiseID : Nat := 0
  nowInstanceID : Nat := 0
  minChosenInstanceID : Nat := 0
  lastChecksum : Nat := 0
  flag : Nat := 0
  systemVariables : Bytes := []
deriving DecidableEq, Repr

/-- `BallotNumber(msg.proposalid(), msg.nodeid())` -/
def PaxosMsg.ballot (msg : PaxosMsg) : BallotNumber := ⟨msg.proposalID, msg.nodeID⟩

/-- `BallotNumber(msg.preacceptid(), msg.preacceptnodeid())` -/
def PaxosMsg.preAcceptBallot (msg : PaxosMsg) : BallotNumber := ⟨msg.preAcceptID, msg.preAcceptNodeID⟩

/-- `CheckpointSendFileFlag` -/
inductive CheckpointSendFileFlag
  | begin
  | ing
  | end
deriving DecidableEq, Repr

/-- A `CheckpointMsg` of type `CheckpointMsgType_SendFile`, without the piece of file it carries. -/
structure CheckpointMsg where
  nodeID : NodeID
  flag : CheckpointSendFileFlag
  uuid : Nat
  sequence : Nat
  checkpointInstanceID : Nat
deriving DecidableEq, Repr

/-- `PaxosMsgFlagType_SendLearnValue_NeedAck` -/
def sendLearnValueNeedAck : Nat := 1

/-- The record of one instance in the log. -/
structure AcceptorStateData where
  instanceID : Nat
  promiseID : Nat
  promiseNodeID : NodeID
  acceptedID : Nat
  acceptedNodeID : NodeID
  acceptedValue : Bytes
  checksum : Nat
deriving DecidableEq, Repr

def AcceptorStateData.promiseBallot (r : AcceptorStateData) : BallotNumber := ⟨r.promiseID, r.promiseNodeID⟩

def AcceptorStateData.acceptedBallot (r : AcceptorStateData) : BallotNumber := ⟨r.acceptedID, r.acceptedNodeID⟩

/-- The `Rid` of a member is always `0` and is left out. -/
structure SystemVariables where
  gid : Nat
  memberShip : List NodeID
  version : Nat
deriving DecidableEq, Repr

/-- `(uint64_t)-1`, the version before the first membership change. -/
def noVersion : Nat := 2 ^ 64 - 1

structure PaxosValue where
  smid : Nat
  value : Bytes
deriving DecidableEq, Repr

/-- `PaxosTryCommitRet` -/
inductive PaxosTryCommitRet
  | ok
  | reject
  | conflict
  | executeFail
  | followerCannotCommit
  | imNotInMembership
  | valueSizeTooLarge
  | timeout
  | tooManyThreadWaitingReject
deriving DecidableEq, Repr

/-! ## What a node is built with -/

/-- `SYSTEM_V_SMID` -/
def systemVSMID : Nat := 100000000

/-- `MASTER_V_SMID` -/
def masterVSMID : Nat := 100000001

/-- `BATCH_PROPOSE_SMID` -/
def batchProposeSMID : Nat := 100000002

/-- `RETRY_QUEUE_MAX_LEN` -/
def retryQueueMaxLen : Nat := 300

/-- The checksum function, the protobuf codecs and the limits. `crc32 c v` is the checksum of the value `v` started
from `c`; `smids` are the state machines registered by the user and the master election, `beforeProposeSmids` those of
them with `NeedCallBeforePropose`. -/
structure Params where
  crc32 : Nat → Bytes → Nat
  parseSystemVariables : Bytes → Option SystemVariables
  serializeSystemVariables : SystemVariables → Bytes
  parseBatchPaxosValues : Bytes → Option (List PaxosValue)
  serializeBatchPaxosValues : List PaxosValue → Bytes
  maxValueSize : Nat
  learnerReceiverAckLead : Nat
  smids : List Nat
  beforeProposeSmids : List Nat
  openChangeValueBeforePropose : Bool

end PhxPaxos
