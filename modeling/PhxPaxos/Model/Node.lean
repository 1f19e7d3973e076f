import PhxPaxos.Model.Types

/-!
# The state of a node

One structure for each class of the source (`AcceptorState`, `ProposerState`, `MsgCounter`, `Proposer`, `LearnerState`,
`Learner`, `LearnerSender`, `CommitCtx`, `IOLoop`, `CheckpointMgr`, `Config`), gathered in `Node`. The acceptor, the
proposer and the learner each keep an instance id in the source; the three are only ever set together
(`Instance::Init`, `Instance::NewInstance`), so `Node` has one.

`Proc` is a node at work: the node, the outcomes of the storage and state machine calls it is going to make, the
messages handed to the network and the history of what happened so far (`Obs`, at the places where the source calls
its breakpoints).
-/

namespace PhxPaxos

/-! ## Configuration and membership -/

structure SystemVSM where
  systemVariables : SystemVariables
  setNodeID : Finset NodeID
deriving DecidableEq

/-- The configuration; `nodeInfoList` is the member list of the options. -/
structure Config where
  myNodeID : NodeID
  isIMFollower : Bool
  followToNodeID : NodeID
  isUseMembership : Bool
  nodeInfoList : List NodeID
  systemVSM : SystemVSM
  tmpNodeOnlyForLearn : Finset NodeID
  myFollower : Finset NodeID
deriving DecidableEq

namespace SystemVSM

def getNodeCount (vsm : SystemVSM) : Nat := vsm.setNodeID.card

def getMajorityCount (vsm : SystemVSM) : Nat := vsm.getNodeCount / 2 + 1

def isValidNodeID (vsm : SystemVSM) (nodeID : NodeID) : Bool :=
  if vsm.systemVariables.gid = 0 then true else decide (nodeID ∈ vsm.setNodeID)

def isIMInMembership (vsm : SystemVSM) (myNodeID : NodeID) : Bool := decide (myNodeID ∈ vsm.setNodeID)

/-- `RefleshNodeID` for the given variables. -/
def reflesh (v : SystemVariables) : SystemVSM := ⟨v, v.memberShip.toFinset⟩

/-- `Init` and `AddNodeIDList`: the stored variables, or those of the configured member list while there is no gid. -/
def init (stored : Option SystemVariables) (nodeInfoList : List NodeID) : SystemVSM :=
  let v := stored.getD { gid := 0, memberShip := [], version := noVersion }
  if v.gid ≠ 0 then reflesh v else reflesh { v with memberShip := nodeInfoList }

end SystemVSM

namespace Config

def getGid (c : Config) : Nat := c.systemVSM.systemVariables.gid

def getNodeCount (c : Config) : Nat := c.systemVSM.getNodeCount

def getMajorityCount (c : Config) : Nat := c.systemVSM.getMajorityCount

def isValidNodeID (c : Config) (nodeID : NodeID) : Bool := c.systemVSM.isValidNodeID nodeID

def checkConfig (c : Config) : Bool := c.systemVSM.isIMInMembership c.myNodeID

/-- `AddTmpNodeOnlyForLearn`, without the expiry. -/
def addTmpNodeOnlyForLearn (c : Config) (nodeID : NodeID) : Config :=
  if nodeID ∈ c.systemVSM.setNodeID then c
  else { c with tmpNodeOnlyForLearn := insert nodeID c.tmpNodeOnlyForLearn }

/-- `AddFollowerNode`, without the expiry. -/
def addFollowerNode (c : Config) (nodeID : NodeID) : Config :=
  { c with myFollower := insert nodeID c.myFollower }

end Config

/-! ## Storage -/

/-- The log storage of a group: the records (the latest of an instance first), the stored system variables and the
stored min-chosen instance id. -/
structure LogStorage where
  records : List (Nat × AcceptorStateData) := []
  systemVariables : Option SystemVariables := none
  minChosenInstanceID : Option Nat := none
deriving DecidableEq

namespace LogStorage

def get (s : LogStorage) (instanceID : Nat) : Option AcceptorStateData := s.records.lookup instanceID

def put (s : LogStorage) (instanceID : Nat) (r : AcceptorStateData) : LogStorage :=
  { s with records := (instanceID, r) :: s.records }

/-- The largest instance id with a record. -/
def getMaxInstanceID (s : LogStorage) : Option Nat := (s.records.map Prod.fst).max?

end LogStorage

/-! ## Acceptor, proposer, learner -/

structure AcceptorState where
  promiseBallot : BallotNumber := {}
  acceptedBallot : BallotNumber := {}
  acceptedValue : Bytes := []
  checksum : Nat := 0
deriving DecidableEq

/-- `AcceptorState::Init`: everything but the promise is forgotten. -/
def AcceptorState.init (a : AcceptorState) : AcceptorState := { promiseBallot := a.promiseBallot }

structure ProposerState where
  proposalID : Nat := 1
  highestOtherProposalID : Nat := 0
  value : Bytes := []
  highestOtherPreAcceptBallot : BallotNumber := {}
deriving DecidableEq

namespace ProposerState

def init (p : ProposerState) : ProposerState := { p with highestOtherProposalID := 0, value := [] }

def newPrepare (p : ProposerState) : ProposerState :=
  { p with proposalID := max p.proposalID p.highestOtherProposalID + 1 }

def addPreAcceptValue (p : ProposerState) (ballot : BallotNumber) (value : Bytes) : ProposerState :=
  if ballot.isnull then p
  else if ballot.gt p.highestOtherPreAcceptBallot then
    { p with highestOtherPreAcceptBallot := ballot, value := value }
  else p

def setOtherProposalID (p : ProposerState) (otherProposalID : Nat) : ProposerState :=
  if otherProposalID > p.highestOtherProposalID then { p with highestOtherProposalID := otherProposalID } else p

def resetHighestOtherPreAcceptBallot (p : ProposerState) : ProposerState :=
  { p with highestOtherPreAcceptBallot := {} }

end ProposerState

structure MsgCounter where
  receiveMsgNodeID : Finset NodeID := ∅
  rejectMsgNodeID : Finset NodeID := ∅
  promiseOrAcceptMsgNodeID : Finset NodeID := ∅
deriving DecidableEq

namespace MsgCounter

def addReceive (c : MsgCounter) (n : NodeID) : MsgCounter :=
  { c with receiveMsgNodeID := insert n c.receiveMsgNodeID }

def addReject (c : MsgCounter) (n : NodeID) : MsgCounter :=
  { c with rejectMsgNodeID := insert n c.rejectMsgNodeID }

def addPromiseOrAccept (c : MsgCounter) (n : NodeID) : MsgCounter :=
  { c with promiseOrAcceptMsgNodeID := insert n c.promiseOrAcceptMsgNodeID }

def isPassedOnThisRound (c : MsgCounter) (config : Config) : Bool :=
  decide (config.getMajorityCount ≤ c.promiseOrAcceptMsgNodeID.card)

def isRejectedOnThisRound (c : MsgCounter) (config : Config) : Bool :=
  decide (config.getMajorityCount ≤ c.rejectMsgNodeID.card)

def isAllReceiveOnThisRound (c : MsgCounter) (config : Config) : Bool :=
  decide (c.receiveMsgNodeID.card = config.getNodeCount)

end MsgCounter

/-- The proposer. The lengths of its timeouts are left out: a timer that is armed may fire at any moment. -/
structure Proposer where
  state : ProposerState := {}
  msgCounter : MsgCounter := {}
  isPreparing : Bool := false
  isAccepting : Bool := false
  prepareTimerID : Nat := 0
  acceptTimerID : Nat := 0
  timeoutInstanceID : Nat := 0
  canSkipPrepare : Bool := false
  wasRejectBySomeone : Bool := false
deriving DecidableEq

structure LearnerState where
  learnedValue : Bytes := []
  isLearned : Bool := false
  newChecksum : Nat := 0
deriving DecidableEq

/-- The learner sender with the loop variables of `SendLearnedValue`. -/
structure LearnerSender where
  isIMSending : Bool := false
  isComfirmed : Bool := false
  beginInstanceID : Nat := 2 ^ 64 - 1
  sendToNodeID : NodeID := nullnode
  ackInstanceID : Nat := 0
  sendInstanceID : Nat := 0
  lastChecksum : Nat := 0
deriving DecidableEq

structure Learner where
  state : LearnerState := {}
  highestSeenInstanceID : Nat := 0
  highestSeenInstanceIDFromNodeID : NodeID := nullnode
  isIMLearning : Bool := false
  lastAckInstanceID : Nat := 0
  askforlearnNoopTimerID : Nat := 0
  sender : LearnerSender := {}
deriving DecidableEq

/-! ## Commits -/

/-- The commit in progress; `none` for the instance id is the `(uint64_t)-1` of `NewCommit`, `none` for the value the
null pointer. -/
structure CommitCtx where
  instanceID : Option Nat := none
  commitRet : PaxosTryCommitRet := .reject
  isCommitEnd : Bool := false
  timeoutMs : Int := 0
  value : Option Bytes := none
deriving DecidableEq

namespace CommitCtx

def newCommit (value : Bytes) (timeoutMs : Int) : CommitCtx := { value := some value, timeoutMs := timeoutMs }

def isNewCommit (c : CommitCtx) : Bool := c.instanceID.isNone && c.value.isSome

def startCommit (c : CommitCtx) (instanceID : Nat) : CommitCtx := { c with instanceID := some instanceID }

def setResult (c : CommitCtx) (commitRet : PaxosTryCommitRet) (instanceID : Option Nat) (learnValue : Bytes) :
    CommitCtx :=
  if c.isCommitEnd || c.instanceID ≠ instanceID then c
  else
    let ret := if commitRet = .ok ∧ c.value ≠ some learnValue then .conflict else commitRet
    { c with commitRet := ret, isCommitEnd := true, value := none }

def setResultOnlyRet (c : CommitCtx) (commitRet : PaxosTryCommitRet) : CommitCtx := c.setResult commitRet none []

end CommitCtx

/-- Where a call of `Committer::NewValueGetID` stands. -/
inductive CallPhase
  | waitLock
  | getResult
  | returned (ret : PaxosTryCommitRet) (instanceID : Nat)
deriving DecidableEq

/-- A call of `Committer::NewValueGetID`, with the tries it has left. -/
structure Call where
  callID : Nat
  value : Bytes
  smid : Nat
  retryCount : Nat
  phase : CallPhase
deriving DecidableEq

/-! ## Timers and the event loop -/

inductive TimerType
  | proposerPrepareTimeout
  | proposerAcceptTimeout
  | learnerAskforlearnNoop
  | instanceCommitTimeout
deriving DecidableEq

/-- The event loop: the timers that were added and neither fired nor were removed, and the retry queue. `haveRetryOne`
is the local of `DealWithRetry`. -/
structure IOLoop where
  nowTimerID : Nat := 1
  timers : List (Nat × TimerType) := []
  retryQueue : List PaxosMsg := []
  haveRetryOne : Bool := false
deriving DecidableEq

structure CheckpointMgr where
  minChosenInstanceID : Nat := 0
  maxChosenInstanceID : Nat := 0
  setNeedAsk : Finset NodeID := ∅
  lastAskforCheckpointTime : Nat := 0
  inAskforCheckpointMode : Bool := false
deriving DecidableEq

/-- The checkpoint receiver: the transfer it takes messages of and the last sequence number. -/
structure CheckpointReceiver where
  senderNodeID : NodeID := nullnode
  uuid : Nat := 0
  sequence : Nat := 0
deriving DecidableEq

/-! ## The node -/

structure Node where
  config : Config
  storage : LogStorage := {}
  instanceID : Nat := 0
  lastChecksum : Nat := 0
  acceptor : AcceptorState := {}
  learner : Learner := {}
  proposer : Proposer := {}
  commitCtx : CommitCtx := {}
  commitTimerID : Nat := 0
  calls : List Call := []
  ioLoop : IOLoop := {}
  checkpointMgr : CheckpointMgr := {}
  checkpointReceiver : CheckpointReceiver := {}
  /-- The process ended in a failed assertion or in an `Init` that returned an error. -/
  stopped : Bool := false
deriving DecidableEq

/-! ## History -/

/-- How a value was learned: by a success message for the accepted ballot, or by a value message (with its ballot and
the promise then in memory). -/
inductive LearnBy
  | success (ballot : BallotNumber)
  | value (ballot promise : BallotNumber)
deriving DecidableEq

/-- `SMFac::DoExecute` was called for a sub-value of a batch, or for the one value there is. -/
structure SMCall where
  index : Nat
  smid : Nat
  value : Bytes
  ok : Bool
deriving DecidableEq

/-- `SMFac::Execute` of an instance returned after the calls. -/
structure Execution where
  instanceID : Nat
  ok : Bool
  calls : List SMCall
deriving DecidableEq

/-- What happened at a node `n`, with the instance `i` it was at. -/
inductive Obs
  /-- `Proposer::NewValue` was called with `v`. -/
  | newValue (n : NodeID) (i : Nat) (v : Bytes)
  /-- `CheckNewValue` proposes `v` to set up the system variables. -/
  | initSystemVariables (n : NodeID) (i : Nat) (v : Bytes)
  /-- `Proposer::Prepare` broadcast a Prepare, to `members`. -/
  | prepare (n : NodeID) (i p : Nat) (members : Finset NodeID)
  /-- `Acceptor::OnPrepare` promised `b` while it had accepted `acc`. -/
  | promise (n : NodeID) (i : Nat) (b acc : BallotNumber) (v : Bytes)
  /-- `Proposer::OnPrepareReply` counted the promise of node `m`, which reports `acc`, after those of `counted`. -/
  | countPromise (n : NodeID) (i p : Nat) (m : NodeID) (acc : BallotNumber) (v : Bytes) (counted : Finset NodeID)
  /-- `Proposer::Accept` broadcast an Accept, to `members`. -/
  | accept (n : NodeID) (i p : Nat) (v : Bytes) (members : Finset NodeID)
  /-- `Acceptor::OnAccept` set the accepted pair in memory. -/
  | setAccepted (n : NodeID) (i : Nat) (b : BallotNumber) (v : Bytes)
  /-- `AcceptorState::Persist` wrote the record with the accepted value `v`, or failed to. -/
  | persist (n : NodeID) (i : Nat) (v : Bytes) (ok : Bool)
  /-- `Acceptor::OnAccept` accepted and persisted. -/
  | accepted (n : NodeID) (i : Nat) (b : BallotNumber) (v : Bytes)
  /-- `Proposer::OnAcceptReply` passed the accept phase with a majority of `members`. -/
  | success (n : NodeID) (i p : Nat) (members : Finset NodeID) (lastChecksum : Nat)
  /-- A Prepare or Accept with ballot `b` of the next instance arrived while the accepted ballot was `acc`. -/
  | nextInstanceMsg (n : NodeID) (i : Nat) (b acc : BallotNumber)
  /-- The learner marked the instance as learned. -/
  | learn (n : NodeID) (i : Nat) (v : Bytes) (how : LearnBy)
  /-- `SMExecute` returned after the calls of state machines. -/
  | execute (n : NodeID) (i : Nat) (v : Bytes) (ok : Bool) (calls : List SMCall)
  /-- `Init` returned after `PlayLog` executed the instances, or without any. -/
  | playLog (n : NodeID) (played : List Execution) (ok : Bool)
  /-- `NewInstance` left instance `i`, in which `v` was executed. -/
  | newInstance (n : NodeID) (i : Nat) (v : Bytes)
  /-- The members of the node were set. -/
  | updateSystemVariables (n : NodeID) (i : Nat) (members : Finset NodeID)
  /-- The assertion of `ChecksumLogic` failed. -/
  | checksumLogicFail (n : NodeID) (i : Nat)
  /-- The log was cleared for a checkpoint. -/
  | clearAllLog (n : NodeID)
  /-- The process was started again, with state machines that report the checkpoint before `cp`. -/
  | restart (n : NodeID) (i cp : Nat)
deriving DecidableEq

/-! ## A node at work -/

/-- A message in the network: the nodes it was sent to and the gid of the sender. -/
structure Envelope where
  dst : Finset NodeID
  gid : Nat
  msg : PaxosMsg
deriving DecidableEq

/-- What the surroundings of the node decide during one event: whether the coming storage writes and `Execute` calls
succeed (they do when the list has run out), what the coming `BeforePropose` hooks make of their values, whether the
checkpoint files can be written and loaded, after how many steps of `ClearAllLog` the process dies (`none` when it does
not), the clock, whether the learner sender has been idle for too long, and the random gid. -/
structure Env where
  puts : List Bool := []
  executes : List Bool := []
  beforeProposes : List Bytes := []
  filesOk : Bool := true
  clearAllLogSteps : Option Nat := none
  now : Nat := 0
  sendTimeout : Bool := false
  gid : Nat := 1
  timeoutMs : Int := -1
deriving DecidableEq

/-- `smCalls` are the calls of state machines for the value at hand and `played` what `PlayLog` has executed, the first
one first; both are history. -/
structure Proc where
  node : Node
  env : Env
  net : List Envelope
  hist : List Obs
  smCalls : List SMCall := []
  played : List Execution := []

namespace Proc

def me (w : Proc) : NodeID := w.node.config.myNodeID

def log (w : Proc) (o : Obs) : Proc := { w with hist := o :: w.hist }

/-- Hand a message to the network. -/
def emit (w : Proc) (dst : Finset NodeID) (msg : PaxosMsg) : Proc :=
  { w with net := ⟨dst, w.node.config.getGid, msg⟩ :: w.net }

/-- The outcome of the next storage write. -/
def nextPut (w : Proc) : Bool := w.env.puts.headD true

/-- The outcome of the next `Execute` call. -/
def nextExecute (w : Proc) : Bool := w.env.executes.headD true

/-- `PaxosLog::WriteState`: the write may fail and then has no effect. -/
def writeState (w : Proc) (instanceID : Nat) (r : AcceptorStateData) : Proc × Int :=
  let w' := { w with env.puts := w.env.puts.tail }
  if w.nextPut then ({ w' with node.storage := w.node.storage.put instanceID r }, 0) else (w', -1)

/-- `PaxosLog::ReadState` -/
def readState (w : Proc) (instanceID : Nat) : Option AcceptorStateData := w.node.storage.get instanceID

end Proc

end PhxPaxos
