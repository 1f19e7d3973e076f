import Mathlib.Logic.Relation
import PhxPaxos.Model.Network

/-!
# The steps of a node

`Core` is what of a node decides its behaviour in the protocol: without timers (but for whether one of the proposer's
is armed), counts of rejects and the checkpoint manager. The message a node is just sending to itself is
part of it (`toSelf`).

`Act P can n l l'` is one step of node `n`: it promises, rejects, counts a promise, starts an accept phase, learns, and so
on. Every event of the model is a chain of such steps (`RefineEvent.lean`), so what each step preserves holds in every run.
`can` says which messages may arrive.
-/

namespace PhxPaxos

/-! ## The core of a node -/

structure Core where
  me : NodeID
  isIMFollower : Bool
  nodeInfoList : List NodeID
  systemVSM : SystemVSM
  records : List (Nat × AcceptorStateData)
  storedSystemVariables : Option SystemVariables
  storedMinChosen : Option Nat
  maxChosenInstanceID : Nat
  instanceID : Nat
  lastChecksum : Nat
  acceptor : AcceptorState
  learner : LearnerState
  sendInstanceID : Nat
  sendChecksum : Nat
  proposer : ProposerState
  counted : Finset NodeID
  isPreparing : Bool
  isAccepting : Bool
  canSkipPrepare : Bool
  wasRejectBySomeone : Bool
  armed : Bool
  timeoutInstanceID : Nat
  commitCtx : CommitCtx
  calls : List Call
  retryQueue : List PaxosMsg
  toSelf : Option PaxosMsg

/-- A prepare or accept timer is among the timers. -/
def armedIn (timers : List (Nat × TimerType)) : Bool :=
  timers.any fun t => t.2 == .proposerPrepareTimeout || t.2 == .proposerAcceptTimeout

def IOLoop.armed (l : IOLoop) : Bool := armedIn l.timers

/-- The core of a node that is sending `toSelf` to itself. -/
def Node.core (node : Node) (toSelf : Option PaxosMsg) : Core where
  me := node.config.myNodeID
  isIMFollower := node.config.isIMFollower
  nodeInfoList := node.config.nodeInfoList
  systemVSM := node.config.systemVSM
  records := node.storage.records
  storedSystemVariables := node.storage.systemVariables
  storedMinChosen := node.storage.minChosenInstanceID
  maxChosenInstanceID := node.checkpointMgr.maxChosenInstanceID
  instanceID := node.instanceID
  lastChecksum := node.lastChecksum
  acceptor := node.acceptor
  learner := node.learner.state
  sendInstanceID := node.learner.sender.sendInstanceID
  sendChecksum := node.learner.sender.lastChecksum
  proposer := node.proposer.state
  counted := node.proposer.msgCounter.promiseOrAcceptMsgNodeID
  isPreparing := node.proposer.isPreparing
  isAccepting := node.proposer.isAccepting
  canSkipPrepare := node.proposer.canSkipPrepare
  wasRejectBySomeone := node.proposer.wasRejectBySomeone
  armed := node.ioLoop.armed
  timeoutInstanceID := node.proposer.timeoutInstanceID
  commitCtx := node.commitCtx
  calls := node.calls
  retryQueue := node.ioLoop.retryQueue
  toSelf := toSelf

namespace Core

/-- Two cores that are the same but, as it seems, for two flags. -/
theorem ext_flags {c c' : Core} (h₁ : c.canSkipPrepare = c'.canSkipPrepare) (h₂ : c.armed = c'.armed)
    (h : { c with canSkipPrepare := c'.canSkipPrepare, armed := c'.armed } = c') : c = c' := by
  rw [← h, ← h₁, ← h₂]

def members (c : Core) : Finset NodeID := c.systemVSM.setNodeID

def gid (c : Core) : Nat := c.systemVSM.systemVariables.gid

/-- A majority of the members is among the counted. -/
def Passed (c : Core) : Prop := c.systemVSM.getMajorityCount ≤ c.counted.card

/-- The node `n` takes Prepare and Accept messages of itself. -/
def HeedsItself (c : Core) (n : NodeID) : Prop := c.isIMFollower = false ∧ c.systemVSM.isValidNodeID n = true

/-- The proposer state with which the next prepare round starts: a new ballot only after a reject. -/
def nextRound (c : Core) : ProposerState :=
  if c.wasRejectBySomeone then c.proposer.resetHighestOtherPreAcceptBallot.newPrepare
  else c.proposer.resetHighestOtherPreAcceptBallot

/-- The checksum that `AcceptorState::Persist` computes for the accepted value `v`. -/
def persistChecksum (P : Params) (c : Core) (v : Bytes) : Nat :=
  if c.instanceID > 0 ∧ c.lastChecksum = 0 then 0
  else if v.length > 0 then P.crc32 c.lastChecksum v
  else c.acceptor.checksum

/-- The checksum that `LearnerState::LearnValue` computes for the value `v`. -/
def learnChecksum (P : Params) (c : Core) (v : Bytes) : Nat :=
  if c.instanceID > 0 ∧ c.lastChecksum = 0 then 0
  else if v.length > 0 then P.crc32 c.lastChecksum v
  else c.learner.newChecksum

end Core

/-- The record that `AcceptorState::Persist` writes. -/
def AcceptorState.record (a : AcceptorState) (instanceID : Nat) : AcceptorStateData where
  instanceID := instanceID
  promiseID := a.promiseBallot.proposalID
  promiseNodeID := a.promiseBallot.nodeID
  acceptedID := a.acceptedBallot.proposalID
  acceptedNodeID := a.acceptedBallot.nodeID
  acceptedValue := a.acceptedValue
  checksum := a.checksum

/-- The record that `LearnerState::LearnValue` writes. -/
def learnedRecord (instanceID : Nat) (b : BallotNumber) (v : Bytes) (checksum : Nat) : AcceptorStateData where
  instanceID := instanceID
  promiseID := b.proposalID
  promiseNodeID := b.nodeID
  acceptedID := b.proposalID
  acceptedNodeID := b.nodeID
  acceptedValue := v
  checksum := checksum

/-! ## Messages of a node -/

section Messages

variable (n : NodeID)

def prepareMsg (i p : Nat) : PaxosMsg := { msgType := .paxosPrepare, instanceID := i, nodeID := n, proposalID := p }

def acceptMsg (i p : Nat) (v : Bytes) (checksum : Nat) : PaxosMsg :=
  { msgType := .paxosAccept, instanceID := i, nodeID := n, proposalID := p, value := v, lastChecksum := checksum }

def successMsg (i p checksum : Nat) : PaxosMsg :=
  { msgType := .learnerProposerSendSuccess, instanceID := i, nodeID := n, proposalID := p, lastChecksum := checksum }

def learnValueMsg (i : Nat) (b : BallotNumber) (v : Bytes) (checksum flag : Nat) : PaxosMsg :=
  { msgType := .learnerSendLearnValue, instanceID := i, nodeID := n, proposalNodeID := b.nodeID,
    proposalID := b.proposalID, value := v, lastChecksum := checksum, flag := flag }

/-- The reply of an acceptor in state `a` that promises the ballot. -/
def promiseMsg (i p : Nat) (a : AcceptorState) : PaxosMsg :=
  { msgType := .paxosPrepareReply, instanceID := i, nodeID := n, proposalID := p,
    preAcceptID := a.acceptedBallot.proposalID, preAcceptNodeID := a.acceptedBallot.nodeID,
    value := if a.acceptedBallot.proposalID > 0 then a.acceptedValue else [] }

/-- The reply of an acceptor, a rejection when `r` is not `0`. -/
def replyMsg (type : MsgType) (i p r : Nat) : PaxosMsg :=
  { msgType := type, instanceID := i, nodeID := n, proposalID := p, rejectByPromiseID := r }

end Messages

/-! ## A node with its surroundings -/

/-- The core of a node, the network and the history. -/
@[ext]
structure Loc where
  core : Core
  net : List Envelope
  hist : List Obs

/-- A node at work as the steps see it. -/
def Proc.loc (toSelf : Option PaxosMsg) (w : Proc) : Loc := ⟨w.node.core toSelf, w.net, w.hist⟩

namespace Loc

/-- The message to itself has been handled. -/
def take (l : Loc) : Loc := { l with core.toSelf := none }

/-- Hand a message to the network. -/
def emit (dst : Finset NodeID) (msg : PaxosMsg) (l : Loc) : Loc := { l with net := ⟨dst, l.core.gid, msg⟩ :: l.net }

/-- `Base::SendMessage`: to the network, or to itself. -/
def send (n dst : NodeID) (msg : PaxosMsg) (l : Loc) : Loc where
  core := { l.core with toSelf := if dst = n then some msg else l.core.toSelf }
  net := if dst = n then l.net else ⟨{dst}, l.core.gid, msg⟩ :: l.net
  hist := l.hist

@[simp] theorem take_core (l : Loc) : l.take.core = { l.core with toSelf := none } := rfl

@[simp] theorem take_net (l : Loc) : l.take.net = l.net := rfl

@[simp] theorem take_hist (l : Loc) : l.take.hist = l.hist := rfl

@[simp] theorem emit_hist (dst : Finset NodeID) (msg : PaxosMsg) (l : Loc) : (l.emit dst msg).hist = l.hist := rfl

@[simp] theorem emit_core (dst : Finset NodeID) (msg : PaxosMsg) (l : Loc) : (l.emit dst msg).core = l.core := rfl

@[simp] theorem send_hist (n dst : NodeID) (msg : PaxosMsg) (l : Loc) : (l.send n dst msg).hist = l.hist := rfl

@[simp] theorem send_core (n dst : NodeID) (msg : PaxosMsg) (l : Loc) :
    (l.send n dst msg).core = { l.core with toSelf := if dst = n then some msg else l.core.toSelf } := rfl

end Loc

/-- The message is at hand: it arrives, or the node is sending it to itself. -/
def Src (can : PaxosMsg → Prop) (l : Loc) (msg : PaxosMsg) : Prop :=
  l.core.toSelf = none ∧ can msg ∨ l.core.toSelf = some msg

/-- The sub-values were called in order, and the execution succeeded only if each call did. -/
def Execution.Orderly (e : Execution) : Prop :=
  e.calls.Pairwise (fun c d => c.index < d.index) ∧ (e.ok = true → ∀ c ∈ e.calls, c.ok = true)

/-- `PlayLog` executed the instances from `i` on, up to one that failed. -/
structure PlayedFrom (i : Nat) (played : List Execution) : Prop where
  instances : played.map Execution.instanceID = List.range' i played.length
  orderly : ∀ e ∈ played, e.Orderly
  ok : ∀ e ∈ played.dropLast, e.ok = true

/-- The history `h'` after a start of node `n`: the system variables were set perhaps, and `PlayLog` executed `played`. -/
def Started (n : NodeID) (i cp : Nat) (played : List Execution) (ok : Bool) (h h' : List Obs) : Prop :=
  ∃ obs : List Obs, (∀ o ∈ obs, ∃ i S, o = .updateSystemVariables n i S) ∧
    h' = .playLog n played ok :: (obs ++ .restart n i cp :: h)

/-- The message types that carry no promise, no vote and no value. -/
def MsgType.Plain (t : MsgType) : Prop :=
  t ≠ .paxosPrepare ∧ t ≠ .paxosPrepareReply ∧ t ≠ .paxosAccept ∧ t ≠ .paxosAcceptReply ∧ t ≠ .learnerSendLearnValue ∧
    t ≠ .learnerProposerSendSuccess

/-- What a node may hand to the network on its own account, besides its replies and its Accept. -/
inductive Sendable (n : NodeID) (l : Loc) : Finset NodeID → PaxosMsg → Prop
  | plain {dst msg} : msg.msgType.Plain → msg.lastChecksum = 0 → msg.nodeID = n → msg.instanceID ≤ l.core.instanceID →
      n ∉ dst → Sendable n l dst msg
  | prepare {i p S} : .prepare n i p S ∈ l.hist → Sendable n l (l.core.members.erase n) (prepareMsg n i p)
  | success {i p S checksum} : .success n i p S checksum ∈ l.hist →
      Sendable n l (l.core.members.erase n) (successMsg n i p checksum)
  | record {dst i r flag} : l.core.records.lookup i = some r → i < l.core.instanceID → n ∉ dst →
      Sendable n l dst (learnValueMsg n i r.acceptedBallot r.acceptedValue 0 flag)
  | transmit {dst} : l.core.learner.isLearned = true → l.core.learner.learnedValue = l.core.acceptor.acceptedValue →
      n ∉ dst →
      Sendable n l dst (learnValueMsg n l.core.instanceID l.core.acceptor.acceptedBallot l.core.acceptor.acceptedValue
        l.core.lastChecksum 0)

/-- The acceptor after it promised `b`. -/
def Core.promised (P : Params) (c : Core) (b : BallotNumber) : AcceptorState :=
  { c.acceptor with promiseBallot := b, checksum := c.persistChecksum P c.acceptor.acceptedValue }

/-- The acceptor after it accepted `v` with `b`. -/
def Core.acceptedWith (P : Params) (c : Core) (b : BallotNumber) (v : Bytes) : AcceptorState :=
  { promiseBallot := b, acceptedBallot := b, acceptedValue := v, checksum := c.persistChecksum P v }

/-- The core of a process that was started again on the storage of `c`, at instance `i` with the acceptor `a`. -/
def Core.restarted (c : Core) (i : Nat) (a : AcceptorState) (lastChecksum : Nat) : Core where
  me := c.me
  isIMFollower := c.isIMFollower
  nodeInfoList := c.nodeInfoList
  systemVSM := SystemVSM.init c.storedSystemVariables c.nodeInfoList
  records := c.records
  storedSystemVariables := c.storedSystemVariables
  storedMinChosen := c.storedMinChosen
  maxChosenInstanceID := i
  instanceID := i
  lastChecksum := lastChecksum
  acceptor := a
  learner := {}
  sendInstanceID := 0
  sendChecksum := 0
  proposer := { proposalID := a.promiseBallot.proposalID + 1 }
  counted := ∅
  isPreparing := false
  isAccepting := false
  canSkipPrepare := false
  wasRejectBySomeone := false
  armed := false
  timeoutInstanceID := 0
  commitCtx := {}
  calls := []
  retryQueue := []
  toSelf := none

/-! ## The steps -/

/-- One step of node `n`. -/
inductive Act (P : Params) (can : PaxosMsg → Prop) (n : NodeID) : Loc → Loc → Prop
  /-- A message to itself is not heeded; its own Prepare and Accept always are while it is a member. -/
  | dropSelf {l msg} : l.core.toSelf = some msg →
      (msg.msgType = .paxosPrepare ∨ msg.msgType = .paxosAccept → ¬ l.core.HeedsItself n) → Act P can n l l.take
  | sendTo {l dst msg} : l.core.toSelf = none → (dst ≠ n → Sendable n l {dst} msg) →
      (dst = n → msg.msgType ≠ .paxosPrepare ∧ msg.msgType ≠ .paxosAccept ∧ msg.instanceID ≤ l.core.instanceID ∧
        msg.nodeID = n ∧ ∃ dst, Sendable n l dst msg) →
      Act P can n l (l.send n dst msg)
  | emit {l dst msg} : Sendable n l dst msg → Act P can n l (l.emit dst msg)
  -- the acceptor
  | promise {l msg} : Src can l msg → msg.msgType = .paxosPrepare → msg.instanceID = l.core.instanceID →
      l.core.acceptor.promiseBallot ≤ msg.ballot →
      Act P can n l (Loc.send n msg.nodeID (promiseMsg n l.core.instanceID msg.proposalID l.core.acceptor)
        { core := { l.core with
            toSelf := none
            acceptor := l.core.promised P msg.ballot
            records := (l.core.instanceID, (l.core.promised P msg.ballot).record l.core.instanceID) :: l.core.records }
          net := l.net
          hist := .promise n l.core.instanceID msg.ballot l.core.acceptor.acceptedBallot l.core.acceptor.acceptedValue ::
            .persist n l.core.instanceID l.core.acceptor.acceptedValue true :: l.hist })
  | promiseFail {l msg} : Src can l msg → msg.msgType = .paxosPrepare → msg.instanceID = l.core.instanceID →
      l.core.acceptor.promiseBallot ≤ msg.ballot →
      Act P can n l
        { core := { l.core with toSelf := none, acceptor := l.core.promised P msg.ballot }
          net := l.net
          hist := .persist n l.core.instanceID l.core.acceptor.acceptedValue false :: l.hist }
  | rejectPrepare {l msg} : Src can l msg → msg.msgType = .paxosPrepare → msg.instanceID = l.core.instanceID →
      msg.ballot < l.core.acceptor.promiseBallot →
      Act P can n l (Loc.send n msg.nodeID (replyMsg n .paxosPrepareReply l.core.instanceID msg.proposalID
        l.core.acceptor.promiseBallot.proposalID) l.take)
  | accept {l msg} : Src can l msg → msg.msgType = .paxosAccept → msg.instanceID = l.core.instanceID →
      l.core.acceptor.promiseBallot ≤ msg.ballot →
      Act P can n l (Loc.send n msg.nodeID (replyMsg n .paxosAcceptReply l.core.instanceID msg.proposalID 0)
        { core := { l.core with
            toSelf := none
            acceptor := l.core.acceptedWith P msg.ballot msg.value
            records := (l.core.instanceID, (l.core.acceptedWith P msg.ballot msg.value).record l.core.instanceID) ::
              l.core.records }
          net := l.net
          hist := .accepted n l.core.instanceID msg.ballot msg.value ::
            .persist n l.core.instanceID msg.value true ::
            .setAccepted n l.core.instanceID msg.ballot msg.value :: l.hist })
  | acceptFail {l msg} : Src can l msg → msg.msgType = .paxosAccept → msg.instanceID = l.core.instanceID →
      l.core.acceptor.promiseBallot ≤ msg.ballot →
      Act P can n l
        { core := { l.core with toSelf := none, acceptor := l.core.acceptedWith P msg.ballot msg.value }
          net := l.net
          hist := .persist n l.core.instanceID msg.value false ::
            .setAccepted n l.core.instanceID msg.ballot msg.value :: l.hist }
  | rejectAccept {l msg} : Src can l msg → msg.msgType = .paxosAccept → msg.instanceID = l.core.instanceID →
      msg.ballot < l.core.acceptor.promiseBallot →
      Act P can n l (Loc.send n msg.nodeID (replyMsg n .paxosAcceptReply l.core.instanceID msg.proposalID
        l.core.acceptor.promiseBallot.proposalID) l.take)
  -- the proposer
  | newValue {l v} : l.core.toSelf = none → l.core.isIMFollower = false → n ∈ l.core.members →
      (l.core.commitCtx.value = some v ∧ l.core.commitCtx.instanceID = some l.core.instanceID ∨
        .initSystemVariables n l.core.instanceID v ∈ l.hist) →
      Act P can n l
        { l with
          core.proposer.value := if l.core.proposer.value.length = 0 then v else l.core.proposer.value
          hist := .newValue n l.core.instanceID v :: l.hist }
  | startPrepare {l} : l.core.toSelf = none →
      (l.core.proposer.value ≠ [] ∨ l.core.armed = true ∧ l.core.timeoutInstanceID = l.core.instanceID) →
      Act P can n l
        { core := { l.core with
            toSelf := some (prepareMsg n l.core.instanceID l.core.nextRound.proposalID)
            isAccepting := false
            isPreparing := true
            canSkipPrepare := false
            wasRejectBySomeone := false
            proposer := l.core.nextRound
            counted := ∅
            armed := true
            timeoutInstanceID := l.core.instanceID }
          net := l.net
          hist := .prepare n l.core.instanceID l.core.nextRound.proposalID l.core.members :: l.hist }
  | countPromise {l msg} : Src can l msg → msg.msgType = .paxosPrepareReply → msg.instanceID = l.core.instanceID →
      l.core.isPreparing = true → msg.proposalID = l.core.proposer.proposalID → msg.rejectByPromiseID = 0 →
      l.core.systemVSM.isValidNodeID msg.nodeID = true →
      Act P can n l
        { core := { l.core with
            toSelf := none
            counted := insert msg.nodeID l.core.counted
            proposer := l.core.proposer.addPreAcceptValue msg.preAcceptBallot msg.value }
          net := l.net
          hist := .countPromise n l.core.instanceID msg.proposalID msg.nodeID msg.preAcceptBallot msg.value
            l.core.counted :: l.hist }
  | noteReject {l msg} : Src can l msg → msg.rejectByPromiseID ≠ 0 →
      (msg.msgType = .paxosPrepareReply ∨ msg.msgType = .paxosAcceptReply) →
      Act P can n l
        { l with core := { l.core with
            toSelf := none
            wasRejectBySomeone := true
            proposer := l.core.proposer.setOtherProposalID msg.rejectByPromiseID } }
  | startAccept {l} : l.core.toSelf = none →
      (l.core.isPreparing = true ∧ l.core.Passed ∨
        l.core.canSkipPrepare = true ∧ l.core.wasRejectBySomeone = false ∧ l.core.proposer.value ≠ []) →
      Act P can n l
        { core := { l.core with
            toSelf := some (acceptMsg n l.core.instanceID l.core.proposer.proposalID l.core.proposer.value
              l.core.lastChecksum)
            isPreparing := false
            isAccepting := true
            canSkipPrepare := true
            counted := ∅
            armed := true
            timeoutInstanceID := l.core.instanceID }
          net := ⟨l.core.members.erase n, l.core.gid, acceptMsg n l.core.instanceID l.core.proposer.proposalID
            l.core.proposer.value l.core.lastChecksum⟩ :: l.net
          hist := .accept n l.core.instanceID l.core.proposer.proposalID l.core.proposer.value l.core.members :: l.hist }
  | countAccept {l msg} : Src can l msg → msg.msgType = .paxosAcceptReply → msg.instanceID = l.core.instanceID →
      l.core.isAccepting = true → msg.proposalID = l.core.proposer.proposalID → msg.rejectByPromiseID = 0 →
      l.core.systemVSM.isValidNodeID msg.nodeID = true →
      Act P can n l { l with core := { l.core with toSelf := none, counted := insert msg.nodeID l.core.counted } }
  | succeed {l armed} : l.core.toSelf = none → l.core.isAccepting = true → l.core.Passed →
      (armed = true → l.core.armed = true) →
      Act P can n l
        { core := { l.core with
            toSelf := some (successMsg n l.core.instanceID l.core.proposer.proposalID l.core.lastChecksum)
            isAccepting := false
            armed := armed }
          net := l.net
          hist := .success n l.core.instanceID l.core.proposer.proposalID l.core.members l.core.lastChecksum :: l.hist }
  | disarm {l armed} : (armed = true → l.core.armed = true) → Act P can n l { l with core.armed := armed }
  | rearm {l} : l.core.isPreparing = true ∨ l.core.isAccepting = true → Act P can n l { l with core.armed := true }
  -- the learner
  | nextInstanceMsg {l msg} : can msg → msg.msgType = .paxosPrepare ∨ msg.msgType = .paxosAccept →
      msg.instanceID = l.core.instanceID + 1 →
      Act P can n l
        { l with hist := .nextInstanceMsg n l.core.instanceID msg.ballot l.core.acceptor.acceptedBallot :: l.hist }
  | learnBySuccess {l msg} : Src can l msg → l.core.acceptor.acceptedBallot.proposalID ≠ 0 →
      l.core.acceptor.acceptedBallot = msg.ballot →
      (msg.msgType = .learnerProposerSendSuccess ∧ msg.instanceID = l.core.instanceID ∨
        (msg.msgType = .paxosPrepare ∨ msg.msgType = .paxosAccept) ∧ msg.instanceID = l.core.instanceID + 1 ∧
          .nextInstanceMsg n l.core.instanceID msg.ballot l.core.acceptor.acceptedBallot ∈ l.hist) →
      Act P can n l
        { core := { l.core with
            toSelf := none
            learner := LearnerState.learnValueWithoutWrite l.core.acceptor.acceptedValue l.core.acceptor.checksum }
          net := l.net
          hist := .learn n l.core.instanceID l.core.acceptor.acceptedValue (.success msg.ballot) :: l.hist }
  | learnValue {l msg} : Src can l msg → msg.msgType = .learnerSendLearnValue → msg.instanceID = l.core.instanceID →
      Act P can n l
        { core := { l.core with
            toSelf := none
            learner := LearnerState.learnValueWithoutWrite msg.value (l.core.learnChecksum P msg.value)
            records := (l.core.instanceID, learnedRecord l.core.instanceID msg.learnedBallot msg.value
              (l.core.learnChecksum P msg.value)) :: l.core.records }
          net := l.net
          hist := .learn n l.core.instanceID msg.value
            (.value msg.learnedBallot l.core.acceptor.promiseBallot) :: l.hist }
  | learnValueFail {l msg} : Src can l msg → msg.msgType = .learnerSendLearnValue →
      msg.instanceID = l.core.instanceID →
      Act P can n l { l with core := { l.core with
        toSelf := none, learner.newChecksum := l.core.learnChecksum P msg.value } }
  | executeFail {l calls} : l.core.learner.isLearned = true → Execution.Orderly ⟨l.core.instanceID, false, calls⟩ →
      Act P can n l
        { l with
          core.commitCtx := l.core.commitCtx.setResult .executeFail (some l.core.instanceID) l.core.learner.learnedValue
          core.canSkipPrepare := false
          hist := .execute n l.core.instanceID l.core.learner.learnedValue false calls :: l.hist }
  | advance {l armed calls} : l.core.learner.isLearned = true → (armed = true → l.core.armed = true) →
      Execution.Orderly ⟨l.core.instanceID, true, calls⟩ →
      Act P can n l
        { core := { l.core with
            commitCtx := l.core.commitCtx.setResult .ok (some l.core.instanceID) l.core.learner.learnedValue
            lastChecksum := l.core.learner.newChecksum
            instanceID := l.core.instanceID + 1
            maxChosenInstanceID := l.core.instanceID + 1
            acceptor := l.core.acceptor.init
            learner := {}
            counted := ∅
            proposer := l.core.proposer.init
            isPreparing := false
            isAccepting := false
            armed := armed }
          net := l.net
          hist := .newInstance n l.core.instanceID l.core.learner.learnedValue ::
            .execute n l.core.instanceID l.core.learner.learnedValue true calls :: l.hist }
  | updateSystemVariables {l v} : l.core.toSelf = none →
      Act P can n l
        { l with
          core.systemVSM := SystemVSM.reflesh v
          core.storedSystemVariables := some v
          hist := .updateSystemVariables n l.core.instanceID v.memberShip.toFinset :: l.hist }
  | adoptChecksum {l msg} : (can msg ∨ l.core.toSelf = some msg) → msg.lastChecksum ≠ 0 →
      msg.instanceID = l.core.instanceID → l.core.instanceID > 0 → l.core.lastChecksum = 0 →
      Act P can n l { l with core.lastChecksum := msg.lastChecksum }
  | checksumLogicFail {l msg} : (can msg ∨ l.core.toSelf = some msg) → msg.lastChecksum ≠ 0 →
      msg.instanceID = l.core.instanceID → ¬ (l.core.instanceID > 0 ∧ l.core.lastChecksum = 0) →
      msg.lastChecksum ≠ l.core.lastChecksum →
      Act P can n l { l with hist := .checksumLogicFail n l.core.instanceID :: l.hist }
  | retry {l queue} : (∀ msg ∈ queue, msg ∈ l.core.retryQueue ∨ can msg) →
      Act P can n l { l with core.retryQueue := queue }
  -- the sending thread
  | sendStart {l i} : Act P can n l { l with core.sendInstanceID := i, core.sendChecksum := 0 }
  | sendOne {l r dst flag} : l.core.toSelf = none → l.core.records.lookup l.core.sendInstanceID = some r →
      l.core.sendInstanceID < l.core.instanceID →
      Act P can n l (Loc.send n dst
        (learnValueMsg n l.core.sendInstanceID r.acceptedBallot r.acceptedValue l.core.sendChecksum flag)
        { l with core.sendInstanceID := l.core.sendInstanceID + 1, core.sendChecksum := r.checksum })
  -- commits
  | commitRefused {l ret} : l.core.commitCtx.isNewCommit = true →
      (ret = .followerCannotCommit ∨ ret = .imNotInMembership ∨ ret = .valueSizeTooLarge) →
      Act P can n l { l with core.commitCtx := l.core.commitCtx.setResultOnlyRet ret }
  | startCommit {l v v'} : l.core.commitCtx.isNewCommit = true → l.core.commitCtx.value = some v →
      (v' = v ∨ P.openChangeValueBeforePropose = true ∧ (v ≠ [] → v' ≠ [])) →
      Act P can n l
        { l with core.commitCtx := { l.core.commitCtx.startCommit l.core.instanceID with value := some v' } }
  | initSystemVariables {l v} : v ≠ [] →
      Act P can n l { l with hist := .initSystemVariables n l.core.instanceID v :: l.hist }
  | commitTimeout {l armed} : l.core.toSelf = none → (armed = true → l.core.armed = true) →
      Act P can n l
        { l with core := { l.core with
            isPreparing := false
            isAccepting := false
            armed := armed
            commitCtx := l.core.commitCtx.setResult .timeout (some l.core.instanceID) [] } }
  | newCall {l c} : (∀ d ∈ l.core.calls, d.callID ≠ c.callID) → c.phase = .waitLock →
      Act P can n l { l with core.calls := c :: l.core.calls }
  | lock {l c timeoutMs} : c ∈ l.core.calls → c.phase = .waitLock → (∀ d ∈ l.core.calls, d.phase ≠ .getResult) →
      Act P can n l
        { l with
          core.calls := l.core.calls.map fun d => if d.callID = c.callID then { c with phase := .getResult } else d
          core.commitCtx := CommitCtx.newCommit (packPaxosValue c.value c.smid) timeoutMs }
  | lockFail {l c ret} : c ∈ l.core.calls → c.phase = .waitLock → (ret = .tooManyThreadWaitingReject ∨ ret = .timeout) →
      Act P can n l
        { l with core.calls := l.core.calls.map fun d => if d.callID = c.callID then c.afterTry ret 0 else d }
  | getResult {l c} : c ∈ l.core.calls → c.phase = .getResult → l.core.commitCtx.isCommitEnd = true →
      Act P can n l
        { l with core.calls := l.core.calls.map fun d =>
            if d.callID = c.callID then
              c.afterTry l.core.commitCtx.commitRet (l.core.commitCtx.instanceID.getD 0)
            else d }
  -- stopping and starting
  | clearAllLog {l} (stored : Option SystemVariables) : (stored = none ∨ stored = l.core.storedSystemVariables) →
      Act P can n l
        { l with
          core.records := []
          core.storedSystemVariables := stored
          core.storedMinChosen := none
          hist := .clearAllLog n :: l.hist }
  | setMinChosen {l} (minChosen : Nat) : Act P can n l { l with core.storedMinChosen := some minChosen }
  | restart {l cp i a checksum vsm stored minChosen start played h} : l.core.toSelf = none →
      ((i, a) = Acceptor.init { records := l.core.records } ∨
        (Acceptor.init { records := l.core.records }).1 < i ∧ i = cp ∧
          a = (Acceptor.init { records := l.core.records }).2.init) →
      (checksum = 0 ∨ 0 < i ∧ ∃ r, l.core.records.lookup (i - 1) = some r ∧ checksum = r.checksum) →
      Started n l.core.instanceID cp played true l.hist h → PlayedFrom start played → start + played.length = i →
      (∀ e ∈ played, e.ok = true) →
      Act P can n l
        { core := { l.core.restarted i a checksum with
            systemVSM := vsm, storedSystemVariables := stored, storedMinChosen := minChosen }
          net := l.net
          hist := h }
  | restartFail {l cp stored minChosen start played h} : l.core.toSelf = none →
      Started n l.core.instanceID cp played false l.hist h → PlayedFrom start played →
      Act P can n l { l with core.storedSystemVariables := stored, core.storedMinChosen := minChosen, hist := h }

end PhxPaxos
