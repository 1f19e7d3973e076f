import PhxPaxos.Model.Acceptor

/-!
# The learner

Learning a value from a success message (`onProposerSendSuccess`) or from a value message (`onSendLearnValue`), and the
exchange by which a node that is behind asks for values. The learner sender is a thread of its own; its steps are
`LearnerSender.sendLearnedValue`, `LearnerSender.sendOne` and `LearnerSender.sendDone`, its pace is left out.
-/

namespace PhxPaxos

variable (P : Params)

/-! ## The learner state -/

def LearnerState.learnValueWithoutWrite (value : Bytes) (newChecksum : Nat) : LearnerState :=
  { learnedValue := value, isLearned := true, newChecksum := newChecksum }

/-- `LearnerState::LearnValue` -/
def LearnerState.learnValue (instanceID : Nat) (learnedBallot : BallotNumber) (value : Bytes) (w : Proc) : Proc × Int :=
  let last := w.node.lastChecksum
  let newChecksum :=
    if instanceID > 0 ∧ last = 0 then 0
    else if value.length > 0 then P.crc32 last value
    else w.node.learner.state.newChecksum
  let w := { w with node.learner.state.newChecksum := newChecksum }
  let (w, ret) := w.writeState instanceID
    { instanceID := instanceID, promiseID := learnedBallot.proposalID, promiseNodeID := learnedBallot.nodeID,
      acceptedID := learnedBallot.proposalID, acceptedNodeID := learnedBallot.nodeID, acceptedValue := value,
      checksum := newChecksum }
  if ret ≠ 0 then (w, ret)
  else ({ w with node.learner.state := LearnerState.learnValueWithoutWrite value newChecksum }, 0)

namespace Learner

def isIMLatest (node : Node) : Bool := decide (node.learner.highestSeenInstanceID ≤ node.instanceID + 1)

def setSeenInstanceID (l : Learner) (instanceID : Nat) (fromNodeID : NodeID) : Learner :=
  if instanceID > l.highestSeenInstanceID then
    { l with highestSeenInstanceID := instanceID, highestSeenInstanceIDFromNodeID := fromNodeID }
  else l

end Learner

/-! ## The learner sender -/

namespace LearnerSender

/-- `IsIMSending`; `sendTimeout` says that the last send is too long ago. -/
def isIMSendingNow (s : LearnerSender) (sendTimeout : Bool) : Bool := s.isIMSending && !sendTimeout

def prepare (s : LearnerSender) (sendTimeout : Bool) (beginInstanceID : Nat) (sendToNodeID : NodeID) :
    LearnerSender × Bool :=
  if !s.isIMSendingNow sendTimeout && !s.isComfirmed then
    ({ s with isIMSending := true, beginInstanceID := beginInstanceID, ackInstanceID := beginInstanceID,
              sendToNodeID := sendToNodeID }, true)
  else (s, false)

def comfirm (s : LearnerSender) (sendTimeout : Bool) (beginInstanceID : Nat) (sendToNodeID : NodeID) :
    LearnerSender :=
  if s.isIMSendingNow sendTimeout && !s.isComfirmed && s.beginInstanceID = beginInstanceID
      && s.sendToNodeID = sendToNodeID then
    { s with isComfirmed := true }
  else s

def ack (s : LearnerSender) (sendTimeout : Bool) (ackInstanceID : Nat) (fromNodeID : NodeID) : LearnerSender :=
  if s.isIMSendingNow sendTimeout && s.isComfirmed && s.sendToNodeID = fromNodeID
      && decide (ackInstanceID > s.ackInstanceID) then
    { s with ackInstanceID := ackInstanceID }
  else s

end LearnerSender

/-! ## Asking for values -/

/-- `Learner::Reset_AskforLearn_Noop` -/
def resetAskforLearnNoop (w : Proc) : Proc :=
  let l := if w.node.learner.askforlearnNoopTimerID > 0 then
      w.node.ioLoop.removeTimer w.node.learner.askforlearnNoopTimerID
    else w.node.ioLoop
  { w with node.ioLoop := l.addTimer .learnerAskforlearnNoop, node.learner.askforlearnNoopTimerID := l.nowTimerID }

/-- `Learner::AskforLearn` -/
def askforLearn (self : Self) (w : Proc) : Proc :=
  let msg : PaxosMsg := { msgType := .learnerAskforLearn, instanceID := w.node.instanceID, nodeID := w.me,
                          proposalNodeID := if w.node.config.isIMFollower then w.node.config.followToNodeID else 0 }
  let w := w.broadcastMessage self .none msg
  w.emit (w.node.config.tmpNodeOnlyForLearn.erase w.me) msg

/-- `Learner::AskforLearn_Noop` -/
def askforLearnNoop (self : Self) (w : Proc) : Proc :=
  let w := resetAskforLearnNoop w
  let w := { w with node.learner.isIMLearning := false, node.checkpointMgr.inAskforCheckpointMode := false }
  askforLearn self w

/-- `Learner::SendLearnValue` -/
def sendLearnValue (self : Self) (sendNodeID : NodeID) (learnInstanceID : Nat) (learnedBallot : BallotNumber)
    (learnedValue : Bytes) (checksum : Nat) (needAck : Bool) (w : Proc) : Proc :=
  w.sendMessage self sendNodeID
    { msgType := .learnerSendLearnValue, instanceID := learnInstanceID, nodeID := w.me,
      proposalNodeID := learnedBallot.nodeID, proposalID := learnedBallot.proposalID, value := learnedValue,
      lastChecksum := checksum, flag := if needAck then sendLearnValueNeedAck else 0 }

/-- `SystemVSM::GetCheckpointBuffer` -/
def SystemVSM.getCheckpointBuffer (vsm : SystemVSM) : Bytes :=
  if vsm.systemVariables.version = noVersion ∨ vsm.systemVariables.gid = 0 then []
  else P.serializeSystemVariables vsm.systemVariables

/-- `Learner::SendNowInstanceID` -/
def sendNowInstanceID (self : Self) (instanceID : Nat) (sendNodeID : NodeID) (w : Proc) : Proc :=
  w.sendMessage self sendNodeID
    { msgType := .learnerSendNowInstanceID, instanceID := instanceID, nodeID := w.me,
      nowInstanceID := w.node.instanceID, minChosenInstanceID := w.node.checkpointMgr.minChosenInstanceID,
      systemVariables :=
        if w.node.instanceID - instanceID > 50 then w.node.config.systemVSM.getCheckpointBuffer P else [] }

/-- `SetSeenInstanceID` -/
def noteSeen (instanceID : Nat) (fromNodeID : NodeID) (w : Proc) : Proc :=
  { w with node.learner := w.node.learner.setSeenInstanceID instanceID fromNodeID }

/-- A node that follows this one asks for values. -/
def noteFollower (msg : PaxosMsg) (w : Proc) : Proc :=
  if msg.proposalNodeID = w.me then { w with node.config := w.node.config.addFollowerNode msg.nodeID } else w

/-- `Learner::OnAskforLearn` -/
def onAskforLearn (self : Self) (msg : PaxosMsg) (w : Proc) : Proc :=
  let w := noteFollower msg (noteSeen msg.instanceID msg.nodeID w)
  if msg.instanceID ≥ w.node.instanceID then w
  else if msg.instanceID ≥ w.node.checkpointMgr.minChosenInstanceID then
    let (sender, ok) := w.node.learner.sender.prepare w.env.sendTimeout msg.instanceID msg.nodeID
    let w := { w with node.learner.sender := sender }
    if ok then sendNowInstanceID P self msg.instanceID msg.nodeID w
    else if msg.instanceID = w.node.instanceID - 1 then
      match w.readState msg.instanceID with
      | some r => sendLearnValue self msg.nodeID msg.instanceID r.acceptedBallot r.acceptedValue 0 false w
      | none => w
    else w
  else sendNowInstanceID P self msg.instanceID msg.nodeID w

/-- `SystemVSM::UpdateSystemVariables` -/
def updateSystemVariables (v : SystemVariables) (w : Proc) : Proc × Int :=
  let w' := { w with env.puts := w.env.puts.tail }
  if w.nextPut then
    let vsm := SystemVSM.reflesh v
    let w' := { w' with node.storage.systemVariables := some v, node.config.systemVSM := vsm }
    (w'.log (.updateSystemVariables w.me w.node.instanceID vsm.setNodeID), 0)
  else (w', -1)

/-- `SystemVSM::UpdateByCheckpoint`; the second result is the return value, the third says that the variables
changed. -/
def updateByCheckpoint (buffer : Bytes) (w : Proc) : Proc × Int × Bool :=
  if buffer.length = 0 then (w, 0, false)
  else match P.parseSystemVariables buffer with
    | none => (w, -1, false)
    | some v =>
      let now := w.node.config.systemVSM.systemVariables
      if v.version = noVersion then (w, -2, false)
      else if now.gid ≠ 0 ∧ v.gid ≠ now.gid then (w, -2, false)
      else if now.version ≠ noVersion ∧ v.version ≤ now.version then (w, 0, false)
      else
        let (w, ret) := updateSystemVariables v w
        if ret ≠ 0 then (w, -1, true) else (w, 0, true)

/-- `CheckpointMgr::PrepareForAskforCheckpoint` -/
def CheckpointMgr.prepareForAskforCheckpoint (c : CheckpointMgr) (now majorityCount : Nat) (sendNodeID : NodeID) :
    CheckpointMgr × Int :=
  let c := { c with setNeedAsk := insert sendNodeID c.setNeedAsk }
  let c := if c.lastAskforCheckpointTime = 0 then { c with lastAskforCheckpointTime := now } else c
  if now > c.lastAskforCheckpointTime + 60000 ∨ c.setNeedAsk.card ≥ majorityCount then
    ({ c with lastAskforCheckpointTime := 0, inAskforCheckpointMode := true }, 0)
  else (c, -2)

/-- `Learner::AskforCheckpoint` -/
def askforCheckpoint (self : Self) (sendNodeID : NodeID) (w : Proc) : Proc :=
  let (c, ret) := w.node.checkpointMgr.prepareForAskforCheckpoint w.env.now w.node.config.getMajorityCount sendNodeID
  let w := { w with node.checkpointMgr := c }
  if ret ≠ 0 then w
  else w.sendMessage self sendNodeID
    { msgType := .learnerAskforCheckpoint, instanceID := w.node.instanceID, nodeID := w.me }

/-- `Learner::ComfirmAskForLearn` -/
def comfirmAskForLearn (self : Self) (sendNodeID : NodeID) (w : Proc) : Proc :=
  let w := w.sendMessage self sendNodeID
    { msgType := .learnerComfirmAskforLearn, instanceID := w.node.instanceID, nodeID := w.me }
  { w with node.learner.isIMLearning := true }

/-- `Learner::OnSendNowInstanceID` -/
def onSendNowInstanceID (self : Self) (msg : PaxosMsg) (w : Proc) : Proc :=
  let w := noteSeen msg.nowInstanceID msg.nodeID w
  let (w, ret, change) := updateByCheckpoint P msg.systemVariables w
  if ret = 0 ∧ change then w
  else if msg.instanceID ≠ w.node.instanceID then w
  else if msg.nowInstanceID ≤ w.node.instanceID then w
  else if msg.minChosenInstanceID > w.node.instanceID then askforCheckpoint self msg.nodeID w
  else if !w.node.learner.isIMLearning then comfirmAskForLearn self msg.nodeID w
  else w

/-- `Learner::OnComfirmAskForLearn` -/
def onComfirmAskForLearn (msg : PaxosMsg) (w : Proc) : Proc :=
  { w with node.learner.sender := w.node.learner.sender.comfirm w.env.sendTimeout msg.instanceID msg.nodeID }

/-- `Learner::SendLearnValue_Ack` -/
def sendLearnValueAck (self : Self) (sendNodeID : NodeID) (w : Proc) : Proc :=
  if w.node.instanceID < w.node.learner.lastAckInstanceID + P.learnerReceiverAckLead then w
  else
    let w := { w with node.learner.lastAckInstanceID := w.node.instanceID }
    w.sendMessage self sendNodeID
      { msgType := .learnerSendLearnValueAck, instanceID := w.node.instanceID, nodeID := w.me }

/-- `Learner::OnSendLearnValue_Ack` -/
def onSendLearnValueAck (msg : PaxosMsg) (w : Proc) : Proc :=
  { w with node.learner.sender := w.node.learner.sender.ack w.env.sendTimeout msg.instanceID msg.nodeID }

/-! ## Learning -/

/-- `BallotNumber(msg.proposalid(), msg.proposalnodeid())` -/
def PaxosMsg.learnedBallot (msg : PaxosMsg) : BallotNumber := ⟨msg.proposalID, msg.proposalNodeID⟩

/-- The end of `Learner::OnSendLearnValue`. -/
def ackIfNeeded (self : Self) (msg : PaxosMsg) (w : Proc) : Proc :=
  if msg.flag = sendLearnValueNeedAck then sendLearnValueAck P self msg.nodeID (resetAskforLearnNoop w) else w

/-- `Learner::OnSendLearnValue` -/
def onSendLearnValue (self : Self) (msg : PaxosMsg) (w : Proc) : Proc :=
  if msg.instanceID > w.node.instanceID then w
  else if msg.instanceID < w.node.instanceID then ackIfNeeded P self msg w
  else
    let (w, ret) := LearnerState.learnValue P msg.instanceID msg.learnedBallot msg.value w
    if ret ≠ 0 then w
    else
      let how := .value msg.learnedBallot w.node.acceptor.promiseBallot
      ackIfNeeded P self msg (w.log (.learn w.me msg.instanceID msg.value how))

/-- `Learner::TransmitToFollower` -/
def transmitToFollower (w : Proc) : Proc :=
  if w.node.config.myFollower.card = 0 then w
  else
    let a := w.node.acceptor
    w.emit (w.node.config.myFollower.erase w.me)
      { msgType := .learnerSendLearnValue, instanceID := w.node.instanceID, nodeID := w.me,
        proposalNodeID := a.acceptedBallot.nodeID, proposalID := a.acceptedBallot.proposalID,
        value := a.acceptedValue, lastChecksum := w.node.lastChecksum }

/-- `Learner::ProposerSendSuccess` -/
def proposerSendSuccess (self : Self) (learnInstanceID proposalID : Nat) (w : Proc) : Proc :=
  w.broadcastMessage self .first
    { msgType := .learnerProposerSendSuccess, instanceID := learnInstanceID, nodeID := w.me, proposalID := proposalID,
      lastChecksum := w.node.lastChecksum }

/-- `Learner::OnProposerSendSuccess` -/
def onProposerSendSuccess (msg : PaxosMsg) (w : Proc) : Proc :=
  let a := w.node.acceptor
  if msg.instanceID ≠ w.node.instanceID then w
  else if a.acceptedBallot.isnull then w
  else if a.acceptedBallot ≠ msg.ballot then w
  else
    let w := { w with node.learner.state := LearnerState.learnValueWithoutWrite a.acceptedValue a.checksum }
    transmitToFollower (w.log (.learn w.me msg.instanceID a.acceptedValue (.success msg.ballot)))

/-! ## The sending thread -/

namespace LearnerSender

/-- `WaitToSend` returned and `SendLearnedValue` starts. -/
def sendLearnedValue (w : Proc) : Proc :=
  let s := w.node.learner.sender
  if s.isComfirmed then
    { w with node.learner.sender := { s with sendInstanceID := s.beginInstanceID, lastChecksum := 0 } }
  else w

/-- One turn of the loop of `SendLearnedValue`: `SendOne`, then the next instance. The variables of the loop, which
nothing else reads, are set first. -/
def sendOne (self : Self) (w : Proc) : Proc :=
  let s := w.node.learner.sender
  if s.isComfirmed ∧ s.sendInstanceID < w.node.instanceID then
    match w.readState s.sendInstanceID with
    | some r =>
      let w := { w with node.learner.sender.lastChecksum := r.checksum,
                        node.learner.sender.sendInstanceID := s.sendInstanceID + 1 }
      sendLearnValue self s.sendToNodeID s.sendInstanceID r.acceptedBallot r.acceptedValue s.lastChecksum true w
    | none => w
  else w

/-- `SendDone` -/
def sendDone (w : Proc) : Proc := { w with node.learner.sender := {} }

end LearnerSender

end PhxPaxos
