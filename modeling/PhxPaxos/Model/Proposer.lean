import PhxPaxos.Model.Learner

/-!
# The proposer

`prepare` runs again with the ballot of the last round unless somebody rejected it, and `newValue` skips it while
`canSkipPrepare` holds; both carry the ballot, and `prepare` the value, from round to round.
-/

namespace PhxPaxos

/-! ## Leaving a phase, timers -/

/-- `Proposer::ExitPrepare` -/
def exitPrepare (w : Proc) : Proc :=
  if w.node.proposer.isPreparing then
    { w with node.ioLoop := w.node.ioLoop.removeTimer w.node.proposer.prepareTimerID,
             node.proposer.isPreparing := false, node.proposer.prepareTimerID := 0 }
  else w

/-- `Proposer::ExitAccept` -/
def exitAccept (w : Proc) : Proc :=
  if w.node.proposer.isAccepting then
    { w with node.ioLoop := w.node.ioLoop.removeTimer w.node.proposer.acceptTimerID,
             node.proposer.isAccepting := false, node.proposer.acceptTimerID := 0 }
  else w

/-- `Proposer::AddPrepareTimer`; with an explicit length (`wait`) it returns before it sets `timeoutInstanceID`. -/
def addPrepareTimer (wait : Bool) (w : Proc) : Proc :=
  let l := if w.node.proposer.prepareTimerID > 0 then w.node.ioLoop.removeTimer w.node.proposer.prepareTimerID
    else w.node.ioLoop
  let w := { w with node.ioLoop := l.addTimer .proposerPrepareTimeout, node.proposer.prepareTimerID := l.nowTimerID }
  if wait then w else { w with node.proposer.timeoutInstanceID := w.node.instanceID }

/-- `Proposer::AddAcceptTimer` -/
def addAcceptTimer (wait : Bool) (w : Proc) : Proc :=
  let l := if w.node.proposer.acceptTimerID > 0 then w.node.ioLoop.removeTimer w.node.proposer.acceptTimerID
    else w.node.ioLoop
  let w := { w with node.ioLoop := l.addTimer .proposerAcceptTimeout, node.proposer.acceptTimerID := l.nowTimerID }
  if wait then w else { w with node.proposer.timeoutInstanceID := w.node.instanceID }

/-- `Proposer::InitForNewPaxosInstance` -/
def Proposer.initForNewPaxosInstance (w : Proc) : Proc :=
  exitAccept (exitPrepare { w with
    node.proposer.msgCounter := {}
    node.proposer.state := w.node.proposer.state.init })

/-- `Proposer::CancelSkipPrepare` -/
def cancelSkipPrepare (w : Proc) : Proc := { w with node.proposer.canSkipPrepare := false }

/-! ## The accept phase -/

/-- Someone rejected: `m_bWasRejectBySomeone` and `SetOtherProposalID`. -/
def wasReject (rejectByPromiseID : Nat) (w : Proc) : Proc :=
  { w with node.proposer.wasRejectBySomeone := true,
           node.proposer.state := w.node.proposer.state.setOtherProposalID rejectByPromiseID }

/-- The end of `Proposer::OnAcceptReply`: the round may have passed, or failed. -/
def checkAcceptRound (self : Self) (w : Proc) : Proc :=
  if w.node.proposer.msgCounter.isPassedOnThisRound w.node.config then
    let w := exitAccept w
    let w := w.log (.success w.me w.node.instanceID w.node.proposer.state.proposalID w.node.config.systemVSM.setNodeID
      w.node.lastChecksum)
    proposerSendSuccess self w.node.instanceID w.node.proposer.state.proposalID w
  else if w.node.proposer.msgCounter.isRejectedOnThisRound w.node.config
      || w.node.proposer.msgCounter.isAllReceiveOnThisRound w.node.config then
    addAcceptTimer true w
  else w

/-- `Proposer::OnAcceptReply` -/
def onAcceptReply (self : Self) (msg : PaxosMsg) (w : Proc) : Proc :=
  if !w.node.proposer.isAccepting then w
  else if msg.proposalID ≠ w.node.proposer.state.proposalID then w
  else
    let w := { w with node.proposer.msgCounter := w.node.proposer.msgCounter.addReceive msg.nodeID }
    if msg.rejectByPromiseID = 0 then
      checkAcceptRound self
        { w with node.proposer.msgCounter := w.node.proposer.msgCounter.addPromiseOrAccept msg.nodeID }
    else
      checkAcceptRound self <| wasReject msg.rejectByPromiseID
        { w with node.proposer.msgCounter := w.node.proposer.msgCounter.addReject msg.nodeID }

/-- `Proposer::OnExpiredPrepareReply` and `Proposer::OnExpiredAcceptReply`, which do the same. -/
def onExpiredReply (msg : PaxosMsg) (w : Proc) : Proc :=
  if msg.rejectByPromiseID ≠ 0 then wasReject msg.rejectByPromiseID w else w

/-- `Proposer::Accept` -/
def accept (self : Self) (w : Proc) : Proc :=
  let w := exitPrepare w
  let w := { w with node.proposer.isAccepting := true }
  let msg : PaxosMsg :=
    { msgType := .paxosAccept, instanceID := w.node.instanceID, nodeID := w.me,
      proposalID := w.node.proposer.state.proposalID, value := w.node.proposer.state.value,
      lastChecksum := w.node.lastChecksum }
  let w := { w with node.proposer.msgCounter := {} }
  let w := addAcceptTimer false w
  let w := w.log (.accept w.me w.node.instanceID w.node.proposer.state.proposalID w.node.proposer.state.value
    w.node.config.systemVSM.setNodeID)
  w.broadcastMessage self .final msg

/-! ## The prepare phase -/

/-- `Proposer::Prepare` -/
def prepare (self : Self) (needNewBallot : Bool) (w : Proc) : Proc :=
  let w := exitAccept w
  let w := { w with
    node.proposer.isPreparing := true
    node.proposer.canSkipPrepare := false
    node.proposer.wasRejectBySomeone := false
    node.proposer.state := w.node.proposer.state.resetHighestOtherPreAcceptBallot }
  let w := { w with node.proposer.state :=
    if needNewBallot then w.node.proposer.state.newPrepare else w.node.proposer.state }
  let msg : PaxosMsg :=
    { msgType := .paxosPrepare, instanceID := w.node.instanceID, nodeID := w.me,
      proposalID := w.node.proposer.state.proposalID }
  let w := { w with node.proposer.msgCounter := {} }
  let w := addPrepareTimer false w
  let w := w.log (.prepare w.me w.node.instanceID w.node.proposer.state.proposalID w.node.config.systemVSM.setNodeID)
  w.broadcastMessage self .first msg

/-- The promise branch of `Proposer::OnPrepareReply`. -/
def countPromise (msg : PaxosMsg) (w : Proc) : Proc :=
  let counted := w.node.proposer.msgCounter.promiseOrAcceptMsgNodeID
  let w := { w with
    node.proposer.msgCounter := w.node.proposer.msgCounter.addPromiseOrAccept msg.nodeID
    node.proposer.state := w.node.proposer.state.addPreAcceptValue msg.preAcceptBallot msg.value }
  w.log (.countPromise w.me w.node.instanceID msg.proposalID msg.nodeID msg.preAcceptBallot msg.value counted)

/-- The end of `Proposer::OnPrepareReply`: the round may have passed, or failed. -/
def checkPrepareRound (self : Self) (w : Proc) : Proc :=
  if w.node.proposer.msgCounter.isPassedOnThisRound w.node.config then
    accept self { w with node.proposer.canSkipPrepare := true }
  else if w.node.proposer.msgCounter.isRejectedOnThisRound w.node.config
      || w.node.proposer.msgCounter.isAllReceiveOnThisRound w.node.config then
    addPrepareTimer true w
  else w

/-- `Proposer::OnPrepareReply` -/
def onPrepareReply (self : Self) (msg : PaxosMsg) (w : Proc) : Proc :=
  if !w.node.proposer.isPreparing then w
  else if msg.proposalID ≠ w.node.proposer.state.proposalID then w
  else
    let w := { w with node.proposer.msgCounter := w.node.proposer.msgCounter.addReceive msg.nodeID }
    if msg.rejectByPromiseID = 0 then checkPrepareRound self (countPromise msg w)
    else
      checkPrepareRound self <| wasReject msg.rejectByPromiseID
        { w with node.proposer.msgCounter := w.node.proposer.msgCounter.addReject msg.nodeID }

/-- `Proposer::OnPrepareTimeout` and `Proposer::OnAcceptTimeout`, which do the same. -/
def onProposerTimeout (self : Self) (w : Proc) : Proc :=
  if w.node.instanceID ≠ w.node.proposer.timeoutInstanceID then w
  else prepare self w.node.proposer.wasRejectBySomeone w

/-- `Proposer::NewValue` -/
def newValue (self : Self) (value : Bytes) (w : Proc) : Proc :=
  let w := w.log (.newValue w.me w.node.instanceID value)
  let w := { w with node.proposer.state.value :=
    if w.node.proposer.state.value.length = 0 then value else w.node.proposer.state.value }
  if w.node.proposer.canSkipPrepare && !w.node.proposer.wasRejectBySomeone then accept self w
  else prepare self w.node.proposer.wasRejectBySomeone w

end PhxPaxos
