import PhxPaxos.Model.Node

/-!
# Sending, timers and the acceptor

A message that a node sends to itself is handled at once, inside the send (`Base::SendMessage`,
`Base::BroadcastMessage`). The handlers here take that handling as an argument `self`; `Instance.lean` ties the knot.
-/

namespace PhxPaxos

/-- What a node does with a message it sends to itself; the number is the return value of `OnReceivePaxosMsg`. -/
abbrev Self := PaxosMsg → Proc → Proc × Int

/-! ## Base -/

/-- `BroadcastMessage_Type` -/
inductive RunSelf
  | first
  | final
  | none
deriving DecidableEq

namespace Proc

/-- The members other than this node. -/
def others (w : Proc) : Finset NodeID := w.node.config.systemVSM.setNodeID.erase w.me

def sendMessage (self : Self) (sendtoNodeID : NodeID) (msg : PaxosMsg) (w : Proc) : Proc :=
  if sendtoNodeID = w.me then (self msg w).1 else w.emit {sendtoNodeID} msg

def broadcastMessage (self : Self) (runType : RunSelf) (msg : PaxosMsg) (w : Proc) : Proc :=
  match runType with
  | .first =>
    let (w, ret) := self msg w
    if ret ≠ 0 then w else w.emit w.others msg
  | .final => (self msg (w.emit w.others msg)).1
  | .none => w.emit w.others msg

end Proc

/-! ## Timers -/

namespace IOLoop

def addTimer (l : IOLoop) (type : TimerType) : IOLoop :=
  { l with nowTimerID := l.nowTimerID + 1, timers := (l.nowTimerID, type) :: l.timers }

def removeTimer (l : IOLoop) (timerID : Nat) : IOLoop :=
  { l with timers := l.timers.filter fun t => t.1 ≠ timerID }

def addRetryPaxosMsg (l : IOLoop) (msg : PaxosMsg) : IOLoop :=
  let queue := if l.retryQueue.length > retryQueueMaxLen then l.retryQueue.tail else l.retryQueue
  { l with retryQueue := queue ++ [msg] }

def clearRetryQueue (l : IOLoop) : IOLoop := { l with retryQueue := [] }

end IOLoop

/-! ## The acceptor -/

section Acceptor

variable (P : Params)

/-- `AcceptorState::Persist` -/
def AcceptorState.persist (w : Proc) : Proc × Int :=
  let a := w.node.acceptor
  let checksum :=
    if w.node.instanceID > 0 ∧ w.node.lastChecksum = 0 then 0
    else if a.acceptedValue.length > 0 then P.crc32 w.node.lastChecksum a.acceptedValue
    else a.checksum
  let w := { w with node.acceptor.checksum := checksum }
  let (w, ret) := w.writeState w.node.instanceID
    { instanceID := w.node.instanceID, promiseID := a.promiseBallot.proposalID, promiseNodeID := a.promiseBallot.nodeID,
      acceptedID := a.acceptedBallot.proposalID, acceptedNodeID := a.acceptedBallot.nodeID,
      acceptedValue := a.acceptedValue, checksum := checksum }
  (w.log (.persist w.me w.node.instanceID a.acceptedValue (ret == 0)), ret)

/-- `Acceptor::OnPrepare` -/
def onPrepare (self : Self) (msg : PaxosMsg) (w : Proc) : Proc × Int :=
  let a := w.node.acceptor
  let reply : PaxosMsg := { msgType := .paxosPrepareReply, instanceID := w.node.instanceID, nodeID := w.me,
                            proposalID := msg.proposalID }
  if msg.ballot.ge a.promiseBallot then
    let reply := { reply with
      preAcceptID := a.acceptedBallot.proposalID
      preAcceptNodeID := a.acceptedBallot.nodeID
      value := if a.acceptedBallot.proposalID > 0 then a.acceptedValue else [] }
    let (w, ret) := AcceptorState.persist P { w with node.acceptor.promiseBallot := msg.ballot }
    if ret ≠ 0 then (w, -1)
    else
      let w := w.log (.promise w.me w.node.instanceID msg.ballot a.acceptedBallot a.acceptedValue)
      (w.sendMessage self msg.nodeID reply, 0)
  else
    (w.sendMessage self msg.nodeID { reply with rejectByPromiseID := a.promiseBallot.proposalID }, 0)

/-- `Acceptor::OnAccept` -/
def onAccept (self : Self) (msg : PaxosMsg) (w : Proc) : Proc :=
  let a := w.node.acceptor
  let reply : PaxosMsg := { msgType := .paxosAcceptReply, instanceID := w.node.instanceID, nodeID := w.me,
                            proposalID := msg.proposalID }
  if msg.ballot.ge a.promiseBallot then
    let w := { w with
      node.acceptor.promiseBallot := msg.ballot
      node.acceptor.acceptedBallot := msg.ballot
      node.acceptor.acceptedValue := msg.value }
    let w := w.log (.setAccepted w.me w.node.instanceID msg.ballot msg.value)
    let (w, ret) := AcceptorState.persist P w
    if ret ≠ 0 then w
    else (w.log (.accepted w.me w.node.instanceID msg.ballot msg.value)).sendMessage self msg.nodeID reply
  else w.sendMessage self msg.nodeID { reply with rejectByPromiseID := a.promiseBallot.proposalID }

end Acceptor

end PhxPaxos
