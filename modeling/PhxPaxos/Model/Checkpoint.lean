import PhxPaxos.Model.Instance

/-!
# Receiving a checkpoint

The receiving end of a checkpoint transfer: the first message clears the whole log, the next ones carry the files, the
last one has them loaded and ends the process. What the files hold is left out.
-/

namespace PhxPaxos

/-! ## Clearing the log -/

/-- `Database::ClearAllLog` after `k` of its steps: the old database is renamed away, the system variables are written
to the new one. -/
def clearAllLogAfter (k : Nat) (storage : LogStorage) : LogStorage :=
  match k with
  | 0 => storage
  | 1 => {}
  | _ => { systemVariables := storage.systemVariables }

/-- `LogStorage::ClearAllLog`; the process may die on the way. -/
def clearAllLog (w : Proc) : Proc :=
  match w.env.clearAllLogSteps with
  | none => { w.log (.clearAllLog w.me) with node.storage := clearAllLogAfter 2 w.node.storage }
  | some 0 => { w with node.stopped := true }
  | some k => { w.log (.clearAllLog w.me) with node.storage := clearAllLogAfter k w.node.storage, node.stopped := true }

/-! ## The checkpoint receiver -/

/-- `CheckpointReceiver::NewReceiver` -/
def newReceiver (senderNodeID : NodeID) (uuid : Nat) (w : Proc) : Proc × Int :=
  if !w.env.filesOk then (w, -1)
  else
    let w := clearAllLog w
    ({ w with node.checkpointReceiver := { senderNodeID := senderNodeID, uuid := uuid, sequence := 0 } }, 0)

/-- `CheckpointReceiver::IsReceiverFinish` -/
def CheckpointReceiver.isReceiverFinish (r : CheckpointReceiver) (senderNodeID : NodeID) (uuid endSequence : Nat) : Bool :=
  senderNodeID = r.senderNodeID && uuid = r.uuid && endSequence = r.sequence + 1

/-- `CheckpointReceiver::ReceiveCheckpoint` -/
def receiveCheckpoint (msg : CheckpointMsg) (w : Proc) : Proc × Int :=
  let r := w.node.checkpointReceiver
  if msg.nodeID ≠ r.senderNodeID ∨ msg.uuid ≠ r.uuid then (w, -2)
  else if msg.sequence = r.sequence then (w, 0)
  else if msg.sequence ≠ r.sequence + 1 then (w, -2)
  else if !w.env.filesOk then (w, -1)
  else ({ w with node.checkpointReceiver.sequence := r.sequence + 1 }, 0)

/-! ## The learner -/

/-- `Learner::OnSendCheckpoint_Begin` -/
def onSendCheckpointBegin (msg : CheckpointMsg) (w : Proc) : Proc × Int :=
  let (w, ret) := newReceiver msg.nodeID msg.uuid w
  if ret ≠ 0 ∨ w.node.stopped then (w, ret) else setMinChosenInstanceID msg.checkpointInstanceID w

/-- `Learner::OnSendCheckpoint_End`: the process ends once all files are loaded. -/
def onSendCheckpointEnd (msg : CheckpointMsg) (w : Proc) : Proc × Int :=
  if !w.node.checkpointReceiver.isReceiverFinish msg.nodeID msg.uuid msg.sequence then (w, -1)
  else if !w.env.filesOk then (w, -1)
  else ({ w with node.stopped := true }, 0)

/-- `Learner::OnSendCheckpoint` by the flag of the message. -/
def onSendCheckpointFlag (msg : CheckpointMsg) (w : Proc) : Proc × Int :=
  match msg.flag with
  | .begin => onSendCheckpointBegin msg w
  | .ing => receiveCheckpoint msg w
  | .end => onSendCheckpointEnd msg w

/-- `Learner::OnSendCheckpoint` and `Instance::OnReceiveCheckpointMsg`. -/
def onSendCheckpoint (msg : CheckpointMsg) (w : Proc) : Proc :=
  if !w.node.checkpointMgr.inAskforCheckpointMode then w
  else
    let (w, ret) := onSendCheckpointFlag msg w
    if w.node.stopped then w
    else if ret ≠ 0 then resetAskforLearnNoop { w with node.checkpointReceiver := {} }
    else resetAskforLearnNoop w

end PhxPaxos
