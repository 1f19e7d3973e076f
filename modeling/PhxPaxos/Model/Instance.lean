import PhxPaxos.Model.Proposer

/-!
# The instance

Executing a learned value and going on to the next instance, the dispatch of a received message with its checks, new
values and commit timeouts, and `Instance::Init`, which rebuilds the node from its log.

`onReceivePaxosMsg` is recursive through the messages a node sends to itself: a Prepare leads to its own PrepareReply,
that to an Accept, its AcceptReply and a success message. Its first argument bounds the depth.
-/

namespace PhxPaxos

variable (P : Params)

/-! ## Values and state machines -/

/-- The first four bytes of a value, least significant first. -/
def valueSMID : Bytes → Nat
  | a :: b :: c :: d :: _ => a.toNat + 256 * b.toNat + 65536 * c.toNat + 16777216 * d.toNat
  | _ => 0

/-- `SMFac::PackPaxosValue` -/
def packPaxosValue (value : Bytes) (smid : Nat) : Bytes :=
  [UInt8.ofNat smid, UInt8.ofNat (smid / 256), UInt8.ofNat (smid / 65536), UInt8.ofNat (smid / 16777216)] ++ value

/-- `SystemVSM::Execute` -/
def SystemVSM.execute (instanceID : Nat) (value : Bytes) (w : Proc) : Proc × Bool :=
  match P.parseSystemVariables value with
  | none => (w, false)
  | some v =>
    let now := w.node.config.systemVSM.systemVariables
    if now.gid ≠ 0 ∧ v.gid ≠ now.gid then (w, true)
    else if v.version ≠ now.version then (w, true)
    else
      let (w, ret) := updateSystemVariables { v with version := instanceID } w
      (w, ret == 0)

/-- `StateMachine::Execute` of the system variables, or of a state machine of the user, which answers as it likes. -/
def callExecute (instanceID : Nat) (bodyValue : Bytes) (smid : Nat) (w : Proc) : Proc × Bool :=
  if smid = systemVSMID then SystemVSM.execute P instanceID bodyValue w
  else if smid ∈ P.smids then ({ w with env.executes := w.env.executes.tail }, w.nextExecute)
  else (w, false)

/-- `SMFac::DoExecute` -/
def doExecute (instanceID index : Nat) (bodyValue : Bytes) (smid : Nat) (w : Proc) : Proc × Bool :=
  if smid = 0 then (w, true)
  else
    let (w, ok) := callExecute P instanceID bodyValue smid w
    ({ w with smCalls := w.smCalls ++ [⟨index, smid, bodyValue, ok⟩] }, ok)

/-- The loop of `SMFac::BatchExecute`, from the sub-value `index` on. -/
def batchExecute (instanceID : Nat) : Nat → List PaxosValue → Proc → Proc × Bool
  | _, [], w => (w, true)
  | index, v :: vs, w =>
    let (w, ok) := doExecute P instanceID index v.value v.smid w
    if ok then batchExecute instanceID (index + 1) vs w else (w, false)

/-- `SMFac::Execute` -/
def smExecute (instanceID : Nat) (value : Bytes) (w : Proc) : Proc × Bool :=
  if value.length < 4 then (w, true)
  else if valueSMID value = 0 then (w, true)
  else if valueSMID value = batchProposeSMID then
    match P.parseBatchPaxosValues (value.drop 4) with
    | none => (w, false)
    | some vs => batchExecute P instanceID 0 vs w
  else doExecute P instanceID 0 (value.drop 4) (valueSMID value) w

/-- `SMFac::BeforeProposeCall`; the last result says that the value was changed. -/
def beforeProposeCall (smid : Nat) (bodyValue : Bytes) (w : Proc) : Proc × Bytes × Bool :=
  if smid = 0 then (w, bodyValue, false)
  else if smid ∈ P.beforeProposeSmids then
    ({ w with env.beforeProposes := w.env.beforeProposes.tail }, w.env.beforeProposes.headD bodyValue, true)
  else (w, bodyValue, false)

/-- The loop of `SMFac::BeforeBatchPropose`, which calls each state machine once. -/
def beforeBatchPropose : List Nat → List PaxosValue → Proc → Proc × List PaxosValue × Bool
  | _, [], w => (w, [], false)
  | called, v :: vs, w =>
    if v.smid ∈ called then
      let (w, vs, change) := beforeBatchPropose called vs w
      (w, v :: vs, change)
    else
      let (w, value, change) := beforeProposeCall P v.smid v.value w
      let (w, vs, change') := beforeBatchPropose (v.smid :: called) vs w
      (w, { v with value := value } :: vs, change || change')

/-- `SMFac::BeforePropose`: the state machine id in front of the value stays. -/
def beforePropose (value : Bytes) (w : Proc) : Proc × Bytes :=
  if valueSMID value = 0 then (w, value)
  else if valueSMID value = batchProposeSMID then
    match P.parseBatchPaxosValues (value.drop 4) with
    | none => (w, value)
    | some vs =>
      let (w, vs, change) := beforeBatchPropose P [] vs w
      (w, if change then value.take 4 ++ P.serializeBatchPaxosValues vs else value)
  else
    let (w, body, change) := beforeProposeCall P (valueSMID value) (value.drop 4) w
    (w, if change then value.take 4 ++ body else value)

/-! ## The end of an instance -/

/-- `Instance::NewInstance` -/
def newInstance (w : Proc) : Proc :=
  let w := w.log (.newInstance w.me w.node.instanceID w.node.learner.state.learnedValue)
  Proposer.initForNewPaxosInstance { w with
    node.instanceID := w.node.instanceID + 1
    node.acceptor := w.node.acceptor.init
    node.learner.state := {} }

/-- The end of `Instance::ReceiveMsgForLearner`: a learned value is executed and the next instance starts. -/
def instanceLearned (w : Proc) : Proc × Int :=
  if !w.node.learner.state.isLearned then (w, 0)
  else
    let instanceID := w.node.instanceID
    let value := w.node.learner.state.learnedValue
    let (w, ok) := smExecute P instanceID value { w with smCalls := [] }
    let w := w.log (.execute w.me instanceID value ok w.smCalls)
    if !ok then
      let w := { w with node.commitCtx := w.node.commitCtx.setResult .executeFail (some instanceID) value }
      (cancelSkipPrepare w, -1)
    else
      let w := { w with node.commitCtx := w.node.commitCtx.setResult .ok (some instanceID) value }
      let w :=
        if w.node.commitTimerID > 0 then
          { w with node.ioLoop := w.node.ioLoop.removeTimer w.node.commitTimerID, node.commitTimerID := 0 }
        else w
      let w := newInstance { w with node.lastChecksum := w.node.learner.state.newChecksum }
      ({ w with node.checkpointMgr.maxChosenInstanceID := w.node.instanceID }, 0)

/-! ## Receiving a message -/

/-- `Instance::ReceiveMsgForLearner` -/
def receiveMsgForLearner (self : Self) (msg : PaxosMsg) (w : Proc) : Proc × Int :=
  instanceLearned P <|
    match msg.msgType with
    | .learnerAskforLearn => onAskforLearn P self msg w
    | .learnerSendLearnValue => onSendLearnValue P self msg w
    | .learnerProposerSendSuccess => onProposerSendSuccess msg w
    | .learnerSendNowInstanceID => onSendNowInstanceID P self msg w
    | .learnerComfirmAskforLearn => onComfirmAskForLearn msg w
    | .learnerSendLearnValueAck => onSendLearnValueAck msg w
    | _ => w

/-- `Instance::ReceiveMsgForProposer` -/
def receiveMsgForProposer (self : Self) (msg : PaxosMsg) (w : Proc) : Proc :=
  if w.node.config.isIMFollower then w
  else if msg.instanceID ≠ w.node.instanceID then
    if msg.instanceID + 1 = w.node.instanceID ∧
        (msg.msgType = .paxosPrepareReply ∨ msg.msgType = .paxosAcceptReply) then onExpiredReply msg w
    else w
  else
    match msg.msgType with
    | .paxosPrepareReply => onPrepareReply self msg w
    | .paxosAcceptReply => onAcceptReply self msg w
    | _ => w

/-- The end of `Instance::ReceiveMsgForAcceptor`: the acceptor, or the retry queue. -/
def acceptorOrRetry (self : Self) (msg : PaxosMsg) (isRetry : Bool) (w : Proc) : Proc × Int :=
  if msg.instanceID = w.node.instanceID then
    match msg.msgType with
    | .paxosPrepare => onPrepare P self msg w
    | .paxosAccept => (onAccept P self msg w, 0)
    | _ => (w, 0)
  else if !isRetry ∧ msg.instanceID > w.node.instanceID
      ∧ msg.instanceID ≥ w.node.learner.highestSeenInstanceID then
    if msg.instanceID < w.node.instanceID + retryQueueMaxLen then
      ({ w with node.ioLoop := w.node.ioLoop.addRetryPaxosMsg msg }, 0)
    else ({ w with node.ioLoop := w.node.ioLoop.clearRetryQueue }, 0)
  else (w, 0)

/-- `Instance::ReceiveMsgForAcceptor` -/
def receiveMsgForAcceptor (self : Self) (msg : PaxosMsg) (isRetry : Bool) (w : Proc) : Proc × Int :=
  if w.node.config.isIMFollower then (w, 0)
  else
    -- a message of the next instance stands for the success message of this one
    let w :=
      if msg.instanceID = w.node.instanceID + 1 then
        let w := w.log (.nextInstanceMsg w.me w.node.instanceID msg.ballot w.node.acceptor.acceptedBallot)
        (receiveMsgForLearner P self
          { msg with instanceID := w.node.instanceID, msgType := .learnerProposerSendSuccess } w).1
      else w
    acceptorOrRetry P self msg isRetry w

/-- `Instance::ChecksumLogic`; a failed assertion stops the process. -/
def checksumLogic (msg : PaxosMsg) (w : Proc) : Proc × Bool :=
  if msg.lastChecksum = 0 then (w, true)
  else if msg.instanceID ≠ w.node.instanceID then (w, true)
  else if w.node.instanceID > 0 ∧ w.node.lastChecksum = 0 then
    ({ w with node.lastChecksum := msg.lastChecksum }, true)
  else if msg.lastChecksum ≠ w.node.lastChecksum then
    ({ w with node.stopped := true }.log (.checksumLogicFail w.me w.node.instanceID), false)
  else (w, true)

/-- `Instance::OnReceivePaxosMsg` for the messages of proposers. -/
def onReceiveProposersMsg (self : Self) (msg : PaxosMsg) (isRetry : Bool) (w : Proc) : Proc × Int :=
  let w := if w.node.config.getGid = 0 then { w with node.config := w.node.config.addTmpNodeOnlyForLearn msg.nodeID }
    else w
  if !w.node.config.isValidNodeID msg.nodeID then
    ({ w with node.config := w.node.config.addTmpNodeOnlyForLearn msg.nodeID }, 0)
  else
    let (w, ok) := checksumLogic msg w
    if ok then receiveMsgForAcceptor P self msg isRetry w else (w, 0)

/-- `Instance::OnReceivePaxosMsg` for the messages of learners. -/
def onReceiveLearnersMsg (self : Self) (msg : PaxosMsg) (w : Proc) : Proc × Int :=
  let (w, ok) := checksumLogic msg w
  if ok then receiveMsgForLearner P self msg w else (w, 0)

/-- The body of `Instance::OnReceivePaxosMsg`. -/
def onReceivePaxosMsgBody (self : Self) (msg : PaxosMsg) (isRetry : Bool) (w : Proc) : Proc × Int :=
  match msg.msgType with
  | .paxosPrepareReply | .paxosAcceptReply | .proposalSendNewValue =>
    if !w.node.config.isValidNodeID msg.nodeID then (w, 0) else (receiveMsgForProposer self msg w, 0)
  | .paxosPrepare | .paxosAccept => onReceiveProposersMsg P self msg isRetry w
  | .learnerOnAskforCheckpoint => (w, 0)
  | _ => onReceiveLearnersMsg P self msg w

/-- `Instance::OnReceivePaxosMsg`, with `depth` levels of messages to itself. -/
def onReceivePaxosMsg : Nat → PaxosMsg → Bool → Proc → Proc × Int
  | 0, _, _, w => (w, 0)
  | depth + 1, msg, isRetry, w =>
    onReceivePaxosMsgBody P (fun msg w => onReceivePaxosMsg depth msg false w) msg isRetry w

/-- The levels that the handling of messages to itself can use. -/
def selfDepth : Nat := 5

/-- What the node does with a message it sends to itself. -/
def toSelf : Self := fun msg w => onReceivePaxosMsg P selfDepth msg false w

/-- `Instance::OnReceive` for a Paxos message of a sender with the given gid. -/
def onReceive (gid : Nat) (msg : PaxosMsg) (w : Proc) : Proc :=
  if w.node.checkpointMgr.inAskforCheckpointMode then w
  else if w.node.config.getGid ≠ 0 ∧ gid ≠ 0 ∧ w.node.config.getGid ≠ gid then w
  else (onReceivePaxosMsgBody P (toSelf P) msg false w).1

/-! ## Timeouts, the retry queue and new values -/

/-- One turn of the loop of `IOLoop::DealWithRetry`. -/
def dealWithRetry (w : Proc) : Proc :=
  match w.node.ioLoop.retryQueue with
  | [] => { w with node.ioLoop.haveRetryOne := false }
  | msg :: _ =>
    let pop (w : Proc) : Proc := { w with node.ioLoop.retryQueue := w.node.ioLoop.retryQueue.tail }
    if msg.instanceID > w.node.instanceID + 1 then { w with node.ioLoop.haveRetryOne := false }
    else if msg.instanceID = w.node.instanceID + 1 then
      if w.node.ioLoop.haveRetryOne then pop (onReceivePaxosMsgBody P (toSelf P) msg true w).1
      else { w with node.ioLoop.haveRetryOne := false }
    else if msg.instanceID = w.node.instanceID then
      let w := pop (onReceivePaxosMsgBody P (toSelf P) msg false w).1
      { w with node.ioLoop.haveRetryOne := true }
    else pop w

/-- `Instance::OnNewValueCommitTimeout` -/
def onNewValueCommitTimeout (w : Proc) : Proc :=
  let w := exitAccept (exitPrepare w)
  { w with node.commitCtx := w.node.commitCtx.setResult .timeout (some w.node.instanceID) [] }

/-- `IOLoop::DealwithTimeoutOne` and `Instance::OnTimeout`. -/
def onTimeout (timerID : Nat) (w : Proc) : Proc :=
  match w.node.ioLoop.timers.lookup timerID with
  | none => w
  | some type =>
    let w := { w with node.ioLoop := w.node.ioLoop.removeTimer timerID }
    match type with
    | .proposerPrepareTimeout | .proposerAcceptTimeout => onProposerTimeout (toSelf P) w
    | .learnerAskforlearnNoop => askforLearnNoop (toSelf P) w
    | .instanceCommitTimeout => onNewValueCommitTimeout w

/-- The value that `Instance::CheckNewValue` proposes while the system variables have to be set up. -/
def initSystemVariablesValue (w : Proc) : Bytes :=
  packPaxosValue
    (P.serializeSystemVariables { w.node.config.systemVSM.systemVariables with gid := w.env.gid }) systemVSMID

/-- `Instance::CheckNewValue` -/
def checkNewValue (w : Proc) : Proc :=
  match w.node.commitCtx.value with
  | none => w
  | some value =>
    if !w.node.commitCtx.isNewCommit then w
    else if !Learner.isIMLatest w.node then w
    else if w.node.config.isIMFollower then
      { w with node.commitCtx := w.node.commitCtx.setResultOnlyRet .followerCannotCommit }
    else if !w.node.config.checkConfig then
      { w with node.commitCtx := w.node.commitCtx.setResultOnlyRet .imNotInMembership }
    else if value.length > P.maxValueSize then
      { w with node.commitCtx := w.node.commitCtx.setResultOnlyRet .valueSizeTooLarge }
    else
      let w := { w with node.commitCtx := w.node.commitCtx.startCommit w.node.instanceID }
      let w :=
        if w.node.commitCtx.timeoutMs ≠ -1 then
          { w with node.ioLoop := w.node.ioLoop.addTimer .instanceCommitTimeout,
                   node.commitTimerID := w.node.ioLoop.nowTimerID }
        else w
      if w.node.config.isUseMembership ∧ (w.node.instanceID = 0 ∨ w.node.config.getGid = 0) then
        let value := initSystemVariablesValue P w
        newValue (toSelf P) value (w.log (.initSystemVariables w.me w.node.instanceID value))
      else if P.openChangeValueBeforePropose then
        let (w, value) := beforePropose P value w
        newValue (toSelf P) value { w with node.commitCtx.value := some value }
      else newValue (toSelf P) value w

/-! ## Starting -/

/-- `Acceptor::Init` with `AcceptorState::Load`; the instance id is that of the largest record. -/
def Acceptor.init (storage : LogStorage) : Nat × AcceptorState :=
  match storage.getMaxInstanceID with
  | none => (0, {})
  | some instanceID =>
    match storage.get instanceID with
    | none => (instanceID, {})
    | some r => (instanceID, { promiseBallot := r.promiseBallot, acceptedBallot := r.acceptedBallot,
                               acceptedValue := r.acceptedValue, checksum := r.checksum })

/-- The probing loop of `Cleaner::FixMinChosenInstanceID`, from `instanceID` on. -/
def fixMinChosenInstanceID (storage : LogStorage) (cpInstanceID : Nat) : Nat → Nat → Nat
  | 0, instanceID => instanceID
  | k + 1, instanceID =>
    if instanceID ≥ cpInstanceID then instanceID
    else match storage.get instanceID with
      | none => fixMinChosenInstanceID storage cpInstanceID k (instanceID + 1)
      | some _ => instanceID

/-- `DELETE_SAVE_INTERVAL` -/
def deleteSaveInterval : Nat := 100

/-- `CheckpointMgr::SetMinChosenInstanceID` -/
def setMinChosenInstanceID (minChosenInstanceID : Nat) (w : Proc) : Proc × Int :=
  let w' := { w with env.puts := w.env.puts.tail }
  if w.nextPut then
    ({ w' with node.storage.minChosenInstanceID := some minChosenInstanceID,
               node.checkpointMgr.minChosenInstanceID := minChosenInstanceID }, 0)
  else (w', -1)

/-- `CheckpointMgr::Init` -/
def CheckpointMgr.init (cpInstanceID : Nat) (w : Proc) : Proc × Int :=
  let old := w.node.storage.minChosenInstanceID.getD 0
  let w := { w with node.checkpointMgr.minChosenInstanceID := old }
  let fixed := fixMinChosenInstanceID w.node.storage cpInstanceID deleteSaveInterval old
  if fixed > old then setMinChosenInstanceID fixed w else (w, 0)

/-- The loop of `Instance::PlayLog` over `k` instances. -/
def playLog : Nat → Nat → Proc → Proc × Int
  | 0, _, w => (w, 0)
  | k + 1, instanceID, w =>
    match w.readState instanceID with
    | none => (w, 1)
    | some r =>
      let (w, ok) := smExecute P instanceID r.acceptedValue { w with smCalls := [] }
      let w := { w with played := w.played ++ [⟨instanceID, ok, w.smCalls⟩] }
      if ok then playLog k (instanceID + 1) w else (w, -1)

/-- `Instance::ProtectionLogic_IsCheckpointInstanceIDCorrect` -/
def protectionLogic (cpInstanceID logMaxInstanceID : Nat) (w : Proc) : Proc × Int :=
  if cpInstanceID ≤ logMaxInstanceID + 1 then (w, 0)
  else if logMaxInstanceID = 0 then
    if w.node.checkpointMgr.minChosenInstanceID ≠ cpInstanceID then
      let (w, ret) := setMinChosenInstanceID cpInstanceID w
      (w, if ret ≠ 0 then -1 else 0)
    else (w, 0)
  else (w, -2)

/-- `Instance::InitLastCheckSum` -/
def initLastCheckSum (w : Proc) : Proc :=
  if w.node.instanceID = 0 then { w with node.lastChecksum := 0 }
  else if w.node.instanceID ≤ w.node.checkpointMgr.minChosenInstanceID then { w with node.lastChecksum := 0 }
  else match w.readState (w.node.instanceID - 1) with
    | none => { w with node.lastChecksum := 0 }
    | some r => { w with node.lastChecksum := r.checksum }

/-- The middle part of `Instance::Init`: replay the log or jump to the checkpoint. -/
def initNowInstanceID (cpInstanceID : Nat) (w : Proc) : Proc × Int :=
  if cpInstanceID < w.node.instanceID then
    if cpInstanceID < w.node.checkpointMgr.minChosenInstanceID then (w, -2)
    else playLog P (w.node.instanceID - cpInstanceID) cpInstanceID w
  else if cpInstanceID > w.node.instanceID then
    let (w, ret) := protectionLogic cpInstanceID w.node.instanceID w
    if ret ≠ 0 then (w, ret)
    else ({ w with node.acceptor := w.node.acceptor.init, node.instanceID := cpInstanceID }, 0)
  else (w, 0)

/-- `Instance::Init` on a new process whose state machines report the checkpoint `cpInstanceID - 1` (`0` for none). -/
def instanceInit (cpInstanceID : Nat) (w : Proc) : Proc × Int :=
  let (instanceID, acceptor) := Acceptor.init w.node.storage
  let w := { w with node.instanceID := instanceID, node.acceptor := acceptor }
  let (w, ret) := CheckpointMgr.init cpInstanceID w
  if ret ≠ 0 then (w, ret)
  else
    let (w, ret) := initNowInstanceID P cpInstanceID w
    if ret ≠ 0 then (w, ret)
    else
      let w := { w with
        node.proposer.state.proposalID := w.node.acceptor.promiseBallot.proposalID + 1
        node.checkpointMgr.maxChosenInstanceID := w.node.instanceID }
      (resetAskforLearnNoop (initLastCheckSum w), 0)

/-- The node object before `Instance::Init`: what is kept on disk, and the configuration read back from it. -/
def Node.new (config : Config) (storage : LogStorage) : Node :=
  { config := { config with
      systemVSM := SystemVSM.init storage.systemVariables config.nodeInfoList
      tmpNodeOnlyForLearn := ∅
      myFollower := ∅ }
    storage := storage }

/-- The process is killed and started again. When `Init` fails there is no process: the node takes no step until the
next start, and of what it was only the storage matters. -/
def restart (cpInstanceID : Nat) (w : Proc) : Proc :=
  let (new, ret) := instanceInit P cpInstanceID
    { w.log (.restart w.me w.node.instanceID cpInstanceID) with
      node := Node.new w.node.config w.node.storage, played := [] }
  if ret ≠ 0 then
    { w with
      node.storage := new.node.storage, node.stopped := true, hist := .playLog w.me new.played false :: new.hist }
  else new.log (.playLog w.me new.played true)

end PhxPaxos
