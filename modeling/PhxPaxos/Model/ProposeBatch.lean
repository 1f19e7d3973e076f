import PhxPaxos.Model.BaseMsg
import PhxPaxos.Model.Codec

/-!
# Batch proposals

`ProposeBatch` of one group: the callers of `Propose` with the variables they are answered in, the queue, the worker
thread (`Run`), `Stop`, and every `DoPropose` that was begun, by a caller or by the worker, down to its call of
`Committer::NewValueGetID`. The critical sections of the mutex are one event each; what lies between them are events of
their own, so that a list of events is an interleaving. An event that cannot happen changes nothing.

What the group learns for its instances, and when, is chosen by the environment.
-/

namespace PhxPaxos

/-! ## The queue -/

/-- A proposal in the queue; `smid` is 0 without a context. -/
structure PendingProposal where
  call : Nat
  value : Bytes
  smid : UInt32
  absEnqueueTime : Nat
deriving DecidableEq

structure ProposeBatch where
  isEnd : Bool := false
  isStarted : Bool := false
  nowQueueValueSize : Int := 0
  batchCount : Int := 5
  batchDelayTimeMs : Int := 20
  queue : List PendingProposal := []
deriving DecidableEq

/-- `m_iBatchMaxSize` -/
def batchMaxSize : Int := 500 * 1024

/-- Adding `n` to an `int`. -/
def addInt (a n : Int) : Int := (a + n).bmod (2 ^ 32)

/-- How long ago `since` was. -/
def passTime (now since : Nat) : Int := if now > since then toInt (now - since) else 0

/-- `ProposeBatch::NeedBatch` -/
def ProposeBatch.needBatch (b : ProposeBatch) (now : Nat) : Bool :=
  if toInt b.queue.length ≥ b.batchCount ∨ b.nowQueueValueSize ≥ batchMaxSize then true
  else
    match b.queue with
    | [] => false
    | p :: _ => decide (passTime now p.absEnqueueTime > b.batchDelayTimeMs)

/-- The loop of `ProposeBatch::PluckProposal` with its two counters, the byte counter and the queue: the proposals taken,
those left and the byte counter after it. -/
def pluckLoop (batchCount : Int) : Int → Int → Int → List PendingProposal → List PendingProposal × List PendingProposal × Int
  | _, _, size, [] => ([], [], size)
  | pluckCount, pluckSize, size, p :: queue =>
    let pluckCount := addInt pluckCount 1
    let pluckSize := addInt pluckSize p.value.length
    let size := addInt size (-p.value.length)
    if pluckCount ≥ batchCount ∨ pluckSize ≥ batchMaxSize then ([p], queue, size)
    else
      let (request, queue, size) := pluckLoop batchCount pluckCount pluckSize size queue
      (p :: request, queue, size)

/-- `ProposeBatch::PluckProposal` -/
def ProposeBatch.pluckProposal (b : ProposeBatch) : ProposeBatch × List PendingProposal :=
  let (request, queue, size) := pluckLoop b.batchCount 0 0 b.nowQueueValueSize b.queue
  ({ b with queue := queue, nowQueueValueSize := size }, request)

/-- The first part of the critical section of `ProposeBatch::AddProposal`. -/
def ProposeBatch.push (b : ProposeBatch) (p : PendingProposal) : ProposeBatch :=
  { b with queue := b.queue ++ [p], nowQueueValueSize := addInt b.nowQueueValueSize (toInt p.value.length) }

/-- The critical section of `ProposeBatch::AddProposal`, with the proposals that the caller takes out to propose them. -/
def ProposeBatch.addProposal (b : ProposeBatch) (p : PendingProposal) (now : Nat) : ProposeBatch × List PendingProposal :=
  let b := b.push p
  if b.needBatch now then b.pluckProposal else (b, [])

/-! ## Proposing a group -/

/-- What a caller is answered: `Paxos_SystemError`, or what a commit came to. -/
inductive ProposeRet
  | systemError
  | commit (ret : PaxosTryCommitRet)
deriving DecidableEq

/-- The thread that proposes: the worker, a caller, or another one that calls `Committer::NewValueGetID` itself. -/
inductive Proposing
  | worker
  | caller (call : Nat)
  | other
deriving DecidableEq

/-- A call of `DoPropose` with its call of `NewValueGetID` (none if the batch could not be serialized) and the number of
callers that it has notified. -/
structure DoPropose where
  thread : Proposing
  request : List PendingProposal
  call : Option Call
  notified : Nat := 0
deriving DecidableEq

/-- A call of `Committer::NewValueGetID` with the first of its tries to come. -/
def Call.new (value : Bytes) (smid : Nat) : Call :=
  { callID := 0, value := value, smid := smid, retryCount := 2, phase := .waitLock }

/-- The `BatchPaxosValues` of a group. -/
def batchValues (request : List PendingProposal) : List PaxosValue := request.map fun p => ⟨p.smid.toNat, p.value⟩

namespace DoPropose

/-- The call of `NewValueGetID` in `DoPropose`, or in `OnlyOnePropose` for a single proposal. -/
def newCall (request : List PendingProposal) : Option Call :=
  match request with
  | [p] => some (Call.new p.value p.smid.toNat)
  | request =>
    let buffer := serializeBatchPaxosValues (batchValues request)
    -- protobuf does not serialize more than an `int` can count
    if buffer.length < 2 ^ 31 then some (Call.new buffer batchProposeSMID) else none

/-- `ProposeBatch::DoPropose`, which has nothing to do without proposals. -/
def start (thread : Proposing) (request : List PendingProposal) : List DoPropose :=
  if request = [] then [] else [{ thread := thread, request := request, call := newCall request }]

/-- The result to notify, with the instance that a commit names. -/
def result (d : DoPropose) : Option (ProposeRet × Nat) :=
  match d.call with
  | none => some (.systemError, 0)
  | some c =>
    match c.phase with
    | .returned ret instanceID => some (.commit ret, instanceID)
    | _ => none

def finished (d : DoPropose) : Bool := d.result.isSome && d.notified == d.request.length

/-- `Committer::NewValueGetID` holds the lock. -/
def holdsLock (d : DoPropose) : Bool :=
  match d.call with
  | none => false
  | some c => c.phase == .getResult

end DoPropose

/-! ## Callers -/

inductive CallerPhase
  /-- The end check of `ProposeBatch::Propose` is passed. -/
  | checked
  /-- The proposal was added; the caller proposes a group, or waits in `WaitNotify`. -/
  | added
  | returned (ret : ProposeRet)
deriving DecidableEq

/-- A caller of `ProposeBatch::Propose`, with the variables that its references refer to; `batchIndexBefore` is what
`batchIndex` was when it called. -/
structure Caller where
  value : Bytes
  smid : UInt32
  instanceID : Nat
  batchIndex : UInt32
  batchIndexBefore : UInt32
  phase : CallerPhase
deriving DecidableEq

/-- What a caller's variables are set to before the notification: `OnlyOnePropose` hands on the reference to the instance id,
which only a commit that succeeds sets, and leaves the index alone. -/
def Caller.answer (c : Caller) (d : DoPropose) (ret : ProposeRet) (instanceID : Nat) : Caller :=
  match d.request with
  | [_] => if ret = .commit .ok then { c with instanceID := instanceID } else c
  | _ => { c with batchIndex := UInt32.ofNat d.notified, instanceID := if ret = .commit .ok then instanceID else 0 }

/-! ## The group -/

/-- Where the worker thread stands. -/
inductive Worker
  | created
  /-- At the head of the loop of `Run`. -/
  | top
  /-- In `DoPropose`, or about to lock the mutex after it. -/
  | relock
  /-- Out of the loop. -/
  | drain
  | ended
deriving DecidableEq

/-- The batches of a group over its commits and its log. `enqueued` are the calls that added a proposal and `drained` those
that the worker notified at its end; both are history. -/
structure BatchGroup where
  batch : ProposeBatch := {}
  worker : Worker := .created
  callers : Nat → Option Caller := fun _ => none
  doing : List DoPropose := []
  notes : List (Nat × ProposeRet) := []
  commitCtx : CommitCtx := {}
  instanceID : Nat := 0
  log : Nat → Option Bytes := fun _ => none
  enqueued : List Nat := []
  drained : List Nat := []

inductive BatchEvent
  /-- `ProposeBatch::Propose` is called and reads the end flag. -/
  | propose (call : Nat) (value : Bytes) (smid : UInt32) (instanceID : Nat) (batchIndex : UInt32)
  | getNotifierFail (call : Nat)
  | addProposal (call absEnqueueTime now : Nat)
  | waitNotify (call : Nat)
  /-- `Run` begins. -/
  | run
  /-- The critical section at the head of the loop. -/
  | loop
  /-- The critical section after `DoPropose`, with the wait in it. -/
  | relock
  /-- The last critical section, which notifies all waiting threads. -/
  | drain
  | stop
  | setBatchCount (batchCount : Int)
  | setBatchDelayTimeMs (batchDelayTimeMs : Int)
  /-- Another thread calls `Committer::NewValueGetID`. -/
  | newValueGetID (value : Bytes) (smid : Nat)
  | lock (i : Nat) (timeoutMs : Int)
  | lockFail (i : Nat) (tooManyThreadWaiting : Bool)
  | getResult (i : Nat)
  | sendNotify (i : Nat)
  /-- `CheckNewValue`, which refuses the value or starts the commit. -/
  | checkNewValue (refused : Option PaxosTryCommitRet)
  | commitTimeout
  /-- The current instance has learned `value`, and executing it succeeds or not. -/
  | learned (value : Bytes) (executed : Bool)
  /-- The cleaner deletes the record of an instance. -/
  | delete (instanceID : Nat)
deriving DecidableEq

namespace BatchGroup

def setCaller (s : BatchGroup) (call : Nat) (c : Caller) : BatchGroup :=
  { s with callers := Function.update s.callers call (some c) }

def setDoing (s : BatchGroup) (i : Nat) (d : DoPropose) : BatchGroup := { s with doing := s.doing.set i d }

/-- No `DoPropose` of the thread is going on. -/
def idle (s : BatchGroup) (thread : Proposing) : Bool := s.doing.all fun d => d.thread != thread || d.finished

/-- The end check of `ProposeBatch::Propose`, outside the mutex. -/
def propose (call : Nat) (value : Bytes) (smid : UInt32) (instanceID : Nat) (batchIndex : UInt32) (s : BatchGroup) :
    BatchGroup :=
  if (s.callers call).isSome then s
  else
    let phase := if s.batch.isEnd then .returned .systemError else .checked
    s.setCaller call ⟨value, smid, instanceID, batchIndex, batchIndex, phase⟩

/-- `NotifierPool::GetNotifier` fails. -/
def getNotifierFail (call : Nat) (s : BatchGroup) : BatchGroup :=
  match s.callers call with
  | none => s
  | some c => if c.phase = .checked then s.setCaller call { c with phase := .returned .systemError } else s

/-- `ProposeBatch::AddProposal` up to the end of its critical section. -/
def addProposal (call absEnqueueTime now : Nat) (s : BatchGroup) : BatchGroup :=
  match s.callers call with
  | none => s
  | some c =>
    if c.phase = .checked then
      let (batch, request) := s.batch.addProposal ⟨call, c.value, c.smid, absEnqueueTime⟩ now
      { s.setCaller call { c with phase := .added } with
        batch := batch
        doing := s.doing ++ DoPropose.start (.caller call) request
        enqueued := call :: s.enqueued }
    else s

/-- `Notifier::WaitNotify` returns. -/
def waitNotify (call : Nat) (s : BatchGroup) : BatchGroup :=
  match s.callers call, s.notes.lookup call with
  | some c, some ret =>
    if c.phase = .added ∧ s.idle (.caller call) then s.setCaller call { c with phase := .returned ret } else s
  | _, _ => s

/-- The head of the loop of `ProposeBatch::Run`. -/
def loop (s : BatchGroup) : BatchGroup :=
  if s.worker ≠ .top then s
  else if s.batch.isEnd then { s with worker := .drain }
  else
    let (batch, request) := s.batch.pluckProposal
    { s with batch := batch, doing := s.doing ++ DoPropose.start .worker request, worker := .relock }

/-- The end of `ProposeBatch::Run`, which leaves the byte counter as it is. -/
def drain (s : BatchGroup) : BatchGroup :=
  if s.worker ≠ .drain then s
  else
    { s with
      notes := s.notes ++ s.batch.queue.map fun p => (p.call, .systemError)
      drained := s.drained ++ s.batch.queue.map PendingProposal.call
      batch.queue := []
      worker := .ended }

/-- `WaitLock::Lock` gives the lock to the call, which starts its commit. -/
def lock (i : Nat) (timeoutMs : Int) (s : BatchGroup) : BatchGroup :=
  match s.doing[i]? with
  | none => s
  | some d =>
    match d.call with
    | none => s
    | some c =>
      if c.phase = .waitLock ∧ s.doing.all (fun d => !d.holdsLock) then
        { s.setDoing i { d with call := some { c with phase := .getResult } } with
          commitCtx := CommitCtx.newCommit (packPaxosValue c.value c.smid) timeoutMs }
      else s

/-- `WaitLock::Lock` refuses, or gives the lock too late. -/
def lockFail (i : Nat) (tooManyThreadWaiting : Bool) (s : BatchGroup) : BatchGroup :=
  match s.doing[i]? with
  | none => s
  | some d =>
    match d.call with
    | none => s
    | some c =>
      if c.phase = .waitLock then
        let ret := if tooManyThreadWaiting then .tooManyThreadWaitingReject else .timeout
        s.setDoing i { d with call := some (c.afterTry ret 0) }
      else s

/-- `CommitCtx::GetResult` returns; it names an instance only with `ok`. -/
def getResult (i : Nat) (s : BatchGroup) : BatchGroup :=
  match s.doing[i]? with
  | none => s
  | some d =>
    match d.call with
    | none => s
    | some c =>
      if c.phase = .getResult ∧ s.commitCtx.isCommitEnd then
        s.setDoing i { d with call := some (c.afterTry s.commitCtx.commitRet (s.commitCtx.instanceID.getD 0)) }
      else s

/-- The next caller of a group has its variables set and is notified. -/
def sendNotify (i : Nat) (s : BatchGroup) : BatchGroup :=
  match s.doing[i]? with
  | none => s
  | some d =>
    match d.result, d.request[d.notified]? with
    | some (ret, instanceID), some p =>
      let s := s.setDoing i { d with notified := d.notified + 1 }
      { s with
        callers := Function.update s.callers p.call ((s.callers p.call).map fun c => c.answer d ret instanceID)
        notes := s.notes ++ [(p.call, ret)] }
    | _, _ => s

/-- `Instance::CheckNewValue` -/
def checkNewValue (refused : Option PaxosTryCommitRet) (s : BatchGroup) : BatchGroup :=
  if !s.commitCtx.isNewCommit then s
  else
    match refused with
    | none => { s with commitCtx := s.commitCtx.startCommit s.instanceID }
    | some ret =>
      if ret = .followerCannotCommit ∨ ret = .imNotInMembership ∨ ret = .valueSizeTooLarge then
        { s with commitCtx := s.commitCtx.setResultOnlyRet ret }
      else s

/-- The end of `Instance::ReceiveMsgForLearner` for a learned value. -/
def learned (value : Bytes) (executed : Bool) (s : BatchGroup) : BatchGroup :=
  if executed then
    { s with
      commitCtx := s.commitCtx.setResult .ok (some s.instanceID) value
      log := Function.update s.log s.instanceID (some value)
      instanceID := s.instanceID + 1 }
  else { s with commitCtx := s.commitCtx.setResult .executeFail (some s.instanceID) value }

def step (s : BatchGroup) : BatchEvent → BatchGroup
  | .propose call value smid instanceID batchIndex => s.propose call value smid instanceID batchIndex
  | .getNotifierFail call => s.getNotifierFail call
  | .addProposal call absEnqueueTime now => s.addProposal call absEnqueueTime now
  | .waitNotify call => s.waitNotify call
  | .run => if s.worker = .created then { s with batch.isStarted := true, worker := .top } else s
  | .loop => s.loop
  | .relock => if s.worker = .relock ∧ s.idle .worker then { s with worker := .top } else s
  | .drain => s.drain
  | .stop => if s.batch.isStarted then { s with batch.isEnd := true } else s
  | .setBatchCount batchCount => { s with batch.batchCount := batchCount }
  | .setBatchDelayTimeMs batchDelayTimeMs => { s with batch.batchDelayTimeMs := batchDelayTimeMs }
  | .newValueGetID value smid => { s with doing := s.doing ++ [⟨.other, [], some (Call.new value smid), 0⟩] }
  | .lock i timeoutMs => s.lock i timeoutMs
  | .lockFail i tooManyThreadWaiting => s.lockFail i tooManyThreadWaiting
  | .getResult i => s.getResult i
  | .sendNotify i => s.sendNotify i
  | .checkNewValue refused => s.checkNewValue refused
  | .commitTimeout => { s with commitCtx := s.commitCtx.setResult .timeout (some s.instanceID) [] }
  | .learned value executed => s.learned value executed
  | .delete instanceID => { s with log := Function.update s.log instanceID none }

/-- `Instance::GetInstanceValue` and `PNode::GetInstanceValue`: the values of an instance, in their order. -/
def getInstanceValue (s : BatchGroup) (instanceID : Nat) : Option (List PaxosValue) :=
  if instanceID ≥ s.instanceID then none
  else
    match s.log instanceID with
    | none => none
    | some value =>
      if value.length < 4 then none
      else if valueSMID value = batchProposeSMID then parseBatchPaxosValues (value.drop 4)
      else some [⟨valueSMID value, value.drop 4⟩]

end BatchGroup

/-- The interleavings, on top of any log, whose events all meet a condition on the state before them. -/
inductive BatchRun (meets : BatchGroup → BatchEvent → Prop) : BatchGroup → Prop
  | init (instanceID : Nat) (log : Nat → Option Bytes) : BatchRun meets { instanceID := instanceID, log := log }
  | step {s : BatchGroup} (e : BatchEvent) : BatchRun meets s → meets s e → BatchRun meets (s.step e)

end PhxPaxos
