import PhxPaxos.Model.Cleaner

/-!
# The replayer

`Replayer::run` makes checkpoints in the background. It calls `ExecuteForCheckpoint` for the values in the log, one instance
after the other, from the checkpoint that the state machines report when the thread starts, and stays below the max-chosen
instance id. It can be paused, and a `CheckpointSender` pauses it before it locks and sends the checkpoint.

The two flags of `Pause`, `Continue` and `IsPaused` are plain variables: each read and each write of one is a step.
-/

namespace PhxPaxos

variable (P : Params)

/-! ## Executing for a checkpoint -/

/-- What `SMFac::ExecuteForCheckpoint` has called, and the answers of the state machines that are still to come. -/
structure CheckpointCalls where
  calls : List SMCall := []
  answers : List Bool

/-- `StateMachine::ExecuteForCheckpoint`: that of the system variables does nothing. -/
def callExecuteForCheckpoint (smid : Nat) (r : CheckpointCalls) : CheckpointCalls × Bool :=
  if smid = systemVSMID then (r, true)
  else if smid ∈ P.smids then ({ r with answers := r.answers.tail }, r.answers.headD true)
  else (r, false)

/-- `SMFac::DoExecuteForCheckpoint` -/
def doExecuteForCheckpoint (index : Nat) (bodyValue : Bytes) (smid : Nat) (r : CheckpointCalls) : CheckpointCalls × Bool :=
  if smid = 0 then (r, true)
  else
    let (r, ok) := callExecuteForCheckpoint P smid r
    ({ r with calls := r.calls ++ [⟨index, smid, bodyValue, ok⟩] }, ok)

/-- The loop of `SMFac::BatchExecuteForCheckpoint`, from the sub-value `index` on. -/
def batchExecuteForCheckpoint : Nat → List PaxosValue → CheckpointCalls → CheckpointCalls × Bool
  | _, [], r => (r, true)
  | index, v :: vs, r =>
    let (r, ok) := doExecuteForCheckpoint P index v.value v.smid r
    if ok then batchExecuteForCheckpoint (index + 1) vs r else (r, false)

/-- `SMFac::ExecuteForCheckpoint` -/
def executeForCheckpoint (value : Bytes) (r : CheckpointCalls) : CheckpointCalls × Bool :=
  if value.length < 4 then (r, true)
  else if valueSMID value = 0 then (r, true)
  else if valueSMID value = batchProposeSMID then
    match P.parseBatchPaxosValues (value.drop 4) with
    | none => (r, false)
    | some vs => batchExecuteForCheckpoint P 0 vs r
  else doExecuteForCheckpoint P 0 (value.drop 4) (valueSMID value) r

/-! ## The thread -/

/-- Where the thread of the replayer is. -/
inductive ReplayerPC
  /-- Before it reads the checkpoint. -/
  | start
  /-- At the head of the loop. -/
  | loop
  /-- It may not run. -/
  | pausing
  /-- It may run. -/
  | compare
  /-- In `PlayOne`, before it reads the record. -/
  | playOne
  /-- In `PlayOne`, with the value to execute. -/
  | execute (value : Bytes)
deriving DecidableEq

/-- `ExecuteForCheckpoint` returned for the value of an instance. -/
structure CheckpointExecution extends Execution where
  value : Bytes
deriving DecidableEq

/-- The members of `Replayer`, and the instance of its loop. `played` is history, the first execution first. -/
structure Replayer where
  canrun : Bool := false
  isPaused : Bool := true
  pc : ReplayerPC := .start
  instanceID : Nat := 0
  played : List CheckpointExecution := []

/-- What the thread reads: the first instance after the checkpoint, the max-chosen instance id, and the log. -/
structure ReplayView where
  start : Nat
  maxChosenInstanceID : Nat
  readState : Nat → Option AcceptorStateData

/-- The next step of `Replayer::run`; `answers` are what the state machines return. -/
def Replayer.step (v : ReplayView) (answers : List Bool) (r : Replayer) : Replayer :=
  match r.pc with
  | .start => { r with pc := .loop, instanceID := v.start }
  | .loop => { r with pc := if r.canrun then .compare else .pausing }
  | .pausing => { r with pc := .loop, isPaused := true }
  | .compare => { r with pc := if r.instanceID ≥ v.maxChosenInstanceID then .loop else .playOne }
  | .playOne =>
    match v.readState r.instanceID with
    | none => { r with pc := .loop }
    | some s => { r with pc := .execute s.acceptedValue }
  | .execute value =>
    let (c, ok) := executeForCheckpoint P value { answers := answers }
    { r with
      pc := .loop
      instanceID := if ok then r.instanceID + 1 else r.instanceID
      played := r.played ++ [⟨⟨r.instanceID, ok, c.calls⟩, value⟩] }

/-! ## The sender of checkpoints -/

/-- Where the thread of a `CheckpointSender` is. -/
inductive SenderPC
  /-- Before it reads `IsPaused`. -/
  | isPaused
  /-- Before it calls `Pause`. -/
  | pause
  /-- The state machines are locked, and their files are sent. -/
  | sending
  /-- In `Continue`, before the first write. -/
  | continuePaused
  /-- In `Continue`, before the second write. -/
  | continueCanrun
  | ended
deriving DecidableEq

/-- A node with its state machines, its cleaner, its replayer and a checkpoint sender. `continuing` counts the calls of
`Continue` of the user that have made the first of its writes. -/
structure ReplayHost where
  host : Host
  replayer : Replayer := {}
  sender : SenderPC := .ended
  needContinue : Bool := false
  continuing : Nat := 0

inductive ReplayEvent
  | host (e : HostEvent)
  /-- The next step of the replayer. -/
  | replay (answers : List Bool)
  /-- `Replayer::Pause` is called. -/
  | pause
  /-- `Replayer::Continue` makes its first write. -/
  | continuePaused
  /-- `Replayer::Continue` makes its second write. -/
  | continueCanrun
  /-- `Learner::GetNewCheckpointSender` -/
  | newSender
  /-- The next step of the sender; `fails` says that it was told to end, or that a state machine cannot be locked. -/
  | send (fails : Bool)

namespace ReplayHost

def view (h : ReplayHost) : ReplayView where
  start := SMFac.start h.host.sms
  maxChosenInstanceID := h.host.node.checkpointMgr.maxChosenInstanceID
  readState := h.host.node.storage.get

/-- The next step of `CheckpointSender::run`. -/
def send (fails : Bool) (h : ReplayHost) : ReplayHost :=
  match h.sender with
  | .isPaused =>
    if h.replayer.isPaused then { h with sender := if fails then .continuePaused else .sending }
    else { h with sender := if fails then .ended else .pause }
  | .pause => { h with replayer.canrun := false, needContinue := true, sender := .isPaused }
  | .sending => { h with sender := .continuePaused }
  | .continuePaused =>
    if h.needContinue then { h with replayer.isPaused := false, sender := .continueCanrun } else { h with sender := .ended }
  | .continueCanrun => { h with replayer.canrun := true, sender := .ended }
  | .ended => h

def step (e : ReplayEvent) (h : ReplayHost) : ReplayHost :=
  match e with
  | .host (.start env) => { host := h.host.step P (.start env) }
  | .host e => { h with host := h.host.step P e }
  | .replay answers => if h.host.node.stopped then h else { h with replayer := h.replayer.step P h.view answers }
  | .pause => { h with replayer.canrun := false }
  | .continuePaused => { h with replayer.isPaused := false, continuing := h.continuing + 1 }
  | .continueCanrun =>
    if h.continuing = 0 then h else { h with replayer.canrun := true, continuing := h.continuing - 1 }
  | .newSender => if h.sender = .ended then { h with sender := .isPaused, needContinue := false } else h
  | .send fails => if h.host.node.stopped then h else h.send fails

end ReplayHost

/-! ## The group -/

/-- The group with the replayers of its nodes. -/
structure ReplayGroup where
  sys : Sys
  replayer : NodeID → Replayer := fun _ => {}

inductive ReplayGroupEvent
  | event (e : Event)
  /-- The next step of the replayer of node `n`; when it starts, `start` is what the state machines report. -/
  | replay (n : NodeID) (start : Nat) (answers : List Bool)
  /-- `Pause` or `Continue` has written a flag. -/
  | flags (n : NodeID) (canrun isPaused : Bool)

namespace ReplayGroup

/-- The replayer of node `n` becomes `r`. -/
def setReplayer (g : ReplayGroup) (n : NodeID) (r : Replayer) : ReplayGroup :=
  { g with replayer := Function.update g.replayer n r }

def view (g : ReplayGroup) (n : NodeID) (start : Nat) : ReplayView where
  start := start
  maxChosenInstanceID := (g.sys.node n).checkpointMgr.maxChosenInstanceID
  readState := (g.sys.node n).storage.get

def step (g : ReplayGroup) : ReplayGroupEvent → ReplayGroup
  | .event e =>
    let g' := { g with sys := g.sys.step P e }
    match e.kind with
    | .restart _ => g'.setReplayer e.node {}
    | _ => g'
  | .replay n start answers =>
    if (g.sys.node n).stopped then g else g.setReplayer n ((g.replayer n).step P (g.view n start) answers)
  | .flags n canrun isPaused => g.setReplayer n { g.replayer n with canrun := canrun, isPaused := isPaused }

end ReplayGroup

/-- The states that the group reaches with its replayers. -/
inductive ReplayReachable (D : Deliver) (G : Group) : ReplayGroup → Prop
  | init : ReplayReachable D G { sys := Sys.init P G }
  | step {g : ReplayGroup} (e : ReplayGroupEvent) :
      ReplayReachable D G g → (∀ e', e = .event e' → e'.CanHappen D g.sys) → ReplayReachable D G (g.step P e)

end PhxPaxos
