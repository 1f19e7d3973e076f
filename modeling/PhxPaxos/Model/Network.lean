import PhxPaxos.Model.Checkpoint

/-!
# Commits and the group

`Committer::NewValueGetID` as the steps of a call (it waits for the lock, hands its value to the commit context, waits
for the result, tries again after a conflict), then the whole group: all nodes of one group over a network that may
lose, duplicate, delay and reorder, one event at one node at a time.
-/

namespace PhxPaxos

variable (P : Params)

/-! ## The committer -/

/-- The calls of `w` with that of the given id replaced. -/
def setCall (c : Call) (w : Proc) : Proc :=
  { w with node.calls := w.node.calls.map fun d => if d.callID = c.callID then c else d }

def findCall (callID : Nat) (w : Proc) : Option Call := w.node.calls.find? fun c => c.callID = callID

/-- `Committer::NewValueGetID` is called; the first of its three tries begins. -/
def newValueGetID (callID : Nat) (value : Bytes) (smid : Nat) (w : Proc) : Proc :=
  if (findCall callID w).isSome then w
  else
    let c : Call := { callID := callID, value := value, smid := smid, retryCount := 2, phase := .waitLock }
    { w with node.calls := c :: w.node.calls }

/-- `WaitLock::Lock` gives the lock to the call, which starts its commit. -/
def lock (callID : Nat) (w : Proc) : Proc :=
  match findCall callID w with
  | none => w
  | some c =>
    if c.phase ≠ .waitLock ∨ w.node.calls.any (fun d => d.phase == .getResult) then w
    else
      let w := setCall { c with phase := .getResult } w
      { w with node.commitCtx := CommitCtx.newCommit (packPaxosValue c.value c.smid) w.env.timeoutMs }

/-- The end of one try: only a conflict is tried again, and never for the master election. -/
def Call.afterTry (c : Call) (ret : PaxosTryCommitRet) (instanceID : Nat) : Call :=
  if ret ≠ .conflict ∨ c.smid = masterVSMID ∨ c.retryCount = 0 then { c with phase := .returned ret instanceID }
  else { c with retryCount := c.retryCount - 1, phase := .waitLock }

/-- `WaitLock::Lock` refuses, or gives the lock too late. -/
def lockFail (callID : Nat) (tooManyThreadWaiting : Bool) (w : Proc) : Proc :=
  match findCall callID w with
  | none => w
  | some c =>
    if c.phase ≠ .waitLock then w
    else setCall (c.afterTry (if tooManyThreadWaiting then .tooManyThreadWaitingReject else .timeout) 0) w

/-- `CommitCtx::GetResult` returns; it names an instance only with `ok`. -/
def getResult (callID : Nat) (w : Proc) : Proc :=
  match findCall callID w with
  | none => w
  | some c =>
    if c.phase ≠ .getResult ∨ !w.node.commitCtx.isCommitEnd then w
    else setCall (c.afterTry w.node.commitCtx.commitRet (w.node.commitCtx.instanceID.getD 0)) w

/-! ## Events -/

inductive EventKind
  /-- The client calls `Committer::NewValueGetID`. -/
  | newValueGetID (callID : Nat) (value : Bytes) (smid : Nat)
  | lock (callID : Nat)
  | lockFail (callID : Nat) (tooManyThreadWaiting : Bool)
  | getResult (callID : Nat)
  | checkNewValue
  /-- A Paxos message arrives. -/
  | receive (gid : Nat) (msg : PaxosMsg)
  /-- A checkpoint message arrives. -/
  | receiveCheckpoint (gid : Nat) (msg : CheckpointMsg)
  | dealWithRetry
  | timeout (timerID : Nat)
  /-- The sending thread starts, sends one value, ends. -/
  | sendLearnedValue
  | sendOne
  | sendDone
  /-- The process is killed and started again; the state machines report the checkpoint before `cpInstanceID`. -/
  | restart (cpInstanceID : Nat)
deriving DecidableEq

structure Event where
  node : NodeID
  kind : EventKind
  env : Env := {}
deriving DecidableEq

/-- The retry loop is left when something else happens. -/
def leaveRetry (w : Proc) : Proc := { w with node.ioLoop.haveRetryOne := false }

/-- What the node does at an event. -/
def handle (kind : EventKind) (w : Proc) : Proc :=
  match kind with
  | .restart cpInstanceID => restart P cpInstanceID w
  | kind =>
    if w.node.stopped then w
    else
      match kind with
      | .newValueGetID callID value smid => newValueGetID callID value smid w
      | .lock callID => lock callID w
      | .lockFail callID tooMany => lockFail callID tooMany w
      | .getResult callID => getResult callID w
      | .checkNewValue => checkNewValue P (leaveRetry w)
      | .receive gid msg => onReceive P gid msg (leaveRetry w)
      | .receiveCheckpoint gid msg =>
        if w.node.config.getGid ≠ 0 ∧ gid ≠ 0 ∧ w.node.config.getGid ≠ gid then w
        else onSendCheckpoint msg (leaveRetry w)
      | .dealWithRetry => dealWithRetry P w
      | .timeout timerID => onTimeout P timerID (leaveRetry w)
      | .sendLearnedValue => LearnerSender.sendLearnedValue w
      | .sendOne => LearnerSender.sendOne (toSelf P) w
      | .sendDone => LearnerSender.sendDone w
      | .restart _ => w

/-! ## The group -/

/-- The configuration of the nodes of one group; all are given the same member list. -/
structure Group where
  config : NodeID → Config
  members : Finset NodeID
  myNodeID : ∀ n, (config n).myNodeID = n
  nodeInfoList : ∀ n, (config n).nodeInfoList.toFinset = members

structure Sys where
  node : NodeID → Node
  net : List Envelope := []
  hist : List Obs := []

namespace Sys

/-- Node `n` at the event `e`. -/
def proc (s : Sys) (n : NodeID) (env : Env) : Proc := { node := s.node n, env := env, net := s.net, hist := s.hist }

/-- The group after `Instance::Init` of every node on an empty log. -/
def init (G : Group) : Sys where
  node n := (instanceInit P 0 { node := Node.new (G.config n) {}, env := {}, net := [], hist := [] }).1.node

def step (s : Sys) (e : Event) : Sys :=
  let w := handle P e.kind (s.proc e.node e.env)
  { node := Function.update s.node e.node w.node, net := w.net, hist := w.hist }

end Sys

/-- Which messages may arrive where, with which gid. What may arrive once may arrive again later. -/
structure Deliver where
  May : List Envelope → NodeID → Nat → PaxosMsg → Prop
  mono : ∀ {net net' : List Envelope} {n gid msg}, net ⊆ net' → May net n gid msg → May net' n gid msg

/-- A message that was sent there may arrive: late, again, or never. -/
def inNetwork : Deliver where
  May net n gid msg := ∃ x ∈ net, n ∈ x.dst ∧ x.gid = gid ∧ x.msg = msg
  mono := fun hsub ⟨x, hx, h⟩ => ⟨x, hsub hx, h⟩

/-- Any message may arrive. -/
def anyMessage : Deliver where
  May _ _ _ _ := True
  mono _ h := h

/-- The event may happen: a message that arrives may arrive. -/
def Event.CanHappen (D : Deliver) (s : Sys) (e : Event) : Prop :=
  ∀ gid msg, e.kind = .receive gid msg → D.May s.net e.node gid msg

/-- The states that a run of the group can reach. -/
inductive Reachable (D : Deliver) (G : Group) : Sys → Prop
  | init : Reachable D G (Sys.init P G)
  | step {s : Sys} (e : Event) : Reachable D G s → e.CanHappen D s → Reachable D G (s.step P e)

end PhxPaxos
