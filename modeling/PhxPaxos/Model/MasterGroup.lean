import Mathlib.Logic.Function.Basic
import PhxPaxos.Model.Master

/-!
# A group that elects a master

Nodes with one common clock, each with its state machine and its manager, and the log of the values that the group has
chosen. A node proposes at the instance that it is at, a proposal is chosen for that instance or never, and each node
executes the chosen values in order whenever it comes to them. The values of the master state machine are kept parsed.
-/

namespace PhxPaxos

/-- The id of a node. -/
abbrev MemberID := { n : NodeID // n ≠ nullnode }

/-- A value that was put to the vote at an instance. `beginTime`, when `TryBeMaster` read the clock, is history. -/
structure MasterProposal where
  instanceID : Nat
  op : MasterOperator
  beginTime : Nat
deriving DecidableEq

/-- Where a round of `MasterMgr::run` stands. -/
inductive TryBeMaster
  | idle
  /-- The lease time was read. -/
  | round (leaseTime : Int)
  /-- `SafeGetMaster` named no other master. -/
  | checked (leaseTime : Int) (masterVersion : Nat)
  /-- `Propose` waits for the instance to take the value. -/
  | waiting (op : MasterOperator) (beginTime absMasterTimeout : Nat)
  /-- `StartCommit` -/
  | started (p : MasterProposal) (absMasterTimeout : Nat)
deriving DecidableEq

def TryBeMaster.isWaiting : TryBeMaster → Bool
  | .waiting .. => true
  | _ => false

structure MasterNode where
  sm : MasterStateMachine
  mgr : MasterMgr := {}
  tryBeMaster : TryBeMaster := .idle
  /-- The instance that the node is at. -/
  next : Nat := 0
deriving DecidableEq

/-- `log` has the chosen values by instance id, `none` for those of other state machines; `buffers` are the checkpoint
buffers that were given away. -/
structure MasterGroup where
  now : Nat
  log : List (Option MasterProposal)
  proposed : List MasterProposal
  buffers : List Bytes
  node : MemberID → MasterNode

inductive MasterAct
  | tick (now : Nat)
  | setLeaseTime (n : MemberID) (leaseTimeMs : Int)
  | beginRound (n : MemberID)
  | check (n : MemberID)
  | propose (n : MemberID) (sid : Nat)
  /-- `CheckNewValue` -/
  | newValue (n : MemberID)
  /-- `Propose` returns without a chosen value. -/
  | endCommit (n : MemberID)
  | choose (value : Option MasterProposal)
  | execute (n : MemberID) (put : Int)
  /-- The process is killed and started again, and comes to the instance with its replay or with a checkpoint. -/
  | restart (n : MemberID) (instanceID : Nat)
  | give (n : MemberID)
  | adopt (n : MemberID) (put : Int) (cpBuffer : Bytes)

namespace MasterNode

/-- `IsMyCommit`: the context of the commit whose value was chosen at the instance. -/
def commitCtx (nd : MasterNode) (p : MasterProposal) : Option Nat :=
  match nd.tryBeMaster with
  | .started p' absMasterTimeout =>
    if p'.instanceID = p.instanceID ∧ p'.op = p.op then some absMasterTimeout else none
  | _ => none

/-- `SetResult`: the commit at the instance is over. -/
def setResult (instanceID : Nat) (nd : MasterNode) : MasterNode :=
  match nd.tryBeMaster with
  | .started p _ => if p.instanceID = instanceID then { nd with tryBeMaster := .idle } else nd
  | _ => nd

def beginRound (nd : MasterNode) : Option MasterNode :=
  match nd.tryBeMaster with
  | .idle => some { nd with tryBeMaster := .round nd.mgr.leaseTime }
  | _ => none

/-- Step 1 of `TryBeMaster`. -/
def check (now : Nat) (nd : MasterNode) : Option MasterNode :=
  match nd.tryBeMaster with
  | .round leaseTime =>
    let (masterNodeID, masterVersion) := nd.sm.safeGetMaster now
    if masterNodeID ≠ nullnode ∧ masterNodeID ≠ nd.sm.myNodeID then some { nd with tryBeMaster := .idle }
    else some { nd with tryBeMaster := .checked leaseTime masterVersion }
  | _ => none

/-- Step 2 of `TryBeMaster`. -/
def propose (now sid : Nat) (nd : MasterNode) : Option MasterNode :=
  match nd.tryBeMaster with
  | .checked leaseTime masterVersion =>
    let op := MasterStateMachine.makeOp nd.sm.myNodeID masterVersion leaseTime masterOperatorTypeComplete sid
    some { nd with tryBeMaster := .waiting op now (toUInt64 (now + (leaseTime - 100))) }
  | _ => none

/-- The value that is put to the vote, with `BeforePropose` when `openChangeValueBeforePropose` is set. -/
def newProposal (openChangeValueBeforePropose : Bool) (nd : MasterNode) : Option MasterProposal :=
  match nd.tryBeMaster with
  | .waiting op beginTime _ =>
    some ⟨nd.next, if openChangeValueBeforePropose then nd.sm.beforeProposeOperator op else op, beginTime⟩
  | _ => none

def startCommit (p : MasterProposal) (nd : MasterNode) : MasterNode :=
  match nd.tryBeMaster with
  | .waiting _ _ absMasterTimeout => { nd with tryBeMaster := .started p absMasterTimeout }
  | _ => nd

/-- The value of the instance that the node is at is executed; it stays there when `Execute` fails. -/
def execute (put : Int) (now : Nat) (value : Option MasterProposal) (nd : MasterNode) : MasterNode :=
  match value with
  | none => { nd.setResult nd.next with next := nd.next + 1 }
  | some p =>
    let (ok, sm) := nd.sm.executeOperator put now nd.next p.op (nd.commitCtx p)
    { nd.setResult nd.next with sm, next := if ok then nd.next + 1 else nd.next }

def endCommit (nd : MasterNode) : Option MasterNode :=
  match nd.tryBeMaster with
  | .waiting .. | .started .. => some { nd with tryBeMaster := .idle }
  | _ => none

def restart (now instanceID : Nat) (nd : MasterNode) : MasterNode := { sm := nd.sm.restart now, next := instanceID }

def adopt (put : Int) (now : Nat) (cpBuffer : Bytes) (nd : MasterNode) : MasterNode :=
  { nd with sm := (nd.sm.updateByCheckpoint put now cpBuffer).2 }

end MasterNode

namespace MasterGroup

def setNode (n : MemberID) (nd : MasterNode) (s : MasterGroup) : MasterGroup :=
  { s with node := Function.update s.node n nd }

/-- The group before the first instance. The steady clock counts in an `int64_t`. -/
def init (now : Nat) : MasterGroup where
  now := now
  log := []
  proposed := []
  buffers := []
  node n := { sm := { myNodeID := n } }

/-- What happens in the group; `none` when it cannot happen. -/
def step (openChangeValueBeforePropose : Bool) (s : MasterGroup) : MasterAct → Option MasterGroup
  | .tick now => if s.now ≤ now ∧ now < 2 ^ 63 then some { s with now } else none
  | .setLeaseTime n leaseTimeMs =>
    if -2 ^ 31 ≤ leaseTimeMs ∧ leaseTimeMs < 2 ^ 31 then
      some (s.setNode n { s.node n with mgr := (s.node n).mgr.setLeaseTime leaseTimeMs })
    else none
  | .beginRound n => (s.node n).beginRound.map fun nd => s.setNode n nd
  | .check n => ((s.node n).check s.now).map fun nd => s.setNode n nd
  | .propose n sid => ((s.node n).propose s.now sid).map fun nd => s.setNode n nd
  | .newValue n =>
    ((s.node n).newProposal openChangeValueBeforePropose).map fun p =>
      { s.setNode n ((s.node n).startCommit p) with proposed := p :: s.proposed }
  | .endCommit n => (s.node n).endCommit.map fun nd => s.setNode n nd
  | .choose value =>
    -- one value for each instance, and `(uint64_t)-1` is none
    if s.log.length < noVersion ∧ ∀ p ∈ value, p ∈ s.proposed ∧ p.instanceID = s.log.length then
      some { s with log := s.log ++ [value] }
    else none
  | .execute n put =>
    s.log[(s.node n).next]?.map fun value => s.setNode n ((s.node n).execute put s.now value)
  | .restart n instanceID =>
    if instanceID ≤ s.log.length then some (s.setNode n ((s.node n).restart s.now instanceID)) else none
  | .give n => some { s with buffers := (s.node n).sm.getCheckpointBuffer :: s.buffers }
  | .adopt n put cpBuffer =>
    if cpBuffer ∈ s.buffers then some (s.setNode n ((s.node n).adopt put s.now cpBuffer)) else none

/-- The states that the group reaches when the condition `C` holds at every step. -/
inductive Run (openChangeValueBeforePropose : Bool) (C : MasterGroup → MasterAct → Prop) : MasterGroup → Prop
  | init {now} : now < 2 ^ 63 → Run openChangeValueBeforePropose C (init now)
  | step {s s' a} : Run openChangeValueBeforePropose C s → C s a → s.step openChangeValueBeforePropose a = some s' →
      Run openChangeValueBeforePropose C s'

end MasterGroup

/-! ## Reads without the lock

`MasterGroup` has the state machines as those that hold their locks see them. `GetMaster` and `IsIMMaster` take no lock,
and can be called between the stores of `LearnMaster`; a call reads the clock and the variables at one moment. `Init` and
`UpdateByCheckpoint` never store the id of the node itself, so that no call between their stores finds it master anew. -/

/-- `learning` has the variables of a node that is in `LearnMaster` and has stored the master's id, but not yet the time
when the lease ends. -/
structure LearningGroup where
  group : MasterGroup
  learning : MemberID → Option MasterStateMachine := fun _ => none

inductive LearningAct
  /-- What happens while the lock is free. -/
  | act (a : MasterAct)
  /-- `LearnMaster` stores the master's id. -/
  | learn (n : MemberID)
  /-- `LearnMaster` stores the rest, and `Execute` returns. -/
  | learnt (n : MemberID)
  /-- The process is killed in `LearnMaster`, after the variables were written, and started again. -/
  | killed (n : MemberID) (instanceID : Nat)

namespace MasterNode

/-- The variables while the value of the instance is executed, after the store of the master's id. -/
def learnNodeID (value : Option MasterProposal) (nd : MasterNode) : Option MasterStateMachine :=
  value.bind fun p =>
    if p.op.operator = masterOperatorTypeComplete then nd.sm.learnMasterNodeID nd.next p.op else none

end MasterNode

namespace LearningGroup

/-- The variables of the node in the memory. -/
def sm (s : LearningGroup) (n : MemberID) : MasterStateMachine := (s.learning n).getD (s.group.node n).sm

/-- What `LearnMaster` stores first when the node executes its next value. -/
def learnNodeID (s : LearningGroup) (n : MemberID) : Option MasterStateMachine :=
  (s.group.log[(s.group.node n).next]?).bind fun value => (s.group.node n).learnNodeID value

/-- The act needs neither the lock nor the thread that executes, or its node is not in `LearnMaster`; an execution that gets
to the stores of `LearnMaster` is not one act. -/
def Free (s : LearningGroup) : MasterAct → Prop
  | .tick _ | .setLeaseTime .. | .beginRound _ | .propose .. | .choose _ => True
  | .check n | .newValue n | .restart n _ | .give n | .adopt n .. => s.learning n = none
  | .endCommit n => (s.group.node n).tryBeMaster.isWaiting = true ∨ s.learning n = none
  | .execute n put => s.learning n = none ∧ (put = 0 → s.learnNodeID n = none)

instance (s : LearningGroup) : (a : MasterAct) → Decidable (s.Free a)
  | .tick _ | .setLeaseTime .. | .beginRound _ | .propose .. | .choose _ => isTrue trivial
  | .check n | .newValue n | .restart n _ | .give n | .adopt n .. => inferInstanceAs (Decidable (s.learning n = none))
  | .endCommit n => inferInstanceAs (Decidable ((s.group.node n).tryBeMaster.isWaiting = true ∨ s.learning n = none))
  | .execute n put => inferInstanceAs (Decidable (s.learning n = none ∧ (put = 0 → s.learnNodeID n = none)))

/-- What happens; `none` when it cannot happen. -/
def step (openChangeValueBeforePropose : Bool) (s : LearningGroup) : LearningAct → Option LearningGroup
  | .act a => if s.Free a then (s.group.step openChangeValueBeforePropose a).map fun group => { s with group } else none
  | .learn n =>
    if s.learning n = none then
      (s.learnNodeID n).map fun sm => { s with learning := Function.update s.learning n (some sm) }
    else none
  | .learnt n =>
    if s.learning n = none then none
    else
      (s.group.step openChangeValueBeforePropose (.execute n 0)).map fun group =>
        { group, learning := Function.update s.learning n none }
  | .killed n instanceID =>
    if s.learnNodeID n = none then none
    else
      (s.group.step openChangeValueBeforePropose (.execute n 0)).bind fun group =>
        (group.step openChangeValueBeforePropose (.restart n instanceID)).map fun group =>
          { group, learning := Function.update s.learning n none }

/-- The states that the group reaches when the condition `C` holds at every step. -/
inductive Run (openChangeValueBeforePropose : Bool) (C : LearningGroup → LearningAct → Prop) : LearningGroup → Prop
  | init {now} : now < 2 ^ 63 → Run openChangeValueBeforePropose C { group := .init now }
  | step {s s' a} : Run openChangeValueBeforePropose C s → C s a → s.step openChangeValueBeforePropose a = some s' →
      Run openChangeValueBeforePropose C s'

end LearningGroup

end PhxPaxos
