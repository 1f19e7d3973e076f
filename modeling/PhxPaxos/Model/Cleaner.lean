import PhxPaxos.Model.Network
import PhxPaxos.Model.StateMachine

/-!
# The cleaner

`Cleaner::run` deletes old instances from the log: it reads the min-chosen instance id, the aggregated checkpoint id and
the max-chosen instance id, and deletes from the first on as long as the instance plus the hold count stays below both
others. Its sums are of unsigned 64-bit numbers.

A `Host` is a node with its state machines and its cleaner. The steps of the cleaner's thread, checkpoints, starts and
everything else that the node does follow each other in any order.
-/

namespace PhxPaxos

/-- The sum of two `uint64_t`. -/
def add64 (a b : Nat) : Nat := (a + b) % 2 ^ 64

/-- `CAN_DELETE_DELTA` -/
def canDeleteDelta : Nat := 1000000

/-- Where the thread of the cleaner is. -/
inductive CleanerPC
  | sleep
  | readMin (instanceID : Nat)
  | readCP (instanceID cpInstanceID : Nat)
  /-- At the head of the inner loop. -/
  | loop (instanceID cpInstanceID maxChosenInstanceID : Nat)
  /-- In `DeleteOne`, after the record was deleted. -/
  | deleted (instanceID cpInstanceID maxChosenInstanceID : Nat)
deriving DecidableEq

structure Cleaner where
  lastSave : Nat := 0
  holdCount : Nat := canDeleteDelta
  pc : CleanerPC := .sleep
deriving DecidableEq

/-- `Cleaner::SetHoldPaxosLogCount` -/
def Cleaner.setHoldPaxosLogCount (c : Cleaner) (holdCount : UInt64) : Cleaner :=
  { c with holdCount := if holdCount < 300 then 300 else holdCount.toNat }

/-- `LogStorage::Del` -/
def LogStorage.del (s : LogStorage) (instanceID : Nat) : LogStorage :=
  { s with records := s.records.filter fun x => x.1 ≠ instanceID }

/-- A node with its state machines and its cleaner. `cleaned` are the instances that the cleaner has deleted, with the
hold count at that time; it is history. -/
structure Host where
  node : Node
  hist : List Obs := []
  sms : List StateMachine
  cleaner : Cleaner := {}
  cleaned : List (Nat × Nat) := []

inductive HostEvent
  /-- The node handles a message, a timer and so on. -/
  | work (kind : EventKind) (env : Env)
  /-- The state machine has a new checkpoint, its own or one it loaded. -/
  | checkpoint (smid : Nat) (id : UInt64)
  | setHoldPaxosLogCount (holdCount : UInt64)
  /-- The next step of the cleaner's thread. -/
  | clean (env : Env)
  /-- The process is killed and started again. -/
  | start (env : Env)

namespace Host

variable (P : Params)

def proc (h : Host) (env : Env) : Proc := { node := h.node, env := env, net := [], hist := h.hist }

/-- Checkpoints only grow. -/
def raise (smid : Nat) (id : UInt64) (sm : StateMachine) : StateMachine :=
  if sm.smid = smid ∧ sm.next ≤ nextInstance id then { sm with checkpointInstanceID := id } else sm

/-- `Cleaner::run` and `Cleaner::DeleteOne` by single steps. -/
def clean (env : Env) (h : Host) : Host :=
  let goTo (pc : CleanerPC) (h : Host) : Host := { h with cleaner.pc := pc }
  match h.cleaner.pc with
  | .sleep => goTo (.readMin h.node.checkpointMgr.minChosenInstanceID) h
  | .readMin instanceID => goTo (.readCP instanceID (SMFac.start h.sms)) h
  | .readCP instanceID cpInstanceID => goTo (.loop instanceID cpInstanceID h.node.checkpointMgr.maxChosenInstanceID) h
  | .loop instanceID cpInstanceID maxChosenInstanceID =>
    if add64 instanceID h.cleaner.holdCount < cpInstanceID ∧
        add64 instanceID h.cleaner.holdCount < maxChosenInstanceID then
      if env.puts.headD true then
        goTo (.deleted instanceID cpInstanceID maxChosenInstanceID)
          { h with
            node.storage := h.node.storage.del instanceID
            cleaned := (instanceID, h.cleaner.holdCount) :: h.cleaned }
      else goTo .sleep h
    else goTo .sleep h
  | .deleted instanceID cpInstanceID maxChosenInstanceID =>
    let h := { h with node.checkpointMgr.minChosenInstanceID := instanceID }
    if instanceID ≥ add64 h.cleaner.lastSave deleteSaveInterval then
      let (w, ret) := setMinChosenInstanceID (add64 instanceID 1) (h.proc env)
      if ret ≠ 0 then goTo .sleep { h with node := w.node }
      else
        goTo (.loop (add64 instanceID 1) cpInstanceID maxChosenInstanceID)
          { h with node := w.node, cleaner.lastSave := instanceID }
    else goTo (.loop (add64 instanceID 1) cpInstanceID maxChosenInstanceID) h

def step (e : HostEvent) (h : Host) : Host :=
  match e with
  | .work (.restart _) _ => h
  | .work kind env =>
    let w := handle P kind (h.proc env)
    { h with node := w.node, hist := w.hist }
  | .checkpoint smid id => { h with sms := h.sms.map (raise smid id) }
  | .setHoldPaxosLogCount holdCount => { h with cleaner := h.cleaner.setHoldPaxosLogCount holdCount }
  | .clean env => if h.node.stopped then h else h.clean env
  | .start env =>
    let w := restart P (SMFac.start h.sms) (h.proc env)
    { h with node := w.node, hist := w.hist, cleaner := {} }

/-- The states that the host reaches in runs whose steps are all `Ok`, from before its first start on. -/
inductive Run (Ok : Host → HostEvent → Prop) : Host → Prop
  | init {h} : h.node.stopped = true → h.cleaner = {} → h.cleaned = [] → Run Ok h
  | step {h e} : Run Ok h → Ok h e → Run Ok (h.step P e)

end Host

end PhxPaxos
