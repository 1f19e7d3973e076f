import PhxPaxos.Abstract.Wire
import PhxPaxos.Model.Types

/-!
# The master election

The state machine that keeps the master of the group and its lease, and the manager that proposes the node as the
master. Each write of the master variables gets its outcome as an argument, `0` for a success.
-/

namespace PhxPaxos

/-- An `int` as a `uint32_t`. -/
def toUInt32 (x : Int) : Nat := (x % 2 ^ 32).toNat

/-- An `int` as a `uint64_t`. -/
def toUInt64 (x : Int) : Nat := (x % 2 ^ 64).toNat

/-! ## Variables and operations -/

structure MasterVariables where
  masterNodeID : NodeID
  version : Nat
  leaseTime : Nat
deriving DecidableEq

def serializeMasterVariables (v : MasterVariables) : Bytes :=
  Wire.encode [(1, .varint v.masterNodeID), (2, .varint v.version), (3, .varint v.leaseTime)]

def parseMasterVariables (buffer : Bytes) : Option MasterVariables := do
  let fields ← Wire.decode buffer
  let masterNodeID ← (Wire.varints 1 fields).getLast?
  let version ← (Wire.varints 2 fields).getLast?
  let leaseTime ← (Wire.varints 3 fields).getLast?
  return ⟨masterNodeID, version, leaseTime⟩

@[simp] theorem parse_serializeMasterVariables (v : MasterVariables) :
    parseMasterVariables (serializeMasterVariables v) = some v := by
  simp [parseMasterVariables, serializeMasterVariables, Wire.decode_encode, Wire.varints]

theorem serializeMasterVariables_ne_nil (v : MasterVariables) : serializeMasterVariables v ≠ [] := by
  simp [serializeMasterVariables, Wire.encode, Wire.encodeField_ne_nil]

structure MasterOperator where
  nodeID : NodeID
  version : Nat
  timeout : Int
  operator : Nat
  sid : Nat
  lastVersion : Option Nat := none
deriving DecidableEq

/-- `lastversion()`, `0` when it is not set. -/
def MasterOperator.lastversion (op : MasterOperator) : Nat := op.lastVersion.getD 0

/-- `MasterOperatorType_Complete` -/
def masterOperatorTypeComplete : Nat := 1

def MasterOperator.fields (op : MasterOperator) : List Wire.Field :=
  [(1, .varint op.nodeID), (2, .varint op.version), (3, .varint (toUInt64 op.timeout)), (4, .varint op.operator),
    (5, .varint op.sid)] ++ (op.lastVersion.map fun v => (6, Wire.Value.varint v)).toList

def serializeMasterOperator (op : MasterOperator) : Bytes := Wire.encode op.fields

def parseMasterOperator (buffer : Bytes) : Option MasterOperator := do
  let fields ← Wire.decode buffer
  let nodeID ← (Wire.varints 1 fields).getLast?
  let version ← (Wire.varints 2 fields).getLast?
  let timeout ← (Wire.varints 3 fields).getLast?
  let operator ← (Wire.varints 4 fields).getLast?
  let sid ← (Wire.varints 5 fields).getLast?
  return ⟨nodeID, version, Int.bmod timeout (2 ^ 32), operator, sid, (Wire.varints 6 fields).getLast?⟩

theorem bmod_toUInt64 {x : Int} (hlo : -2 ^ 31 ≤ x) (hhi : x < 2 ^ 31) : Int.bmod (toUInt64 x) (2 ^ 32) = x := by
  unfold toUInt64
  rw [Int.bmod_def]
  omega

theorem MasterOperator.varints_fields (op : MasterOperator) :
    Wire.varints 1 op.fields = [op.nodeID] ∧ Wire.varints 2 op.fields = [op.version] ∧
      Wire.varints 3 op.fields = [toUInt64 op.timeout] ∧ Wire.varints 4 op.fields = [op.operator] ∧
      Wire.varints 5 op.fields = [op.sid] ∧ Wire.varints 6 op.fields = op.lastVersion.toList := by
  cases h : op.lastVersion <;> simp [Wire.varints, MasterOperator.fields, h]

/-- A timeout in the range of an `int32` is read back. -/
theorem parse_serializeMasterOperator {op : MasterOperator} (hlo : -2 ^ 31 ≤ op.timeout) (hhi : op.timeout < 2 ^ 31) :
    parseMasterOperator (serializeMasterOperator op) = some op := by
  obtain ⟨h₁, h₂, h₃, h₄, h₅, h₆⟩ := op.varints_fields
  unfold parseMasterOperator serializeMasterOperator
  rw [Wire.decode_encode, Option.bind_eq_bind, Option.bind_some, h₁, h₂, h₃, h₄, h₅, h₆]
  have hlast : op.lastVersion.toList.getLast? = op.lastVersion := by cases op.lastVersion <;> rfl
  simp only [Option.bind_eq_bind, List.getLast?_singleton, Option.bind_some, bmod_toUInt64 hlo hhi, hlast]
  rfl

/-! ## The state machine -/

/-- The state machine with its variables in the storage. -/
structure MasterStateMachine where
  myNodeID : NodeID
  mvStore : Option MasterVariables := none
  masterNodeID : NodeID := nullnode
  masterVersion : Nat := noVersion
  leaseTime : Int := 0
  absExpireTime : Nat := 0
deriving DecidableEq

namespace MasterStateMachine

def init (now : Nat) (sm : MasterStateMachine) : MasterStateMachine :=
  match sm.mvStore with
  | none => sm
  | some v =>
    if v.masterNodeID = sm.myNodeID then
      { sm with masterVersion := v.version, masterNodeID := nullnode, absExpireTime := 0 }
    else
      { sm with
        masterVersion := v.version
        masterNodeID := v.masterNodeID
        absExpireTime := toUInt64 (now + v.leaseTime) }

/-- The process is killed and started again. -/
def restart (now : Nat) (sm : MasterStateMachine) : MasterStateMachine :=
  init now { myNodeID := sm.myNodeID, mvStore := sm.mvStore }

def updateMasterToStore (put : Int) (masterNodeID : NodeID) (version leaseTime : Nat) (sm : MasterStateMachine) :
    Int × MasterStateMachine :=
  if put ≠ 0 then (put, sm) else (0, { sm with mvStore := some ⟨masterNodeID, version, leaseTime⟩ })

def learnMaster (put : Int) (now instanceID : Nat) (op : MasterOperator) (absMasterTimeout : Nat)
    (sm : MasterStateMachine) : Int × MasterStateMachine :=
  let sm :=
    if op.lastversion ≠ 0 ∧ sm.masterVersion < instanceID ∧ op.lastversion ≠ sm.masterVersion then
      -- try to fix
      { sm with masterVersion := op.lastversion }
    else sm
  if op.version ≠ sm.masterVersion then (0, sm)
  else
    let (ret, sm) := sm.updateMasterToStore put op.nodeID instanceID (toUInt32 op.timeout)
    if ret ≠ 0 then (-1, sm)
    else
      (0, { sm with
        masterNodeID := op.nodeID
        absExpireTime := if op.nodeID = sm.myNodeID then absMasterTimeout else toUInt64 (now + op.timeout)
        leaseTime := op.timeout
        masterVersion := instanceID })

/-- `LearnMaster` up to the store of the master's id, when the write succeeds; `none` when it returns before. `GetMaster`
takes no lock, so that it can read the variables then. -/
def learnMasterNodeID (instanceID : Nat) (op : MasterOperator) (sm : MasterStateMachine) : Option MasterStateMachine :=
  let sm :=
    if op.lastversion ≠ 0 ∧ sm.masterVersion < instanceID ∧ op.lastversion ≠ sm.masterVersion then
      { sm with masterVersion := op.lastversion }
    else sm
  if op.version ≠ sm.masterVersion then none
  else
    let (_, sm) := sm.updateMasterToStore 0 op.nodeID instanceID (toUInt32 op.timeout)
    some { sm with masterNodeID := op.nodeID }

/-- What `LearnMaster` stores after that. -/
def learnExpireTime (now instanceID : Nat) (op : MasterOperator) (absMasterTimeout : Nat) (sm : MasterStateMachine) :
    MasterStateMachine :=
  { sm with
    absExpireTime := if sm.masterNodeID = sm.myNodeID then absMasterTimeout else toUInt64 (now + op.timeout)
    leaseTime := op.timeout
    masterVersion := instanceID }

/-- The two parts make up `LearnMaster`. -/
theorem learnMaster_parts {now instanceID : Nat} {op : MasterOperator} {absMasterTimeout : Nat}
    {sm sm' : MasterStateMachine} (h : sm.learnMasterNodeID instanceID op = some sm') :
    sm.learnMaster 0 now instanceID op absMasterTimeout = (0, sm'.learnExpireTime now instanceID op absMasterTimeout) := by
  unfold learnMasterNodeID at h
  unfold learnMaster
  obtain ⟨hversion, hsm⟩ := Option.ite_none_left_eq_some.mp h
  obtain rfl := Option.some.inj hsm
  simp only [hversion, if_false, updateMasterToStore, ne_eq, not_true_eq_false]
  rfl

def safeGetMaster (now : Nat) (sm : MasterStateMachine) : NodeID × Nat :=
  (if sm.absExpireTime ≤ now then nullnode else sm.masterNodeID, sm.masterVersion)

def getMaster (now : Nat) (sm : MasterStateMachine) : NodeID :=
  if sm.absExpireTime ≤ now then nullnode else sm.masterNodeID

def isIMMaster (now : Nat) (sm : MasterStateMachine) : Bool := decide (sm.getMaster now = sm.myNodeID)

/-- `Execute` for a parsed value; `ctx` is the time that the context of the proposal points to. -/
def executeOperator (put : Int) (now instanceID : Nat) (op : MasterOperator) (ctx : Option Nat) (sm : MasterStateMachine) :
    Bool × MasterStateMachine :=
  if op.operator = masterOperatorTypeComplete then
    let (ret, sm) := sm.learnMaster put now instanceID op (ctx.getD 0)
    if ret ≠ 0 then (false, sm) else (true, sm)
  else (true, sm)

def execute (put : Int) (now instanceID : Nat) (value : Bytes) (ctx : Option Nat) (sm : MasterStateMachine) :
    Bool × MasterStateMachine :=
  match parseMasterOperator value with
  | none => (false, sm)
  | some op => sm.executeOperator put now instanceID op ctx

/-- `MakeOpValue`, before it is serialized. -/
def makeOp (nodeID : NodeID) (version : Nat) (timeout : Int) (operator sid : Nat) : MasterOperator :=
  { nodeID, version, timeout, operator, sid }

def makeOpValue (nodeID : NodeID) (version : Nat) (timeout : Int) (operator sid : Nat) : Bytes :=
  serializeMasterOperator (makeOp nodeID version timeout operator sid)

/-- The variables of a checkpoint. -/
def masterVariables (sm : MasterStateMachine) : MasterVariables := ⟨sm.masterNodeID, sm.masterVersion, toUInt32 sm.leaseTime⟩

def getCheckpointBuffer (sm : MasterStateMachine) : Bytes :=
  if sm.masterVersion = noVersion then [] else serializeMasterVariables sm.masterVariables

def updateByCheckpoint (put : Int) (now : Nat) (cpBuffer : Bytes) (sm : MasterStateMachine) : Int × MasterStateMachine :=
  if cpBuffer.length = 0 then (0, sm)
  else
    match parseMasterVariables cpBuffer with
    | none => (-1, sm)
    | some v =>
      if v.version ≤ sm.masterVersion ∧ sm.masterVersion ≠ noVersion then (0, sm)
      else
        let (ret, sm) := sm.updateMasterToStore put v.masterNodeID v.version v.leaseTime
        if ret ≠ 0 then (-1, sm)
        else if v.masterNodeID = sm.myNodeID then
          (0, { sm with masterVersion := v.version, masterNodeID := nullnode, absExpireTime := 0 })
        else
          (0, { sm with
            masterVersion := v.version
            masterNodeID := v.masterNodeID
            absExpireTime := toUInt64 (now + v.leaseTime) })

/-- `BeforePropose` for a parsed value. -/
def beforeProposeOperator (op : MasterOperator) (sm : MasterStateMachine) : MasterOperator :=
  { op with lastVersion := some sm.masterVersion }

def beforePropose (value : Bytes) (sm : MasterStateMachine) : Bytes :=
  match parseMasterOperator value with
  | none => value
  | some op => serializeMasterOperator (sm.beforeProposeOperator op)

end MasterStateMachine

/-! ## The manager -/

structure MasterMgr where
  leaseTime : Int := 10000
deriving DecidableEq

def MasterMgr.setLeaseTime (leaseTimeMs : Int) (mgr : MasterMgr) : MasterMgr :=
  if leaseTimeMs < 1000 then mgr else { mgr with leaseTime := leaseTimeMs }

end PhxPaxos
