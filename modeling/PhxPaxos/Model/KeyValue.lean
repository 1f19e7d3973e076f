import PhxPaxos.Abstract.Files
import PhxPaxos.Model.Master
import PhxPaxos.Model.StateMachine

/-!
# The key-value store

The store that runs on the library: a state machine whose data lie in a LevelDB, next to the id of its checkpoint. All
groups of a process share this one state machine, and with it the checkpoint.

The database is the list of its writes, the latest first. Only a write with `sync` forces them to disk, so a machine that
fails may lose some of the writes after the last one of these.
-/

namespace PhxPaxos

/-! ## The data of a key -/

/-- A field that has its default is not written. -/
def optionalVarint (number n : Nat) : List Wire.Field := if n = 0 then [] else [(number, .varint n)]

def optionalBytes (number : Nat) (bs : Bytes) : List Wire.Field := if bs = [] then [] else [(number, .bytes bs)]

/-- The last value of a field, or its default. -/
def lastVarint (number : Nat) (fs : List Wire.Field) : Nat := ((Wire.varints number fs).getLast?).getD 0

def lastBytes (number : Nat) (fs : List Wire.Field) : Bytes := ((Wire.buffers number fs).getLast?).getD []

@[simp] theorem varints_optionalVarint (number m n : Nat) :
    Wire.varints number (optionalVarint m n) = if m = number ∧ n ≠ 0 then [n] else [] := by
  by_cases hn : n = 0 <;> by_cases hm : m = number <;> simp [optionalVarint, Wire.varints, hn, hm]

@[simp] theorem varints_optionalBytes (number m : Nat) (bs : Bytes) : Wire.varints number (optionalBytes m bs) = [] := by
  by_cases hbs : bs = [] <;> simp [optionalBytes, Wire.varints, hbs]

@[simp] theorem buffers_optionalVarint (number m n : Nat) : Wire.buffers number (optionalVarint m n) = [] := by
  by_cases hn : n = 0 <;> simp [optionalVarint, Wire.buffers, hn]

@[simp] theorem buffers_optionalBytes (number m : Nat) (bs : Bytes) :
    Wire.buffers number (optionalBytes m bs) = if m = number ∧ bs ≠ [] then [bs] else [] := by
  by_cases hbs : bs = [] <;> by_cases hm : m = number <;> simp [optionalBytes, Wire.buffers, hbs, hm]

theorem varints_append (number : Nat) (fs gs : List Wire.Field) :
    Wire.varints number (fs ++ gs) = Wire.varints number fs ++ Wire.varints number gs := List.filterMap_append

theorem buffers_append (number : Nat) (fs gs : List Wire.Field) :
    Wire.buffers number (fs ++ gs) = Wire.buffers number fs ++ Wire.buffers number gs := List.filterMap_append

theorem getLast_optional {α : Type} {p : Prop} [Decidable p] (a d : α) (h : ¬ p → a = d) :
    ((if p then [a] else []).getLast?).getD d = a := by
  by_cases hp : p
  · simp [hp]
  · simp [hp, h hp]

structure KVData where
  value : Bytes := []
  version : Nat := 0
  isdeleted : Bool := false
deriving DecidableEq

def KVData.fields (d : KVData) : List Wire.Field :=
  optionalBytes 1 d.value ++ optionalVarint 2 d.version ++ optionalVarint 3 d.isdeleted.toNat

def serializeKVData (d : KVData) : Bytes := Wire.encode d.fields

def parseKVData (buffer : Bytes) : Option KVData := do
  let fields ← Wire.decode buffer
  return { value := lastBytes 1 fields, version := lastVarint 2 fields, isdeleted := decide (lastVarint 3 fields ≠ 0) }

@[simp] theorem parse_serializeKVData (d : KVData) : parseKVData (serializeKVData d) = some d := by
  have hvalue : lastBytes 1 d.fields = d.value := by
    simpa [lastBytes, KVData.fields, buffers_append] using getLast_optional d.value [] not_not.mp
  have hversion : lastVarint 2 d.fields = d.version := by
    simpa [lastVarint, KVData.fields, varints_append] using getLast_optional d.version 0 not_not.mp
  have hisdeleted : lastVarint 3 d.fields = d.isdeleted.toNat := by
    simpa [lastVarint, KVData.fields, varints_append] using getLast_optional d.isdeleted.toNat 0 not_not.mp
  unfold parseKVData serializeKVData
  rw [Wire.decode_encode, Option.bind_eq_bind, Option.bind_some, hvalue, hversion, hisdeleted]
  obtain ⟨value, version, isdeleted⟩ := d
  cases isdeleted <;> rfl

/-! ## Operations -/

def isContinuation (b : UInt8) : Bool := decide (0x80 ≤ b ∧ b ≤ 0xbf)

/-- The check that a `string` of a message is UTF-8, which is a part of parsing it. -/
def isUTF8 : Bytes → Bool
  | [] => true
  | b :: bs =>
    if b ≤ 0x7f then isUTF8 bs
    else
      match bs with
      | [] => false
      | c :: bs =>
        if 0xc2 ≤ b ∧ b ≤ 0xdf then isContinuation c && isUTF8 bs
        else
          match bs with
          | [] => false
          | d :: bs =>
            if 0xe0 ≤ b ∧ b ≤ 0xef then
              isContinuation c && (b != 0xe0 || decide (0xa0 ≤ c)) && (b != 0xed || decide (c ≤ 0x9f)) && isContinuation d &&
                isUTF8 bs
            else
              match bs with
              | [] => false
              | e :: bs =>
                decide (0xf0 ≤ b ∧ b ≤ 0xf4) && isContinuation c && (b != 0xf0 || decide (0x90 ≤ c)) &&
                  (b != 0xf4 || decide (c ≤ 0x8f)) && isContinuation d && isContinuation e && isUTF8 bs

structure KVOperator where
  key : Bytes
  value : Bytes := []
  version : Nat := 0
  operator : Nat
  sid : Nat := 0
deriving DecidableEq

/-- `KVOperatorType_READ` -/
def kvOperatorTypeRead : Nat := 1

/-- `KVOperatorType_WRITE` -/
def kvOperatorTypeWrite : Nat := 2

/-- `KVOperatorType_DELETE` -/
def kvOperatorTypeDelete : Nat := 3

def KVOperator.fields (oper : KVOperator) : List Wire.Field :=
  optionalBytes 1 oper.key ++ optionalBytes 2 oper.value ++ optionalVarint 3 oper.version ++
    optionalVarint 4 oper.operator ++ optionalVarint 5 oper.sid

def serializeKVOperator (oper : KVOperator) : Bytes := Wire.encode oper.fields

def parseKVOperator (buffer : Bytes) : Option KVOperator := do
  let fields ← Wire.decode buffer
  if (Wire.buffers 1 fields).all isUTF8 then
    return { key := lastBytes 1 fields, value := lastBytes 2 fields, version := lastVarint 3 fields % 2 ^ 64,
             operator := lastVarint 4 fields % 2 ^ 32, sid := lastVarint 5 fields % 2 ^ 32 }
  else none

/-- `PhxKVSM::MakeOpValue`; `sid` is the random number. -/
def makeOpValue (key value : Bytes) (version operator sid : Nat) : Bytes :=
  serializeKVOperator { key := key, value := value, version := version, operator := operator, sid := sid }

theorem KVOperator.last_fields (oper : KVOperator) :
    lastBytes 1 oper.fields = oper.key ∧ lastBytes 2 oper.fields = oper.value ∧ lastVarint 3 oper.fields = oper.version ∧
      lastVarint 4 oper.fields = oper.operator ∧ lastVarint 5 oper.fields = oper.sid := by
  refine ⟨?_, ?_, ?_, ?_, ?_⟩
  · simpa [lastBytes, fields, buffers_append] using getLast_optional oper.key [] not_not.mp
  · simpa [lastBytes, fields, buffers_append] using getLast_optional oper.value [] not_not.mp
  · simpa [lastVarint, fields, varints_append] using getLast_optional oper.version 0 not_not.mp
  · simpa [lastVarint, fields, varints_append] using getLast_optional oper.operator 0 not_not.mp
  · simpa [lastVarint, fields, varints_append] using getLast_optional oper.sid 0 not_not.mp

/-- What is proposed for a key of text is what is executed. -/
theorem parse_makeOpValue {key value : Bytes} {version operator sid : Nat} (hkey : isUTF8 key = true)
    (hversion : version < 2 ^ 64) (hoperator : operator < 2 ^ 32) (hsid : sid < 2 ^ 32) :
    parseKVOperator (makeOpValue key value version operator sid) = some ⟨key, value, version, operator, sid⟩ := by
  obtain ⟨h₁, h₂, h₃, h₄, h₅⟩ := KVOperator.last_fields ⟨key, value, version, operator, sid⟩
  have hall : (Wire.buffers 1 (KVOperator.fields ⟨key, value, version, operator, sid⟩)).all isUTF8 = true := by
    by_cases hnil : key = [] <;> simp [KVOperator.fields, buffers_append, hnil, hkey]
  unfold parseKVOperator makeOpValue serializeKVOperator
  rw [Wire.decode_encode, Option.bind_eq_bind, Option.bind_some, if_pos hall, h₁, h₂, h₃, h₄, h₅,
    Nat.mod_eq_of_lt hversion, Nat.mod_eq_of_lt hoperator, Nat.mod_eq_of_lt hsid]
  rfl

/-! ## The client of the database -/

inductive KVClientRet
  | ok
  | sysFail
  | keyNotExist
  | keyVersionConflict
deriving DecidableEq

/-- Which calls of the database fail. -/
structure KVEnv where
  getFails : Bool := false
  putFails : Bool := false
  syncFails : Bool := false
deriving DecidableEq

abbrev LevelDB := List (Bytes × Bytes)

theorem LevelDB.lookup_set (db : LevelDB) (k j buffer : Bytes) :
    List.lookup j (Files.set db k buffer) = if j = k then some buffer else List.lookup j db := by
  unfold Files.set
  rw [List.lookup_cons]
  by_cases h : j = k
  · simp [h]
  · simp [h, beq_eq_false_iff_ne.mpr h]

/-- `KV_CHECKPOINT_KEY` -/
def kvCheckpointKey : Bytes := List.replicate 8 0xff

namespace KVClient

/-- `KVClient::Get` with the value and the version that it sets. -/
def get (fails : Bool) (key : Bytes) (db : LevelDB) : KVClientRet × Bytes × Nat :=
  if fails then (.sysFail, [], 0)
  else
    match db.lookup key with
    | none => (.keyNotExist, [], 0)
    | some buffer =>
      match parseKVData buffer with
      | none => (.sysFail, [], 0)
      | some data => if data.isdeleted then (.keyNotExist, [], data.version) else (.ok, data.value, data.version)

/-- What `KVClient::Set` and `KVClient::Del` have in common; `data` is what is written, from the value and the version that
were read. -/
def change (env : KVEnv) (key : Bytes) (version : Nat) (data : Bytes → Nat → KVData) (db : LevelDB) : KVClientRet × LevelDB :=
  let (ret, serverValue, serverVersion) := get env.getFails key db
  if ret ≠ .ok ∧ ret ≠ .keyNotExist then (.sysFail, db)
  else if serverVersion ≠ version then (.keyVersionConflict, db)
  else if env.putFails then (.sysFail, db)
  else (.ok, Files.set db key (serializeKVData (data serverValue (serverVersion + 1))))

def set (env : KVEnv) (key value : Bytes) (version : Nat) (db : LevelDB) : KVClientRet × LevelDB :=
  change env key version (fun _ serverVersion => ⟨value, serverVersion, false⟩) db

def del (env : KVEnv) (key : Bytes) (version : Nat) (db : LevelDB) : KVClientRet × LevelDB :=
  change env key version (fun serverValue serverVersion => ⟨serverValue, serverVersion, true⟩) db

def getCheckpointInstanceID (fails : Bool) (db : LevelDB) : KVClientRet × UInt64 :=
  if fails then (.sysFail, 0)
  else
    match db.lookup kvCheckpointKey with
    | none => (.keyNotExist, 0)
    | some buffer => (.ok, UInt64.ofNat (Files.decodeLE (buffer.take 8)))

def setCheckpointInstanceID (fails : Bool) (id : UInt64) (db : LevelDB) : KVClientRet × LevelDB :=
  if fails then (.sysFail, db) else (.ok, Files.set db kvCheckpointKey (Files.encodeLE 8 id.toNat))

end KVClient

/-! ## The state machine -/

/-- What the client that waits for an operation is told; the version is not set by a write. -/
structure PhxKVSMCtx where
  executeRet : KVClientRet
  readValue : Bytes := []
  readVersion : Option Nat := none
deriving DecidableEq

/-- `synced` counts the writes that are on disk. -/
structure PhxKVSM where
  db : LevelDB := []
  synced : Nat := 0
  checkpointInstanceID : UInt64 := noCheckpoint
  skipSyncCheckpointTimes : Nat := 0

namespace PhxKVSM

/-- `PhxKVSM::Init` of a new object on a database; `none` when it fails. -/
def init (readFails : Bool) (db : LevelDB) (synced : Nat) : Option PhxKVSM :=
  let (ret, id) := KVClient.getCheckpointInstanceID readFails db
  if ret ≠ .ok ∧ ret ≠ .keyNotExist then none
  else some { db, synced, checkpointInstanceID := if ret = .keyNotExist then noCheckpoint else id }

def syncCheckpointInstanceID (fails : Bool) (instanceID : Nat) (sm : PhxKVSM) : PhxKVSM :=
  if sm.skipSyncCheckpointTimes < 5 then { sm with skipSyncCheckpointTimes := sm.skipSyncCheckpointTimes + 1 }
  else
    let id := UInt64.ofNat instanceID
    let (ret, db) := KVClient.setCheckpointInstanceID fails id sm.db
    if ret ≠ .ok then { sm with skipSyncCheckpointTimes := sm.skipSyncCheckpointTimes + 1 }
    else { db, synced := db.length, checkpointInstanceID := id, skipSyncCheckpointTimes := 0 }

/-- The end of `PhxKVSM::Execute`, when the client of the database has returned. -/
def finish (env : KVEnv) (instanceID : Nat) (ctx : PhxKVSMCtx) (sm : PhxKVSM) : (Option PhxKVSMCtx × Bool) × PhxKVSM :=
  if ctx.executeRet = .sysFail then ((none, false), sm)
  else ((some ctx, true), sm.syncCheckpointInstanceID env.syncFails instanceID)

/-- `PhxKVSM::Execute` with what it tells the client that waits. -/
def execute (env : KVEnv) (instanceID : Nat) (paxosValue : Bytes) (sm : PhxKVSM) : (Option PhxKVSMCtx × Bool) × PhxKVSM :=
  match parseKVOperator paxosValue with
  | none => ((none, true), sm)
  | some oper =>
    if oper.operator = kvOperatorTypeRead then
      let (ret, readValue, readVersion) := KVClient.get env.getFails oper.key sm.db
      sm.finish env instanceID { executeRet := ret, readValue := readValue, readVersion := some readVersion }
    else if oper.operator = kvOperatorTypeWrite then
      let (ret, db) := KVClient.set env oper.key oper.value oper.version sm.db
      { sm with db := db }.finish env instanceID { executeRet := ret }
    else if oper.operator = kvOperatorTypeDelete then
      let (ret, db) := KVClient.del env oper.key oper.version sm.db
      { sm with db := db }.finish env instanceID { executeRet := ret }
    else ((none, true), sm)

end PhxKVSM

/-! ## The process -/

/-- `m_iGroupCount` -/
def kvGroupCount : Nat := 3

/-- `PhxKV::GetGroupIdx` -/
def getGroupIdx (key : Bytes) : Nat :=
  (key.foldl (fun hash b => (hash * 7 + toUInt32 b.toInt8.toInt) % 2 ^ 32) 0) % kvGroupCount

/-- A process of the store: `next g` is the instance that group `g` executes next. `top g` is history, the furthest that
group `g` has come. -/
structure PhxKV where
  sm : PhxKVSM := {}
  running : Bool := false
  next : Nat → Nat := fun _ => 0
  top : Nat → Nat := fun _ => 0

inductive KVEvent
  /-- A group executes the value of its next instance. -/
  | execute (g : Nat) (env : KVEnv)
  /-- The process is killed, or the machine fails and the database loses that many of its latest writes. -/
  | crash (lost : Nat)
  /-- The process is started; `logMax g` is the last instance in the log of group `g`. -/
  | start (readFails : Bool) (logMax : Nat → Nat)

namespace PhxKV

def advance (g : Nat) (s : PhxKV) : PhxKV :=
  { s with next := Function.update s.next g (s.next g + 1), top := Function.update s.top g (max (s.top g) (s.next g + 1)) }

/-- What is executed next in group `g`, when the values in the logs of the groups are `log`. -/
def executeNext (log : Nat → Nat → Option Bytes) (g : Nat) (env : KVEnv) (s : PhxKV) :
    (Option PhxKVSMCtx × Bool) × PhxKVSM :=
  match log g (s.next g) with
  | none => ((none, true), s.sm)
  | some value => s.sm.execute env (s.next g) value

/-- `Instance::Init` of a group with this log accepts a checkpoint before the instance `start`. -/
def Starts (start logMax : Nat) : Prop := start ≤ logMax + 1 ∨ logMax = 0

instance (start logMax : Nat) : Decidable (Starts start logMax) := inferInstanceAs (Decidable (_ ∨ _))

def step (log : Nat → Nat → Option Bytes) (e : KVEvent) (s : PhxKV) : PhxKV :=
  match e with
  | .execute g env =>
    if s.running = true ∧ g < kvGroupCount ∧ s.next g < noCheckpoint.toNat then
      let ((_, ok), sm) := s.executeNext log g env
      if ok then { s with sm := sm }.advance g else { s with sm := sm }
    else s
  | .crash lost =>
    { s with running := false, sm.db := s.sm.db.drop (min lost (s.sm.db.length - s.sm.synced)) }
  | .start readFails logMax =>
    if s.running then s
    else
      match PhxKVSM.init readFails s.sm.db s.sm.synced with
      | none => s
      | some sm =>
        let start := nextInstance sm.checkpointInstanceID
        -- the groups replay their logs from here by `execute`
        if ∀ g < kvGroupCount, Starts start (logMax g) then
          { sm := sm, running := true, next := fun _ => start, top := fun g => max (s.top g) start }
        else s

end PhxKV

end PhxPaxos
