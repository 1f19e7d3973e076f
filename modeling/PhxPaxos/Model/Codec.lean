import PhxPaxos.Abstract.Wire
import PhxPaxos.Model.Run

/-!
# The messages that values hold

The protobuf messages that are proposed as values or kept in the storage: system variables and batches.
-/

namespace PhxPaxos

/-! ## System variables -/

/-- A `PaxosNodeInfo`, with `Rid` 0. -/
def serializeNodeInfo (nodeID : NodeID) : Bytes := Wire.encode [(1, .varint 0), (2, .varint nodeID)]

def parseNodeInfo (buffer : Bytes) : Option NodeID := do
  let fields ← Wire.decode buffer
  let _ ← (Wire.varints 1 fields).getLast?
  (Wire.varints 2 fields).getLast?

@[simp] theorem parse_serializeNodeInfo (nodeID : NodeID) : parseNodeInfo (serializeNodeInfo nodeID) = some nodeID := by
  simp [parseNodeInfo, serializeNodeInfo, Wire.decode_encode, Wire.varints]

def SystemVariables.fields (v : SystemVariables) : List Wire.Field :=
  (1, .varint v.gid) :: v.memberShip.map (fun n => (2, .bytes (serializeNodeInfo n))) ++ [(3, .varint v.version)]

def serializeSystemVariables (v : SystemVariables) : Bytes := Wire.encode v.fields

def parseSystemVariables (buffer : Bytes) : Option SystemVariables := do
  let fields ← Wire.decode buffer
  let gid ← (Wire.varints 1 fields).getLast?
  let memberShip ← (Wire.buffers 2 fields).mapM parseNodeInfo
  let version ← (Wire.varints 3 fields).getLast?
  some ⟨gid, memberShip, version⟩

theorem SystemVariables.varints_members (memberShip : List NodeID) (number : Nat) :
    Wire.varints number (memberShip.map fun n => (2, .bytes (serializeNodeInfo n))) = [] := by
  simp [Wire.varints]

theorem SystemVariables.buffers_members (memberShip : List NodeID) :
    Wire.buffers 2 (memberShip.map fun n => (2, .bytes (serializeNodeInfo n))) = memberShip.map serializeNodeInfo := by
  induction memberShip with
  | nil => rfl
  | cons n ns ih => simp [Wire.buffers]

theorem mapM_parseNodeInfo (memberShip : List NodeID) :
    (memberShip.map serializeNodeInfo).mapM parseNodeInfo = some memberShip := by
  induction memberShip with
  | nil => rfl
  | cons n ns ih => simp [List.mapM_cons, ih]

/-- What is serialized is parsed again. -/
theorem parse_serializeSystemVariables (v : SystemVariables) : parseSystemVariables (serializeSystemVariables v) = some v := by
  have h₁ : Wire.varints 1 v.fields = [v.gid] := by
    have := SystemVariables.varints_members v.memberShip 1
    simp only [Wire.varints] at this
    simp [Wire.varints, SystemVariables.fields, this]
  have h₂ : Wire.buffers 2 v.fields = v.memberShip.map serializeNodeInfo := by
    have := SystemVariables.buffers_members v.memberShip
    simp only [Wire.buffers] at this
    simp [Wire.buffers, SystemVariables.fields, this]
  have h₃ : Wire.varints 3 v.fields = [v.version] := by
    have := SystemVariables.varints_members v.memberShip 3
    simp only [Wire.varints] at this
    simp [Wire.varints, SystemVariables.fields, this]
  unfold parseSystemVariables serializeSystemVariables
  rw [Wire.decode_encode, Option.bind_eq_bind, Option.bind_some, h₁, h₂, h₃, mapM_parseNodeInfo]
  rfl

theorem serializeSystemVariables_ne_nil (v : SystemVariables) : serializeSystemVariables v ≠ [] := by
  simp [serializeSystemVariables, SystemVariables.fields, Wire.encode, Wire.encodeField_ne_nil]

/-! ## Batches -/

/-- What the varint of an `int32` field holds: 64 bits, with the sign in all of the upper ones. -/
def int32Varint (n : Nat) : Nat := if n < 2 ^ 31 then n else 2 ^ 64 - 2 ^ 32 + n

/-- A `PaxosValue`; its SMID is the `uint32_t` of the `int32` that is sent. -/
def serializePaxosValue (v : PaxosValue) : Bytes :=
  Wire.encode [(1, .varint (int32Varint v.smid)), (2, .bytes v.value)]

def parsePaxosValue (buffer : Bytes) : Option PaxosValue := do
  let fields ← Wire.decode buffer
  let smid ← (Wire.varints 1 fields).getLast?
  let value ← (Wire.buffers 2 fields).getLast?
  some ⟨smid % 2 ^ 32, value⟩

def serializeBatchPaxosValues (vs : List PaxosValue) : Bytes :=
  Wire.encode (vs.map fun v => (1, .bytes (serializePaxosValue v)))

def parseBatchPaxosValues (buffer : Bytes) : Option (List PaxosValue) := do
  let fields ← Wire.decode buffer
  (Wire.buffers 1 fields).mapM parsePaxosValue

theorem int32Varint_mod {n : Nat} (h : n < 2 ^ 32) : int32Varint n % 2 ^ 32 = n := by
  unfold int32Varint
  split
  · omega
  · omega

theorem parse_serializePaxosValue {v : PaxosValue} (h : v.smid < 2 ^ 32) :
    parsePaxosValue (serializePaxosValue v) = some v := by
  have hmod : int32Varint v.smid % 4294967296 = v.smid := int32Varint_mod h
  simp [parsePaxosValue, serializePaxosValue, Wire.decode_encode, Wire.varints, Wire.buffers, hmod]

theorem parse_serializeBatchPaxosValues {vs : List PaxosValue} (hsmid : ∀ v ∈ vs, v.smid < 2 ^ 32) :
    parseBatchPaxosValues (serializeBatchPaxosValues vs) = some vs := by
  have h : Wire.buffers 1 (vs.map fun v => (1, .bytes (serializePaxosValue v))) = vs.map serializePaxosValue := by
    clear hsmid
    induction vs with
    | nil => rfl
    | cons v vs ih => simp [Wire.buffers]
  have hm : (vs.map serializePaxosValue).mapM parsePaxosValue = some vs := by
    clear h
    induction vs with
    | nil => rfl
    | cons v vs ih =>
      obtain ⟨hv, hvs⟩ := List.forall_mem_cons.mp hsmid
      simp [List.mapM_cons, parse_serializePaxosValue hv, ih hvs]
  unfold parseBatchPaxosValues serializeBatchPaxosValues
  rw [Wire.decode_encode, Option.bind_eq_bind, Option.bind_some, h, hm]

/-- The library with its messages and the user's state machines `smids`. -/
def Params.protobuf (smids : List Nat) : Params := { Params.plain with
  parseSystemVariables := PhxPaxos.parseSystemVariables
  serializeSystemVariables := PhxPaxos.serializeSystemVariables
  parseBatchPaxosValues := PhxPaxos.parseBatchPaxosValues
  serializeBatchPaxosValues := PhxPaxos.serializeBatchPaxosValues
  smids := smids }

end PhxPaxos
