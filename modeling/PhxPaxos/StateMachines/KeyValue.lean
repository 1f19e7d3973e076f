import PhxPaxos.Abstract.Versioned
import PhxPaxos.Model.KeyValue

/-!
# The key-value store converges

Each key is a register with a version. A process of the store may lose writes that were not forced to disk, and starts
again from its checkpoint, so it executes operations that its database has seen already; and its groups share the
checkpoint. As long as no operation names a version from the future, and no group has an operation left to execute below
the checkpoint when this is written, what a process has of a key is what the first operations of its group leave
(`kv_converges`), and of the operations that name one version of a key at most one is told that it succeeded
(`kv_succeeds_once`).

Without the first condition an operation that failed succeeds when it is replayed (`future_version_diverges`), without the
second a group skips operations (`shared_checkpoint_skips`).
-/

namespace PhxPaxos

open Versioned

abbrev KVOp := Op Bytes (Bytes × Bool)

abbrev KVEntry := Entry (Bytes × Bool)

/-! ## Registers in the database -/

/-- What the database keeps of a register: a deleted key keeps its value. -/
def KVData.ofEntry (e : KVEntry) : KVData := ⟨e.value.1, e.version, e.value.2⟩

/-- The value of a key that is not deleted. -/
def liveValue : Option (Bytes × Bool) → Bytes
  | none => []
  | some (value, isdeleted) => if isdeleted then [] else value

/-- The operation on the register, if it is one that changes it. -/
def KVOperator.op (oper : KVOperator) : Option KVOp :=
  if oper.operator = kvOperatorTypeWrite then some ⟨oper.key, oper.version, fun _ => (oper.value, false)⟩
  else if oper.operator = kvOperatorTypeDelete then some ⟨oper.key, oper.version, fun old => (liveValue old, true)⟩
  else none

theorem KVOperator.op_fields {oper : KVOperator} {op : KVOp} (h : oper.op = some op) :
    op.key = oper.key ∧ op.version = oper.version := by
  unfold KVOperator.op at h
  split at h
  · cases h
    exact ⟨rfl, rfl⟩
  · split at h <;> cases h
    exact ⟨rfl, rfl⟩

/-- What `KVClient::Get` reads of a register. -/
def readEntry : Option KVEntry → KVClientRet × Bytes × Nat
  | none => (.keyNotExist, [], 0)
  | some e => if e.value.2 then (.keyNotExist, [], e.version) else (.ok, e.value.1, e.version)

/-- What the client is told. -/
def KVOperator.result (oper : KVOperator) (d : Option KVEntry) : PhxKVSMCtx :=
  match oper.op with
  | none => { executeRet := (readEntry d).1, readValue := (readEntry d).2.1, readVersion := some (readEntry d).2.2 }
  | some op => { executeRet := if op.Succeeds d then .ok else .keyVersionConflict }

/-- The database holds the registers. -/
def LevelDB.Holds (db : LevelDB) (f : Bytes → Option KVEntry) : Prop :=
  ∀ key, key ≠ kvCheckpointKey → db.lookup key = (f key).map fun e => serializeKVData (KVData.ofEntry e)

theorem readEntry_ret (d : Option KVEntry) : (readEntry d).1 = .ok ∨ (readEntry d).1 = .keyNotExist := by
  unfold readEntry
  split
  · exact Or.inr rfl
  · split
    · exact Or.inr rfl
    · exact Or.inl rfl

theorem readEntry_version (d : Option KVEntry) : (readEntry d).2.2 = versionOf d := by
  unfold readEntry
  split
  · rfl
  · split <;> rfl

theorem readEntry_value (d : Option KVEntry) : (readEntry d).2.1 = liveValue (d.map Entry.value) := by
  cases d with
  | none => rfl
  | some e =>
    obtain ⟨⟨value, isdeleted⟩, version⟩ := e
    cases isdeleted <;> rfl

section Client

variable {db db' : LevelDB} {f : Bytes → Option KVEntry} {key : Bytes}

theorem LevelDB.Holds.get (h : LevelDB.Holds db f) (hkey : key ≠ kvCheckpointKey) :
    KVClient.get false key db = readEntry (f key) := by
  unfold KVClient.get
  rw [if_neg Bool.false_ne_true, h key hkey]
  cases f key with
  | none => rfl
  | some e =>
    simp only [Option.map_some, parse_serializeKVData]
    rfl

/-- What is written under a key is the new content of its register. -/
theorem LevelDB.Holds.set (h : LevelDB.Holds db f) (hkey : key ≠ kvCheckpointKey) (e : KVEntry) :
    LevelDB.Holds (Files.set db key (serializeKVData (KVData.ofEntry e))) (Function.update f key (some e)) := by
  intro k hk
  rw [LevelDB.lookup_set]
  by_cases heq : k = key
  · subst heq
    rw [if_pos rfl, Function.update_self]
    rfl
  · rw [if_neg heq, Function.update_of_ne heq]
    exact h k hk

/-- The checkpoint is no register. -/
theorem LevelDB.Holds.setCheckpoint (h : LevelDB.Holds db f) (buffer : Bytes) :
    LevelDB.Holds (Files.set db kvCheckpointKey buffer) f := by
  intro k hk
  rw [LevelDB.lookup_set, if_neg hk]
  exact h k hk

/-- The database has got what the operation writes. -/
structure Wrote (f : Bytes → Option KVEntry) (o : Option KVOp) (db db' : LevelDB) : Prop where
  holds : LevelDB.Holds db' (applyTo o f)
  eq : db' = db ∨ ∃ key buffer, key ≠ kvCheckpointKey ∧ db' = Files.set db key buffer

theorem Wrote.nothing (h : LevelDB.Holds db f) : Wrote f none db db := ⟨h, Or.inl rfl⟩

/-- `Set` and `Del` fail, or do what the operation does to its register. -/
theorem LevelDB.Holds.change (h : LevelDB.Holds db f) {op : KVOp} (hkey : op.key ≠ kvCheckpointKey) (env : KVEnv)
    {data : Bytes → Nat → KVData}
    (hdata : ∀ old version, data (liveValue old) version = KVData.ofEntry ⟨op.update old, version⟩) :
    KVClient.change env op.key op.version data db = (.sysFail, db) ∨
      (KVClient.change env op.key op.version data db).1 = (if op.Succeeds (f op.key) then .ok else .keyVersionConflict) ∧
        Wrote f (some op) db (KVClient.change env op.key op.version data db).2 := by
  unfold KVClient.change
  cases hget : env.getFails with
  | true => exact Or.inl rfl
  | false =>
    simp only [h.get hkey]
    have hret := readEntry_ret (f op.key)
    have hread : ¬ ((readEntry (f op.key)).1 ≠ .ok ∧ (readEntry (f op.key)).1 ≠ .keyNotExist) := by tauto
    rw [if_neg hread, readEntry_version, readEntry_value]
    by_cases hversion : op.Succeeds (f op.key)
    · have heq : versionOf (f op.key) = op.version := hversion
      rw [if_neg (not_not.mpr heq), if_pos hversion]
      split
      · exact Or.inl rfl
      · right
        refine ⟨rfl, ?_, Or.inr ⟨_, _, hkey, rfl⟩⟩
        rw [hdata, heq, applyTo_some, Op.apply_of_succeeds hversion]
        exact h.set hkey _
    · right
      have hne : versionOf (f op.key) ≠ op.version := hversion
      rw [if_pos hne, if_neg hversion]
      refine ⟨rfl, ?_, Or.inl rfl⟩
      rw [applyTo_of_not_succeeds hversion]
      exact h

end Client

/-- A key that is UTF-8 is not the key of the checkpoint. -/
theorem parseKVOperator_key {buffer : Bytes} {oper : KVOperator} (h : parseKVOperator buffer = some oper) :
    oper.key ≠ kvCheckpointKey := by
  unfold parseKVOperator at h
  obtain ⟨fields, -, h⟩ := Option.bind_eq_some_iff.mp h
  split at h
  · rename_i hall
    cases h
    have hnot : isUTF8 kvCheckpointKey = false := by decide
    intro heq
    change lastBytes 1 fields = kvCheckpointKey at heq
    unfold lastBytes at heq
    cases hlast : (Wire.buffers 1 fields).getLast? with
    | none =>
      rw [hlast] at heq
      cases heq
    | some key =>
      rw [hlast] at heq
      have hkey := List.all_eq_true.mp hall key (List.mem_of_getLast? hlast)
      rw [show key = kvCheckpointKey from heq, hnot] at hkey
      cases hkey
  · cases h

/-! ## Executing -/

/-- The instance after the checkpoint that is stored. -/
def storedStart (db : LevelDB) : Nat :=
  match db.lookup kvCheckpointKey with
  | none => 0
  | some buffer => nextInstance (UInt64.ofNat (Files.decodeLE (buffer.take 8)))

theorem init_some {readFails : Bool} {db : LevelDB} {synced : Nat} {sm : PhxKVSM}
    (h : PhxKVSM.init readFails db synced = some sm) :
    sm.db = db ∧ sm.synced = synced ∧ nextInstance sm.checkpointInstanceID = storedStart db := by
  unfold PhxKVSM.init KVClient.getCheckpointInstanceID at h
  unfold storedStart
  cases readFails with
  | true => cases h
  | false =>
    cases hlookup : db.lookup kvCheckpointKey with
    | none =>
      simp only [Bool.false_eq_true, if_false, hlookup] at h
      cases h
      refine ⟨rfl, rfl, ?_⟩
      change nextInstance (if True then noCheckpoint else 0) = 0
      rw [if_true]
      decide
    | some buffer =>
      simp only [Bool.false_eq_true, if_false, hlookup] at h
      cases h
      exact ⟨rfl, rfl, rfl⟩

/-- The checkpoint that was written. -/
theorem storedStart_set (db : LevelDB) {i : Nat} (hi : i < noCheckpoint.toNat) :
    storedStart (Files.set db kvCheckpointKey (Files.encodeLE 8 (UInt64.ofNat i).toNat)) = i + 1 := by
  have hlt : i < 18446744073709551615 := hi
  have htake : (Files.encodeLE 8 (UInt64.ofNat i).toNat).take 8 = Files.encodeLE 8 (UInt64.ofNat i).toNat :=
    List.take_of_length_le (by rw [Files.encodeLE_length])
  unfold storedStart
  rw [LevelDB.lookup_set, if_pos rfl]
  simp only [htake]
  rw [Files.decodeLE_encodeLE (UInt64.ofNat i).toNat_lt, UInt64.ofNat_toNat]
  unfold nextInstance
  rw [UInt64.toNat_add, UInt64.toNat_ofNat']
  change (i % 18446744073709551616 + 1) % 18446744073709551616 = i + 1
  omega

/-- What an execution leaves of the state machine whose database is `db` by now. -/
inductive Settled (env : KVEnv) (i : Nat) (sm : PhxKVSM) (db : LevelDB) (sm' : PhxKVSM) : Prop
  /-- The checkpoint is left alone. -/
  | kept : sm'.db = db → sm'.synced = sm.synced → Settled env i sm db sm'
  /-- The checkpoint is written. -/
  | synced : 5 ≤ sm.skipSyncCheckpointTimes → env.syncFails = false →
      sm'.db = Files.set db kvCheckpointKey (Files.encodeLE 8 (UInt64.ofNat i).toNat) → sm'.synced = sm'.db.length →
      Settled env i sm db sm'

theorem syncCheckpointInstanceID_settled (env : KVEnv) (i : Nat) (sm : PhxKVSM) (db : LevelDB) :
    Settled env i sm db (({ sm with db := db } : PhxKVSM).syncCheckpointInstanceID env.syncFails i) := by
  unfold PhxKVSM.syncCheckpointInstanceID KVClient.setCheckpointInstanceID
  by_cases hskip : sm.skipSyncCheckpointTimes < 5
  · rw [if_pos hskip]
    exact .kept rfl rfl
  · rw [if_neg hskip]
    cases hfails : env.syncFails with
    | true => exact .kept rfl rfl
    | false => exact .synced (Nat.not_lt.mp hskip) hfails rfl rfl

/-- Everything that one execution may do, when the database holds `f`. -/
inductive KVExecuted (env : KVEnv) (i : Nat) (f : Bytes → Option KVEntry) (oper : Option KVOperator) (sm : PhxKVSM) :
    (Option PhxKVSMCtx × Bool) × PhxKVSM → Prop
  | failed : KVExecuted env i f oper sm ((none, false), sm)
  /-- There is nothing to do. -/
  | skipped : oper.bind KVOperator.op = none → KVExecuted env i f oper sm ((none, true), sm)
  | done {o db sm'} : oper = some o → Wrote f o.op sm.db db → Settled env i sm db sm' →
      KVExecuted env i f oper sm ((some (o.result (f o.key)), true), sm')

theorem finish_executed {env : KVEnv} {i : Nat} {f : Bytes → Option KVEntry} {oper : KVOperator} {sm : PhxKVSM} {db : LevelDB}
    {ctx : PhxKVSMCtx} (hfails : ctx.executeRet = .sysFail → db = sm.db)
    (hdone : ctx.executeRet ≠ .sysFail → ctx = oper.result (f oper.key) ∧ Wrote f oper.op sm.db db) :
    KVExecuted env i f (some oper) sm (({ sm with db := db } : PhxKVSM).finish env i ctx) := by
  unfold PhxKVSM.finish
  by_cases hret : ctx.executeRet = .sysFail
  · rw [if_pos hret, hfails hret]
    exact .failed
  · obtain ⟨rfl, hwrote⟩ := hdone hret
    rw [if_neg hret]
    exact .done rfl hwrote (syncCheckpointInstanceID_settled env i sm db)

theorem change_executed {env : KVEnv} {i : Nat} {f : Bytes → Option KVEntry} {sm : PhxKVSM} (h : LevelDB.Holds sm.db f)
    {oper : KVOperator} {op : KVOp} (hop : oper.op = some op) (hkey : op.key ≠ kvCheckpointKey) {data : Bytes → Nat → KVData}
    (hdata : ∀ old version, data (liveValue old) version = KVData.ofEntry ⟨op.update old, version⟩) :
    KVExecuted env i f (some oper) sm
      (({ sm with db := (KVClient.change env op.key op.version data sm.db).2 } : PhxKVSM).finish env i
        { executeRet := (KVClient.change env op.key op.version data sm.db).1 }) := by
  rcases h.change hkey env hdata with heq | ⟨hret, hwrote⟩
  · rw [heq]
    apply finish_executed
    · exact fun _ => rfl
    · exact fun hret => absurd rfl hret
  · apply finish_executed
    · intro hfail
      rw [hret] at hfail
      split at hfail <;> cases hfail
    · intro _
      rw [hop]
      refine ⟨?_, hwrote⟩
      unfold KVOperator.result
      rw [hop, hret, (KVOperator.op_fields hop).1]

theorem execute_executed {env : KVEnv} {i : Nat} {f : Bytes → Option KVEntry} {sm : PhxKVSM} (h : LevelDB.Holds sm.db f)
    (value : Bytes) : KVExecuted env i f (parseKVOperator value) sm (sm.execute env i value) := by
  unfold PhxKVSM.execute
  cases hparse : parseKVOperator value with
  | none => exact .skipped rfl
  | some oper =>
    have hkey := parseKVOperator_key hparse
    simp only []
    by_cases hread : oper.operator = kvOperatorTypeRead
    · have hop : oper.op = none := by
        unfold KVOperator.op
        rw [hread, if_neg (by decide), if_neg (by decide)]
      rw [if_pos hread]
      cases hget : env.getFails with
      | true => exact .failed
      | false =>
        rw [h.get hkey]
        change KVExecuted env i f (some oper) sm (({ sm with db := sm.db } : PhxKVSM).finish env i _)
        apply finish_executed
        · exact fun _ => rfl
        · intro _
          refine ⟨?_, hop ▸ .nothing h⟩
          unfold KVOperator.result
          rw [hop]
    · rw [if_neg hread]
      by_cases hwrite : oper.operator = kvOperatorTypeWrite
      · rw [if_pos hwrite]
        have hop : oper.op = some ⟨oper.key, oper.version, fun _ => (oper.value, false)⟩ := if_pos hwrite
        exact change_executed h hop hkey fun _ _ => rfl
      · rw [if_neg hwrite]
        by_cases hdelete : oper.operator = kvOperatorTypeDelete
        · rw [if_pos hdelete]
          have hop : oper.op = some ⟨oper.key, oper.version, fun old => (liveValue old, true)⟩ := by
            unfold KVOperator.op
            rw [if_neg hwrite, if_pos hdelete]
          exact change_executed h hop hkey fun _ _ => rfl
        · rw [if_neg hdelete]
          apply KVExecuted.skipped
          change oper.op = none
          unfold KVOperator.op
          rw [if_neg hwrite, if_neg hdelete]

/-! ## Processes of the store -/

namespace PhxKV

section Process

variable (log : Nat → Nat → Option Bytes)

def operatorAt (g i : Nat) : Option KVOperator := (log g i).bind parseKVOperator

/-- The operation on a register at instance `i` of group `g`. -/
def kvOps (g i : Nat) : Option KVOp := (operatorAt log g i).bind KVOperator.op

/-- An operation is proposed in the group of its key. -/
def Routed : Prop := ∀ g i oper, operatorAt log g i = some oper → getGroupIdx oper.key = g

/-- No operation names a version that its key does not have yet. -/
def KVNotFuture : Prop := ∀ g, NotFuture (kvOps log g)

/-- The registers after the first `r g` instances of each group `g`. -/
def merged (r : Nat → Nat) (key : Bytes) : Option KVEntry := after (kvOps log (getGroupIdx key)) (r (getGroupIdx key)) key

/-- The checkpoint is written at an instance up to which another group has an operation left to execute. -/
def Overtakes (s : PhxKV) : KVEvent → Prop
  | .execute g env => 5 ≤ s.sm.skipSyncCheckpointTimes ∧ env.syncFails = false ∧
      ∃ g' i, g' ≠ g ∧ s.next g' ≤ i ∧ i ≤ s.next g ∧ (kvOps log g' i).isSome = true
  | _ => False

/-- The states of a process, on an empty database at first, whose checkpoints overtake no group. -/
inductive KVRun : PhxKV → Prop
  | init : KVRun {}
  | step {s e} : KVRun s → ¬ Overtakes log s e → KVRun (s.step log e)

/-- The registers that a database holds: those after `r g` instances of each group, which has come so far, and everything that
the checkpoint covers. -/
structure Seen (s : PhxKV) (db : LevelDB) (r : Nat → Nat) : Prop where
  holds : LevelDB.Holds db (merged log r)
  le_top : ∀ g, r g ≤ s.top g
  covered : ∀ g i, r g ≤ i → i < storedStart s.sm.db → kvOps log g i = none

/-- What holds of a process: whatever writes it loses now, the rest was written while the checkpoint stood as it does. -/
structure Follows (s : PhxKV) : Prop where
  synced_le : s.sm.synced ≤ s.sm.db.length
  checkpoint : ∀ n, n + s.sm.synced ≤ s.sm.db.length → storedStart (s.sm.db.drop n) = storedStart s.sm.db
  durable : ∀ n, n + s.sm.synced ≤ s.sm.db.length → ∃ r, Seen log s (s.sm.db.drop n) r
  running : s.running = true → ∃ r, Seen log s s.sm.db r ∧ ∀ g, s.next g ≤ r g

end Process

variable {log : Nat → Nat → Option Bytes} {s : PhxKV} {r : Nat → Nat} {g i : Nat}

/-- Only the registers of a group change with its place. -/
theorem merged_update (r : Nat → Nat) (g k : Nat) (key : Bytes) :
    merged log (Function.update r g k) key =
      if getGroupIdx key = g then after (kvOps log g) k key else merged log r key := by
  unfold merged
  by_cases h : getGroupIdx key = g
  · rw [if_pos h, h, Function.update_self]
  · rw [if_neg h, Function.update_of_ne h]

theorem kvOps_group (hrouted : Routed log) {op : KVOp} (h : kvOps log g i = some op) : getGroupIdx op.key = g := by
  obtain ⟨oper, hoper, hop⟩ := Option.bind_eq_some_iff.mp h
  rw [(KVOperator.op_fields hop).1]
  exact hrouted g i oper hoper

/-- An execution at or before the place of its group moves the registers to the instance after it. -/
theorem applyTo_merged (hrouted : Routed log) (hnot : KVNotFuture log) (hle : i ≤ r g) :
    applyTo (kvOps log g i) (merged log r) = merged log (Function.update r g (max (r g) (i + 1))) := by
  funext key
  rw [merged_update]
  by_cases hkey : getGroupIdx key = g
  · have hsame : merged log r key = after (kvOps log g) (r g) key := by
      unfold merged
      rw [hkey]
    rw [if_pos hkey, applyTo_congr hsame]
    rcases Nat.eq_or_lt_of_le hle with rfl | hlt
    · rw [Nat.max_eq_right (Nat.le_succ _)]
      rfl
    · rw [Nat.max_eq_left hlt, applyTo_past (hnot g) hlt]
  · rw [if_neg hkey]
    apply applyTo_ne
    rintro op hop rfl
    exact hkey (kvOps_group hrouted hop)

/-- Where a group has no operations it may move on. -/
theorem merged_max {n : Nat} (h : ∀ g i, r g ≤ i → i < n → kvOps log g i = none) :
    merged log (fun g => max (r g) n) = merged log r := by
  funext key
  unfold merged
  rw [after_of_none (Nat.le_max_left _ _)]
  intro i hle hlt
  apply h _ i hle
  omega

theorem Seen.mono {s' : PhxKV} {db : LevelDB} (h : Seen log s db r) (htop : ∀ g, s.top g ≤ s'.top g)
    (hstart : storedStart s'.sm.db = storedStart s.sm.db) : Seen log s' db r where
  holds := h.holds
  le_top g := (h.le_top g).trans (htop g)
  covered g i hle hlt := h.covered g i hle (hstart ▸ hlt)

theorem Follows.init : Follows log {} where
  synced_le := le_rfl
  checkpoint n hn := by
    have hzero : n = 0 := by simpa using hn
    rw [hzero]
    rfl
  durable n hn := by
    refine ⟨fun _ => 0, ⟨fun key _ => ?_, fun _ => le_rfl, fun g i _ hlt => ?_⟩⟩
    · rw [List.drop_nil]
      rfl
    · cases hlt
  running hrun := by cases hrun

theorem Follows.crash (h : Follows log s) (lost : Nat) : Follows log (s.step log (.crash lost)) := by
  have hsynced := h.synced_le
  have hdrop (n : Nat) :
      (s.step log (.crash lost)).sm.db.drop n = s.sm.db.drop (min lost (s.sm.db.length - s.sm.synced) + n) :=
    List.drop_drop
  have hlength : (s.step log (.crash lost)).sm.db.length = s.sm.db.length - min lost (s.sm.db.length - s.sm.synced) :=
    List.length_drop
  have hstart : storedStart (s.step log (.crash lost)).sm.db = storedStart s.sm.db :=
    h.checkpoint (min lost (s.sm.db.length - s.sm.synced)) (by omega)
  constructor
  · rw [hlength]
    change s.sm.synced ≤ _
    omega
  · intro n hn
    rw [hlength] at hn
    change n + s.sm.synced ≤ _ at hn
    rw [hdrop, hstart]
    exact h.checkpoint _ (by omega)
  · intro n hn
    rw [hlength] at hn
    change n + s.sm.synced ≤ _ at hn
    obtain ⟨r, hr⟩ := h.durable (min lost (s.sm.db.length - s.sm.synced) + n) (by omega)
    rw [hdrop]
    exact ⟨r, hr.mono (fun _ => le_rfl) hstart⟩
  · exact fun hrun => by cases hrun

theorem Follows.start (h : Follows log s) (readFails : Bool) (logMax : Nat → Nat) :
    Follows log (s.step log (.start readFails logMax)) := by
  unfold PhxKV.step
  simp only []
  split
  · exact h
  · split
    · exact h
    · rename_i sm hsm
      obtain ⟨hdb, hsynced, hstart⟩ := init_some hsm
      split
      · obtain ⟨r, hr⟩ := h.durable 0 (by have := h.synced_le; omega)
        rw [List.drop_zero] at hr
        constructor
        · rw [hdb, hsynced]
          exact h.synced_le
        · rw [hdb, hsynced]
          exact h.checkpoint
        · rw [hdb, hsynced]
          intro n hn
          obtain ⟨r', hr'⟩ := h.durable n hn
          refine ⟨r', hr'.mono (fun _ => Nat.le_max_left _ _) ?_⟩
          rw [hdb]
        · intro _
          rw [hdb, hstart]
          refine ⟨fun g => max (r g) (storedStart s.sm.db), ⟨?_, fun g => ?_, fun g i hle hlt => ?_⟩, fun g => ?_⟩
          · rw [merged_max hr.covered]
            exact hr.holds
          · exact max_le_max (hr.le_top g) le_rfl
          · simp only [hdb] at hlt
            omega
          · exact Nat.le_max_right _ _
      · exact h

/-- The place of a group goes up, at most to where it has come to. -/
theorem le_update (r : Nat → Nat) (g n : Nat) (k : Nat) : r k ≤ Function.update r g (max (r g) n) k := by
  by_cases hk : k = g
  · subst hk
    rw [Function.update_self]
    exact Nat.le_max_left _ _
  · rw [Function.update_of_ne hk]

theorem storedStart_wrote {f : Bytes → Option KVEntry} {o : Option KVOp} {db db' : LevelDB} (h : Wrote f o db db') :
    storedStart db' = storedStart db := by
  rcases h.eq with rfl | ⟨key, buffer, hkey, rfl⟩
  · rfl
  · unfold storedStart
    rw [LevelDB.lookup_set, if_neg hkey.symm]

/-- What is left of a database that got a write is that database, or what was left before. -/
theorem drop_wrote {f : Bytes → Option KVEntry} {o : Option KVOp} {db db' : LevelDB} (h : Wrote f o db db') {n m : Nat}
    (hn : n + m ≤ db'.length) :
    db'.drop n = db' ∨ ∃ k, k + m ≤ db.length ∧ db'.drop n = db.drop k := by
  cases n with
  | zero => exact Or.inl rfl
  | succ n =>
    right
    rcases h.eq with rfl | ⟨key, buffer, -, rfl⟩
    · exact ⟨n + 1, hn, rfl⟩
    · refine ⟨n, ?_, rfl⟩
      simp only [Files.set, List.length_cons] at hn
      omega

theorem length_wrote {f : Bytes → Option KVEntry} {o : Option KVOp} {db db' : LevelDB} (h : Wrote f o db db') :
    db.length ≤ db'.length := by
  rcases h.eq with rfl | ⟨key, buffer, -, rfl⟩
  · exact le_rfl
  · exact Nat.le_succ _

section Execute

variable {env : KVEnv} {db : LevelDB} {sm : PhxKVSM}

/-- The registers that the database holds after an execution, while the checkpoint is not moved. -/
theorem Seen.wrote (hrouted : Routed log) (hnot : KVNotFuture log) (h : Seen log s s.sm.db r) (hnext : s.next g ≤ r g)
    (hwrote : Wrote (merged log r) (kvOps log g (s.next g)) s.sm.db db) (hdb : storedStart sm.db = storedStart s.sm.db) :
    Seen log (({ s with sm := sm } : PhxKV).advance g) db (Function.update r g (max (r g) (s.next g + 1))) where
  holds := by
    rw [← applyTo_merged hrouted hnot hnext]
    exact hwrote.holds
  le_top k := by
    change _ ≤ Function.update s.top g (max (s.top g) (s.next g + 1)) k
    by_cases hk : k = g
    · subst hk
      rw [Function.update_self, Function.update_self]
      exact max_le_max (h.le_top k) le_rfl
    · rw [Function.update_of_ne hk, Function.update_of_ne hk]
      exact h.le_top k
  covered k i hle hlt := by
    apply h.covered k i
    · exact (le_update r g (s.next g + 1) k).trans hle
    · change i < storedStart sm.db at hlt
      rwa [hdb] at hlt

/-- The instance that was executed comes before the new place. -/
theorem next_le_update (hnext : ∀ k, s.next k ≤ r k) (k : Nat) :
    (({ s with sm := sm } : PhxKV).advance g).next k ≤ Function.update r g (max (r g) (s.next g + 1)) k := by
  change Function.update s.next g (s.next g + 1) k ≤ _
  by_cases hk : k = g
  · subst hk
    rw [Function.update_self, Function.update_self]
    exact Nat.le_max_right _ _
  · rw [Function.update_of_ne hk, Function.update_of_ne hk]
    exact hnext k

theorem Follows.kept (hrouted : Routed log) (hnot : KVNotFuture log) (h : Follows log s) (hr : Seen log s s.sm.db r)
    (hnext : ∀ k, s.next k ≤ r k) (hwrote : Wrote (merged log r) (kvOps log g (s.next g)) s.sm.db db) (hdb : sm.db = db)
    (hsynced : sm.synced = s.sm.synced) : Follows log (({ s with sm := sm } : PhxKV).advance g) := by
  subst hdb
  have hstart := storedStart_wrote hwrote
  have hseen := hr.wrote hrouted hnot (hnext g) hwrote hstart
  have htop : ∀ k, s.top k ≤ (({ s with sm := sm } : PhxKV).advance g).top k := le_update s.top g (s.next g + 1)
  constructor
  · change sm.synced ≤ sm.db.length
    rw [hsynced]
    exact h.synced_le.trans (length_wrote hwrote)
  · intro n hn
    change n + sm.synced ≤ sm.db.length at hn
    change storedStart (sm.db.drop n) = storedStart sm.db
    rw [hsynced] at hn
    rcases drop_wrote hwrote hn with heq | ⟨k, hk, heq⟩
    · rw [heq]
    · rw [heq, hstart]
      exact h.checkpoint k hk
  · intro n hn
    change n + sm.synced ≤ sm.db.length at hn
    rw [hsynced] at hn
    change ∃ r, Seen log _ (sm.db.drop n) r
    rcases drop_wrote hwrote hn with heq | ⟨k, hk, heq⟩
    · rw [heq]
      exact ⟨_, hseen⟩
    · obtain ⟨r', hr'⟩ := h.durable k hk
      rw [heq]
      exact ⟨r', hr'.mono htop hstart⟩
  · exact fun _ => ⟨_, hseen, next_le_update hnext⟩

/-- When the checkpoint is written everything is on disk, and all groups have executed what it covers. -/
theorem Follows.synced (hrouted : Routed log) (hnot : KVNotFuture log) (hr : Seen log s s.sm.db r)
    (hnext : ∀ k, s.next k ≤ r k) (hwrote : Wrote (merged log r) (kvOps log g (s.next g)) s.sm.db db)
    (hlt : s.next g < noCheckpoint.toNat)
    (hdb : sm.db = Files.set db kvCheckpointKey (Files.encodeLE 8 (UInt64.ofNat (s.next g)).toNat))
    (hsynced : sm.synced = sm.db.length)
    (hbehind : ∀ k i, k ≠ g → s.next k ≤ i → i ≤ s.next g → kvOps log k i = none) :
    Follows log (({ s with sm := sm } : PhxKV).advance g) := by
  have hstart : storedStart sm.db = s.next g + 1 := by
    rw [hdb]
    exact storedStart_set db hlt
  -- the registers are those before the checkpoint was written
  have hold : Seen log (({ s with sm := { s.sm with db := db } } : PhxKV).advance g) db
      (Function.update r g (max (r g) (s.next g + 1))) := hr.wrote hrouted hnot (hnext g) hwrote (storedStart_wrote hwrote)
  have hseen : Seen log (({ s with sm := sm } : PhxKV).advance g) sm.db
      (Function.update r g (max (r g) (s.next g + 1))) := by
    refine ⟨?_, hold.le_top, fun k i hle hlt' => ?_⟩
    · rw [hdb]
      exact hold.holds.setCheckpoint _
    · change i < storedStart sm.db at hlt'
      rw [hstart] at hlt'
      by_cases hk : k = g
      · subst hk
        rw [Function.update_self] at hle
        omega
      · rw [Function.update_of_ne hk] at hle
        exact hbehind k i hk ((hnext k).trans hle) (Nat.lt_succ_iff.mp hlt')
  have hzero {n : Nat} (hn : n + sm.synced ≤ sm.db.length) : n = 0 := by omega
  constructor
  · change sm.synced ≤ sm.db.length
    exact hsynced.le
  · intro n hn
    rw [hzero hn]
    rfl
  · intro n hn
    rw [hzero hn]
    exact ⟨_, hseen⟩
  · exact fun _ => ⟨_, hseen, next_le_update hnext⟩

theorem executeNext_executed {f : Bytes → Option KVEntry} (h : LevelDB.Holds s.sm.db f)
    (log : Nat → Nat → Option Bytes) (g : Nat) (env : KVEnv) :
    KVExecuted env (s.next g) f (operatorAt log g (s.next g)) s.sm (s.executeNext log g env) := by
  unfold executeNext operatorAt
  cases log g (s.next g) with
  | none => exact .skipped rfl
  | some value => exact execute_executed h value

theorem Follows.execute (hrouted : Routed log) (hnot : KVNotFuture log) (h : Follows log s)
    (ho : ¬ Overtakes log s (.execute g env)) : Follows log (s.step log (.execute g env)) := by
  unfold PhxKV.step
  simp only []
  split
  · rename_i hguard
    obtain ⟨hrun, -, hlt⟩ := hguard
    obtain ⟨r, hr, hnext⟩ := h.running hrun
    have hexecuted := executeNext_executed hr.holds log g env
    generalize s.executeNext log g env = res at hexecuted ⊢
    cases hexecuted with
    | failed => exact h
    | skipped hop =>
      have hwrote : Wrote (merged log r) (kvOps log g (s.next g)) s.sm.db s.sm.db := by
        rw [kvOps, hop]
        exact .nothing hr.holds
      exact h.kept hrouted hnot hr hnext hwrote rfl rfl
    | @done oper db sm hoper hwrote hsettled =>
      have hop : kvOps log g (s.next g) = oper.op := by
        rw [kvOps, hoper]
        rfl
      rw [← hop] at hwrote
      cases hsettled with
      | kept hdb hsynced => exact h.kept hrouted hnot hr hnext hwrote hdb hsynced
      | synced hskip hfails hdb hsynced =>
        apply Follows.synced hrouted hnot hr hnext hwrote hlt hdb hsynced
        intro k i hk hle hle'
        rw [← Option.not_isSome_iff_eq_none]
        exact fun hsome => ho ⟨hskip, hfails, k, i, hk, hle, hle', hsome⟩
  · exact h

end Execute

theorem KVRun.follows (hrouted : Routed log) (hnot : KVNotFuture log) (hs : KVRun log s) : Follows log s := by
  induction hs with
  | init => exact .init
  | @step s e _ ho ih =>
    cases e with
    | execute g env => exact ih.execute hrouted hnot ho
    | crash lost => exact ih.crash lost
    | start readFails logMax => exact ih.start readFails logMax

/-- **The store converges**: what a process has of its keys is what the first operations of their groups leave, through
crashes, lost writes, failing calls and restarts; a running process has seen what it has executed, and one that has come as
far as ever holds exactly that. -/
theorem kv_converges (hrouted : Routed log) (hnot : KVNotFuture log) (hs : KVRun log s) : ∃ r : Nat → Nat,
    (∀ g, r g ≤ s.top g ∧ (s.running = true → s.next g ≤ r g)) ∧
      ∀ key, key ≠ kvCheckpointKey → KVClient.get false key s.sm.db =
        readEntry (after (kvOps log (getGroupIdx key)) (r (getGroupIdx key)) key) := by
  have h := hs.follows hrouted hnot
  cases hrun : s.running with
  | true =>
    obtain ⟨r, hr, hnext⟩ := h.running hrun
    refine ⟨r, fun g => ⟨hr.le_top g, fun _ => hnext g⟩, fun key hkey => hr.holds.get hkey⟩
  | false =>
    obtain ⟨r, hr⟩ := h.durable 0 (by have := h.synced_le; omega)
    refine ⟨r, fun g => ⟨hr.le_top g, fun hrun' => by cases hrun'⟩, fun key hkey => hr.holds.get hkey⟩

/-- In state `s` group `g` executes an operation that it has not seen before, and its client is told that it succeeded. -/
structure Succeeds (log : Nat → Nat → Option Bytes) (s : PhxKV) (g : Nat) (env : KVEnv) (oper : KVOperator) : Prop where
  run : KVRun log s
  running : s.running = true
  first : s.next g = s.top g
  operator : operatorAt log g (s.next g) = some oper
  changes : oper.op.isSome = true
  ok : ∃ ctx, (s.executeNext log g env).1.1 = some ctx ∧ ctx.executeRet = .ok

/-- What is told to a client is what holds after the operations before. -/
theorem Succeeds.apply (hrouted : Routed log) (hnot : KVNotFuture log) {env : KVEnv} {oper : KVOperator}
    (h : Succeeds log s g env oper) : ∃ op, kvOps log g (s.next g) = some op ∧ oper.op = some op ∧
      op.Succeeds (after (kvOps log g) (s.next g) op.key) := by
  obtain ⟨op, hop⟩ := Option.isSome_iff_exists.mp h.changes
  have hops : kvOps log g (s.next g) = some op := by
    rw [kvOps, h.operator]
    exact hop
  refine ⟨op, hops, hop, ?_⟩
  obtain ⟨r, hr, hnext⟩ := (h.run.follows hrouted hnot).running h.running
  have hplace : r g = s.next g := le_antisymm (h.first ▸ hr.le_top g) (hnext g)
  obtain ⟨ctx, hctx, hok⟩ := h.ok
  have hexecuted := executeNext_executed hr.holds log g env
  generalize s.executeNext log g env = res at hexecuted hctx
  cases hexecuted with
  | failed => cases hctx
  | skipped => cases hctx
  | done hoper =>
    rw [h.operator] at hoper
    cases hoper
    cases hctx
    unfold KVOperator.result at hok
    rw [hop] at hok
    have hgroup : getGroupIdx op.key = g := kvOps_group hrouted hops
    simp only at hok
    split at hok
    · rename_i hsucceeds
      rw [← (KVOperator.op_fields hop).1, merged, hgroup, hplace] at hsucceeds
      exact hsucceeds
    · cases hok

/-- **Of the operations that name one version of a key at most one succeeds**, whichever processes execute them: no update
is lost. -/
theorem kv_succeeds_once (hrouted : Routed log) (hnot : KVNotFuture log) {s' : PhxKV} {g' : Nat} {env env' : KVEnv}
    {oper oper' : KVOperator} (h : Succeeds log s g env oper) (h' : Succeeds log s' g' env' oper')
    (hkey : oper.key = oper'.key) (hversion : oper.version = oper'.version) : g = g' ∧ s.next g = s'.next g' := by
  obtain ⟨op, hops, hop, hsucceeds⟩ := h.apply hrouted hnot
  obtain ⟨op', hops', hop', hsucceeds'⟩ := h'.apply hrouted hnot
  obtain ⟨hk, hv⟩ := KVOperator.op_fields hop
  obtain ⟨hk', hv'⟩ := KVOperator.op_fields hop'
  have hsame : op.key = op'.key := by rw [hk, hk', hkey]
  have hgroup : g = g' := by
    rw [← kvOps_group hrouted hops, ← kvOps_group hrouted hops', hsame]
  subst hgroup
  exact ⟨rfl, succeeds_once hops hops' hsame (by rw [hv, hv', hversion]) hsucceeds hsucceeds'⟩

/-! ## Runs -/

/-- The values of three groups by instance. -/
def logOf (values : List (List Bytes)) (g i : Nat) : Option Bytes := (values.getD g [])[i]?

/-- Every operation is in the group of its key, and names no version from the future; the check goes up to instance `n`. -/
def isSound (log : Nat → Nat → Option Bytes) (n : Nat) : Bool :=
  (List.range kvGroupCount).all fun g => (List.range n).all fun i =>
    match operatorAt log g i with
    | none => true
    | some oper =>
      decide (getGroupIdx oper.key = g) &&
        match oper.op with
        | none => true
        | some op => decide (op.version ≤ versionOf (after (kvOps log g) i op.key))

theorem sound_of_isSound (values : List (List Bytes)) (n : Nat) (hgroups : values.length ≤ kvGroupCount)
    (hn : ∀ vs ∈ values, vs.length ≤ n) (h : isSound (logOf values) n = true) :
    Routed (logOf values) ∧ KVNotFuture (logOf values) := by
  have hcheck {g i : Nat} {oper : KVOperator} (hoper : operatorAt (logOf values) g i = some oper) :
      getGroupIdx oper.key = g ∧ ∀ op, oper.op = some op →
        op.version ≤ versionOf (after (kvOps (logOf values) g) i op.key) := by
    obtain ⟨value, hvalue, -⟩ := Option.bind_eq_some_iff.mp hoper
    obtain ⟨hi, -⟩ := List.getElem?_eq_some_iff.mp hvalue
    have hg : g < values.length := by
      by_contra hge
      have hnil : values.getD g [] = [] := by
        rw [List.getD_eq_getElem?_getD, List.getElem?_eq_none (Nat.not_lt.mp hge)]
        rfl
      rw [hnil] at hi
      cases hi
    have hlen : (values.getD g []).length ≤ n := by
      rw [List.getD_eq_getElem?_getD, List.getElem?_eq_getElem hg]
      exact hn _ (List.getElem_mem hg)
    unfold isSound at h
    have hall := List.all_eq_true.mp h g (List.mem_range.mpr (hg.trans_le hgroups))
    have hone := List.all_eq_true.mp hall i (List.mem_range.mpr (hi.trans_le hlen))
    rw [hoper] at hone
    simp only [Bool.and_eq_true, decide_eq_true_eq] at hone
    refine ⟨hone.1, fun op hop => ?_⟩
    have htwo := hone.2
    rw [hop] at htwo
    exact of_decide_eq_true htwo
  refine ⟨fun g i oper hoper => (hcheck hoper).1, fun g i op hop => ?_⟩
  obtain ⟨oper, hoper, hop⟩ := Option.bind_eq_some_iff.mp hop
  exact (hcheck hoper).2 op hop

def run (log : Nat → Nat → Option Bytes) (es : List KVEvent) : PhxKV := es.foldl (fun s e => s.step log e) {}

/-- No checkpoint is about to be written. -/
def rests (log : Nat → Nat → Option Bytes) : List KVEvent → PhxKV → Bool
  | [], _ => true
  | e :: es, s => decide (s.sm.skipSyncCheckpointTimes < 5) && rests log es (s.step log e)

theorem KVRun.of_events (es : List KVEvent) : ∀ {s : PhxKV}, KVRun log s → rests log es s = true →
    KVRun log (es.foldl (fun s e => s.step log e) s) := by
  induction es with
  | nil => exact fun hs _ => hs
  | cons e es ih =>
    intro s hs h
    simp only [rests, Bool.and_eq_true, decide_eq_true_eq] at h
    refine ih (hs.step fun ho => ?_) h.2
    cases e with
    | execute g env => exact absurd ho.1 (Nat.not_le.mpr h.1)
    | crash lost => exact ho
    | start readFails logMax => exact ho

/-- Two writes of one key. -/
def twoWrites : Nat → Nat → Option Bytes :=
  logOf [[], [makeOpValue [97] [1] 0 kvOperatorTypeWrite 7, makeOpValue [97] [2] 1 kvOperatorTypeWrite 8]]

/-- The second write is lost and made again. -/
def lostWrite : List KVEvent :=
  [.start false fun _ => 0, .execute 1 {}, .execute 1 {}, .crash 1, .start false fun _ => 1, .execute 1 {}, .execute 1 {}]

theorem twoWrites_sound : Routed twoWrites ∧ KVNotFuture twoWrites :=
  sound_of_isSound _ 2 (by decide) (by decide +kernel) (by decide +kernel)

theorem kv_converges_twoWrites : ∃ r : Nat → Nat, r 1 = 2 ∧
    KVClient.get false [97] (run twoWrites lostWrite).sm.db = readEntry (after (kvOps twoWrites 1) 2 [97]) := by
  obtain ⟨r, hr, hget⟩ := kv_converges twoWrites_sound.1 twoWrites_sound.2
    (KVRun.of_events lostWrite .init (by decide +kernel))
  have htop : (run twoWrites lostWrite).top 1 = 2 := by decide +kernel
  have hnext : (run twoWrites lostWrite).next 1 = 2 := by decide +kernel
  have hrun : (run twoWrites lostWrite).running = true := by decide +kernel
  have hplace : r 1 = 2 := le_antisymm (htop ▸ (hr 1).1) (hnext ▸ (hr 1).2 hrun)
  have hgroup : getGroupIdx [97] = 1 := by decide
  have hread := hget [97] (by decide)
  rw [hgroup, hplace] at hread
  exact ⟨r, hplace, hread⟩

/-- Two processes that execute the first write report on the same instance. -/
theorem kv_succeeds_once_twoWrites : (run twoWrites [.start false fun _ => 0]).next 1 =
    (run twoWrites [.start false fun _ => 0, .crash 0, .start true fun _ => 0, .start false fun _ => 0]).next 1 := by
  have first (es : List KVEvent) (hrests : rests twoWrites es {} = true) (hrun : (run twoWrites es).running = true)
      (hnext : (run twoWrites es).next 1 = 0) (htop : (run twoWrites es).top 1 = 0)
      (hok : (((run twoWrites es).executeNext twoWrites 1 {}).1.1.map PhxKVSMCtx.executeRet) = some .ok) :
      Succeeds twoWrites (run twoWrites es) 1 {} ⟨[97], [1], 0, kvOperatorTypeWrite, 7⟩ := by
    constructor
    · exact KVRun.of_events es .init hrests
    · exact hrun
    · rw [hnext, htop]
    · rw [hnext]
      decide +kernel
    · decide
    · obtain ⟨ctx, hctx, heq⟩ := Option.map_eq_some_iff.mp hok
      exact ⟨ctx, hctx, heq⟩
  have hone := first [.start false fun _ => 0] (by decide +kernel) (by decide +kernel) (by decide +kernel)
    (by decide +kernel) (by decide +kernel)
  have htwo := first [.start false fun _ => 0, .crash 0, .start true fun _ => 0, .start false fun _ => 0]
    (by decide +kernel) (by decide +kernel) (by decide +kernel) (by decide +kernel) (by decide +kernel)
  exact (kv_succeeds_once twoWrites_sound.1 twoWrites_sound.2 hone htwo rfl rfl).2

/-! ## What the conditions are for -/

/-- The first write names a version that the second one makes. -/
def futureWrite : Nat → Nat → Option Bytes :=
  logOf [[], [makeOpValue [97] [1] 1 kvOperatorTypeWrite 7, makeOpValue [97] [2] 0 kvOperatorTypeWrite 8]]

/-- An operation that failed succeeds when the log is replayed, and the process is left with another value. -/
theorem future_version_diverges :
    let s := run futureWrite [.start false fun _ => 0, .execute 1 {}, .execute 1 {}, .crash 0, .start false fun _ => 1,
      .execute 1 {}, .execute 1 {}]
    KVRun futureWrite s ∧ s.next 1 = 2 ∧ s.top 1 = 2 ∧ KVClient.get false [97] s.sm.db = (.ok, [1], 2) ∧
      readEntry (after (kvOps futureWrite 1) 2 [97]) = (.ok, [2], 1) := by
  refine ⟨KVRun.of_events _ .init (by decide +kernel), ?_, ?_, ?_, ?_⟩ <;> decide +kernel

/-- Six writes in group 0, one in group 1. -/
def unevenLog : Nat → Nat → Option Bytes :=
  logOf [(List.range 6).map fun i => makeOpValue [99] [1] i kvOperatorTypeWrite i,
    [makeOpValue [97] [1] 0 kvOperatorTypeWrite 7]]

/-- Group 0 executes its writes, the last of which writes the checkpoint; then the process is started again, while the log of
group 1 is still empty. -/
def unevenRun : List KVEvent :=
  .start false (fun _ => 0) :: List.replicate 6 (.execute 0 {}) ++
    [.crash 0, .start false fun g => if g = 0 then 5 else 0]

/-- The group that is behind the checkpoint of another one starts after it, and never executes its own write. -/
theorem shared_checkpoint_skips : Routed unevenLog ∧ KVNotFuture unevenLog ∧
    (run unevenLog unevenRun).running = true ∧ (run unevenLog unevenRun).next 1 = 6 ∧
      KVClient.get false [97] (run unevenLog unevenRun).sm.db = (.keyNotExist, [], 0) ∧
      readEntry (after (kvOps unevenLog 1) 6 [97]) = (.ok, [1], 1) := by
  obtain ⟨hrouted, hnot⟩ : Routed unevenLog ∧ KVNotFuture unevenLog :=
    sound_of_isSound _ 6 (by decide) (by decide +kernel) (by decide +kernel)
  refine ⟨hrouted, hnot, ?_, ?_, ?_, ?_⟩ <;> decide +kernel

end PhxKV

end PhxPaxos
