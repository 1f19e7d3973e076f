import PhxPaxos.Storage.Database

/-!
# The log store as a map, over runs

What a database returns in every run of puts, gets, deletions and starts of a process where no call fails.

- Restarts (`refines_map`): `Get` returns what was put last and no append touches a record that counts, unless a process
  starts when one to three bytes lie behind the write offset; the write offset is left at zero then (`not_refines_map`).
- Deletions (`del_keeps_live`): no file is removed that holds a record that counts, or is written to.
-/

namespace PhxPaxos

open Files

variable {P : LogParams}

namespace Database

variable {db : Database} {m : LogStore} {now fe oe i maxSize calls : Nat} {v : Bytes}

/-! ## Which steps are taken -/

/-- Only puts, gets and deletions. -/
def Serving (_ : Database) : DatabaseEvent → Prop
  | .put .. | .get _ | .del .. => True
  | .putFails .. | .restart _ | .crash .. => False

/-- No call fails and no process dies in one; a process does not start on a short tail. -/
def Untorn (db : Database) : DatabaseEvent → Prop
  | .put .. | .get _ | .del .. => True
  | .restart _ => ¬ db.ShortTail
  | .putFails .. | .crash .. => False

instance (instanceID : Nat) (value : Bytes) : Decidable (Storable P instanceID value) :=
  decidable_of_iff (instanceID + 3 < 2 ^ 64 ∧ value.length < 2 ^ 29 ∧ P.parse value = true)
    ⟨fun h => ⟨h.1, h.2.1, h.2.2⟩, fun h => ⟨h.instanceID, h.length, h.parse⟩⟩

instance (db : Database) : (e : DatabaseEvent) → Decidable (Used P db e)
  | .put i v | .putFails i v _ => inferInstanceAs (Decidable (Storable P i v ∧ ∀ x ∈ db.values, x.1 ≤ i))
  | .get _ => isTrue trivial
  | .del i _ => inferInstanceAs (Decidable ((∀ x ∈ db.values, i ≤ x.1) ∧ ∃ x ∈ db.values, i < x.1))
  | .restart maxSize => inferInstanceAs (Decidable (4 ≤ maxSize))
  | .crash i v _ maxSize =>
    inferInstanceAs (Decidable (Storable P i v ∧ (∀ x ∈ db.values, x.1 ≤ i) ∧ 4 ≤ maxSize))

instance (db : Database) : Decidable db.ShortTail :=
  inferInstanceAs (Decidable (∃ m ∈ db.store,
    m.nowFileOffset < db.disk.fileSize m.fileID ∧ db.disk.fileSize m.fileID < m.nowFileOffset + 4))

instance (db : Database) : (e : DatabaseEvent) → Decidable (Serving db e)
  | .put .. | .get _ | .del .. => isTrue trivial
  | .putFails .. | .restart _ | .crash .. => isFalse id

instance (db : Database) : (e : DatabaseEvent) → Decidable (Untorn db e)
  | .put .. | .get _ | .del .. => isTrue trivial
  | .restart _ => inferInstanceAs (Decidable ¬ db.ShortTail)
  | .putFails .. | .crash .. => isFalse id

/-- The newest instance, and the file and the offset where its record ends. -/
def dataEnd (db : Database) : Nat × Nat × Nat :=
  match LogStore.maxInstanceIDFileID db.disk.index with
  | none => (0, 0, 0)
  | some (i, e) => (i, e.fileID, e.offset + (record i ((db.values.lookup i).getD [])).length)

/-! ## Runs -/

theorem Run.mono {Ok Ok' : Database → DatabaseEvent → Prop} (h : Run P Ok db) (hok : ∀ db e, Ok db e → Ok' db e) :
    Run P Ok' db := by
  induction h with
  | start maxSize hmax => exact .start maxSize hmax
  | step _ hused h ih => exact .step ih hused (hok _ _ h)

/-- The events can be taken one after the other. -/
def Takes (P : LogParams) (Ok : Database → DatabaseEvent → Prop) : Database → List DatabaseEvent → Prop
  | _, [] => True
  | db, e :: es => Used P db e ∧ Ok db e ∧ Takes P Ok (step P e db) es

def decidableTakes (Ok : Database → DatabaseEvent → Prop) [∀ db e, Decidable (Ok db e)] :
    (db : Database) → (es : List DatabaseEvent) → Decidable (Takes P Ok db es)
  | _, [] => isTrue trivial
  | db, e :: es =>
    have := decidableTakes Ok (step P e db) es
    inferInstanceAs (Decidable (Used P db e ∧ Ok db e ∧ Takes P Ok (step P e db) es))

instance (Ok : Database → DatabaseEvent → Prop) [∀ db e, Decidable (Ok db e)] (es : List DatabaseEvent) :
    Decidable (Takes P Ok db es) := decidableTakes Ok db es

/-- The database after the events. -/
def exec (P : LogParams) (db : Database) (es : List DatabaseEvent) : Database := es.foldl (fun db e => step P e db) db

theorem Run.exec {Ok : Database → DatabaseEvent → Prop} (h : Run P Ok db) (es : List DatabaseEvent) (hes : Takes P Ok db es) :
    Run P Ok (db.exec P es) := by
  induction es generalizing db with
  | nil => exact h
  | cons e es ih => exact ih (.step h hes.1 hes.2.1) hes.2.2

theorem Holds.dataEnd (h : Holds P db m now fe oe) : db.dataEnd = (now, fe, oe) := by
  unfold Database.dataEnd
  rcases h.layout.newest with ⟨hnone, rfl, rfl, rfl⟩ | ⟨e, v, hnew⟩
  · rw [LogStore.maxInstanceIDFileID_none hnone]
  · rw [LogStore.maxInstanceIDFileID_newest hnew]
    simp only [hnew.value, hnew.fileID, Option.getD_some, record_length, ← hnew.offset, Nat.add_assoc]

/-- **One step** where no call fails. -/
theorem Holds.next {e : DatabaseEvent} (h : Holds P db m now fe oe) (hb : Blank db.disk fe oe) (hused : Used P db e)
    (hok : Untorn db e) :
    ∃ m' now' fe' oe', Holds P (step P e db) m' now' fe' oe' ∧ Blank (step P e db).disk fe' oe' := by
  cases e with
  | put i v =>
    obtain ⟨db', m', oe', hput, hholds, -, hblank⟩ := h.put hused.1 hused.2
    have hstep : step P (.put i v) db = db' := by
      simp only [step, h.store, hput]
    exact ⟨m', i, m'.fileID, oe', hstep ▸ hholds, hstep ▸ hblank hb⟩
  | get i =>
    rw [h.get i]
    exact ⟨m, now, fe, oe, h, hb⟩
  | putFails | crash => exact absurd hok id
  | del i sweep =>
    obtain ⟨m', hholds, hblank⟩ := h.del sweep hused.1 hused.2
    have hstep : step P (.del i sweep) db = (Database.del i sweep m db).1 := by
      simp only [step, h.store]
    exact ⟨m', now, fe, oe, hstep ▸ hholds, hstep ▸ hblank hb⟩
  | restart maxSize =>
    obtain ⟨m', -, -, -, hholds⟩ := start_blank db h.layout h.names hb hused
    have hstep : step P (.restart maxSize) db = start P maxSize db := by
      simp only [step, h.store]
    rw [hstep]
    exact ⟨m', now, fe, oe, hholds fun hfe f hf hbad => hok (h.shortTail hfe hf hbad)⟩

/-- **Runs** where no call fails. -/
theorem Run.holds (h : Run P Untorn db) : ∃ m now fe oe, Holds P db m now fe oe ∧ Blank db.disk fe oe := by
  induction h with
  | start maxSize hmax =>
    obtain ⟨m, hholds, hblank⟩ := start_empty (P := P) hmax
    exact ⟨m, 0, 0, 0, hholds, hblank⟩
  | step _ hused hok ih =>
    obtain ⟨m, now, fe, oe, hholds, hblank⟩ := ih
    exact hholds.next hblank hused hok

theorem Serving.untorn {e : DatabaseEvent} (h : Serving db e) : Untorn db e := by
  cases e with
  | restart => exact absurd h id
  | _ => exact h

/-! ## A database with one value -/

/-- Checksums that tell little, and a parser that looks at the first field. -/
def sampleParams : LogParams where
  metaChecksum fileID := fileID.toUInt32
  checksum buffer := buffer.length.toUInt32
  parse buffer := buffer.take 1 == [8]

/-- An `AcceptorStateData` with an empty value. -/
def sampleState (instanceID : UInt8) : Bytes := [8, instanceID, 16, 1, 24, 1, 32, 1, 40, 1, 50, 0, 56, 0]

/-- An `AcceptorStateData` with a value of `n` bytes, where that is `104857570`. -/
def longState (n : Nat) : Bytes :=
  [8, 0, 16, 1, 24, 1, 32, 1, 40, 1, 50, 226, 255, 255, 49] ++ (List.replicate n 97 ++ [56, 0])

theorem longState_length (n : Nat) : (longState n).length = n + 17 := by
  simp [longState]

theorem storable_sampleState (i : UInt8) : Storable sampleParams i.toNat (sampleState i) :=
  ⟨by have := i.toNat_lt; omega, by simp [sampleState], rfl⟩

theorem storable_longState {n : Nat} (h : n + 17 < 2 ^ 29) : Storable sampleParams 0 (longState n) :=
  ⟨by decide, by rwa [longState_length], rfl⟩

/-- A process that has put one value. -/
def one (P : LogParams) (maxSize i : Nat) (v : Bytes) : Database where
  disk :=
    { files := [(0, record i v ++ List.replicate (maxSize - (record i v).length) 0), (0, List.replicate maxSize 0), (0, [])]
      index := [(i, ⟨0, 0, P.checksum (recordBody i v)⟩)] }
  store := some { fileID := 0, nowFileSize := maxSize, nowFileOffset := (record i v).length }
  maxSize := maxSize
  values := [(i, v)]

theorem start_eq (hmax : 4 ≤ maxSize) : start P maxSize {} =
    ⟨{ files := [(0, List.replicate maxSize 0), (0, [])] }, some { fileID := 0, nowFileSize := maxSize }, maxSize, []⟩ := by
  simp [start, LogStore.init, LogStore.rebuildIndex, LogStore.maxInstanceIDFileID, LogStore.rebuildFiles,
    LogStore.rebuildIndexForOneFile, LogStore.expandFile, Disk.fileSize, Disk.run, writeAt_zero maxSize hmax, Files.set]

theorem put_one (hfit : (record i v).length ≤ maxSize) : step P (.put i v) (start P maxSize {}) = one P maxSize i v := by
  have hmax : 4 ≤ maxSize := by
    rw [record_length] at hfit
    omega
  have hwrite : writeAt (List.replicate maxSize 0) 0 (record i v) =
      record i v ++ List.replicate (maxSize - (record i v).length) 0 := by
    simp [writeAt]
  have hroom : ¬ LogStore.needsNewFile { fileID := 0, nowFileSize := maxSize } (record i v).length := by
    show ¬ 0 + (record i v).length > maxSize
    omega
  simp only [start_eq hmax, step, put, LogStore.append, LogStore.getFileFD, hroom, Disk.run]
  simp [hwrite, one, Files.set]

theorem run_one {Ok : Database → DatabaseEvent → Prop} (hs : Storable P i v) (hfit : (record i v).length ≤ maxSize)
    (hok : Ok (start P maxSize {}) (.put i v)) : Run P Ok (one P maxSize i v) := by
  have hmax : 4 ≤ maxSize := by
    rw [record_length] at hfit
    omega
  have hempty : (start P maxSize {}).values = [] := rfl
  rw [← put_one hfit]
  exact .step (.start maxSize hmax) ⟨hs, by simp [hempty]⟩ hok

theorem holds_one (hs : Storable P i v) (hfit : (record i v).length ≤ maxSize) :
    Holds P (one P maxSize i v) { fileID := 0, nowFileSize := maxSize, nowFileOffset := (record i v).length } i 0
      (record i v).length ∧ Blank (one P maxSize i v).disk 0 (record i v).length := by
  have hrun : Run P Untorn (one P maxSize i v) := run_one hs hfit trivial
  obtain ⟨m, now, fe, oe, h, hb⟩ := hrun.holds
  have hend := h.dataEnd
  simp only [dataEnd, one, LogStore.maxInstanceIDFileID, List.map_cons, List.map_nil, List.max?_singleton,
    List.lookup_cons_self, Option.map_some, Option.getD_some, Prod.mk.injEq] at hend
  obtain ⟨rfl, rfl, rfl⟩ := hend
  have hm := h.store
  cases hm
  rw [Nat.zero_add] at h hb
  exact ⟨h, hb⟩

theorem used_one {w : Bytes} {j : Nat} (hw : Storable P j w) (hi : i ≤ j) (hmax : 4 ≤ maxSize) :
    Used P (one P maxSize i v) (.crash j w calls maxSize) := by
  refine ⟨hw, fun x hx => ?_, hmax⟩
  have hx : x = (i, v) := List.mem_singleton.mp hx
  rw [hx]
  exact hi

/-! ## Restarts -/

/-- **The log store is a map.** In every run of puts, gets, deletions and restarts where no process starts on a short tail. -/
theorem refines_map (h : Run P Untorn db) :
    ∃ m, db.store = some m ∧ Gets P db.disk db.values ∧
      ∀ i v, Storable P i v → (∀ x ∈ db.values, x.1 ≤ i) →
        ∃ m' d' e', LogStore.append P db.maxSize i v m db.disk = (m', d', 0, e') ∧
          ∀ j w e, db.disk.index.lookup j = some e → db.values.lookup j = some w →
            e.fileID ≠ e'.fileID ∨ e.offset + (record j w).length ≤ e'.offset := by
  obtain ⟨m, now, fe, oe, hholds, -⟩ := h.holds
  refine ⟨m, hholds.store, hholds.gets, fun i v hs hi => ?_⟩
  obtain ⟨m', d', e, -, happend, hbefore, -⟩ := hholds.append hs hi
  exact ⟨m', d', e, happend, hbefore⟩

/-- After a start on a short tail the write offset is zero. -/
theorem Holds.restart_shortTail (h : Holds P db m now fe oe) (hb : Blank db.disk fe oe) (hmax : 4 ≤ maxSize)
    (hshort : db.ShortTail) :
    ∃ m', (step P (.restart maxSize) db).store = some m' ∧ (step P (.restart maxSize) db).values = db.values ∧ fe = m'.fileID ∧
      m'.fileOpen = true ∧ m'.nowFileOffset = 0 ∧ m'.nowFileSize = (step P (.restart maxSize) db).disk.fileSize m'.fileID ∧
      Layout P (step P (.restart maxSize) db).disk db.values now fe oe m'.fileID := by
  obtain ⟨m₁, hm₁, hlt, hlt'⟩ := hshort
  rw [h.store] at hm₁
  cases hm₁
  obtain ⟨f, hf⟩ := h.layout.exist m.fileID h.layout.current le_rfl
  have hsize : db.disk.fileSize m.fileID = f.length := by
    simp [Disk.fileSize, hf]
  have hcurrent := h.layout.current
  have hoff := h.writes.nowFileOffset
  have hfe : fe = m.fileID := by
    by_contra hne
    have hlen := (hb.later m.fileID f (by omega) hf).2
    rw [if_neg hne] at hoff
    omega
  rw [if_pos hfe] at hoff
  have hleg : Legible P db.disk.files m.fileID false fe oe now := by
    rw [hfe]
    exact .last hf (.short (by omega) (by omega))
  obtain ⟨m', d', hinit, hfileID, hlayout, -, hunset, -, -⟩ := LogStore.init_legible h.layout h.names hleg hmax
  obtain ⟨hopen, hzero, hnow⟩ := hunset rfl hfe
  have hstep : step P (.restart maxSize) db = { db with disk := d', store := some m', maxSize := maxSize } := by
    simp only [step, h.store, start, hinit, if_true]
  rw [hstep]
  exact ⟨m', rfl, rfl, hfe.trans hfileID.symm, hopen, hzero, hnow.trans (congrArg d'.fileSize hfileID.symm),
    hfileID.symm ▸ hlayout⟩

/-- The record that is alone in the file is lost then, as soon as a shorter one is put. -/
theorem Holds.overwrites (h : Holds P db m now fe oe) (hb : Blank db.disk fe oe) (hmax : 4 ≤ maxSize)
    (hshort : db.ShortTail) (hv : db.values.lookup now = some v) (hoe : oe = (record now v).length) {w : Bytes}
    (hs : Storable P i w) (hi : now ≠ i) (hfit : (record i w).length ≤ oe) :
    (step P (.put i w) (step P (.restart maxSize) db)).values = set db.values i w ∧
      (Database.get P now (step P (.put i w) (step P (.restart maxSize) db)).disk).2 = .error (-2) := by
  obtain ⟨m', hstore, hvalues, hfe, hopen, hzero, hsize, hlayout⟩ := h.restart_shortTail hb hmax hshort
  set db' := step P (.restart maxSize) db with hdb'
  obtain ⟨f, hf⟩ := hlayout.exist m'.fileID hlayout.current le_rfl
  have hlen := hlayout.data f (hfe ▸ hf)
  have hroom : ¬ m'.needsNewFile (record i w).length := by
    have hfile : db'.disk.fileSize m'.fileID = f.length := by
      simp [Disk.fileSize, hf]
    unfold LogStore.needsNewFile
    omega
  let d : Disk :=
    { db'.disk with
      files := set db'.disk.files m'.fileID (writeAt f 0 (record i w))
      index := set db'.disk.index i ⟨m'.fileID, 0, P.checksum (recordBody i w)⟩ }
  have hput : (step P (.put i w) db').disk = d ∧ (step P (.put i w) db').values = set db'.values i w := by
    simp only [step, hstore, Database.put, LogStore.append, LogStore.getFileFD, hopen, hroom, hzero, Bool.not_true, Bool.false_eq_true,
      if_false, ne_eq, not_true_eq_false, Disk.run, hf, Option.getD_some, d, and_self]
  obtain ⟨e, he, hfileID, hoffset⟩ : ∃ e, db'.disk.index.lookup now = some e ∧ e.fileID = m'.fileID ∧ e.offset = 0 := by
    rcases hlayout.newest with ⟨hnone, -⟩ | ⟨e, v', hnew⟩
    · rw [(hlayout.keys now).mp (hnone now)] at hv
      cases hv
    · have heq : v = v' := Option.some.inj (hv.symm.trans hnew.value)
      subst heq
      have hend := hnew.offset
      rw [hoe, record_length] at hend
      exact ⟨e, hnew.index, hnew.fileID.trans hfe, by omega⟩
  have hat : At (writeAt f 0 (record i w)) 0 (record i w) := At.written f 0 (record i w)
  have hfour : (((writeAt f 0 (record i w)).drop 0).take 4).length = 4 := by
    rw [record_take_four hat, encodeLE_length]
  have hdecode : decodeLE (((writeAt f 0 (record i w)).drop 0).take 4) = (recordBody i w).length := by
    rw [record_take_four hat, hs.decodeLE_length]
  refine ⟨by rw [hput.2, hvalues], ?_⟩
  rw [hput.1]
  simp only [d, Database.get, LogStore.read, lookup_set, hi, if_false, he, Disk.run, hfileID, if_true, Option.getD_some, hoffset,
    hfour, hdecode, record_body hat, hs.decodeLE_instanceID, recordBody_drop, ne_eq, not_true_eq_false]
  by_cases hsum : P.checksum (recordBody i w) = e.checksum
  · simp only [hsum, not_true_eq_false, if_false, Ne.symm hi, not_false_eq_true, if_true]
  · simp only [hsum, not_false_eq_true, if_true]

/-- Files with room for two records: five values lie in three files, over two restarts. -/
def restartedEvents : List DatabaseEvent :=
  [.put 0 (sampleState 0), .put 1 (sampleState 1), .put 2 (sampleState 2), .restart 60, .put 3 (sampleState 3), .get 1,
    .put 4 (sampleState 4), .restart 64, .get 4]

theorem refines_map_restarted :
    ∃ m, ((start sampleParams 60 {}).exec sampleParams restartedEvents).store = some m ∧ m.fileID = 2 ∧
      Gets sampleParams ((start sampleParams 60 {}).exec sampleParams restartedEvents).disk
        [(4, sampleState 4), (3, sampleState 3), (2, sampleState 2), (1, sampleState 1), (0, sampleState 0)] := by
  have hrun : Run sampleParams Untorn (start sampleParams 60 {}) := .start 60 (by decide)
  obtain ⟨m, hm, hgets, -⟩ := refines_map (hrun.exec restartedEvents (by decide +kernel))
  have hfile : ((start sampleParams 60 {}).exec sampleParams restartedEvents).store.map LogStore.fileID = some 2 := by
    decide +kernel
  rw [hm] at hfile
  exact ⟨m, hm, Option.some.inj hfile, hgets⟩

/-- Puts of values that fit into a file, gets and restarts. -/
def Restarting (db : Database) : DatabaseEvent → Prop
  | .put i v => (record i v).length ≤ db.maxSize
  | .get _ | .restart _ => True
  | .putFails .. | .del .. | .crash .. => False

/-- A value that leaves one byte of the file is lost when the process restarts and puts the next one. -/
theorem restart_loses (hs : Storable P 0 v) (hfit : (record 0 v).length + 1 = maxSize) {w : Bytes} (hw : Storable P 1 w)
    (hle : (record 1 w).length ≤ (record 0 v).length) :
    ∃ db, Run P Restarting db ∧ db.values.lookup 0 = some v ∧ (Database.get P 0 db.disk).2 = .error (-2) := by
  have hfit' : (record 0 v).length ≤ maxSize := by omega
  have hmax : 4 ≤ maxSize := by
    rw [record_length] at hfit
    omega
  obtain ⟨hholds, hblank⟩ := holds_one hs hfit'
  have hshort : ShortTail (one P maxSize 0 v) := by
    refine ⟨_, hholds.store, ?_⟩
    simp only [one, Disk.fileSize, List.lookup_cons_self, Option.getD_some, List.length_append, List.length_replicate]
    omega
  obtain ⟨m', hstore, hvalues, -⟩ := hholds.restart_shortTail hblank hmax hshort
  have hrun : Run P Restarting (one P maxSize 0 v) := run_one hs hfit' hfit'
  have hrestarted : Run P Restarting (step P (.restart maxSize) (one P maxSize 0 v)) := .step hrun hmax trivial
  have hle' : ∀ x ∈ (step P (.restart maxSize) (one P maxSize 0 v)).values, x.1 ≤ 1 := by
    rw [hvalues]
    simp [one]
  have hroom : (record 1 w).length ≤ (step P (.restart maxSize) (one P maxSize 0 v)).maxSize := by
    have hsame : (step P (.restart maxSize) (one P maxSize 0 v)).maxSize = maxSize := rfl
    omega
  obtain ⟨hput, hlost⟩ := hholds.overwrites hblank hmax hshort (by simp [one]) rfl hw (by decide) hle
  refine ⟨_, .step hrestarted (e := .put 1 w) ⟨hw, hle'⟩ hroom, ?_, hlost⟩
  rw [hput]
  simp [one]

/-- The first value leaves one byte of the file; after a restart the second value is written over it. -/
theorem not_refines_map :
    ¬ ∀ (P : LogParams) (db : Database), Run P Restarting db → ∃ m, db.store = some m ∧ Gets P db.disk db.values := by
  intro h
  have hs : Storable sampleParams 0 (longState 104857570) := storable_longState (by decide)
  have hfit : (record 0 (longState 104857570)).length + 1 = 104857600 := by
    rw [record_length, longState_length]
  have hlen : (record 1 (sampleState 1)).length ≤ (record 0 (longState 104857570)).length := by
    rw [record_length, record_length, longState_length]
    simp [sampleState]
  obtain ⟨db, hrun, hvalue, hlost⟩ := restart_loses hs hfit (storable_sampleState 1) hlen
  obtain ⟨m, -, hgets⟩ := h sampleParams db hrun
  have hget := hgets 0
  simp only [hlost, stored, hvalue] at hget
  cases hget

/-! ## Deletions -/

/-- **Deletions.** A file with a record that counts, or the one that is written to, is not removed. -/
theorem del_keeps_live (h : Run P Serving db) :
    ∃ m, db.store = some m ∧ Gets P db.disk db.values ∧
      ∀ i sweep, Used P db (.del i sweep) → ∀ k f, db.disk.files.lookup k = some f →
        (k = m.fileID ∨ ∃ j e, j ≠ i ∧ db.disk.index.lookup j = some e ∧ e.fileID = k) →
        (step P (.del i sweep) db).disk.files.lookup k = some f := by
  obtain ⟨m, now, fe, oe, hholds, -⟩ := (h.mono fun _ _ hok => hok.untorn).holds
  refine ⟨m, hholds.store, hholds.gets, fun i sweep hused k f hf hk => ?_⟩
  have hstep : step P (.del i sweep) db = (Database.del i sweep m db).1 := by
    simp only [step, hholds.store]
  rw [hstep, hholds.del_files sweep, hf]
  intro e he
  rcases hk with rfl | ⟨j, e', hj, he', rfl⟩
  · exact (hholds.layout.fileID_le he).trans hholds.layout.current
  · obtain ⟨v', hv', -⟩ := hholds.layout.value he'
    exact hholds.layout.ordered i j e e' he he' (hused.1 (j, v') (mem_of_lookup hv'))

/-- Files with room for two records: three of five values are deleted, the last one with the file of the first two. -/
def deletedEvents : List DatabaseEvent :=
  [.put 0 (sampleState 0), .put 1 (sampleState 1), .put 2 (sampleState 2), .put 3 (sampleState 3), .put 4 (sampleState 4),
    .del 0 true, .del 1 false, .get 2, .del 2 true]

theorem del_keeps_live_second :
    ((start sampleParams 60 {}).exec sampleParams deletedEvents).disk.files.lookup 0 = none ∧
      Gets sampleParams ((start sampleParams 60 {}).exec sampleParams deletedEvents).disk
        [(4, sampleState 4), (3, sampleState 3)] ∧
      (step sampleParams (.del 3 true) ((start sampleParams 60 {}).exec sampleParams deletedEvents)).disk.files.lookup 2 =
        some (record 4 (sampleState 4) ++ List.replicate 34 0) := by
  have hrun : Run sampleParams Serving (start sampleParams 60 {}) := .start 60 (by decide)
  obtain ⟨m, hm, hgets, hkeeps⟩ := del_keeps_live (hrun.exec deletedEvents (by decide +kernel))
  have hfile : ((start sampleParams 60 {}).exec sampleParams deletedEvents).store.map LogStore.fileID = some 2 := by
    decide +kernel
  rw [hm] at hfile
  exact ⟨by decide +kernel, hgets,
    hkeeps 3 true (by decide +kernel) 2 _ (by decide +kernel) (.inl (Option.some.inj hfile).symm)⟩

end Database

end PhxPaxos
