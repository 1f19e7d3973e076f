import PhxPaxos.Storage.Runs

/-!
# Crashes and writes that fail

A process that dies in a roll-over, and an append that leaves a part of its record in the file.

- Crashes in a roll-over (`crash_recovers`): the next process starts with all records, unless the meta file names the new
  file already and that one is not there yet (`not_crash_recovers`). This is so after writes that failed, too, where the
  scan of a new process gets to the end of the data; without such writes it always does (`Run.readable`).
- Writes that fail (`putFails_harmless`): they do no harm, unless a process starts while the bytes that they left would be
  read (`not_putFails_harmless`).
-/

namespace PhxPaxos

open Files

variable {P : LogParams}

namespace Database

variable {db : Database} {m : LogStore} {now fe oe i maxSize calls : Nat} {v : Bytes}

/-! ## Which steps are taken -/

/-- No call fails, and no process dies in the window; a process does not start on a short tail. -/
def Spared (db : Database) : DatabaseEvent → Prop
  | .put .. | .get _ | .del .. => True
  | .restart _ => ¬ db.ShortTail
  | .crash instanceID value calls _ =>
    ¬ InWindow db instanceID value calls ∧ (db.ShortTail → RolledOver db instanceID value calls)
  | .putFails .. => False

/-- The scan of the files gets to the end of the data, and sets the write offset or not. -/
def Scans (P : LogParams) (db : Database) (sets : Bool) : Prop :=
  ∀ m, db.store = some m → Legible P db.disk.files m.fileID sets db.dataEnd.2.1 db.dataEnd.2.2 db.dataEnd.1

/-- A process starts only where the scan gets to the end of the data, and no process dies in the window. -/
def Readable (P : LogParams) (db : Database) : DatabaseEvent → Prop
  | .put .. | .get _ | .del .. | .putFails .. => True
  | .restart _ => db.Scans P true
  | .crash instanceID value calls _ =>
    ¬ InWindow db instanceID value calls ∧ ∃ sets, db.Scans P sets ∧ (sets = false → RolledOver db instanceID value calls)

/-! ## Where the data can be read -/

theorem Holds.scans_iff (h : Holds P db m now fe oe) {sets : Bool} :
    db.Scans P sets ↔ Legible P db.disk.files m.fileID sets fe oe now := by
  unfold Scans
  rw [h.store, h.dataEnd]
  exact ⟨fun hscans => hscans m rfl, fun hleg m' hm' => Option.some.inj hm' ▸ hleg⟩

/-- Zeros behind the data are read over; the write offset is set unless one to three of them are left. -/
theorem Holds.scans (h : Holds P db m now fe oe) (hb : Blank db.disk fe oe) :
    ∃ sets, db.Scans P sets ∧ (sets = false → db.ShortTail) := by
  obtain ⟨sets, hleg, hshort⟩ := hb.legible h.layout
  refine ⟨sets, h.scans_iff.mpr hleg, fun hsets => ?_⟩
  obtain ⟨hfe, f, hf, hbad⟩ := hshort hsets
  exact h.shortTail hfe hf hbad

/-- **One step** where no write fails. -/
theorem Holds.spared {e : DatabaseEvent} (h : Holds P db m now fe oe) (hb : Blank db.disk fe oe) (hused : Used P db e)
    (hok : Spared db e) :
    ∃ m' now' fe' oe', Holds P (step P e db) m' now' fe' oe' ∧ Blank (step P e db).disk fe' oe' := by
  cases e with
  | crash i v calls maxSize =>
    obtain ⟨sets, hscans, hshort⟩ := h.scans hb
    obtain ⟨m', -, -, -, hholds⟩ := h.crash (h.scans_iff.mp hscans) hused.2.2 hok.1
    have hholds := hholds fun hsets => hok.2 (hshort hsets)
    exact ⟨m', now, fe, oe, hholds.1, hholds.2 hb⟩
  | _ => exact h.next hb hused hok

theorem Run.holds_spared (h : Run P Spared db) : ∃ m now fe oe, Holds P db m now fe oe ∧ Blank db.disk fe oe := by
  induction h with
  | start maxSize hmax =>
    obtain ⟨m, hholds, hblank⟩ := start_empty (P := P) hmax
    exact ⟨m, 0, 0, 0, hholds, hblank⟩
  | step _ hused hok ih =>
    obtain ⟨m, now, fe, oe, hholds, hblank⟩ := ih
    exact hholds.spared hblank hused hok

/-- Where zeros lie behind the data, a step that is spared starts a process only where the data can be read. -/
theorem Holds.readable {e : DatabaseEvent} (h : Holds P db m now fe oe) (hb : Blank db.disk fe oe) (hok : Spared db e) :
    Readable P db e := by
  obtain ⟨sets, hscans, hshort⟩ := h.scans hb
  cases e with
  | restart maxSize =>
    cases sets with
    | true => exact hscans
    | false => exact absurd (hshort rfl) hok
  | crash i v calls maxSize => exact ⟨hok.1, sets, hscans, fun hsets => hok.2 (hshort hsets)⟩
  | put => trivial
  | get => trivial
  | putFails => trivial
  | del => trivial

/-- Where no write fails, the data can be read at all times. -/
theorem Run.readable (h : Run P Spared db) : Run P (Readable P) db ∧ ∃ sets, db.Scans P sets := by
  have hscans : ∃ sets, db.Scans P sets := by
    obtain ⟨m, now, fe, oe, hholds, hb⟩ := h.holds_spared
    obtain ⟨sets, hscans, -⟩ := hholds.scans hb
    exact ⟨sets, hscans⟩
  refine ⟨?_, hscans⟩
  clear hscans
  induction h with
  | start maxSize hmax => exact .start maxSize hmax
  | step h hused hok ih =>
    obtain ⟨m, now, fe, oe, hholds, hb⟩ := h.holds_spared
    exact .step ih hused (hholds.readable hb hok)

/-! ## A put that failed -/

/-- Files with room for two records: the put of instance `2` stops behind the instance id, in a new file. -/
def failedEvents : List DatabaseEvent :=
  [.put 0 (sampleState 0), .put 1 (sampleState 1), .putFails 2 (sampleState 2) 12]

/-- The next process cuts it off, and writes instances `2` and `3` into that file. -/
def retriedEvents : List DatabaseEvent := failedEvents ++ [.restart 60, .put 2 (sampleState 2), .put 3 (sampleState 3)]

theorem scans_failedEvents : ((start sampleParams 60 {}).exec sampleParams failedEvents).Scans sampleParams true := by
  have hstore : ((start sampleParams 60 {}).exec sampleParams failedEvents).store = some { fileID := 1, nowFileSize := 60 } := by
    decide +kernel
  intro m hm
  rw [hstore] at hm
  cases hm
  -- the file is left with a length and an instance id; zeros do not parse
  exact .next Nat.zero_lt_one (f := record 0 (sampleState 0) ++ record 1 (sampleState 1) ++ List.replicate 8 0) (by decide +kernel)
    (.zero (by decide +kernel) (by decide +kernel))
    (.last (f := (record 2 (sampleState 2)).take 12 ++ List.replicate 48 0) (by decide +kernel)
      (.unparsed (by decide +kernel) rfl (by decide +kernel) (by decide +kernel) (by decide +kernel) (by decide +kernel)))

theorem scans_retriedEvents : ((start sampleParams 60 {}).exec sampleParams retriedEvents).Scans sampleParams true := by
  have hstore : ((start sampleParams 60 {}).exec sampleParams retriedEvents).store =
      some { fileID := 1, nowFileSize := 60, nowFileOffset := 52 } := by
    decide +kernel
  intro m hm
  rw [hstore] at hm
  cases hm
  exact .last (f := record 2 (sampleState 2) ++ record 3 (sampleState 3) ++ List.replicate 8 0) (by decide +kernel)
    (.zero (by decide +kernel) (by decide +kernel))

theorem run_retriedEvents :
    Run sampleParams (Readable sampleParams) ((start sampleParams 60 {}).exec sampleParams retriedEvents) := by
  have hfailed : Run sampleParams (Readable sampleParams) ((start sampleParams 60 {}).exec sampleParams failedEvents) :=
    (Run.start 60 (by decide)).exec failedEvents
      ⟨by decide +kernel, trivial, by decide +kernel, trivial, by decide +kernel, trivial, trivial⟩
  exact hfailed.exec [.restart 60, .put 2 (sampleState 2), .put 3 (sampleState 3)]
    ⟨by decide, scans_failedEvents, by decide +kernel, trivial, by decide +kernel, trivial, trivial⟩

/-- The next put is a roll-over that has opened the new file after twelve calls. -/
theorem not_inWindow_retriedEvents :
    ¬ InWindow ((start sampleParams 60 {}).exec sampleParams retriedEvents) 4 (sampleState 4) 12 :=
  fun ⟨_, _, _, _, hsix⟩ => absurd hsix (by decide)

/-! ## Crashes in a roll-over -/

/-- **Runs** with writes that fail and processes that die. -/
theorem Run.holds_readable (h : Run P (Readable P) db) : ∃ m now fe oe, Holds P db m now fe oe := by
  induction h with
  | start maxSize hmax =>
    obtain ⟨m, hholds, -⟩ := start_empty (P := P) hmax
    exact ⟨m, 0, 0, 0, hholds⟩
  | @step db e _ hused hok ih =>
    obtain ⟨m, now, fe, oe, h⟩ := ih
    cases e with
    | put i v =>
      obtain ⟨db', m', oe', hput, hholds, -⟩ := h.put hused.1 hused.2
      have hstep : Database.step P (.put i v) db = db' := by
        simp only [Database.step, h.store, hput]
      exact ⟨m', i, m'.fileID, oe', hstep ▸ hholds⟩
    | get i =>
      rw [h.get i]
      exact ⟨m, now, fe, oe, h⟩
    | putFails i v written =>
      obtain ⟨db', m', hput, hholds, -⟩ := h.putFails i v written
      have hstep : Database.step P (.putFails i v written) db = db' := by
        simp only [Database.step, h.store, hput]
      exact ⟨m', now, fe, oe, hstep ▸ hholds⟩
    | del i sweep =>
      obtain ⟨m', hholds, -⟩ := h.del sweep hused.1 hused.2
      have hstep : Database.step P (.del i sweep) db = (Database.del i sweep m db).1 := by
        simp only [Database.step, h.store]
      exact ⟨m', now, fe, oe, hstep ▸ hholds⟩
    | restart maxSize =>
      obtain ⟨m', -, -, -, hholds⟩ := start_legible db h.layout h.names (h.scans_iff.mp hok) hused rfl rfl
      have hstep : Database.step P (.restart maxSize) db = Database.start P maxSize db := by
        simp only [Database.step, h.store]
      rw [hstep]
      exact ⟨m', now, fe, oe, (hholds rfl).1⟩
    | crash i v calls maxSize =>
      obtain ⟨hnot, sets, hscans, hrolled⟩ := hok
      obtain ⟨m', -, -, -, hholds⟩ := h.crash (h.scans_iff.mp hscans) hused.2.2 hnot
      exact ⟨m', now, fe, oe, (hholds hrolled).1⟩

/-- **A crash in a roll-over.** Where the data can be read, the next process starts and has all records, if and only if the
crash was not in the window. -/
theorem crash_recovers (h : Run P (Readable P) db) {instanceID : Nat} {value : Bytes}
    (hused : Used P db (.crash instanceID value calls maxSize)) (hscans : ∃ sets, db.Scans P sets) :
    ((∃ m', (step P (.crash instanceID value calls maxSize) db).store = some m') ∧
        Gets P (step P (.crash instanceID value calls maxSize) db).disk db.values) ↔
      ¬ InWindow db instanceID value calls := by
  obtain ⟨m, now, fe, oe, hholds⟩ := h.holds_readable
  obtain ⟨sets, hscans⟩ := hscans
  have hleg := hholds.scans_iff.mp hscans
  constructor
  · rintro ⟨⟨m', hstore⟩, -⟩ hin
    rw [hholds.crash_window hleg hin] at hstore
    cases hstore
  · intro hnot
    obtain ⟨m', hstore, -, hgets, -⟩ := hholds.crash hleg hused.2.2 hnot
    exact ⟨⟨m', hstore⟩, hgets⟩

/-- The process dies after the new file was opened; an earlier one cut off what a failed put left. -/
theorem crash_recovers_opened :
    (∃ m', (step sampleParams (.crash 4 (sampleState 4) 12 60)
        ((start sampleParams 60 {}).exec sampleParams retriedEvents)).store = some m') ∧
      Gets sampleParams
        (step sampleParams (.crash 4 (sampleState 4) 12 60) ((start sampleParams 60 {}).exec sampleParams retriedEvents)).disk
        [(3, sampleState 3), (2, sampleState 2), (1, sampleState 1), (0, sampleState 0)] :=
  (crash_recovers run_retriedEvents (by decide +kernel) ⟨true, scans_retriedEvents⟩).mpr not_inWindow_retriedEvents

/-- A process that dies after the first write to the meta file is the last one. -/
theorem crash_loses (hs : Storable P 0 v) (hfit : (record 0 v).length ≤ maxSize) {w : Bytes} (hw : Storable P 1 w)
    (hnew : maxSize < (record 0 v).length + (record 1 w).length) :
    ∃ db, Run P Serving db ∧ Used P db (.crash 1 w 4 maxSize) ∧ (step P (.crash 1 w 4 maxSize) db).store = none := by
  have hmax : 4 ≤ maxSize := by
    rw [record_length] at hfit
    omega
  obtain ⟨hholds, hblank⟩ := holds_one hs hfit
  obtain ⟨sets, hscans, -⟩ := hholds.scans hblank
  exact ⟨_, run_one hs hfit trivial, used_one hw (Nat.zero_le 1) hmax,
    hholds.crash_window (hholds.scans_iff.mp hscans) ⟨_, hholds.store, hnew, le_rfl, by decide⟩⟩

/-- The first value fills the file; the process dies in the put of the second one, after the first write to the meta file. -/
theorem not_crash_recovers :
    ¬ ∀ (P : LogParams) (db : Database) (i : Nat) (v : Bytes) (calls maxSize : Nat), Run P Serving db →
      Used P db (.crash i v calls maxSize) →
      (∃ m', (step P (.crash i v calls maxSize) db).store = some m') ∧
        Gets P (step P (.crash i v calls maxSize) db).disk db.values := by
  intro h
  have hs : Storable sampleParams 0 (longState 104857570) := storable_longState (by decide)
  have hfit : (record 0 (longState 104857570)).length ≤ 104857600 := by
    rw [record_length, longState_length]
    decide
  have hnew : 104857600 < (record 0 (longState 104857570)).length + (record 1 (sampleState 1)).length := by
    rw [record_length, record_length, longState_length]
    simp [sampleState]
  obtain ⟨db, hrun, hused, hdead⟩ := crash_loses hs hfit (storable_sampleState 1) hnew
  obtain ⟨⟨m', hstore⟩, -⟩ := h sampleParams db 1 (sampleState 1) 4 104857600 hrun hused
  rw [hdead] at hstore
  cases hstore

/-! ## Writes that fail -/

/-- **Writes that fail.** They do no harm where a process starts only if the scan ends at the end of the data. -/
theorem putFails_harmless (h : Run P (Readable P) db) :
    ∃ m, db.store = some m ∧ Gets P db.disk db.values ∧
      ∀ i v, Used P db (.put i v) → (put P i v m db).2 = 0 ∧
        ∀ written, (putFails P i v written m db).2 = -1 ∧ (putFails P i v written m db).1.values = db.values := by
  obtain ⟨m, now, fe, oe, hholds⟩ := h.holds_readable
  refine ⟨m, hholds.store, hholds.gets, fun i v hused => ⟨?_, fun written => ?_⟩⟩
  · obtain ⟨db', m', oe', hput, -⟩ := hholds.put hused.1 hused.2
    rw [hput]
  · obtain ⟨db', m', hput, -, hvalues⟩ := hholds.putFails i v written
    rw [hput]
    exact ⟨rfl, hvalues⟩

/-- After a start behind a put that failed, and a crash in a roll-over, the next value is put and read. -/
theorem putFails_harmless_retried :
    Gets sampleParams
      (step sampleParams (.put 4 (sampleState 4)) (step sampleParams (.crash 4 (sampleState 4) 12 60)
        ((start sampleParams 60 {}).exec sampleParams retriedEvents))).disk
      [(4, sampleState 4), (3, sampleState 3), (2, sampleState 2), (1, sampleState 1), (0, sampleState 0)] := by
  have hcrashed := Run.step run_retriedEvents (e := .crash 4 (sampleState 4) 12 60) (by decide +kernel)
    ⟨not_inWindow_retriedEvents, true, scans_retriedEvents, fun h => by cases h⟩
  obtain ⟨m, -, hgets, -⟩ := putFails_harmless (.step hcrashed (e := .put 4 (sampleState 4)) (by decide +kernel) trivial)
  exact hgets

/-- No process dies in a call, and none starts on a short tail. -/
def Failing (db : Database) : DatabaseEvent → Prop
  | .put .. | .get _ | .del .. | .putFails .. => True
  | .restart _ => ¬ db.ShortTail
  | .crash .. => False

/-- The record of instance `i`, and behind it the length of the record of the instance after it. -/
def partFile (maxSize i : Nat) (v w : Bytes) : Bytes :=
  writeAt (record i v ++ List.replicate (maxSize - (record i v).length) 0) (record i v).length
    (encodeLE 4 (recordBody (i + 1) w).length)

theorem length_partFile {w : Bytes} (hfit : (record i v).length + 4 ≤ maxSize) : (partFile maxSize i v w).length = maxSize := by
  simp only [partFile, length_writeAt, List.length_append, List.length_replicate, encodeLE_length]
  omega

theorem decodeLE_partFile {w : Bytes} (hw : Storable P (i + 1) w) :
    decodeLE (((partFile maxSize i v w).drop (record i v).length).take 4) = (recordBody (i + 1) w).length := by
  have hat : At (partFile maxSize i v w) (record i v).length (encodeLE 4 (recordBody (i + 1) w).length) := At.written _ _ _
  have htake := hat.take
  rw [encodeLE_length] at htake
  rw [htake, hw.decodeLE_length]

theorem zeros_partFile (maxSize i : Nat) (v w : Bytes) : Zeros ((partFile maxSize i v w).drop ((record i v).length + 4)) := by
  have hdrop := drop_writeAt (record i v ++ List.replicate (maxSize - (record i v).length) 0) (record i v).length
    (encodeLE 4 (recordBody (i + 1) w).length)
  rw [encodeLE_length] at hdrop
  rw [partFile, hdrop, ← List.drop_drop, List.drop_left]
  exact (Zeros.replicate _).drop 4

/-- A put that stops after the length of its record leaves `partFile`. -/
theorem holds_part (hs : Storable P i v) {w : Bytes} (hfit : (record i v).length + (record (i + 1) w).length ≤ maxSize) :
    Holds P (step P (.putFails (i + 1) w 4) (one P maxSize i v))
        { fileID := 0, nowFileSize := maxSize, nowFileOffset := (record i v).length } i 0 (record i v).length ∧
      (step P (.putFails (i + 1) w 4) (one P maxSize i v)).disk.files.lookup 0 = some (partFile maxSize i v w) := by
  have hfirst : (record i v).length ≤ maxSize := by omega
  obtain ⟨hholds, -⟩ := holds_one hs hfirst
  obtain ⟨db, m, hput, h, -⟩ := hholds.putFails (i + 1) w 4
  have hstep : step P (.putFails (i + 1) w 4) (one P maxSize i v) = db := by
    simp only [step, hholds.store, hput]
  generalize hm₀ : ({ fileID := 0, nowFileSize := maxSize, nowFileOffset := (record i v).length } : LogStore) = m₀ at *
  have hget : LogStore.getFileFD P maxSize (record (i + 1) w).length m₀ (one P maxSize i v).disk =
      (m₀, (one P maxSize i v).disk, 0, (record i v).length) := by
    have hroom : ¬ m₀.needsNewFile (record (i + 1) w).length := by
      rw [← hm₀]
      show ¬ (record i v).length + (record (i + 1) w).length > maxSize
      omega
    unfold LogStore.getFileFD
    rw [if_neg (by simp [← hm₀]), if_neg hroom, ← hm₀]
  have hlen : (record (i + 1) w).take 4 = encodeLE 4 (recordBody (i + 1) w).length := List.take_left' (encodeLE_length 4 _)
  have hputs : putFails P (i + 1) w 4 m₀ (one P maxSize i v) =
      ({ one P maxSize i v with
          disk := (one P maxSize i v).disk.run (.write 0 (record i v).length (encodeLE 4 (recordBody (i + 1) w).length))
          store := some m₀ }, -1) := by
    have hsize : (one P maxSize i v).maxSize = maxSize := rfl
    unfold putFails LogStore.appendFails
    rw [hsize, hget, hlen, ← hm₀]
    rfl
  have hdb := (Prod.mk.inj (hput.symm.trans hputs)).1
  have hm : m = m₀ := by
    have hstore := h.store
    rw [hdb] at hstore
    exact (Option.some.inj hstore).symm
  rw [hstep]
  refine ⟨hm ▸ h, ?_⟩
  rw [hdb]
  simp [Disk.run, one, partFile]

/-- The length of a record is written, but not its instance: the next process takes it for instance `0` and does not start. -/
theorem putFails_loses (hs : Storable P i v) (hpos : 0 < i) {w : Bytes} (hw : Storable P (i + 1) w)
    (hfit : (record i v).length + (record (i + 1) w).length ≤ maxSize) :
    ∃ db, Run P Failing db ∧ db.store = none := by
  have hlen := record_length (i + 1) w
  have hbody := recordBody_length (i + 1) w
  have hused : ∀ x ∈ (one P maxSize i v).values, x.1 ≤ i + 1 := by
    simp [one]
  have hfailed : Run P Failing (step P (.putFails (i + 1) w 4) (one P maxSize i v)) :=
    .step (run_one hs (by omega) trivial) ⟨hw, hused⟩ trivial
  obtain ⟨h, hg⟩ := holds_part hs hfit
  have hglen : (partFile maxSize i v w).length = maxSize := length_partFile (by omega)
  generalize step P (.putFails (i + 1) w 4) (one P maxSize i v) = db at *
  -- the scan finds the length, and behind it the instance id 0
  obtain ⟨r, hr, hstarted⟩ := LogStore.rebuildIndex_start h.layout le_rfl
  have hstale : decodeLE ((((partFile maxSize i v w).drop ((record i v).length + 4)).take
      (recordBody (i + 1) w).length).take 8) < r.nowInstanceID := by
    rw [decodeLE_zeros (((zeros_partFile maxSize i v w).take _).take 8), hstarted.nowInstanceID]
    exact hpos
  have hrg : r.disk.files.lookup 0 = some (partFile maxSize i v w) := by
    rw [hstarted.files]
    exact hg
  rw [LogStore.rebuildFiles_stale hrg (by omega) (decodeLE_partFile hw) (by omega) (by omega) hstale] at hr
  have hlong : ¬ db.ShortTail := by
    rintro ⟨m, hm, -, hshort⟩
    rw [h.store] at hm
    cases hm
    simp only [Disk.fileSize, hg, Option.getD_some] at hshort
    omega
  refine ⟨_, .step hfailed (e := .restart maxSize) (by show 4 ≤ maxSize; omega) hlong, ?_⟩
  have hret : (LogStore.init P maxSize db.disk).2.2 ≠ 0 := by
    unfold LogStore.init
    simp only [h.names.1, hr]
    split <;> simp
  simp only [step, h.store, start, hret, if_false]

/-- The put of instance `2` stops after the length of its record. -/
theorem not_putFails_harmless :
    ¬ ∀ (P : LogParams) (db : Database), Run P Failing db → ∃ m, db.store = some m ∧ Gets P db.disk db.values := by
  intro h
  have hfit : (record 1 (sampleState 1)).length + (record (1 + 1) (sampleState 2)).length ≤ 104857600 := by
    rw [record_length, record_length]
    simp [sampleState]
  obtain ⟨db, hrun, hdead⟩ := putFails_loses (storable_sampleState 1) Nat.one_pos (storable_sampleState 2) hfit
  obtain ⟨m, hstore, -⟩ := h sampleParams db hrun
  rw [hdead] at hstore
  cases hstore

end Database

end PhxPaxos
