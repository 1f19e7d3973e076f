import PhxPaxos.Storage.LogStore

/-!
# The log store as a map
-/

namespace PhxPaxos

open Files

variable {P : LogParams}

/-- A deletion takes no file from the one of the record on. -/
theorem LogStore.del_frame {m : LogStore} {d : Disk} {e : FileID} (h : e.fileID ≤ m.fileID) :
    ∃ m' d', del e m d = (m', d', 0) ∧
      (m'.fileOpen = m.fileOpen ∧ m'.fileID = m.fileID ∧ m'.nowFileOffset = m.nowFileOffset) ∧ d'.index = d.index ∧
      d'.metaFile = d.metaFile ∧ ∀ k, e.fileID ≤ k → d'.files.lookup k = d.files.lookup k := by
  unfold del
  rw [if_neg (by omega)]
  by_cases hpos : e.fileID > 0
  · rw [if_pos hpos]
    unfold deleteFile
    generalize (if m.deletedMaxFileID = none ∧ e.fileID - 1 > 2000 then some (e.fileID - 1 - 2000) else m.deletedMaxFileID) =
      deleted
    by_cases hdeleted : deleted.any (e.fileID - 1 ≤ ·) = true
    all_goals simp only [hdeleted, if_true, Bool.false_eq_true, if_false]
    · exact ⟨_, _, rfl, ⟨rfl, rfl, rfl⟩, rfl, rfl, fun _ _ => rfl⟩
    · refine ⟨_, _, rfl, ⟨rfl, rfl, rfl⟩, rfl, rfl, fun k hk => ?_⟩
      rw [lookup_remove, if_neg]
      rintro ⟨hle, -⟩
      omega
  · rw [if_neg hpos]
    exact ⟨m, d, rfl, ⟨rfl, rfl, rfl⟩, rfl, rfl, fun _ _ => rfl⟩

namespace Database

variable {db : Database} {m : LogStore} {now fe oe i maxSize : Nat} {v : Bytes}

/-! ## What every step keeps -/

/-- A process runs, and the disk and its members fit together. -/
structure Holds (P : LogParams) (db : Database) (m : LogStore) (now fe oe : Nat) : Prop where
  store : db.store = some m
  layout : Layout P db.disk db.values now fe oe m.fileID
  names : db.disk.metaFile.Names P m.fileID
  writes : m.Writes fe oe
  maxSize : 4 ≤ db.maxSize

/-- `Get` returns the values. -/
def Gets (P : LogParams) (d : Disk) (values : List (Nat × Bytes)) : Prop := ∀ i, (get P i d).2 = stored values i

theorem Holds.gets (h : Holds P db m now fe oe) : Gets P db.disk db.values := by
  intro i
  simp only [h.layout.get i]

/-- What an append of the record of `i` at `e` leaves of the disk `d`, where the data ended at the offset `oe` of the file
`fe`. -/
structure Appended (P : LogParams) (d : Disk) (m : LogStore) (fe oe i : Nat) (v : Bytes) (d' : Disk) (m' : LogStore)
    (e : FileID) (oe' : Nat) : Prop where
  fileID : e.fileID = m'.fileID
  offset : e.offset = if fe = m'.fileID then oe else 0
  length : oe' = e.offset + (record i v).length
  next : m'.fileID = m.fileID ∨ m'.fileID = m.fileID + 1
  index : d'.index = d.index
  lies : Lies P d'.files e i v
  kept : ∀ e' j w, Lies P d.files e' j w → Before e' w fe oe → Lies P d'.files e' j w
  other : ∀ k, k ≠ m'.fileID → d'.files.lookup k = d.files.lookup k

/-- **Append.** The record is written behind all records that count. -/
theorem Holds.append (h : Holds P db m now fe oe) (hs : Storable P i v) (hi : ∀ x ∈ db.values, x.1 ≤ i) :
    ∃ m' d' e oe', LogStore.append P db.maxSize i v m db.disk = (m', d', 0, e) ∧
      (∀ j w e', db.disk.index.lookup j = some e' → db.values.lookup j = some w →
        e'.fileID ≠ e.fileID ∨ e'.offset + (record j w).length ≤ e.offset) ∧
      Appended P db.disk m fe oe i v d' m' e oe' ∧
      Layout P { d' with index := set d'.index i e } (set db.values i v) i m'.fileID oe' m'.fileID ∧
      d'.metaFile.Names P m'.fileID ∧ m'.Writes m'.fileID oe' ∧ (Blank db.disk fe oe → Blank d' m'.fileID oe') := by
  obtain ⟨m', d', hget, hlayout, hnames, hw, hindex, hnext, hkeep, hother, hblank⟩ :=
    LogStore.getFileFD_layout h.layout h.names h.writes h.maxSize (record i v).length
  obtain ⟨f, hf⟩ := hlayout.exist m'.fileID hlayout.current le_rfl
  have hnow := h.layout.newest_le hi
  let d₁ : Disk := { d' with files := set d'.files m'.fileID (writeAt f m'.nowFileOffset (record i v)) }
  have hrun : d'.run (.write m'.fileID m'.nowFileOffset (record i v)) = d₁ := by
    simp [Disk.run, hf, d₁]
  refine ⟨{ m' with nowFileOffset := m'.nowFileOffset + (record i v).length }, d₁,
    ⟨m'.fileID, m'.nowFileOffset, P.checksum (recordBody i v)⟩, m'.nowFileOffset + (record i v).length, ?_,
    fun j w e' he' hw' => ?_, ?_, ?_, ?_, ⟨hw.fileOpen, ?_⟩, fun hb => ?_⟩
  · simp only [LogStore.append, hget, hrun, ne_eq, not_true_eq_false, if_false]
  · have hcurrent := hlayout.current
    have hoff := hw.nowFileOffset
    rcases (h.layout.lies j e' w he' hw').2 with hlt | ⟨heq, hle⟩
    · exact .inl (by simp only; omega)
    · by_cases hfe : fe = m'.fileID
      · rw [if_pos hfe] at hoff
        refine .inr ?_
        rw [record_length]
        simp only
        omega
      · exact .inl (heq.trans_ne hfe)
  · refine ⟨rfl, hw.nowFileOffset, rfl, hnext, hindex, ⟨hs, ⟨_, by simp [d₁], At.written f _ _⟩, rfl⟩,
      fun e' j w hlies hbefore => ?_, fun k hk => ?_⟩
    · obtain ⟨g, hg, hat⟩ := hlies.lies
      have hlies' : Lies P d'.files e' j w := ⟨hlies.storable, ⟨g, hkeep _ g hg, hat⟩, hlies.checksum⟩
      exact hlies'.writeAt hbefore hlayout.current hw.nowFileOffset hf _
    · simp only [d₁, lookup_set, hk, if_false]
      exact hother k hk
  · exact hlayout.append hs hnow hw.nowFileOffset hf
  · exact hnames
  · exact (if_pos rfl).symm
  · exact (hblank hb).append hlayout hw.nowFileOffset hf _ rfl

/-- **Put.** -/
theorem Holds.put (h : Holds P db m now fe oe) (hs : Storable P i v) (hi : ∀ x ∈ db.values, x.1 ≤ i) :
    ∃ db' m' oe', put P i v m db = (db', 0) ∧ Holds P db' m' i m'.fileID oe' ∧ db'.values = set db.values i v ∧
      (Blank db.disk fe oe → Blank db'.disk m'.fileID oe') := by
  obtain ⟨m', d', e, oe', happend, -, -, hlayout, hnames, hw, hblank⟩ := h.append hs hi
  let db' : Database :=
    { db with
      disk := { d' with index := set d'.index i e }
      store := some m'
      values := set db.values i v }
  refine ⟨db', m', oe', ?_, ⟨rfl, hlayout, hnames, hw, h.maxSize⟩, rfl, fun hb => ?_⟩
  · simp only [Database.put, happend, ne_eq, not_true_eq_false, if_false, db']
  · obtain ⟨htail, hlater⟩ := hblank hb
    exact ⟨htail, hlater⟩

/-- **A put that fails.** -/
theorem Holds.putFails (h : Holds P db m now fe oe) (i : Nat) (v : Bytes) (written : Nat) :
    ∃ db' m', putFails P i v written m db = (db', -1) ∧ Holds P db' m' now fe oe ∧ db'.values = db.values := by
  obtain ⟨m', d', hget, hlayout, hnames, hw, -⟩ :=
    LogStore.getFileFD_layout h.layout h.names h.writes h.maxSize (record i v).length
  obtain ⟨f, hf⟩ := hlayout.exist m'.fileID hlayout.current le_rfl
  let d₁ : Disk := { d' with files := set d'.files m'.fileID (writeAt f m'.nowFileOffset ((record i v).take written)) }
  have hrun : d'.run (.write m'.fileID m'.nowFileOffset ((record i v).take written)) = d₁ := by
    simp [Disk.run, hf, d₁]
  refine ⟨{ db with disk := d₁, store := some m' }, m', ?_, ⟨rfl, hlayout.overwrite hw.nowFileOffset hf _, hnames, hw, h.maxSize⟩, rfl⟩
  simp only [Database.putFails, LogStore.appendFails, hget, hrun, ne_eq, not_true_eq_false, if_false]

/-- **Get.** It leaves the disk alone. -/
theorem Holds.get (h : Holds P db m now fe oe) (i : Nat) : step P (.get i) db = db := by
  have hget := h.layout.get i
  have hstore := h.store
  obtain ⟨disk, store, maxSize, values⟩ := db
  cases hstore
  simp only [step, hget]

/-- **Del.** The smallest instance is deleted, with files before the one of its record or without. -/
theorem Holds.del (h : Holds P db m now fe oe) (sweep : Bool) (hmin : ∀ x ∈ db.values, i ≤ x.1)
    (hlt : ∃ x ∈ db.values, i < x.1) :
    ∃ m', Holds P (Database.del i sweep m db).1 m' now fe oe ∧
      (Blank db.disk fe oe → Blank (Database.del i sweep m db).1.disk fe oe) := by
  have hlayout := h.layout
  unfold Database.del
  cases hentry : if sweep then db.disk.index.lookup i else none with
  | none =>
    by_cases hsweep : sweep = true
    · simp only [hsweep, if_true]
      exact ⟨m, h, id⟩
    · simp only [hsweep]
      exact ⟨m, ⟨h.store, hlayout.delete hmin hlt rfl fun _ _ => rfl, h.names, h.writes, h.maxSize⟩, fun hb => ⟨hb.tail, hb.later⟩⟩
  | some e =>
    have he : db.disk.index.lookup i = some e := by
      split at hentry
      · exact hentry
      · cases hentry
    have hle := hlayout.fileID_le he
    obtain ⟨m', d', hdel, hm', hindex, hmetaFile, hfiles⟩ :=
      LogStore.del_frame (d := db.disk) (hle.trans hlayout.current)
    simp only [hdel, ne_eq, not_true_eq_false, if_false]
    have hw : m'.Writes fe oe := ⟨hm'.1.trans h.writes.fileOpen, by rw [hm'.2.1, hm'.2.2, h.writes.nowFileOffset]⟩
    refine ⟨m', ⟨rfl, ?_, ?_, hw, h.maxSize⟩, fun hb => hb.delete fun k hk => hfiles k (hle.trans hk)⟩
    · rw [hm'.2.1]
      refine hlayout.delete hmin hlt (congrArg (remove · (· = i)) hindex) fun k hk => hfiles k (hk e he)
    · rw [hm'.2.1]
      exact hmetaFile ▸ h.names

/-- The files from the one of the record on stay as they are. -/
theorem Holds.del_files (h : Holds P db m now fe oe) (sweep : Bool) {k : Nat}
    (hk : ∀ e, db.disk.index.lookup i = some e → e.fileID ≤ k) :
    (Database.del i sweep m db).1.disk.files.lookup k = db.disk.files.lookup k := by
  unfold Database.del
  cases hentry : if sweep then db.disk.index.lookup i else none with
  | none =>
    by_cases hsweep : sweep = true
    · simp only [hsweep, if_true]
    · simp only [hsweep]
      rfl
  | some e =>
    have he : db.disk.index.lookup i = some e := by
      split at hentry
      · exact hentry
      · cases hentry
    obtain ⟨m', d', hdel, -, -, -, hfiles⟩ :=
      LogStore.del_frame (d := db.disk) ((h.layout.fileID_le he).trans h.layout.current)
    simp only [hdel, ne_eq, not_true_eq_false, if_false]
    exact hfiles k (hk e he)

/-! ## Starting -/

/-- **Start.** Where the data can be read, `Get` returns the values; where the write offset is set, too, all goes on. -/
theorem start_legible (db : Database) {d : Disk} {values : List (Nat × Bytes)} {last : Nat} {sets : Bool}
    (h : Layout P d values now fe oe last) (hn : d.metaFile.Names P last) (hleg : Legible P d.files last sets fe oe now)
    (hmax : 4 ≤ maxSize) (hdisk : db.disk = d) (hvalues : db.values = values) :
    ∃ m', (start P maxSize db).store = some m' ∧ (start P maxSize db).values = values ∧
      Gets P (start P maxSize db).disk values ∧
      (sets = true → Holds P (start P maxSize db) m' now fe oe ∧ (Blank d fe oe → Blank (start P maxSize db).disk fe oe)) := by
  subst hdisk hvalues
  obtain ⟨m', d', hinit, hfileID, hlayout, hw, -, hmetaFile, hblank⟩ := LogStore.init_legible h hn hleg hmax
  have hstart : start P maxSize db = { db with disk := d', store := some m', maxSize := maxSize } := by
    simp only [start, hinit, if_true]
  rw [hstart]
  refine ⟨m', rfl, rfl, fun i => ?_, fun hsets => ⟨⟨rfl, ?_, ?_, hw hsets, hmax⟩, hblank⟩⟩
  · rw [hlayout.get i]
  · rw [hfileID]
    exact hlayout
  · rw [hfileID]
    exact hmetaFile ▸ hn

/-- **Start with zeros behind the data.** All goes on, unless one to three of them are left. -/
theorem start_blank (db : Database) {last : Nat} (h : Layout P db.disk db.values now fe oe last)
    (hn : db.disk.metaFile.Names P last) (hb : Blank db.disk fe oe) (hmax : 4 ≤ maxSize) :
    ∃ m', (start P maxSize db).store = some m' ∧ (start P maxSize db).values = db.values ∧
      Gets P (start P maxSize db).disk db.values ∧
      ((fe = last → ∀ f, db.disk.files.lookup last = some f → ¬ (oe < f.length ∧ f.length < oe + 4)) →
        Holds P (start P maxSize db) m' now fe oe ∧ Blank (start P maxSize db).disk fe oe) := by
  obtain ⟨sets, hleg, hshort⟩ := hb.legible h
  obtain ⟨m', hstore, hvalues, hgets, hholds⟩ := start_legible db h hn hleg hmax rfl rfl
  refine ⟨m', hstore, hvalues, hgets, fun hok => ?_⟩
  have hsets : sets = true := by
    cases sets with
    | true => rfl
    | false =>
      obtain ⟨hfe, f, hf, hbad⟩ := hshort rfl
      exact absurd hbad (hok hfe f hf)
  exact ⟨(hholds hsets).1, (hholds hsets).2 hb⟩

/-- The first start, in an empty directory. -/
theorem start_empty (hmax : 4 ≤ maxSize) :
    ∃ m, Holds P (start P maxSize {}) m 0 0 0 ∧ Blank (start P maxSize {}).disk 0 0 := by
  let d : Disk := { files := [(0, [])] }
  have hfile : ∀ k f, d.files.lookup k = some f → k = 0 ∧ f = [] := by
    intro k f hf
    simpa [d] using mem_of_lookup hf
  have hlayout : Layout P d [] 0 0 0 0 := by
    refine ⟨fun i => by simp [d], fun i e v he => ?_, fun i j e e' he => ?_, .inl ⟨fun i => rfl, rfl, rfl, rfl⟩, le_rfl,
      fun f _ => Nat.zero_le _, fun k _ hk => ⟨[], by simp [d, Nat.le_zero.mp hk]⟩, fun k hk => ?_⟩
    · cases he
    · cases he
    · cases hf : d.files.lookup k with
      | none => rfl
      | some f => exact absurd (hfile k f hf).1 hk.ne'
  have hblank : Blank d 0 0 := by
    refine ⟨fun f hf => ?_, fun k f hk hf => absurd (hfile k f hf).1 hk.ne'⟩
    rw [(hfile 0 f hf).2]
    exact Zeros.nil
  obtain ⟨m, d', hexpand, hfileID, hlayout', hw, -, hmetaFile, -, -, hblank'⟩ :=
    LogStore.expandFile_layout (m := { fileID := 0 }) hlayout rfl hmax
  have hinit : LogStore.init P maxSize {} = (m, d', 0) := by
    have hopen : ({} : Disk).run (.openFile 0) = d := by
      simp [Disk.run, Files.set, d]
    simp [LogStore.init, LogStore.rebuildIndex, LogStore.maxInstanceIDFileID, LogStore.rebuildFiles,
      LogStore.rebuildIndexForOneFile, hopen, hexpand]
  have hw := hw fun _ => rfl
  refine ⟨m, ?_, ?_⟩
  · simp only [start, hinit, if_true]
    refine ⟨rfl, hfileID ▸ hlayout', ?_, hw, hmax⟩
    rw [hmetaFile, hfileID]
    exact ⟨rfl, fun c hc => by cases hc⟩
  · simp only [start, hinit]
    exact hblank' hblank

/-! ## Crashes -/

/-- The meta file names a file that is not there yet: between the first write to the meta file and the open of the file. -/
def InWindow (db : Database) (instanceID : Nat) (value : Bytes) (calls : Nat) : Prop :=
  ∃ m, db.store = some m ∧ m.needsNewFile (record instanceID value).length ∧ 4 ≤ calls ∧ calls ≤ 6

/-- The new file is there. -/
def RolledOver (db : Database) (instanceID : Nat) (value : Bytes) (calls : Nat) : Prop :=
  ∃ m, db.store = some m ∧ m.needsNewFile (record instanceID value).length ∧ 7 ≤ calls

/-- One to three bytes lie behind the write offset. -/
def ShortTail (db : Database) : Prop :=
  ∃ m, db.store = some m ∧ m.nowFileOffset < db.disk.fileSize m.fileID ∧ db.disk.fileSize m.fileID < m.nowFileOffset + 4

theorem Holds.shortTail (h : Holds P db m now fe oe) (hfe : fe = m.fileID) {f : Bytes}
    (hf : db.disk.files.lookup m.fileID = some f) (hbad : oe < f.length ∧ f.length < oe + 4) : db.ShortTail := by
  have hsize : db.disk.fileSize m.fileID = f.length := by
    simp [Disk.fileSize, hf]
  have hoff := h.writes.nowFileOffset
  rw [if_pos hfe] at hoff
  exact ⟨m, h.store, by omega, by omega⟩

/-- The disk after a file was opened in a roll-over. -/
def opened (P : LogParams) (m : LogStore) (d : Disk) : Disk :=
  { d with
    metaFile := ⟨some (m.fileID + 1), some (P.metaChecksum (m.fileID + 1))⟩
    files := set d.files (m.fileID + 1) [] }

/-- What a process that dies in `GetFileFD` leaves. -/
theorem diesIn_cases (calls : Nat) (hnone : db.disk.files.lookup (m.fileID + 1) = none) :
    ¬ (m.needsNewFile (record i v).length ∧ 4 ≤ calls) ∧ diesIn P i v calls m db = db.disk ∨
      m.needsNewFile (record i v).length ∧
        ((4 ≤ calls ∧ calls ≤ 6) ∧ (diesIn P i v calls m db).metaFile.fileID = some (m.fileID + 1) ∧
            (diesIn P i v calls m db).files = db.disk.files ∧ (diesIn P i v calls m db).index = db.disk.index ∨
          7 ≤ calls ∧ (diesIn P i v calls m db = opened P m db.disk ∨
            diesIn P i v calls m db = (opened P m db.disk).run (.write (m.fileID + 1) (db.maxSize - 1) [0]))) := by
  unfold diesIn LogStore.getFileFDCalls
  by_cases hnew : m.needsNewFile (record i v).length
  · rw [if_pos hnew]
    have hopened : db.disk.runAll [.lseek, .close, .lseek, .writeMetaFileID (m.fileID + 1),
        .writeMetaChecksum (P.metaChecksum (m.fileID + 1)), .fsync, .openFile (m.fileID + 1)] = opened P m db.disk := by
      simp [Disk.runAll, Disk.run, hnone, opened]
    rcases calls with _ | _ | _ | _ | _ | _ | _ | _ | _ | _ | _ | calls
    iterate 4 exact .inl ⟨by omega, rfl⟩
    iterate 3 exact .inr ⟨hnew, .inl ⟨by omega, rfl, rfl, rfl⟩⟩
    iterate 4 exact .inr ⟨hnew, .inr ⟨by omega, .inl hopened⟩⟩
    refine .inr ⟨hnew, .inr ⟨by omega, .inr ?_⟩⟩
    rw [← hopened]
    cases calls with
    | zero => rfl
    | succ calls =>
      rw [List.take_of_length_le (by simp)]
      rfl
  · rw [if_neg hnew]
    refine .inl ⟨fun h => hnew h.1, ?_⟩
    rcases calls with _ | calls
    · rfl
    · rw [List.take_of_length_le (by simp)]
      rfl

theorem Holds.opened (h : Holds P db m now fe oe) :
    Layout P (opened P m db.disk) db.values now fe oe (m.fileID + 1) ∧
      (opened P m db.disk).metaFile.Names P (m.fileID + 1) ∧
      (Blank db.disk fe oe → Blank (Database.opened P m db.disk) fe oe) :=
  ⟨h.layout.newFile rfl rfl, ⟨rfl, fun _ hc => (Option.some.inj hc).symm⟩,
    fun hb => hb.newFile h.layout rfl Zeros.nil (.inl rfl)⟩

theorem Holds.expanded (h : Holds P db m now fe oe) {d : Disk}
    (hd : d = (Database.opened P m db.disk).run (.write (m.fileID + 1) (db.maxSize - 1) [0])) :
    Layout P d db.values now fe oe (m.fileID + 1) ∧ d.metaFile.Names P (m.fileID + 1) ∧
      (Blank db.disk fe oe → Blank d fe oe) := by
  obtain ⟨hlayout, hnames, hblank⟩ := h.opened
  have hsize : (Database.opened P m db.disk).fileSize (m.fileID + 1) = 0 := by
    simp [Disk.fileSize, Database.opened]
  obtain ⟨m', d', hexpand, -, hlayout', -, -, hmetaFile, -, -, hblank'⟩ :=
    LogStore.expandFile_layout (m := { fileID := m.fileID + 1 }) hlayout rfl h.maxSize
  have hd' : d' = d := by
    simp only [LogStore.expandFile, hsize, if_true] at hexpand
    rw [hd, ← (Prod.mk.inj hexpand).2]
  subst hd'
  exact ⟨hlayout', hmetaFile ▸ hnames, fun hb => hblank' (hblank hb)⟩

/-- **A crash outside of the window.** -/
theorem Holds.crash (h : Holds P db m now fe oe) {sets : Bool} (hleg : Legible P db.disk.files m.fileID sets fe oe now)
    (hmax : 4 ≤ maxSize) {calls : Nat} (hnot : ¬ InWindow db i v calls) :
    ∃ m', (step P (.crash i v calls maxSize) db).store = some m' ∧
      (step P (.crash i v calls maxSize) db).values = db.values ∧
      Gets P (step P (.crash i v calls maxSize) db).disk db.values ∧
      ((sets = false → RolledOver db i v calls) →
        Holds P (step P (.crash i v calls maxSize) db) m' now fe oe ∧
          (Blank db.disk fe oe → Blank (step P (.crash i v calls maxSize) db).disk fe oe)) := by
  have hstep : step P (.crash i v calls maxSize) db =
      start P maxSize { db with disk := diesIn P i v calls m db } := by
    simp only [step, h.store]
  have hnone := h.layout.missing (m.fileID + 1) (Nat.lt_succ_self _)
  rw [hstep]
  rcases diesIn_cases (P := P) (i := i) (v := v) calls hnone with ⟨hstays, hsame⟩ | ⟨hnew, ⟨hwindow, -⟩ | ⟨hseven, hdies⟩⟩
  · rw [hsame]
    obtain ⟨m', hstore, hvalues, hgets, hholds⟩ :=
      start_legible { db with disk := db.disk } h.layout h.names hleg hmax rfl rfl
    refine ⟨m', hstore, hvalues, hgets, fun hok => hholds ?_⟩
    by_contra hsets
    obtain ⟨m₁, hm₁, hnew, hseven⟩ := hok (Bool.eq_false_of_not_eq_true hsets)
    rw [h.store] at hm₁
    cases hm₁
    exact hstays ⟨hnew, by omega⟩
  · exact absurd ⟨m, h.store, hnew, hwindow⟩ hnot
  · rcases hdies with hdies | hdies
    · obtain ⟨hlayout, hnames, hblank⟩ := h.opened
      have hleg' : Legible P (Database.opened P m db.disk).files (m.fileID + 1) true fe oe now :=
        hleg.newFile (fun k hk => by simp [Database.opened, hk]) (g := []) (by simp [Database.opened]) Zeros.nil (.inl rfl)
      obtain ⟨m', hstore, hvalues, hgets, hholds⟩ := start_legible { db with disk := diesIn P i v calls m db } hlayout hnames
        hleg' hmax hdies rfl
      exact ⟨m', hstore, hvalues, hgets, fun _ => ⟨(hholds rfl).1, fun hb => (hholds rfl).2 (hblank hb)⟩⟩
    · obtain ⟨hlayout, hnames, hblank⟩ := h.expanded hdies
      have hzero : (diesIn P i v calls m db).files.lookup (m.fileID + 1) = some (List.replicate db.maxSize 0) := by
        rw [hdies, ← writeAt_zero db.maxSize h.maxSize]
        simp [Database.opened, Disk.run]
      have hleg' : Legible P (diesIn P i v calls m db).files (m.fileID + 1) true fe oe now :=
        hleg.newFile (fun k hk => by simp [hdies, Database.opened, Disk.run, hk]) hzero (Zeros.replicate _)
          (.inr (by rw [List.length_replicate]; exact h.maxSize))
      obtain ⟨m', hstore, hvalues, hgets, hholds⟩ := start_legible { db with disk := diesIn P i v calls m db } hlayout hnames
        hleg' hmax rfl rfl
      exact ⟨m', hstore, hvalues, hgets, fun _ => ⟨(hholds rfl).1, fun hb => (hholds rfl).2 (hblank hb)⟩⟩

/-- **A crash in the window.** No process starts any more. -/
theorem Holds.crash_window (h : Holds P db m now fe oe) {sets : Bool}
    (hleg : Legible P db.disk.files m.fileID sets fe oe now) {calls : Nat} (hin : InWindow db i v calls) :
    (step P (.crash i v calls maxSize) db).store = none := by
  obtain ⟨m₁, hm₁, hnew, hfour, hsix⟩ := hin
  rw [h.store] at hm₁
  cases hm₁
  have hnone := h.layout.missing (m.fileID + 1) (Nat.lt_succ_self _)
  rcases diesIn_cases (P := P) (i := i) (v := v) calls hnone with ⟨hstays, -⟩ | ⟨-, ⟨-, hmeta, hfiles, hindex⟩ | ⟨hseven, -⟩⟩
  · exact absurd ⟨hnew, hfour⟩ hstays
  · have hlayout : Layout P (diesIn P i v calls m db) db.values now fe oe m.fileID :=
      h.layout.scanned (fun j => by rw [hindex]) fun k => .inl (by rw [hfiles])
    rw [← hfiles] at hleg
    have hret : (LogStore.init P maxSize (diesIn P i v calls m db)).2.2 ≠ 0 := LogStore.init_early hlayout hleg hmeta
    simp only [step, h.store, start, hret, if_false]
  · omega

end Database

end PhxPaxos
