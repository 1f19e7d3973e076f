import PhxPaxos.Storage.Runs

/-!
# Rebuilding a lost part of the index

LevelDB is not synced, so that the latest writes to it can be lost when the machine stops. The files still have the records.
`History` says how the records of a run of puts follow each other through the files; the scan of a rebuild, which starts
behind the newest record that the index has left, reads all the later ones (`History.scan`), where zeros with room for a
length or nothing lie behind the records of each file. It ends with the index as it was (`lost_index_rebuilt`).
-/

namespace PhxPaxos

open Files

variable {P : LogParams}

/-! ## The records of a run -/

/-- A record that was written. -/
structure Written where
  instanceID : Nat
  value : Bytes
  place : FileID

namespace Written

/-- What was written to the index. -/
def index (x : Written) : Nat × FileID := (x.instanceID, x.place)

def entry (x : Written) : Nat × Bytes := (x.instanceID, x.value)

/-- Where the record ends. -/
def stop (x : Written) : Nat := x.place.offset + (record x.instanceID x.value).length

/-- The latest instance, and where its record ends; the latest record is the first one. -/
def now : List Written → Nat
  | [] => 0
  | x :: _ => x.instanceID

def endFile : List Written → Nat
  | [] => 0
  | x :: _ => x.place.fileID

def endOffset : List Written → Nat
  | [] => 0
  | x :: _ => x.stop

/-- Each record lies right behind the one before, or at the start of the next file. -/
def History : List Written → Prop
  | [] => True
  | x :: xs => (now xs ≤ x.instanceID ∧
      (x.place.fileID = endFile xs ∧ x.place.offset = endOffset xs ∨ x.place.fileID = endFile xs + 1 ∧ x.place.offset = 0)) ∧
      History xs

/-- Where the last record of the file `k` ends. -/
def endIn (k : Nat) : List Written → Nat
  | [] => 0
  | x :: xs => if x.place.fileID = k then max x.stop (endIn k xs) else endIn k xs

variable {x : Written} {xs : List Written} {k : Nat}

theorem endFile_cons (x : Written) (xs : List Written) : endFile (x :: xs) = x.place.fileID := rfl

theorem History.before (h : History xs) : ∀ x ∈ xs, Before x.place x.value (endFile xs) (endOffset xs) ∧
    x.instanceID ≤ now xs ∧ x.place.fileID ≤ endFile xs := by
  induction xs with
  | nil => simp
  | cons y ys ih =>
    obtain ⟨⟨hle, hplace⟩, hys⟩ := h
    intro x hx
    rcases List.mem_cons.mp hx with rfl | hx
    · refine ⟨.inr ⟨rfl, ?_⟩, le_rfl, le_rfl⟩
      simp only [endOffset, stop, record_length]
      omega
    · obtain ⟨hbefore, hnow, hfile⟩ := ih hys x hx
      simp only [now, endFile, endOffset, stop, record_length]
      refine ⟨?_, by omega, by omega⟩
      rcases hbefore with hlt | ⟨heq, hend⟩
      · exact .inl (by omega)
      · rcases hplace with ⟨hsame, hoff⟩ | ⟨hnext, -⟩
        · exact .inr ⟨by omega, by omega⟩
        · exact .inl (by omega)

theorem History.endIn_later (h : History xs) (hk : endFile xs < k) : endIn k xs = 0 := by
  induction xs with
  | nil => rfl
  | cons y ys ih =>
    obtain ⟨⟨-, hplace⟩, hys⟩ := h
    simp only [endFile] at hk
    have hne : y.place.fileID ≠ k := by omega
    rw [endIn, if_neg hne]
    exact ih hys (by omega)

theorem History.endIn_endFile (h : History xs) : endIn (endFile xs) xs = endOffset xs := by
  induction xs with
  | nil => rfl
  | cons y ys ih =>
    obtain ⟨⟨-, hplace⟩, hys⟩ := h
    rw [endFile, endIn, if_pos rfl, endOffset]
    apply max_eq_left
    rcases hplace with ⟨hsame, hoff⟩ | ⟨hnext, -⟩
    · rw [hsame, ih hys, ← hoff]
      exact Nat.le_add_right _ _
    · rw [hys.endIn_later (by omega)]
      exact Nat.zero_le _

theorem History.drop (h : History xs) (n : Nat) : History (xs.drop n) := by
  induction n generalizing xs with
  | zero => exact h
  | succ n ih =>
    cases xs with
    | nil => exact h
    | cons x xs => exact ih h.2

/-- The index and the values of an instance come from the same record. -/
theorem lookup_map (xs : List Written) (i : Nat) :
    (xs.map index).lookup i = none ∧ (xs.map entry).lookup i = none ∨
      ∃ x ∈ xs, x.instanceID = i ∧ (xs.map index).lookup i = some x.place ∧ (xs.map entry).lookup i = some x.value := by
  induction xs with
  | nil => exact .inl ⟨rfl, rfl⟩
  | cons y ys ih =>
    simp only [List.map_cons, index, entry, List.lookup_cons]
    by_cases hy : i = y.instanceID
    · subst hy
      exact .inr ⟨y, List.mem_cons_self, rfl, by simp, by simp⟩
    · rw [beq_eq_false_iff_ne.mpr hy]
      rcases ih with hnone | ⟨x, hx, hi, hindex, hentry⟩
      · exact .inl hnone
      · exact .inr ⟨x, List.mem_cons_of_mem _ hx, hi, hindex, hentry⟩

theorem lookup_index {e : FileID} {i : Nat} (he : (xs.map index).lookup i = some e) :
    ∃ x ∈ xs, x.instanceID = i ∧ x.place = e ∧ (xs.map entry).lookup i = some x.value := by
  rcases lookup_map xs i with ⟨hnone, -⟩ | ⟨x, hx, hi, hindex, hentry⟩
  · rw [hnone] at he
    cases he
  · rw [hindex] at he
    exact ⟨x, hx, hi, Option.some.inj he, hentry⟩

theorem History.ordered (h : History xs) : ∀ x ∈ xs, ∀ y ∈ xs, x.instanceID < y.instanceID →
    x.place.fileID ≤ y.place.fileID := by
  induction xs with
  | nil => simp
  | cons z zs ih =>
    obtain ⟨⟨hle, hplace⟩, hzs⟩ := h
    intro x hx y hy hlt
    rcases List.mem_cons.mp hx with rfl | hx'
    · rcases List.mem_cons.mp hy with rfl | hy'
      · exact le_rfl
      · have hnow := (hzs.before y hy').2.1
        omega
    · rcases List.mem_cons.mp hy with rfl | hy'
      · have hfile := (hzs.before x hx').2.2
        omega
      · exact ih hzs x hx' y hy' hlt

/-- **A history lies on the disk.** -/
theorem History.layout (h : History xs) {files : List (Nat × Bytes)} {last : Nat} {metaFile : MetaFile}
    (hlies : ∀ x ∈ xs, Lies P files x.place x.instanceID x.value) (hcurrent : endFile xs ≤ last)
    (hdata : ∀ f, files.lookup (endFile xs) = some f → endOffset xs ≤ f.length)
    (hexist : ∀ k, endFile xs ≤ k → k ≤ last → ∃ f, files.lookup k = some f)
    (hmissing : ∀ k, last < k → files.lookup k = none) :
    Layout P ⟨metaFile, files, xs.map index⟩ (xs.map entry) (now xs) (endFile xs) (endOffset xs) last := by
  refine ⟨fun i => ?_, fun i e v he hv => ?_, fun i j e e' he he' hij => ?_, ?_, hcurrent, hdata, hexist, hmissing⟩
  · rcases lookup_map xs i with ⟨hindex, hentry⟩ | ⟨x, -, -, hindex, hentry⟩
    · simp [hindex, hentry]
    · simp [hindex, hentry]
  · obtain ⟨x, hx, rfl, rfl, hentry⟩ := lookup_index he
    rw [hentry] at hv
    cases hv
    exact ⟨hlies x hx, (h.before x hx).1⟩
  · obtain ⟨x, hx, rfl, rfl, -⟩ := lookup_index he
    obtain ⟨y, hy, rfl, rfl, -⟩ := lookup_index he'
    rcases hij.lt_or_eq with hlt | heq
    · exact h.ordered x hx y hy hlt
    · rw [heq, he'] at he
      exact (congrArg FileID.fileID (Option.some.inj he)).ge
  · cases xs with
    | nil => exact .inl ⟨fun _ => rfl, rfl, rfl, rfl⟩
    | cons x xs =>
      refine .inr ⟨x.place, x.value, by simp [now, index], by simp [now, entry], fun i e he => ?_, rfl, ?_⟩
      · obtain ⟨y, hy, rfl, -, -⟩ := lookup_index he
        exact (h.before y hy).2.1
      · simp only [endOffset, stop, record_length]
        omega

theorem History.endFile_le (h : History (x :: xs)) : endFile xs ≤ x.place.fileID := by
  obtain ⟨⟨-, ⟨hsame, -⟩ | ⟨hnext, -⟩⟩, -⟩ := h
  · exact hsame.ge
  · omega

/-- **The scan reads a history.** From behind any of its records it gets behind the last one, with the index that was
written. -/
theorem History.scan (h : History xs) {files : List (Nat × Bytes)}
    (hlies : ∀ x ∈ xs, Lies P files x.place x.instanceID x.value) (hfirst : ∃ f, files.lookup 0 = some f)
    (hblank : ∀ k f, k < endFile xs → files.lookup k = some f →
      Zeros (f.drop (endIn k xs)) ∧ (f.length ≤ endIn k xs ∨ endIn k xs + 4 ≤ f.length))
    {n fuel metaFileID : Nat} {r : LogStore.Rebuild} (hfiles : r.disk.files = files)
    (hnow : r.nowInstanceID = now (xs.drop n))
    (hindex : ∀ i, r.disk.index.lookup i = ((xs.drop n).map index).lookup i)
    (hfuel : endFile xs + 2 ≤ fuel + endFile (xs.drop n)) :
    ∃ fuel' r', LogStore.rebuildFiles P metaFileID fuel (endFile (xs.drop n)) (endOffset (xs.drop n)) r =
        LogStore.rebuildFiles P metaFileID fuel' (endFile xs) (endOffset xs) r' ∧
      fuel' + endFile xs = fuel + endFile (xs.drop n) ∧ r'.disk.files = files ∧ r'.disk.metaFile = r.disk.metaFile ∧
      r'.nowInstanceID = now xs ∧ ∀ i, r'.disk.index.lookup i = (xs.map index).lookup i := by
  induction xs generalizing n with
  | nil =>
    rw [List.drop_nil] at *
    exact ⟨fuel, r, rfl, rfl, hfiles, rfl, hnow, hindex⟩
  | cons x xs ih =>
    cases n with
    | zero => exact ⟨fuel, r, rfl, rfl, hfiles, rfl, hnow, hindex⟩
    | succ n =>
      have hle := h.endFile_le
      obtain ⟨⟨hnowx, hplace⟩, hxs⟩ := h
      have hblank' : ∀ k f, k < endFile xs → files.lookup k = some f →
          Zeros (f.drop (endIn k xs)) ∧ (f.length ≤ endIn k xs ∨ endIn k xs + 4 ≤ f.length) := by
        intro k f hk hf
        have hkx := hblank k f (hk.trans_le hle) hf
        rwa [endIn, if_neg (hk.trans_le hle).ne'] at hkx
      obtain ⟨fuel₁, r₁, hscan, hfuel₁, hfiles₁, hmetaFile₁, hnow₁, hindex₁⟩ :=
        ih hxs (fun y hy => hlies y (List.mem_cons_of_mem x hy)) hblank' hnow hindex
          (by rw [endFile_cons, List.drop_succ_cons] at hfuel; omega)
      simp only [endFile_cons, List.drop_succ_cons] at hfuel hfuel₁ ⊢
      have hx := hlies x List.mem_cons_self
      obtain ⟨g, hg, hat⟩ := hx.lies
      -- the scan gets to the start of the record
      obtain ⟨fuel₂, r₂, hreach, hfuel₂, hfiles₂, hmetaFile₂, hnow₂, hindex₂⟩ : ∃ fuel₂ r₂,
          LogStore.rebuildFiles P metaFileID fuel₁ (endFile xs) (endOffset xs) r₁ =
            LogStore.rebuildFiles P metaFileID (fuel₂ + 1) x.place.fileID x.place.offset r₂ ∧
          fuel₂ + 1 + x.place.fileID = fuel₁ + endFile xs ∧ r₂.disk.files = files ∧ r₂.disk.metaFile = r₁.disk.metaFile ∧
          r₂.nowInstanceID = now xs ∧ r₂.disk.index = r₁.disk.index := by
        rcases hplace with ⟨hsame, hoff⟩ | ⟨hnext, hzero⟩
        · refine ⟨fuel₁ - 1, r₁, ?_, by omega, hfiles₁, rfl, hnow₁, rfl⟩
          rw [hsame, hoff, Nat.sub_add_cancel (by omega)]
        · have hend : endIn (endFile xs) (x :: xs) = endOffset xs := by
            rw [endIn, if_neg (by omega), hxs.endIn_endFile]
          obtain ⟨f, hf⟩ : ∃ f, files.lookup (endFile xs) = some f := by
            cases xs with
            | nil => exact hfirst
            | cons y ys =>
              obtain ⟨f, hf, -⟩ := (hlies y (List.mem_cons_of_mem x List.mem_cons_self)).lies
              exact ⟨f, hf⟩
          have hclear := hblank (endFile xs) f (by rw [endFile_cons]; omega) hf
          rw [hend] at hclear
          refine ⟨fuel₁ - 2, { r₁ with nowFileOffset := endOffset xs }, ?_, by omega, hfiles₁, rfl, hnow₁, rfl⟩
          have hfuel₁' : fuel₁ = fuel₁ - 2 + 1 + 1 := by omega
          have hf' : r₁.disk.files.lookup (endFile xs) = some f := hfiles₁ ▸ hf
          rw [hnext, hzero]
          conv_lhs => rw [hfuel₁']
          exact LogStore.rebuildFiles_blank hf' hclear.1 hclear.2
      have hg' : r₂.disk.files.lookup x.place.fileID = some g := hfiles₂ ▸ hg
      refine ⟨fuel₂ + 1, r₂.add P x.place.fileID x.place.offset x.instanceID x.value, ?_, by omega, hfiles₂,
        hmetaFile₂.trans hmetaFile₁, rfl, fun i => ?_⟩
      · rw [hscan, hreach, LogStore.rebuildFiles_record hg' hat hx.storable (hnow₂.trans_le hnowx)]
        rfl
      · simp only [LogStore.Rebuild.add, lookup_set, hindex₂, hindex₁, List.map_cons, index, List.lookup_cons, ← hx.checksum]
        by_cases hi : i = x.instanceID
        · simp [hi]
        · rw [if_neg hi, beq_eq_false_iff_ne.mpr hi]

end Written

/-! ## Runs of puts -/

namespace Disk

/-- The latest `n` writes to the index are lost. -/
def loses (n : Nat) (d : Disk) : Disk := { d with index := d.index.drop n }

/-- Where the record at `e` ends, by its length. -/
def recordEnd (d : Disk) (e : FileID) : Nat :=
  e.offset + 4 + decodeLE ((((d.files.lookup e.fileID).getD []).drop e.offset).take 4)

/-- Where the last of the records in the file `k` ends that `index` has. -/
def fileEnd (d : Disk) (k : Nat) : List (Nat × FileID) → Nat
  | [] => 0
  | (_, e) :: index => if e.fileID = k then max (d.recordEnd e) (d.fileEnd k index) else d.fileEnd k index

theorem recordEnd_eq {d : Disk} {x : Written} (h : Lies P d.files x.place x.instanceID x.value) :
    d.recordEnd x.place = x.stop := by
  obtain ⟨f, hf, hat⟩ := h.lies
  rw [recordEnd, hf, Option.getD_some, record_take_four hat, h.storable.decodeLE_length, Written.stop, record_length,
    recordBody_length]
  omega

theorem fileEnd_eq {d : Disk} (k : Nat) {xs : List Written}
    (h : ∀ x ∈ xs, Lies P d.files x.place x.instanceID x.value) :
    d.fileEnd k (xs.map Written.index) = Written.endIn k xs := by
  induction xs with
  | nil => rfl
  | cons x xs ih =>
    have hx := recordEnd_eq (h x List.mem_cons_self)
    have hxs := ih fun y hy => h y (List.mem_cons_of_mem x hy)
    simp only [List.map_cons, Written.index, fileEnd, hx, Written.endIn]
    rw [← hxs]

end Disk

namespace Database

open Written

variable {db : Database} {maxSize : Nat}

/-- Only puts and gets. -/
def Putting (_ : Database) : DatabaseEvent → Prop
  | .put .. | .get _ => True
  | .putFails .. | .del .. | .restart _ | .crash .. => False

/-- What a run of puts has written. -/
structure Logged (P : LogParams) (db : Database) (m : LogStore) (xs : List Written) : Prop where
  holds : Holds P db m (now xs) (endFile xs) (endOffset xs)
  blank : Blank db.disk (endFile xs) (endOffset xs)
  current : m.fileID = endFile xs
  history : History xs
  lies : ∀ x ∈ xs, Lies P db.disk.files x.place x.instanceID x.value
  exist : ∀ k, k ≤ endFile xs → ∃ f, db.disk.files.lookup k = some f
  zeros : ∀ k f, k < endFile xs → db.disk.files.lookup k = some f → Zeros (f.drop (endIn k xs))
  index : db.disk.index = xs.map Written.index
  values : db.values = xs.map entry

/-- **One put.** -/
theorem Logged.put {m : LogStore} {xs : List Written} {i : Nat} {v : Bytes} (h : Logged P db m xs) (hs : Storable P i v)
    (hi : ∀ x ∈ db.values, x.1 ≤ i) : ∃ m' x, Logged P (step P (.put i v) db) m' (x :: xs) := by
  obtain ⟨m', d', e, oe', happend, -, happended, hlayout, hnames, hw, hblank⟩ := h.holds.append hs hi
  have hstep : step P (.put i v) db =
      { db with
        disk := { d' with index := set d'.index i e }
        store := some m'
        values := set db.values i v } := by
    simp only [step, h.holds.store, Database.put, happend, ne_eq, not_true_eq_false, if_false]
  have hnow := h.holds.layout.newest_le hi
  have hnext := happended.next
  have hcurrent := h.current
  have hfileID := happended.fileID
  have hoffset := happended.offset
  have hend : oe' = stop ⟨i, v, e⟩ := happended.length
  refine ⟨m', ⟨i, v, e⟩, ?_⟩
  rw [hstep]
  refine ⟨⟨rfl, ?_, hnames, ?_, h.holds.maxSize⟩, ?_, hfileID.symm, ⟨⟨hnow, ?_⟩, h.history⟩, fun y hy => ?_, fun k hk => ?_,
    fun k f hk hf => ?_, ?_, ?_⟩
  · rw [endFile_cons, hfileID, endOffset, ← hend]
    exact hlayout
  · rw [endFile_cons, hfileID, endOffset, ← hend]
    exact hw
  · rw [endFile_cons, hfileID, endOffset, ← hend]
    obtain ⟨htail, hlater⟩ := hblank h.blank
    exact ⟨htail, hlater⟩
  · rcases hnext with hsame | hnext
    · rw [if_pos (by omega)] at hoffset
      exact .inl ⟨by simp only; omega, hoffset⟩
    · rw [if_neg (by omega)] at hoffset
      exact .inr ⟨by simp only; omega, hoffset⟩
  · rcases List.mem_cons.mp hy with rfl | hy
    · exact happended.lies
    · exact happended.kept _ _ _ (h.lies y hy) (h.history.before y hy).1
  · by_cases hkm : k = m'.fileID
    · obtain ⟨f, hf, -⟩ := happended.lies.lies
      exact ⟨f, by rw [hkm, ← hfileID]; exact hf⟩
    · rw [endFile_cons] at hk
      simp only at hk
      obtain ⟨f, hf⟩ := h.exist k (by omega)
      exact ⟨f, (happended.other k hkm).trans hf⟩
  · rw [endFile_cons] at hk
    simp only at hk
    have hkm : k ≠ m'.fileID := by omega
    have hkf := (happended.other k hkm).symm.trans hf
    rw [endIn, if_neg (by simp only; omega)]
    by_cases hlast : k = endFile xs
    · rw [hlast, h.history.endIn_endFile]
      exact h.blank.tail f (hlast ▸ hkf)
    · exact h.zeros k f (by omega) hkf
  · simp only [List.map_cons, ← h.index, happended.index]
    rfl
  · simp only [List.map_cons, ← h.values]
    rfl

/-- **Runs** of puts. -/
theorem Run.logged (h : Run P Putting db) : ∃ m xs, Logged P db m xs := by
  induction h with
  | start maxSize hmax =>
    obtain ⟨m, hholds, hblank⟩ := start_empty (P := P) hmax
    have hm := hholds.store
    rw [start_eq hmax] at hm
    cases hm
    refine ⟨_, [], hholds, hblank, rfl, trivial, by simp, fun k hk => ?_, fun k f hk => absurd hk (Nat.not_lt_zero k), ?_, ?_⟩
    · exact hholds.layout.exist k (Nat.zero_le k) hk
    · rw [start_eq hmax]
      rfl
    · rw [start_eq hmax]
      rfl
  | @step db e _ hused hok ih =>
    obtain ⟨m, xs, h⟩ := ih
    cases e with
    | put i v =>
      obtain ⟨m', x, h'⟩ := h.put hused.1 hused.2
      exact ⟨m', x :: xs, h'⟩
    | get i =>
      rw [h.holds.get i]
      exact ⟨m, xs, h⟩
    | _ => exact absurd hok id

theorem Logged.lost_layout {m : LogStore} {xs : List Written} (h : Logged P db m xs) (n : Nat) :
    Layout P (db.disk.loses n) ((xs.drop n).map entry) (now (xs.drop n)) (endFile (xs.drop n))
      (endOffset (xs.drop n)) m.fileID := by
  have hlies : ∀ x ∈ xs.drop n, Lies P db.disk.files x.place x.instanceID x.value :=
    fun x hx => h.lies x (List.mem_of_mem_drop hx)
  have hle : endFile (xs.drop n) ≤ endFile xs := by
    cases hxs : xs.drop n with
    | nil => exact Nat.zero_le _
    | cons x ys => exact (h.history.before x (List.mem_of_mem_drop (hxs ▸ List.mem_cons_self))).2.2
  unfold Disk.loses
  rw [h.index, ← List.map_drop, h.current]
  refine (h.history.drop n).layout hlies hle (fun f hf => ?_) (fun k _ hk => h.exist k hk) fun k hk => ?_
  · cases hxs : xs.drop n with
    | nil => exact Nat.zero_le _
    | cons x ys =>
      obtain ⟨g, hg, hat⟩ := (hlies x (hxs ▸ List.mem_cons_self)).lies
      rw [hxs, endFile_cons, hg] at hf
      cases hf
      exact hat.le_length (record_ne_nil _ _)
  · exact h.holds.layout.missing k (h.current ▸ hk)

/-- The rebuild from what the index has left. -/
theorem Logged.rebuild {m : LogStore} {xs : List Written} (h : Logged P db m xs)
    (htail : ∀ k f, db.disk.files.lookup k = some f →
      f.length = db.disk.fileEnd k db.disk.index ∨ db.disk.fileEnd k db.disk.index + 4 ≤ f.length) (n : Nat) :
    ∃ r, LogStore.rebuildIndex P m.fileID (db.disk.loses n) = (r, 0) ∧
      (∀ i, r.disk.index.lookup i = db.disk.index.lookup i) ∧
      Layout P r.disk db.values (now xs) (endFile xs) (endOffset xs) m.fileID ∧ r.disk.metaFile = db.disk.metaFile ∧
      r.nowFileOffset = endOffset xs := by
  have hcurrent := h.current
  have hclear : ∀ k f, db.disk.files.lookup k = some f → f.length ≤ endIn k xs ∨ endIn k xs + 4 ≤ f.length := by
    intro k f hf
    have hkf := htail k f hf
    rw [h.index, Disk.fileEnd_eq k h.lies] at hkf
    exact hkf.imp_left Eq.le
  have hlost := h.lost_layout n
  obtain ⟨r₁, hstart, hstarted⟩ := LogStore.rebuildIndex_start hlost le_rfl
  have hfuel := LogStore.rebuildFiles_enough hlost
  obtain ⟨fuel, r₂, hscan, hfuel₂, hfiles₂, hmetaFile₂, hnow₂, hindex₂⟩ := h.history.scan h.lies (h.exist 0 (Nat.zero_le _))
    (fun k f hk hf => ⟨h.zeros k f hk hf, hclear k f hf⟩) hstarted.files hstarted.nowInstanceID
    (fun i => by rw [hstarted.index, Disk.loses, h.index, ← List.map_drop]) (hcurrent ▸ hfuel)
  obtain ⟨f, hf⟩ := h.exist (endFile xs) le_rfl
  have hf₂ : r₂.disk.files.lookup (endFile xs) = some f := hfiles₂ ▸ hf
  have hendf := hclear (endFile xs) f hf
  rw [h.history.endIn_endFile] at hendf
  obtain ⟨fuel, rfl⟩ : ∃ k, fuel = k + 2 := ⟨fuel - 2, by omega⟩
  have hmissing : ({ r₂ with nowFileOffset := endOffset xs } : LogStore.Rebuild).disk.files.lookup (endFile xs + 1) = none := by
    have hlast := h.holds.layout.missing (endFile xs + 1) (by omega)
    rwa [← hfiles₂] at hlast
  refine ⟨{ r₂ with nowFileOffset := endOffset xs }, ?_, fun i => ?_, ?_, ?_, rfl⟩
  · rw [hstart, hscan, LogStore.rebuildFiles_blank hf₂ (h.blank.tail f hf) hendf, LogStore.rebuildFiles_missing hmissing,
      hcurrent]
    simp
  · rw [hindex₂, h.index]
  · exact h.holds.layout.scanned (fun i => by rw [hindex₂, h.index]) fun k => .inl (by rw [hfiles₂])
  · exact hmetaFile₂.trans hstarted.metaFile

/-- **A lost part of the index is rebuilt.** Whatever part of the latest index writes is lost, the next process starts with
the index and the write offset as they were. -/
theorem lost_index_rebuilt (h : Run P Putting db)
    (htail : ∀ k f, db.disk.files.lookup k = some f →
      f.length = db.disk.fileEnd k db.disk.index ∨ db.disk.fileEnd k db.disk.index + 4 ≤ f.length)
    (n : Nat) (hmax : 4 ≤ maxSize) :
    ∃ m m' d', db.store = some m ∧
      LogStore.init P maxSize (db.disk.loses n) = (m', d', 0) ∧
      (∀ i, d'.index.lookup i = db.disk.index.lookup i) ∧ Gets P d' db.values ∧
      m'.fileID = m.fileID ∧ m'.nowFileOffset = db.disk.fileEnd m.fileID db.disk.index := by
  obtain ⟨m, xs, h⟩ := h.logged
  have hend : db.disk.fileEnd m.fileID db.disk.index = endOffset xs := by
    rw [h.index, Disk.fileEnd_eq _ h.lies, h.current, h.history.endIn_endFile]
  obtain ⟨r, hrebuild, hindex, hlayout, hmetaFile, hoff⟩ := h.rebuild htail n
  obtain ⟨m', d', hexpand, hfileID, hlayout', hw, -, -, hindex', -⟩ :=
    LogStore.expandFile_layout (m := { fileID := m.fileID, nowFileOffset := r.nowFileOffset }) hlayout rfl hmax
  refine ⟨m, m', d', h.holds.store, ?_, fun i => by rw [hindex', hindex], fun i => by rw [hlayout'.get i], hfileID, ?_⟩
  · have hnames : (db.disk.loses n).metaFile.Names P m.fileID := h.holds.names
    rw [LogStore.init_rebuilt hnames hrebuild hlayout, hexpand]
  · have hw := hw fun _ => by rw [if_pos h.current.symm, hoff]
    rw [hw.nowFileOffset, hfileID, if_pos h.current.symm, hend]

instance (db : Database) : (e : DatabaseEvent) → Decidable (Putting db e)
  | .put .. | .get _ => isTrue trivial
  | .putFails .. | .del .. | .restart _ | .crash .. => isFalse id

/-- Files with room for two records. -/
def putEvents : List DatabaseEvent :=
  [.put 0 (sampleState 0), .put 1 (sampleState 1), .put 2 (sampleState 2), .get 1, .put 3 (sampleState 3)]

/-- The index has left the first record only; two others lie in the next file. -/
theorem lost_index_rebuilt_one :
    ∃ m' d', LogStore.init sampleParams 60 (((start sampleParams 60 {}).exec sampleParams putEvents).disk.loses 3) = (m', d', 0) ∧
      Gets sampleParams d' [(3, sampleState 3), (2, sampleState 2), (1, sampleState 1), (0, sampleState 0)] ∧
      m'.nowFileOffset = 52 := by
  have hrun : Run sampleParams Putting (start sampleParams 60 {}) := .start 60 (by decide)
  have htail : ∀ x ∈ ((start sampleParams 60 {}).exec sampleParams putEvents).disk.files,
      ∀ f ∈ ((start sampleParams 60 {}).exec sampleParams putEvents).disk.files.lookup x.1,
        f.length = ((start sampleParams 60 {}).exec sampleParams putEvents).disk.fileEnd x.1
            ((start sampleParams 60 {}).exec sampleParams putEvents).disk.index ∨
          ((start sampleParams 60 {}).exec sampleParams putEvents).disk.fileEnd x.1
            ((start sampleParams 60 {}).exec sampleParams putEvents).disk.index + 4 ≤ f.length := by
    decide +kernel
  have hstore : ((start sampleParams 60 {}).exec sampleParams putEvents).store =
      some { fileID := 1, nowFileSize := 60, nowFileOffset := 52 } := by
    decide +kernel
  obtain ⟨m, m', d', hm, hinit, -, hgets, -, hoff⟩ := lost_index_rebuilt (hrun.exec putEvents (by decide +kernel))
    (fun k f hf => htail (k, f) (mem_of_lookup hf) f hf) 3 (by decide : 4 ≤ 60)
  rw [hstore] at hm
  cases hm
  have hend : ((start sampleParams 60 {}).exec sampleParams putEvents).disk.fileEnd 1
      ((start sampleParams 60 {}).exec sampleParams putEvents).disk.index = 52 := by
    decide +kernel
  exact ⟨m', d', hinit, hgets, hoff.trans hend⟩

end Database

end PhxPaxos
