import PhxPaxos.Storage.Layout

/-!
# Opening the files of the log store

What `Init` and `GetFileFD` do with files laid out as `Layout` says. `Init` starts at the end of the data, if the scan can
read up to there and sets the write offset (`init_legible`), and fails if the meta file names a file that does not exist yet
(`init_early`). `GetFileFD` returns a place behind the data (`getFileFD_layout`). With zeros only behind the data (`Blank`)
the scan stops short of the write offset only if one to three of them are left (`Blank.legible`).
-/

namespace PhxPaxos

open Files

variable {P : LogParams}

/-! ## Files with zeros behind the data -/

theorem ends_of_zeros {f : Bytes} {off : Nat} (h : Zeros (f.drop off)) (now : Nat) :
    (off < f.length ∧ f.length < off + 4) ∧ Ends P f off now false now ∨ Ends P f off now true now := by
  by_cases hle : f.length ≤ off
  · exact .inr (.eof hle)
  · by_cases hfour : off + 4 ≤ f.length
    · exact .inr (.zero hfour (decodeLE_zeros (h.take 4)))
    · exact .inl ⟨⟨by omega, by omega⟩, .short (by omega) (by omega)⟩

theorem writeAt_zero (maxSize : Nat) (h : 4 ≤ maxSize) : writeAt [] (maxSize - 1) [0] = List.replicate maxSize 0 := by
  unfold writeAt
  rw [List.take_nil, List.drop_nil, List.length_nil, Nat.sub_zero, List.nil_append, List.append_nil,
    ← List.replicate_succ', Nat.sub_add_cancel (by omega)]

theorem writeAt_nil (bs : Bytes) : writeAt [] 0 bs = bs := by
  simp [writeAt]

namespace Blank

variable {d d' : Disk} {values : List (Nat × Bytes)} {now fe oe last i off : Nat} {v f : Bytes}

theorem drop (h : Blank d fe oe) (hl : Layout P d values now fe oe last) (hoff : off = if fe = last then oe else 0)
    (hf : d.files.lookup last = some f) : Zeros (f.drop off) := by
  have hcurrent := hl.current
  by_cases hfe : fe = last
  · rw [hoff, if_pos hfe]
    exact h.tail f (hfe ▸ hf)
  · exact (h.later last f (by omega) hf).1.drop off

theorem append (h : Blank d fe oe) (hl : Layout P d values now fe oe last) (hoff : off = if fe = last then oe else 0)
    (hf : d.files.lookup last = some f) (bs : Bytes) (hfiles : d'.files = set d.files last (writeAt f off bs)) :
    Blank d' last (off + bs.length) := by
  refine ⟨fun g hg => ?_, fun k g hk hg => ?_⟩
  · rw [hfiles, lookup_set, if_pos rfl] at hg
    cases hg
    rw [drop_writeAt, ← List.drop_drop]
    exact (h.drop hl hoff hf).drop _
  · rw [hfiles, lookup_set, if_neg hk.ne', hl.missing k hk] at hg
    cases hg

theorem newFile (h : Blank d fe oe) (hl : Layout P d values now fe oe last) (hfiles : d'.files = set d.files (last + 1) f)
    (hzeros : Zeros f) (hlen : f.length = 0 ∨ 4 ≤ f.length) : Blank d' fe oe := by
  have hcurrent := hl.current
  refine ⟨fun g hg => ?_, fun k g hk hg => ?_⟩
  · have hne : fe ≠ last + 1 := by omega
    rw [hfiles, lookup_set, if_neg hne] at hg
    exact h.tail g hg
  · by_cases hlast : k = last + 1
    · rw [hfiles, lookup_set, if_pos hlast] at hg
      cases hg
      exact ⟨hzeros, hlen⟩
    · rw [hfiles, lookup_set, if_neg hlast] at hg
      exact h.later k g hk hg

theorem delete (h : Blank d fe oe) (hfiles : ∀ k, fe ≤ k → d'.files.lookup k = d.files.lookup k) : Blank d' fe oe :=
  ⟨fun g hg => h.tail g (hfiles fe le_rfl ▸ hg), fun k g hk hg => h.later k g hk (hfiles k hk.le ▸ hg)⟩

theorem scanned (h : Blank d fe oe) (hfiles : ∀ k, d'.files.lookup k = d.files.lookup k ∨ fe ≤ k ∧ ∃ f,
    d.files.lookup k = some f ∧ d'.files.lookup k = some (f.take (if k = fe then oe else 0))) : Blank d' fe oe := by
  refine ⟨fun g hg => ?_, fun k g hk hg => ?_⟩
  · rcases hfiles fe with hsame | ⟨-, f, hf, hcut⟩
    · exact h.tail g (hsame ▸ hg)
    · rw [hcut, if_pos rfl] at hg
      cases hg
      rw [List.drop_eq_nil_of_le (List.length_take_le _ _)]
      exact Zeros.nil
  · rcases hfiles k with hsame | ⟨-, f, hf, hcut⟩
    · exact h.later k g hk (hsame ▸ hg)
    · rw [hcut, if_neg hk.ne'] at hg
      cases hg
      exact ⟨Zeros.nil, .inl rfl⟩

/-- A scan gets to the end of such files. -/
theorem legible (h : Blank d fe oe) (hl : Layout P d values now fe oe last) :
    ∃ sets, Legible P d.files last sets fe oe now ∧ (sets = false →
      fe = last ∧ ∃ f, d.files.lookup last = some f ∧ oe < f.length ∧ f.length < oe + 4) := by
  have hcurrent := hl.current
  have hlater : ∀ n k, fe < k → k + n = last → Legible P d.files last true k 0 now := by
    intro n
    induction n with
    | zero =>
      rintro k hk rfl
      obtain ⟨f, hf⟩ := hl.exist k hk.le le_rfl
      obtain ⟨hzeros, hlen⟩ := h.later k f hk hf
      rcases ends_of_zeros (hzeros.drop 0) now with ⟨⟨_, _⟩, -⟩ | hends
      · omega
      · exact .last hf hends
    | succ n ih =>
      intro k hk hn
      obtain ⟨f, hf⟩ := hl.exist k hk.le (by omega)
      have hnext := ih (k + 1) (by omega) (by omega)
      rcases ends_of_zeros ((h.later k f hk hf).1.drop 0) now with ⟨-, hends⟩ | hends
      · exact .next (by omega) hf hends hnext
      · exact .next (by omega) hf hends hnext
  obtain ⟨f, hf⟩ := hl.exist fe le_rfl hcurrent
  by_cases hfe : fe = last
  · subst hfe
    rcases ends_of_zeros (h.tail f hf) now with ⟨hshort, hends⟩ | hends
    · exact ⟨false, .last hf hends, fun _ => ⟨rfl, f, hf, hshort⟩⟩
    · exact ⟨true, .last hf hends, fun hsets => by cases hsets⟩
  · have hnext := hlater (last - (fe + 1)) (fe + 1) (by omega) (by omega)
    refine ⟨true, ?_, fun hsets => by cases hsets⟩
    rcases ends_of_zeros (h.tail f hf) now with ⟨-, hends⟩ | hends
    · exact .next (by omega) hf hends hnext
    · exact .next (by omega) hf hends hnext

end Blank

/-- A new file with nothing but zeros. -/
theorem Legible.newFile {files files' : List (Nat × Bytes)} {last fileID off now : Nat} {sets : Bool} {g : Bytes}
    (h : Legible P files last sets fileID off now) (hother : ∀ k, k ≠ last + 1 → files'.lookup k = files.lookup k)
    (hg : files'.lookup (last + 1) = some g) (hzeros : Zeros g) (hlen : g.length = 0 ∨ 4 ≤ g.length) :
    Legible P files' (last + 1) true fileID off now := by
  induction h with
  | @last f off now now' hf hends =>
    have hempty : Ends P g 0 now' true now' := by
      rcases ends_of_zeros (hzeros.drop 0) now' with ⟨⟨_, _⟩, -⟩ | hempty
      · omega
      · exact hempty
    exact .next (Nat.lt_succ_self last) ((hother last (Nat.succ_ne_self last).symm).trans hf) hends (.last hg hempty)
  | next hlt hf hends _ ih => exact .next (by omega) ((hother _ (by omega)).trans hf) hends ih

/-! ## Init -/

/-- The meta file names the file `last`. -/
def MetaFile.Names (P : LogParams) (metaFile : MetaFile) (last : Nat) : Prop :=
  metaFile.fileID.getD 0 = last ∧ ∀ c, metaFile.checksum = some c → c = P.metaChecksum last

namespace LogStore

variable {d : Disk} {values : List (Nat × Bytes)} {now fe oe last maxSize metaFileID : Nat}
  {sets : Bool}

theorem maxInstanceIDFileID_none {index : List (Nat × FileID)} (h : ∀ i, index.lookup i = none) :
    maxInstanceIDFileID index = none := by
  have hnil : index = [] := by
    cases index with
    | nil => rfl
    | cons x index => simpa using h x.1
  simp [maxInstanceIDFileID, hnil]

theorem maxInstanceIDFileID_newest {e : FileID} {v : Bytes} (h : Newest d values now fe oe e v) :
    maxInstanceIDFileID d.index = some (now, e) := by
  have hmax : (d.index.map Prod.fst).max? = some now := by
    rw [List.max?_eq_some_iff]
    refine ⟨List.mem_map_of_mem (mem_of_lookup h.index), fun i hi => ?_⟩
    obtain ⟨x, hx, rfl⟩ := List.mem_map.mp hi
    obtain ⟨e', he'⟩ := lookup_of_mem hx
    exact h.max x.1 e' he'
  simp [maxInstanceIDFileID, hmax, h.index]

/-- A scan of `d` that has read the newest record, of the instance `now`. -/
structure Started (d : Disk) (now : Nat) (r : Rebuild) : Prop where
  index : ∀ i, r.disk.index.lookup i = d.index.lookup i
  files : r.disk.files = d.files
  metaFile : r.disk.metaFile = d.metaFile
  nowInstanceID : r.nowInstanceID = now
  nowFileOffset : r.nowFileOffset = 0

/-- `RebuildIndex` starts with the newest record. -/
theorem rebuildIndex_start (h : Layout P d values now fe oe last) (hmeta : last ≤ metaFileID) :
    ∃ r, rebuildIndex P metaFileID d = rebuildFiles P metaFileID (d.files.length + 1) fe oe r ∧ Started d now r := by
  rcases h.newest with ⟨hnone, rfl, rfl, rfl⟩ | ⟨e, v, hnew⟩
  · refine ⟨{ disk := d, nowInstanceID := 0 }, ?_, fun _ => rfl, rfl, rfl, rfl, rfl⟩
    simp [rebuildIndex, maxInstanceIDFileID_none hnone]
  · obtain ⟨hlies, -⟩ := h.lies now e v hnew.index hnew.value
    obtain ⟨f, hf, hat⟩ := hlies.lies
    have hle : ¬ e.fileID > metaFileID := by
      have hcurrent := h.current
      have hfe := hnew.fileID
      omega
    have hindex : rebuildIndex P metaFileID d =
        rebuildFiles P metaFileID (d.files.length + 1) e.fileID e.offset { disk := d, nowInstanceID := now } := by
      simp only [rebuildIndex, maxInstanceIDFileID_newest hnew, hle, if_false]
    have hoff : e.offset + (record now v).length = oe := by
      rw [record_length, ← hnew.offset, Nat.add_assoc]
    refine ⟨Rebuild.add P fe e.offset now v { disk := d, nowInstanceID := now }, ?_, fun i => ?_, rfl, rfl, rfl, rfl⟩
    · rw [hindex, rebuildFiles_record hf hat hlies.storable le_rfl, hnew.fileID, hoff]
    · -- the entry of the newest instance is written once more
      have he : e = ⟨fe, e.offset, P.checksum (recordBody now v)⟩ := by
        rw [← hnew.fileID, ← hlies.checksum]
      by_cases hi : i = now
      · rw [hi, hnew.index, he]
        simp [Rebuild.add]
      · simp [Rebuild.add, hi]

theorem rebuildFiles_enough (h : Layout P d values now fe oe last) : last + 2 ≤ (d.files.length + 1) + fe := by
  have hlen := length_of_lookup h.exist
  omega

/-- **RebuildIndex.** It gets to the end of the last file; the meta file must name it. -/
theorem rebuildIndex_legible (h : Layout P d values now fe oe last) (hleg : Legible P d.files last sets fe oe now)
    (hmeta : last ≤ metaFileID) :
    ∃ r', rebuildIndex P metaFileID d = (r', if last ≠ metaFileID then -1 else 0) ∧
      Layout P r'.disk values now fe oe last ∧ (sets = true → r'.nowFileOffset = if fe = last then oe else 0) ∧
      (sets = false → fe = last → r'.nowFileOffset = 0) ∧
      r'.disk.metaFile = d.metaFile ∧ (Blank d fe oe → Blank r'.disk fe oe) := by
  have hmissing := h.missing (last + 1) (Nat.lt_succ_self last)
  obtain ⟨r, hr, hstarted⟩ := rebuildIndex_start h hmeta
  obtain ⟨r', hr', hscanned⟩ :=
    rebuildFiles_legible hleg (fun k _ => by rw [hstarted.files]) hstarted.nowInstanceID hmissing (rebuildFiles_enough h)
  have hcut := hscanned.files
  rw [hstarted.files] at hcut
  refine ⟨r', hr.trans hr', h.scanned (fun i => ?_) hcut, hscanned.offset_set,
    fun hsets hfe => (hscanned.offset_unset hsets hfe).trans hstarted.nowFileOffset, hscanned.metaFile.trans hstarted.metaFile,
    fun hb => hb.scanned hcut⟩
  rw [hscanned.index, hstarted.index]

/-- The store writes at the end of the data, or at the start of a file without data. -/
structure Writes (m : LogStore) (fe oe : Nat) : Prop where
  fileOpen : m.fileOpen = true
  nowFileOffset : m.nowFileOffset = if fe = m.fileID then oe else 0

variable {m : LogStore}

/-- `ExpandFile` fills a file that is empty. -/
theorem expandFile_layout (h : Layout P d values now fe oe m.fileID) (hopen : m.fileOpen = true) (hmax : 4 ≤ maxSize) :
    ∃ m' d', expandFile maxSize m d = (m', d') ∧ m'.fileID = m.fileID ∧ Layout P d' values now fe oe m.fileID ∧
      ((d.fileSize m.fileID ≠ 0 → m.nowFileOffset = if fe = m.fileID then oe else 0) → m'.Writes fe oe) ∧
      (m'.fileOpen = true ∧ (m.nowFileOffset = 0 → m'.nowFileOffset = 0) ∧ m'.nowFileSize = d'.fileSize m.fileID) ∧
      d'.metaFile = d.metaFile ∧ d'.index = d.index ∧ (∀ k, k ≠ m.fileID → d'.files.lookup k = d.files.lookup k) ∧
      (Blank d fe oe → Blank d' fe oe) := by
  obtain ⟨f, hf⟩ := h.exist m.fileID h.current le_rfl
  have hsize : d.fileSize m.fileID = f.length := by
    simp [Disk.fileSize, hf]
  unfold expandFile
  rw [hsize]
  by_cases hempty : f.length = 0
  · rw [if_pos hempty]
    have hnil : f = [] := List.length_eq_zero_iff.mp hempty
    have hzero : 0 = if fe = m.fileID then oe else 0 := by
      split
      · rename_i hfe
        have hle := h.data f (hfe ▸ hf)
        omega
      · rfl
    have hrun : d.run (.write m.fileID (maxSize - 1) [0]) =
        { d with files := set d.files m.fileID (writeAt f 0 (List.replicate maxSize 0)) } := by
      rw [hnil, writeAt_nil, ← writeAt_zero maxSize hmax]
      simp [Disk.run, hf, hnil]
    refine ⟨_, _, rfl, rfl, ?_, fun _ => ⟨hopen, hzero⟩, ⟨hopen, fun _ => rfl, ?_⟩, ?_, ?_, fun k hk => ?_,
      fun hb => ?_⟩
    · rw [hrun]
      exact h.overwrite hzero hf _
    · rw [hrun, hnil, writeAt_nil]
      simp [Disk.fileSize]
    · rw [hrun]
    · rw [hrun]
    · rw [hrun]
      simp [hk]
    · rw [hrun, hnil, writeAt_nil]
      refine ⟨fun g hg => ?_, fun k g hk hg => ?_⟩
      · by_cases hfe : fe = m.fileID
        · simp only [lookup_set, hfe, if_true, Option.some.injEq] at hg
          rw [← hg]
          exact (Zeros.replicate maxSize).drop oe
        · simp only [lookup_set, hfe, if_false] at hg
          exact hb.tail g hg
      · by_cases hk' : k = m.fileID
        · simp only [lookup_set, hk', if_true, Option.some.injEq] at hg
          rw [← hg, List.length_replicate]
          exact ⟨Zeros.replicate maxSize, .inr hmax⟩
        · simp only [lookup_set, hk', if_false] at hg
          exact hb.later k g hk hg
  · rw [if_neg hempty]
    exact ⟨_, _, rfl, rfl, h, fun hoff => ⟨hopen, hoff hempty⟩, ⟨hopen, id, hsize.symm⟩, rfl, rfl, fun _ _ => rfl, id⟩

theorem init_rebuilt {r : Rebuild} (hn : d.metaFile.Names P last) (hr : rebuildIndex P last d = (r, 0))
    (h : Layout P r.disk values now fe oe last) :
    init P maxSize d = ((expandFile maxSize { fileID := last, nowFileOffset := r.nowFileOffset } r.disk).1,
      (expandFile maxSize { fileID := last, nowFileOffset := r.nowFileOffset } r.disk).2, 0) := by
  obtain ⟨f, hf⟩ := h.exist last h.current le_rfl
  have hopen : r.disk.run (.openFile last) = r.disk := by
    simp [Disk.run, hf]
  have hchecksum : d.metaFile.checksum.any (· ≠ P.metaChecksum last) = false := by
    rw [Option.any_eq_false]
    intro c hc
    simp [hn.2 c hc]
  unfold init
  simp only [hn.1, hchecksum, hr, hopen, Bool.false_eq_true, if_false, ne_eq, not_true_eq_false]

/-- **Init.** Where the data can be read, the store starts at its end. -/
theorem init_legible (h : Layout P d values now fe oe last) (hn : d.metaFile.Names P last)
    (hleg : Legible P d.files last sets fe oe now) (hmax : 4 ≤ maxSize) :
    ∃ m' d', init P maxSize d = (m', d', 0) ∧ m'.fileID = last ∧ Layout P d' values now fe oe last ∧
      (sets = true → m'.Writes fe oe) ∧
      (sets = false → fe = last → m'.fileOpen = true ∧ m'.nowFileOffset = 0 ∧ m'.nowFileSize = d'.fileSize last) ∧
      d'.metaFile = d.metaFile ∧ (Blank d fe oe → Blank d' fe oe) := by
  obtain ⟨r, hr, hlayout, hoff, hunset, hmetaFile, hblank⟩ := rebuildIndex_legible h hleg le_rfl
  rw [if_neg (not_not.mpr rfl)] at hr
  obtain ⟨m', d', hexpand, hfileID, hlayout', hw, ⟨hopen', hzero, hsize⟩, hmetaFile', -, -, hblank'⟩ :=
    expandFile_layout (m := { fileID := last, nowFileOffset := r.nowFileOffset }) hlayout rfl hmax
  refine ⟨m', d', ?_, hfileID, hlayout', fun hsets => hw fun _ => hoff hsets,
    fun hsets hfe => ⟨hopen', hzero (hunset hsets hfe), hsize⟩, hmetaFile'.trans hmetaFile, fun hb => hblank' (hblank hb)⟩
  rw [init_rebuilt hn hr hlayout, hexpand]

/-- **A meta file that names a file too early.** -/
theorem init_early (h : Layout P d values now fe oe last) (hleg : Legible P d.files last sets fe oe now)
    (hn : d.metaFile.fileID = some (last + 1)) : (init P maxSize d).2.2 ≠ 0 := by
  obtain ⟨r, hr, -⟩ := rebuildIndex_legible h hleg (Nat.le_succ last)
  rw [if_pos (Nat.succ_ne_self last).symm] at hr
  unfold init
  simp only [hn, Option.getD_some, hr]
  split
  · simp
  · simp

/-- **GetFileFD.** The file that it returns has no record that counts from the offset on. -/
theorem getFileFD_layout (h : Layout P d values now fe oe m.fileID) (hn : d.metaFile.Names P m.fileID) (hw : m.Writes fe oe)
    (hmax : 4 ≤ maxSize) (needWriteSize : Nat) :
    ∃ m' d', getFileFD P maxSize needWriteSize m d = (m', d', 0, m'.nowFileOffset) ∧
      Layout P d' values now fe oe m'.fileID ∧ d'.metaFile.Names P m'.fileID ∧ m'.Writes fe oe ∧ d'.index = d.index ∧
      (m'.fileID = m.fileID ∨ m'.fileID = m.fileID + 1) ∧
      (∀ k f, d.files.lookup k = some f → d'.files.lookup k = some f) ∧
      (∀ k, k ≠ m'.fileID → d'.files.lookup k = d.files.lookup k) ∧ (Blank d fe oe → Blank d' fe oe) := by
  unfold getFileFD
  rw [hw.fileOpen]
  by_cases hnew : m.needsNewFile needWriteSize
  · have hnone := h.missing (m.fileID + 1) (Nat.lt_succ_self m.fileID)
    have hcurrent := h.current
    let d₁ : Disk :=
      { d with
        metaFile := ⟨some (m.fileID + 1), some (P.metaChecksum (m.fileID + 1))⟩
        files := set d.files (m.fileID + 1) [] }
    have hlayout : Layout P d₁ values now fe oe (m.fileID + 1) := h.newFile rfl rfl
    have hsize : d₁.fileSize (m.fileID + 1) = 0 := by
      simp [d₁, Disk.fileSize]
    have hopen : ((increaseFileID P m d).2.run (.openFile (m.fileID + 1))) = d₁ := by
      simp [increaseFileID, Disk.runAll, Disk.run, hnone, d₁]
    obtain ⟨m', d', hexpand, hfileID, hlayout', hw', -, hmetaFile, hindex, hother, hblank⟩ :=
      expandFile_layout (m := { m with fileID := m.fileID + 1 }) hlayout hw.fileOpen hmax
    have hw' := hw' fun hne => absurd hsize hne
    have hfe : fe ≠ m'.fileID := by
      rw [hfileID]
      exact (Nat.lt_succ_of_le hcurrent).ne
    have hoff : m'.nowFileOffset = 0 := by
      rw [hw'.nowFileOffset, if_neg hfe]
    refine ⟨m', d', ?_, hfileID ▸ hlayout', ?_, hw', hindex, .inr hfileID, fun k f hf => ?_, fun k hk => ?_,
      fun hb => hblank (hb.newFile h rfl Zeros.nil (.inl rfl))⟩
    · simp only [increaseFileID] at hopen
      simp only [hnew, increaseFileID, hopen, hsize, hexpand, hoff, Bool.not_true, Bool.false_eq_true, if_false, if_true,
        ne_eq, not_true_eq_false]
    · rw [hmetaFile, hfileID]
      exact ⟨rfl, fun c hc => (Option.some.inj hc).symm⟩
    · have hk : k ≠ m.fileID + 1 := by
        rintro rfl
        rw [hnone] at hf
        cases hf
      rw [hother k hk]
      simp [d₁, hk, hf]
    · rw [hfileID] at hk
      rw [hother k hk]
      simp [d₁, hk]
  · simp only [hnew, Bool.not_true, Bool.false_eq_true, if_false]
    exact ⟨m, d, rfl, h, hn, hw, rfl, .inl rfl, fun _ _ hf => hf, fun _ _ => rfl, id⟩

end LogStore

end PhxPaxos
