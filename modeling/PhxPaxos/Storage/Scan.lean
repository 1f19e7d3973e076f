import PhxPaxos.Model.LogStore

/-!
# What the rebuild scan reads

`RebuildIndexForOneFile` goes from record to record (`rebuildIndexForOneFile_record`) until the data ends (`Ends`): at the
end of the file, at a length of zero, or at bytes that it cuts off. Where fewer than four bytes or less than a whole record
are left, it cuts them off without setting the write offset. `RebuildIndex` goes on with the next file then
(`rebuildFiles_record`, `rebuildFiles_ends`, `rebuildFiles_missing`).
-/

namespace PhxPaxos

open Files

variable {P : LogParams}

/-! ## Records -/

section Record

variable {i off : Nat} {v f : Bytes}

@[simp] theorem recordBody_length (i : Nat) (v : Bytes) : (recordBody i v).length = 8 + v.length := by
  rw [recordBody, List.length_append, encodeLE_length]

@[simp] theorem record_length (i : Nat) (v : Bytes) : (record i v).length = 12 + v.length := by
  rw [record, List.length_append, encodeLE_length, recordBody_length]
  omega

theorem record_ne_nil (i : Nat) (v : Bytes) : record i v ≠ [] := by
  apply List.ne_nil_of_length_pos
  rw [record_length]
  omega

theorem record_take_four (h : At f off (record i v)) : (f.drop off).take 4 = encodeLE 4 (recordBody i v).length := by
  have hlen := h.left.take
  rwa [encodeLE_length] at hlen

theorem record_body (h : At f off (record i v)) : (f.drop (off + 4)).take (recordBody i v).length = recordBody i v := by
  have hbody := h.right.take
  rwa [encodeLE_length] at hbody

theorem Database.Storable.decodeLE_length (h : Database.Storable P i v) :
    decodeLE (encodeLE 4 (recordBody i v).length) = (recordBody i v).length := by
  have hv := h.length
  apply decodeLE_encodeLE
  rw [recordBody_length]
  omega

theorem Database.Storable.decodeLE_instanceID (h : Database.Storable P i v) :
    decodeLE ((recordBody i v).take 8) = i := by
  have hi := h.instanceID
  rw [recordBody, List.take_left' (encodeLE_length 8 i)]
  apply decodeLE_encodeLE
  omega

@[simp] theorem recordBody_drop (i : Nat) (v : Bytes) : (recordBody i v).drop 8 = v := by
  rw [recordBody, List.drop_left' (encodeLE_length 8 i)]

/-- The record of `i` with the value `v` lies where `e` says. -/
structure Lies (P : LogParams) (files : List (Nat × Bytes)) (e : FileID) (i : Nat) (v : Bytes) : Prop where
  storable : Database.Storable P i v
  lies : ∃ f, files.lookup e.fileID = some f ∧ At f e.offset (record i v)
  checksum : e.checksum = P.checksum (recordBody i v)

/-- A record that lies where the index says is read. -/
theorem Lies.read {d : Disk} {e : FileID} (h : Lies P d.files e i v) : LogStore.read P e d = (d, .ok (i, v)) := by
  obtain ⟨f, hf, hat⟩ := h.lies
  have hopen : d.run (.openFile e.fileID) = d := by
    simp [Disk.run, hf]
  have hlen : ((f.drop e.offset).take 4).length = 4 := by
    rw [record_take_four hat, encodeLE_length]
  have hdecode : decodeLE ((f.drop e.offset).take 4) = (recordBody i v).length := by
    rw [record_take_four hat, h.storable.decodeLE_length]
  unfold LogStore.read
  simp only [hopen, hf, Option.getD_some, hlen, hdecode, record_body hat, h.checksum, h.storable.decodeLE_instanceID,
    recordBody_drop, ne_eq, not_true_eq_false, if_false]

end Record

/-! ## The scan of a file -/

/-- The data of the file `f` ends at `off` for the scan, when the last instance it has read is `now`. `sets` says that the
write offset is set, `now'` is the last instance then. -/
inductive Ends (P : LogParams) (f : Bytes) (off now : Nat) : (sets : Bool) → (now' : Nat) → Prop
  | eof (h : f.length ≤ off) : Ends P f off now true now
  | zero (h : off + 4 ≤ f.length) (hlen : decodeLE ((f.drop off).take 4) = 0) : Ends P f off now true now
  /-- A buffer that is no acceptor state is cut off. -/
  | unparsed (h : off + 4 ≤ f.length) {len : Nat} (hlen : decodeLE ((f.drop off).take 4) = len) (hle : 8 ≤ len)
      (hfile : off + 4 + len ≤ f.length) (hnow : now ≤ decodeLE (((f.drop (off + 4)).take len).take 8))
      (hparse : P.parse (((f.drop (off + 4)).take len).drop 8) = false) :
      Ends P f off now true (decodeLE (((f.drop (off + 4)).take len).take 8))
  /-- Less than a length is left. -/
  | short (h : off < f.length) (hshort : f.length < off + 4) : Ends P f off now false now
  /-- Less than the record is left. -/
  | torn (h : off + 4 ≤ f.length) {len : Nat} (hlen : decodeLE ((f.drop off).take 4) = len) (hle : 8 ≤ len)
      (hfile : len ≤ f.length) (htorn : f.length < off + 4 + len) : Ends P f off now false now

namespace LogStore

variable {f : Bytes} {fileID off i now' : Nat} {v : Bytes} {sets : Bool} {r : Rebuild}

theorem take_four_length (h : off + 4 ≤ f.length) : ((f.drop off).take 4).length = 4 := by
  rw [List.length_take, List.length_drop]
  omega

/-- The scan after it has read the record of an instance. -/
def Rebuild.add (P : LogParams) (fileID off i : Nat) (v : Bytes) (r : Rebuild) : Rebuild :=
  { r with
    nowInstanceID := i
    disk.index := set r.disk.index i ⟨fileID, off, P.checksum (recordBody i v)⟩ }

theorem rebuildRecords_record (hat : At f off (record i v)) (hs : Database.Storable P i v) (hnow : r.nowInstanceID ≤ i)
    (k : Nat) :
    rebuildRecords P fileID f (k + 1) off r =
      rebuildRecords P fileID f k (off + (record i v).length) (r.add P fileID off i v) := by
  have hle := hat.le_length (record_ne_nil i v)
  rw [record_length] at hle
  have hlen : ((f.drop off).take 4).length = 4 := take_four_length (by omega)
  have hdecode : decodeLE ((f.drop off).take 4) = (recordBody i v).length := by
    rw [record_take_four hat, hs.decodeLE_length]
  have hpos : (recordBody i v).length ≠ 0 := by
    rw [recordBody_length]
    omega
  have hfile : ¬ ((recordBody i v).length > f.length ∨ (recordBody i v).length < 8) := by
    rw [recordBody_length]
    omega
  have hoff : off + (record i v).length = off + 4 + (recordBody i v).length := by
    rw [record_length, recordBody_length]
    omega
  rw [rebuildRecords]
  simp only [hlen, hdecode, record_body hat, hs.decodeLE_instanceID, recordBody_drop, hs.parse, hpos, hfile,
    Nat.not_lt.mpr hnow, hoff, ne_eq, not_true_eq_false, if_false, Bool.not_true, Bool.false_eq_true]
  rfl

/-- The scan does not depend on the fuel when there is enough. -/
theorem rebuildRecords_fuel {k k' : Nat} (hk : f.length ≤ k + off) (hk' : f.length ≤ k' + off) :
    rebuildRecords P fileID f (k + 1) off r = rebuildRecords P fileID f (k' + 1) off r := by
  induction k generalizing k' off r with
  | zero =>
    have hnil : (f.drop off).take 4 = [] := by
      rw [List.drop_eq_nil_of_le (by omega), List.take_nil]
    simp [rebuildRecords, hnil]
  | succ k ih =>
    rw [rebuildRecords, rebuildRecords]
    by_cases h : off + 4 + decodeLE ((f.drop off).take 4) ≤ f.length
    · cases k' with
      | zero =>
        have hnil : (f.drop off).take 4 = [] := by
          rw [List.drop_eq_nil_of_le (by omega), List.take_nil]
        simp [hnil]
      | succ k' =>
        have hih := fun r => @ih (off + 4 + decodeLE ((f.drop off).take 4)) r k' (by omega) (by omega)
        simp only [hih]
    · have hbuffer : ((f.drop (off + 4)).take (decodeLE ((f.drop off).take 4))).length
          ≠ decodeLE ((f.drop off).take 4) ∨ decodeLE ((f.drop off).take 4) = 0 := by
        rw [List.length_take, List.length_drop]
        omega
      rcases hbuffer with hbuffer | hzero
      · simp only [hbuffer, ne_eq, not_false_eq_true, if_true]
      · simp only [hzero, if_true]

/-- **A record.** The scan reads it and goes on behind it. -/
theorem rebuildIndexForOneFile_record (hf : r.disk.files.lookup fileID = some f) (hat : At f off (record i v))
    (hs : Database.Storable P i v) (hnow : r.nowInstanceID ≤ i) :
    rebuildIndexForOneFile P fileID off r =
      rebuildIndexForOneFile P fileID (off + (record i v).length) (r.add P fileID off i v) := by
  have hle := hat.le_length (record_ne_nil i v)
  have hpos : 0 < f.length := by
    rw [record_length] at hle
    omega
  have hfuel : rebuildRecords P fileID f (f.length + 1) off r =
      rebuildRecords P fileID f (f.length + 1) (off + (record i v).length) (r.add P fileID off i v) := by
    rw [rebuildRecords_record hat hs hnow, ← Nat.sub_add_cancel hpos]
    apply rebuildRecords_fuel
    · rw [record_length]
      omega
    · omega
  unfold rebuildIndexForOneFile
  have hf' : (r.add P fileID off i v).disk.files.lookup fileID = some f := hf
  simp only [hf, hf', hfuel]

/-- The scan `r'` of a file after its data has ended at `off`. -/
structure Ended (P : LogParams) (fileID off : Nat) (f : Bytes) (sets : Bool) (now' : Nat) (r r' : Rebuild) : Prop where
  nowInstanceID : r'.nowInstanceID = now'
  index : r'.disk.index = r.disk.index
  metaFile : r'.disk.metaFile = r.disk.metaFile
  other : ∀ k, k ≠ fileID → r'.disk.files.lookup k = r.disk.files.lookup k
  file : r'.disk.files.lookup fileID = some f ∨ r'.disk.files.lookup fileID = some (f.take off)
  offset_set : sets = true → r'.nowFileOffset = off
  offset_unset : sets = false → r'.nowFileOffset = r.nowFileOffset

/-- **The end of the data.** -/
theorem rebuildIndexForOneFile_ends (hf : r.disk.files.lookup fileID = some f) (h : Ends P f off r.nowInstanceID sets now') :
    ∃ r', rebuildIndexForOneFile P fileID off r = (r', 0) ∧ Ended P fileID off f sets now' r r' := by
  unfold rebuildIndexForOneFile
  simp only [hf, rebuildRecords]
  cases h with
  | eof h =>
    have hnil : (f.drop off).take 4 = [] := by
      rw [List.drop_eq_nil_of_le h, List.take_nil]
    simp only [hnil, List.length_nil, if_true]
    exact ⟨_, rfl, rfl, rfl, rfl, fun _ _ => rfl, .inl hf, fun _ => rfl, fun h => by cases h⟩
  | zero h hlen =>
    simp only [take_four_length h, hlen, if_false, ne_eq, not_true_eq_false, if_true]
    exact ⟨_, rfl, rfl, rfl, rfl, fun _ _ => rfl, .inl hf, fun _ => rfl, fun h => by cases h⟩
  | unparsed h hlen hle hfile hnow hparse =>
    rename_i len
    have hbuffer : ((f.drop (off + 4)).take len).length = len := by
      rw [List.length_take, List.length_drop]
      omega
    have hzero : len ≠ 0 := by omega
    have hbad : ¬ (len > f.length ∨ len < 8) := by omega
    simp only [take_four_length h, hlen, hbuffer, hzero, hbad, Nat.not_lt.mpr hnow, hparse, if_false,
      ne_eq, not_true_eq_false, Bool.not_false, if_true]
    refine ⟨_, rfl, rfl, rfl, rfl, fun k hk => ?_, .inr ?_, fun _ => rfl, fun h => by cases h⟩
    · simp [hk]
    · simp
  | short h hshort =>
    have hlen : ((f.drop off).take 4).length ≠ 0 ∧ ((f.drop off).take 4).length ≠ 4 := by
      rw [List.length_take, List.length_drop]
      omega
    simp only [hlen.1, hlen.2, if_false, ne_eq, not_false_eq_true, if_true]
    refine ⟨_, rfl, rfl, rfl, rfl, fun k hk => ?_, .inr ?_, (fun h => by cases h), fun _ => rfl⟩
    · simp [hk]
    · simp
  | torn h hlen hle hfile htorn =>
    rename_i len
    have hbuffer : ((f.drop (off + 4)).take len).length ≠ len := by
      rw [List.length_take, List.length_drop]
      omega
    have hzero : len ≠ 0 := by omega
    have hbad : ¬ (len > f.length ∨ len < 8) := by omega
    simp only [take_four_length h, hlen, hbuffer, hzero, hbad, if_false, ne_eq, not_true_eq_false,
      not_false_eq_true, if_true]
    refine ⟨_, rfl, rfl, rfl, rfl, fun k hk => ?_, .inr ?_, (fun h => by cases h), fun _ => rfl⟩
    · simp [hk]
    · simp

/-! ## The scan of the files -/

variable {metaFileID k : Nat}

theorem rebuildFiles_record (hf : r.disk.files.lookup fileID = some f) (hat : At f off (record i v))
    (hs : Database.Storable P i v) (hnow : r.nowInstanceID ≤ i) :
    rebuildFiles P metaFileID (k + 1) fileID off r =
      rebuildFiles P metaFileID (k + 1) fileID (off + (record i v).length) (r.add P fileID off i v) := by
  rw [rebuildFiles, rebuildFiles, rebuildIndexForOneFile_record hf hat hs hnow]

theorem rebuildFiles_ends (hf : r.disk.files.lookup fileID = some f) (h : Ends P f off r.nowInstanceID sets now') :
    ∃ r', rebuildFiles P metaFileID (k + 1) fileID off r = rebuildFiles P metaFileID k (fileID + 1) 0 r' ∧
      Ended P fileID off f sets now' r r' := by
  obtain ⟨r', hone, hended⟩ := rebuildIndexForOneFile_ends hf h
  refine ⟨r', ?_, hended⟩
  rw [rebuildFiles, hone]
  rfl

/-- Zeros behind the data, or nothing: the file stays as it is. -/
theorem rebuildFiles_blank (hf : r.disk.files.lookup fileID = some f) (hzeros : Zeros (f.drop off))
    (hlen : f.length ≤ off ∨ off + 4 ≤ f.length) :
    rebuildFiles P metaFileID (k + 1) fileID off r =
      rebuildFiles P metaFileID k (fileID + 1) 0 { r with nowFileOffset := off } := by
  have hone : rebuildIndexForOneFile P fileID off r = ({ r with nowFileOffset := off }, 0) := by
    unfold rebuildIndexForOneFile
    simp only [hf, rebuildRecords]
    rcases hlen with hle | hle
    · have hnil : (f.drop off).take 4 = [] := by
        rw [List.drop_eq_nil_of_le hle, List.take_nil]
      simp only [hnil, List.length_nil, if_true]
    · simp [take_four_length hle, decodeLE_zeros (hzeros.take 4)]
  rw [rebuildFiles, hone]
  rfl

/-- A record of an instance below the last one that was read: the files are taken for damaged. -/
theorem rebuildFiles_stale {len : Nat} (hf : r.disk.files.lookup fileID = some f) (h : off + 4 ≤ f.length)
    (hlen : decodeLE ((f.drop off).take 4) = len) (hle : 8 ≤ len) (hfile : off + 4 + len ≤ f.length)
    (hstale : decodeLE (((f.drop (off + 4)).take len).take 8) < r.nowInstanceID) :
    rebuildFiles P metaFileID (k + 1) fileID off r = (r, -1) := by
  have hbuffer : ((f.drop (off + 4)).take len).length = len := by
    rw [List.length_take, List.length_drop]
    omega
  have hzero : len ≠ 0 := by omega
  have hbad : ¬ (len > f.length ∨ len < 8) := by omega
  have hone : rebuildIndexForOneFile P fileID off r = (r, -1) := by
    unfold rebuildIndexForOneFile
    simp only [hf, rebuildRecords]
    simp only [take_four_length h, hlen, hbuffer, hzero, hbad, hstale, if_false, ne_eq, not_true_eq_false, if_true]
    rfl
  rw [rebuildFiles, hone]
  rfl

theorem rebuildFiles_missing (hf : r.disk.files.lookup fileID = none) :
    rebuildFiles P metaFileID (k + 1) fileID off r = (r, if fileID ≠ 0 ∧ fileID ≠ metaFileID + 1 then -1 else 0) := by
  rw [rebuildFiles]
  unfold rebuildIndexForOneFile
  simp only [hf]
  rfl

/-- The scan `r'` after the files from `fileID` to `last`: it has cut off what lay behind the data of some of them. -/
structure Scanned (fileID off last : Nat) (sets : Bool) (r r' : Rebuild) : Prop where
  index : r'.disk.index = r.disk.index
  metaFile : r'.disk.metaFile = r.disk.metaFile
  files : ∀ k, r'.disk.files.lookup k = r.disk.files.lookup k ∨ fileID ≤ k ∧ ∃ f, r.disk.files.lookup k = some f ∧
    r'.disk.files.lookup k = some (f.take (if k = fileID then off else 0))
  offset_set : sets = true → r'.nowFileOffset = if fileID = last then off else 0
  offset_unset : sets = false → fileID = last → r'.nowFileOffset = r.nowFileOffset

end LogStore

/-- From the offset `off` of the file `fileID` on the data of every file up to `last` ends, where the later ones have none.
`sets` says that the write offset is set in the last one. -/
inductive Legible (P : LogParams) (files : List (Nat × Bytes)) (last : Nat) (sets : Bool) : (fileID off now : Nat) → Prop
  | last {f : Bytes} {off now now' : Nat} (hf : files.lookup last = some f) (h : Ends P f off now sets now') :
      Legible P files last sets last off now
  | next {f : Bytes} {fileID off now now' : Nat} {sets' : Bool} (hlt : fileID < last) (hf : files.lookup fileID = some f)
      (h : Ends P f off now sets' now') (hnext : Legible P files last sets (fileID + 1) 0 now') :
      Legible P files last sets fileID off now

/-- **The scan of the files.** It ends behind the last file, which is the one that the meta file names. -/
theorem LogStore.rebuildFiles_legible {files : List (Nat × Bytes)} {last fileID off now metaFileID n : Nat} {sets : Bool}
    {r : Rebuild} (h : Legible P files last sets fileID off now) (hfiles : ∀ k, fileID ≤ k → r.disk.files.lookup k = files.lookup k)
    (hnow : r.nowInstanceID = now) (hmissing : files.lookup (last + 1) = none) (hfuel : last + 2 ≤ n + fileID) :
    ∃ r', rebuildFiles P metaFileID n fileID off r = (r', if last ≠ metaFileID then -1 else 0) ∧
      Scanned fileID off last sets r r' := by
  induction h generalizing n r with
  | last hf h =>
    obtain ⟨n, rfl⟩ : ∃ k, n = k + 2 := ⟨n - 2, by omega⟩
    subst hnow
    have hf' := (hfiles last le_rfl).trans hf
    obtain ⟨r', hr', hended⟩ := rebuildFiles_ends hf' h
    have hmissing' : r'.disk.files.lookup (last + 1) = none := by
      rw [hended.other _ (Nat.succ_ne_self last), hfiles _ (Nat.le_succ last), hmissing]
    refine ⟨r', ?_, hended.index, hended.metaFile, fun k => ?_, fun hsets => ?_,
      fun hsets _ => hended.offset_unset hsets⟩
    · rw [hr', rebuildFiles_missing hmissing']
      simp
    · by_cases hk : k = last
      · subst hk
        rw [hf', if_pos rfl]
        rcases hended.file with hsame | hcut
        · exact .inl hsame
        · exact .inr ⟨le_rfl, _, rfl, hcut⟩
      · exact .inl (hended.other k hk)
    · rw [if_pos rfl, hended.offset_set hsets]
  | @next f fileID off now now' sets' hlt hf h hnext ih =>
    obtain ⟨n, rfl⟩ : ∃ k, n = k + 1 := ⟨n - 1, by omega⟩
    subst hnow
    have hf' := (hfiles fileID le_rfl).trans hf
    obtain ⟨r₁, hr₁, hended⟩ := rebuildFiles_ends hf' h
    have hfiles₁ : ∀ k, fileID + 1 ≤ k → r₁.disk.files.lookup k = files.lookup k := by
      intro k hk
      rw [hended.other k (by omega), hfiles k (by omega)]
    have hfuel₁ : last + 2 ≤ n + (fileID + 1) := by omega
    obtain ⟨r', hr', hscanned⟩ := ih hfiles₁ hended.nowInstanceID hfuel₁
    refine ⟨r', hr₁.trans hr', hscanned.index.trans hended.index, hscanned.metaFile.trans hended.metaFile, fun k => ?_,
      fun hsets => ?_, fun _ heq => absurd heq hlt.ne⟩
    · by_cases hk : k = fileID
      · subst hk
        have hsame : r'.disk.files.lookup k = r₁.disk.files.lookup k := by
          rcases hscanned.files k with hsame | ⟨hle, -⟩
          · exact hsame
          · omega
        rw [hsame, hf', if_pos rfl]
        rcases hended.file with hsame | hcut
        · exact .inl hsame
        · exact .inr ⟨le_rfl, _, rfl, hcut⟩
      · rw [← hended.other k hk, if_neg hk]
        rcases hscanned.files k with hsame | ⟨hle, g, hg, hcut⟩
        · exact .inl hsame
        · refine .inr ⟨by omega, g, hg, ?_⟩
          rw [hcut]
          split <;> rfl
    · rw [hscanned.offset_set hsets, if_neg hlt.ne]
      split <;> rfl

end PhxPaxos
