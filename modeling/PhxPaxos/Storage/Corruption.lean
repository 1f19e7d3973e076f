import PhxPaxos.Abstract.Crc
import PhxPaxos.Model.Crc32
import PhxPaxos.Model.LogStore

/-!
# Corrupted records

The table of `crc32` is that of the CRC-32 of the reflected polynomial `0xedb88320` (`crc32_toBitVec`), which is computed from
every `skiplen`-th byte. So a change of bytes that are not among them is never seen, and a change within four successive ones
of them always is (`crc32_burst`). A stored record whose bytes are changed so is refused by `Get` exactly if one of them
changed, or the instance id that the record carries (`Database.get_corrupted`).
-/

namespace PhxPaxos

open Files

namespace Crc32

/-- The polynomial that `crc32_tab` is made from. -/
def polynomial : BitVec 32 := 0xedb88320#32

theorem tab_eq : ∀ i < 256, (tab.getD i 0).toBitVec = Crc.tableEntry polynomial (BitVec.ofNat 8 i) := by decide +kernel

theorem index_toNat (crc : UInt32) (b : UInt8) :
    ((crc ^^^ b.toUInt32) &&& 0xff).toNat = ((crc.toBitVec ^^^ b.toBitVec.setWidth 32).setWidth 8).toNat := by
  have hbyte : b.toUInt32.toBitVec = b.toBitVec.setWidth 32 := rfl
  calc ((crc ^^^ b.toUInt32) &&& 0xff).toNat = (crc ^^^ b.toUInt32).toNat &&& 255 := UInt32.toNat_and _ _
    _ = (crc ^^^ b.toUInt32).toNat % 2 ^ 8 := Nat.and_two_pow_sub_one_eq_mod _ 8
    _ = ((crc.toBitVec ^^^ b.toBitVec.setWidth 32).setWidth 8).toNat := by
      rw [BitVec.toNat_setWidth, ← hbyte, ← UInt32.toBitVec_xor, UInt32.toNat_toBitVec]

/-- The loop's body feeds a byte. -/
theorem update_toBitVec (crc : UInt32) (b : UInt8) : (update crc b).toBitVec = Crc.feed polynomial crc.toBitVec b.toBitVec := by
  have hlt : ((crc ^^^ b.toUInt32) &&& 0xff).toNat < 256 := by
    rw [index_toNat]
    exact BitVec.isLt _
  rw [Crc.feed_eq_table, update, UInt32.toBitVec_xor, tab_eq _ hlt, index_toNat, BitVec.ofNat_toNat]
  simp

theorem foldl_update_toBitVec (bs : Bytes) : ∀ crc : UInt32,
    (bs.foldl update crc).toBitVec = Crc.feedAll polynomial crc.toBitVec (bs.map UInt8.toBitVec) := by
  induction bs with
  | nil => exact fun _ => rfl
  | cons b bs ih =>
    intro crc
    rw [List.foldl_cons, ih, update_toBitVec]
    rfl

/-- **The checksum is the CRC-32 of the sampled bytes.** -/
theorem crc32_toBitVec (crc : UInt32) (buf : Bytes) (skiplen : Nat) :
    (crc32 crc buf skiplen).toBitVec =
      ~~~Crc.feedAll polynomial (~~~crc.toBitVec) ((crc32Sample skiplen 0 buf).map UInt8.toBitVec) := by
  simp only [crc32, UInt32.toBitVec_xor, foldl_update_toBitVec]
  have hones : (~~~(0 : UInt32)).toBitVec = BitVec.allOnes 32 := rfl
  rw [hones, BitVec.xor_allOnes, BitVec.xor_allOnes]

/-- **Every burst is seen.** Two buffers whose sampled bytes differ in at most four successive ones have the same checksum only
if no sampled byte differs. -/
theorem crc32_burst (crc : UInt32) {buf buf' : Bytes} {skiplen : Nat} {l xs ys r : Bytes}
    (hbuf : crc32Sample skiplen 0 buf = l ++ xs ++ r) (hbuf' : crc32Sample skiplen 0 buf' = l ++ ys ++ r)
    (hlength : xs.length = ys.length) (hfour : xs.length ≤ 4) :
    crc32 crc buf skiplen = crc32 crc buf' skiplen ↔ xs = ys := by
  constructor
  · intro h
    have hfeed : Crc.feedAll polynomial (~~~crc.toBitVec) ((l ++ xs ++ r).map UInt8.toBitVec) =
        Crc.feedAll polynomial (~~~crc.toBitVec) ((l ++ ys ++ r).map UInt8.toBitVec) := by
      have hbits := congrArg UInt32.toBitVec h
      rw [crc32_toBitVec, crc32_toBitVec, hbuf, hbuf'] at hbits
      exact BitVec.not_inj.mp hbits
    simp only [List.map_append] at hfeed
    have hmap := Crc.feedAll_burst (by decide) (by simpa using hlength) (by simp only [List.length_map]; omega) hfeed
    exact List.map_injective_iff.mpr (fun _ _ => UInt8.toBitVec_inj.mp) hmap
  · intro h
    rw [crc32, crc32, hbuf, hbuf', h]

end Crc32

/-! ## A record of the log -/

/-- The bytes of a record that its checksum covers, from the instance id on. -/
def Disk.body (d : Disk) (e : FileID) : Bytes :=
  let f := (d.files.lookup e.fileID).getD []
  (f.drop (e.offset + 4)).take (decodeLE ((f.drop e.offset).take 4))

/-- The record's bytes from the instance id on are overwritten. -/
def Disk.corrupt (d : Disk) (e : FileID) (body : Bytes) : Disk := d.run (.write e.fileID (e.offset + 4) body)

variable {P : LogParams} {d : Disk} {e : FileID} {body : Bytes}

/-- `Read` of a record in a file that exists. -/
theorem LogStore.read_eq {f : Bytes} (hf : d.files.lookup e.fileID = some f) (hlen : ((f.drop e.offset).take 4).length = 4)
    (hbody : (d.body e).length = decodeLE ((f.drop e.offset).take 4)) :
    (LogStore.read P e d).2 = if P.checksum (d.body e) ≠ e.checksum then .error (-2)
      else .ok (decodeLE ((d.body e).take 8), (d.body e).drop 8) := by
  have hopen : d.run (.openFile e.fileID) = d := by simp only [Disk.run, hf]
  have heq : (f.drop (e.offset + 4)).take (decodeLE ((f.drop e.offset).take 4)) = d.body e := by
    simp only [Disk.body, hf, Option.getD_some]
  simp only [LogStore.read, hopen, hf, Option.getD_some, heq, hlen, ne_eq, not_true_eq_false, if_false, hbody]
  split <;> rfl

/-- A record that can be read lies in a file. -/
theorem LogStore.of_read_ok {r : Nat × Bytes} (h : (LogStore.read P e d).2 = .ok r) :
    ∃ f, d.files.lookup e.fileID = some f ∧ ((f.drop e.offset).take 4).length = 4 ∧
      (d.body e).length = decodeLE ((f.drop e.offset).take 4) := by
  cases hf : d.files.lookup e.fileID with
  | none => simp [LogStore.read, Disk.run, hf, lookup_set] at h
  | some f =>
    have hopen : d.run (.openFile e.fileID) = d := by simp only [Disk.run, hf]
    have heq : (f.drop (e.offset + 4)).take (decodeLE ((f.drop e.offset).take 4)) = d.body e := by
      simp only [Disk.body, hf, Option.getD_some]
    simp only [LogStore.read, hopen, hf, Option.getD_some, heq] at h
    split at h
    · cases h
    case isFalse hlen =>
      split at h
      · cases h
      case isFalse hbody => exact ⟨f, rfl, not_not.mp hlen, not_not.mp hbody⟩

/-- Overwriting the body of a record leaves its place and length, and the index. -/
theorem Disk.corrupt_spec {f : Bytes} (hf : d.files.lookup e.fileID = some f) (hlen : ((f.drop e.offset).take 4).length = 4)
    (hbody : (d.body e).length = decodeLE ((f.drop e.offset).take 4)) (hlength : body.length = (d.body e).length) :
    ∃ f', (d.corrupt e body).files.lookup e.fileID = some f' ∧
      (f'.drop e.offset).take 4 = (f.drop e.offset).take 4 ∧ (d.corrupt e body).body e = body := by
  have hle : e.offset + 4 ≤ f.length := by
    rw [List.length_take, List.length_drop] at hlen
    omega
  have hlookup : (d.corrupt e body).files.lookup e.fileID = some (writeAt f (e.offset + 4) body) := by
    simp only [Disk.corrupt, Disk.run, hf, Option.getD_some, lookup_set, if_true]
  have htake : ((writeAt f (e.offset + 4) body).drop e.offset).take 4 = (f.drop e.offset).take 4 := by
    have hfront : (writeAt f (e.offset + 4) body).take (e.offset + 4) = f.take (e.offset + 4) := by
      have hpre := congrArg (List.take (e.offset + 4)) (take_writeAt hle body)
      rwa [List.take_take, Nat.min_eq_left (Nat.le_add_right _ _),
        List.take_left' (by rw [List.length_take, Nat.min_eq_left hle])] at hpre
    have hdrop := congrArg (List.drop e.offset) hfront
    simpa only [List.drop_take, Nat.add_sub_cancel_left] using hdrop
  refine ⟨_, hlookup, htake, ?_⟩
  have hsize : decodeLE ((f.drop e.offset).take 4) = body.length := by rw [← hbody, hlength]
  simp only [Disk.body, hlookup, Option.getD_some, htake, hsize]
  exact (At.written f (e.offset + 4) body).take

theorem decodeLE_inj {as bs : Bytes} (h : as.length = bs.length) : decodeLE as = decodeLE bs ↔ as = bs := by
  constructor
  · intro heq
    rw [← encodeLE_decodeLE as, heq, h, encodeLE_decodeLE]
  · exact congrArg decodeLE

/-- `Get` of an instance that the index knows. -/
theorem Database.get_eq {i : Nat} (hindex : d.index.lookup i = some e) :
    (Database.get P i d).2 =
      (LogStore.read P e d).2.bind fun r => if r.1 ≠ i then .error (-2) else .ok r.2 := by
  simp only [Database.get, hindex]
  generalize LogStore.read P e d = result
  obtain ⟨d', ret | ⟨j, v⟩⟩ := result <;> rfl

/-- **What the checksum of a record sees.** When a record that `Get` returns is overwritten so that its sampled bytes change
within four successive ones at most, `Get` refuses it if one of them or the instance id changed, and returns what was written
if not. -/
theorem Database.get_corrupted (hP : P.checksum = fun buffer => Crc32.crc32 0 buffer crc32Skip) {i : Nat} {v : Bytes}
    (hindex : d.index.lookup i = some e) (hget : (Database.get P i d).2 = .ok v) {l xs ys r : Bytes}
    (hlength : body.length = (d.body e).length) (hsample : crc32Sample crc32Skip 0 (d.body e) = l ++ xs ++ r)
    (hsample' : crc32Sample crc32Skip 0 body = l ++ ys ++ r) (hburst : xs.length = ys.length) (hfour : xs.length ≤ 4) :
    (Database.get P i (d.corrupt e body)).2 =
      if xs = ys ∧ body.take 8 = (d.body e).take 8 then .ok (body.drop 8) else .error (-2) := by
  have hindex' : (d.corrupt e body).index.lookup i = some e := hindex
  rw [Database.get_eq hindex] at hget
  rw [Database.get_eq hindex']
  cases hread : (LogStore.read P e d).2 with
  | error ret =>
    rw [hread] at hget
    cases hget
  | ok r =>
    obtain ⟨f, hf, hlen, hbody⟩ := LogStore.of_read_ok hread
    obtain ⟨f', hf', hlen', hbody'⟩ := Disk.corrupt_spec hf hlen hbody hlength
    rw [LogStore.read_eq hf hlen hbody] at hget
    rw [LogStore.read_eq hf' (hlen' ▸ hlen) (by rw [hbody', hlen', hlength, hbody]), hbody', hP]
    -- the record that was read has the checksum of the index and its instance id
    split at hget
    · cases hget
    case isFalse hcheck =>
      have hcheck : Crc32.crc32 0 (d.body e) crc32Skip = e.checksum := by simpa only [hP, ne_eq, not_not] using hcheck
      have hseen := Crc32.crc32_burst 0 hsample hsample' hburst hfour
      have hid : decodeLE ((d.body e).take 8) = i := by
        by_contra hne
        simp [Except.bind, hne] at hget
      have htake : decodeLE (body.take 8) = i ↔ body.take 8 = (d.body e).take 8 := by
        rw [← hid]
        exact decodeLE_inj (by rw [List.length_take, List.length_take, hlength])
      by_cases hxy : xs = ys
      · have hsame : Crc32.crc32 0 body crc32Skip = e.checksum := (hseen.mpr hxy).symm.trans hcheck
        by_cases hhead : body.take 8 = (d.body e).take 8
        · simp [Except.bind, hsame, hxy, hhead, hid]
        · have hne := mt htake.mp hhead
          simp [Except.bind, hsame, hhead, hne]
      · have hother : ¬ Crc32.crc32 0 body crc32Skip = e.checksum := fun h => hxy (hseen.mp (hcheck.trans h.symm))
        simp [Except.bind, hother, hxy]

/-! ## A changed byte -/

namespace StoredSevens

def params : LogParams := ⟨fun _ => 0, fun buffer => Crc32.crc32 0 buffer crc32Skip, fun _ => true⟩

/-- Forty sevens at instance 5, at the start of the file 0. -/
def fileID : FileID := ⟨0, 0, params.checksum (recordBody 5 (List.replicate 40 7))⟩

def disk : Disk := { files := [(0, record 5 (List.replicate 40 7))], index := [(5, fileID)] }

/-- The seventeenth byte is a nine. -/
def changed : Bytes := encodeLE 8 5 ++ List.replicate 8 7 ++ [9] ++ List.replicate 31 7

end StoredSevens

theorem get_corrupted_sevens :
    (Database.get StoredSevens.params 5 (StoredSevens.disk.corrupt StoredSevens.fileID StoredSevens.changed)).2 = .error (-2) :=
  (Database.get_corrupted rfl rfl (show (Database.get _ _ StoredSevens.disk).2 = .ok (List.replicate 40 7) by decide +kernel)
    (by decide +kernel) (show _ = [5] ++ [7, 7, 7, 7] ++ [7] by decide +kernel)
    (show _ = [5] ++ [7, 9, 7, 7] ++ [7] by decide +kernel) rfl (by decide)).trans (if_neg (by decide))

end PhxPaxos
