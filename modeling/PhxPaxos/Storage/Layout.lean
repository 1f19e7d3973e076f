import PhxPaxos.Storage.Scan

/-!
# How the records lie in the files

`Layout`: LevelDB has the instances that are stored, the latest record of each lies where it says, and none of these records
lies behind the end of the newest one, where the next record is written. What the file holds there is left open, since a
write that failed leaves its bytes; `Blank` says that there are zeros only.

An append (`Layout.append`), a write that fails (`Layout.overwrite`), a new file (`Layout.newFile`) and a deletion
(`Layout.delete`) keep it. The scan of a rebuild keeps it where the data ends as `Legible` says (`Layout.scanned`).
-/

namespace PhxPaxos

open Files

variable {P : LogParams}

/-! ## Records under changes of the files -/

section Lies

variable {files : List (Nat × Bytes)} {e : FileID} {i k : Nat} {v f f' : Bytes}

theorem Lies.set (h : Lies P files e i v) (hf : files.lookup k = some f)
    (hat : e.fileID = k → At f e.offset (record i v) → At f' e.offset (record i v)) : Lies P (set files k f') e i v := by
  obtain ⟨g, hg, hlies⟩ := h.lies
  refine ⟨h.storable, ?_, h.checksum⟩
  by_cases hk : e.fileID = k
  · rw [hk, hf] at hg
    cases hg
    exact ⟨f', by simp [hk], hat hk hlies⟩
  · exact ⟨g, by simp [hk, hg], hlies⟩

theorem Lies.set_new (h : Lies P files e i v) (hf : files.lookup k = none) : Lies P (Files.set files k f') e i v := by
  obtain ⟨g, hg, hlies⟩ := h.lies
  have hk : e.fileID ≠ k := by
    rintro rfl
    rw [hf] at hg
    cases hg
  exact ⟨h.storable, ⟨g, by simp [hk, hg], hlies⟩, h.checksum⟩

end Lies

/-- A record of the value `v` at `e` ends before the offset `oe` of the file `fe`. -/
def Before (e : FileID) (v : Bytes) (fe oe : Nat) : Prop := e.fileID < fe ∨ e.fileID = fe ∧ e.offset + 12 + v.length ≤ oe

/-- A record that ends before the end of the data is not lost where the next one is written. -/
theorem Lies.writeAt {files : List (Nat × Bytes)} {e : FileID} {i fe oe last off : Nat} {v f : Bytes} (h : Lies P files e i v)
    (hbefore : Before e v fe oe) (hcurrent : fe ≤ last) (hoff : off = if fe = last then oe else 0)
    (hf : files.lookup last = some f) (bs : Bytes) : Lies P (Files.set files last (Files.writeAt f off bs)) e i v := by
  apply h.set hf
  intro heq hat
  apply hat.writeAt (record_ne_nil i v)
  rw [record_length]
  rcases hbefore with hlt | ⟨hfe, hend⟩
  · omega
  · rw [if_pos (hfe.symm.trans heq)] at hoff
    omega

/-- `now` is the newest instance, its record ends at the offset `oe` of the file `fe`. -/
structure Newest (d : Disk) (values : List (Nat × Bytes)) (now fe oe : Nat) (e : FileID) (v : Bytes) : Prop where
  index : d.index.lookup now = some e
  value : values.lookup now = some v
  max : ∀ i e', d.index.lookup i = some e' → i ≤ now
  fileID : e.fileID = fe
  offset : e.offset + 12 + v.length = oe

/-- How the records of `values` lie on the disk: the newest of them, of the instance `now`, ends at the offset `oe` of the
file `fe`, and the files go on to `last`. -/
structure Layout (P : LogParams) (d : Disk) (values : List (Nat × Bytes)) (now fe oe last : Nat) : Prop where
  keys : ∀ i, d.index.lookup i = none ↔ values.lookup i = none
  lies : ∀ i e v, d.index.lookup i = some e → values.lookup i = some v → Lies P d.files e i v ∧ Before e v fe oe
  /-- Later instances lie in later files. -/
  ordered : ∀ i j e e', d.index.lookup i = some e → d.index.lookup j = some e' → i ≤ j → e.fileID ≤ e'.fileID
  newest : (∀ i, d.index.lookup i = none) ∧ now = 0 ∧ fe = 0 ∧ oe = 0 ∨ ∃ e v, Newest d values now fe oe e v
  current : fe ≤ last
  data : ∀ f, d.files.lookup fe = some f → oe ≤ f.length
  exist : ∀ k, fe ≤ k → k ≤ last → ∃ f, d.files.lookup k = some f
  missing : ∀ k, last < k → d.files.lookup k = none

/-- There are only zeros behind the data; a file without a record has room for a length. -/
structure Blank (d : Disk) (fe oe : Nat) : Prop where
  tail : ∀ f, d.files.lookup fe = some f → Zeros (f.drop oe)
  later : ∀ k f, fe < k → d.files.lookup k = some f → Zeros f ∧ (f.length = 0 ∨ 4 ≤ f.length)

/-- What the map `values` gives; `1` stands for an instance that is not there. -/
def Database.stored (values : List (Nat × Bytes)) (i : Nat) : Except Int Bytes :=
  match values.lookup i with
  | some v => .ok v
  | none => .error 1

namespace Layout

variable {d : Disk} {values : List (Nat × Bytes)} {now fe oe last i off : Nat} {v f : Bytes}

theorem newest_le (h : Layout P d values now fe oe last) (hi : ∀ x ∈ values, x.1 ≤ i) : now ≤ i := by
  rcases h.newest with ⟨-, rfl, -⟩ | ⟨e, v, hnew⟩
  · exact Nat.zero_le i
  · exact hi (now, v) (mem_of_lookup hnew.value)

theorem index_le (h : Layout P d values now fe oe last) {j : Nat} {e : FileID} (he : d.index.lookup j = some e) : j ≤ now := by
  rcases h.newest with ⟨hnone, -⟩ | ⟨_, _, hnew⟩
  · rw [hnone] at he
    cases he
  · exact hnew.max j e he

/-- The entry of an instance that is stored. -/
theorem entry (h : Layout P d values now fe oe last) (hv : values.lookup i = some v) :
    ∃ e, d.index.lookup i = some e ∧ Lies P d.files e i v ∧ Before e v fe oe := by
  cases he : d.index.lookup i with
  | none =>
    rw [(h.keys i).mp he] at hv
    cases hv
  | some e => exact ⟨e, rfl, h.lies i e v he hv⟩

theorem value (h : Layout P d values now fe oe last) {e : FileID} (he : d.index.lookup i = some e) :
    ∃ v, values.lookup i = some v ∧ Lies P d.files e i v ∧ Before e v fe oe := by
  cases hv : values.lookup i with
  | none =>
    rw [(h.keys i).mpr hv] at he
    cases he
  | some v => exact ⟨v, rfl, h.lies i e v he hv⟩

/-- `Get` returns the value. -/
theorem get (h : Layout P d values now fe oe last) (i : Nat) : Database.get P i d = (d, Database.stored values i) := by
  unfold Database.get Database.stored
  cases hv : values.lookup i with
  | none => simp only [(h.keys i).mpr hv]
  | some v =>
    obtain ⟨e, he, hlies, -⟩ := h.entry hv
    simp only [he, hlies.read, ne_eq, not_true_eq_false, if_false]

theorem fileID_le (h : Layout P d values now fe oe last) {e : FileID} (he : d.index.lookup i = some e) : e.fileID ≤ fe := by
  obtain ⟨v, -, -, hbefore⟩ := h.value he
  rcases hbefore with hlt | ⟨heq, -⟩
  · exact hlt.le
  · exact heq.le

/-- Where the next record is written, no record that counts is lost. -/
theorem lies_writeAt (h : Layout P d values now fe oe last) (hoff : off = if fe = last then oe else 0)
    (hf : d.files.lookup last = some f) {e : FileID} (he : d.index.lookup i = some e) (hv : values.lookup i = some v)
    (bs : Bytes) : Lies P (set d.files last (writeAt f off bs)) e i v := by
  obtain ⟨hlies, hbefore⟩ := h.lies i e v he hv
  exact hlies.writeAt hbefore h.current hoff hf bs

/-- **Append.** The record is written where the data ends, or at the start of a file without data. -/
theorem append (h : Layout P d values now fe oe last) (hs : Database.Storable P i v) (hi : now ≤ i)
    (hoff : off = if fe = last then oe else 0) (hf : d.files.lookup last = some f) :
    Layout P
      { d with
        files := set d.files last (writeAt f off (record i v))
        index := set d.index i ⟨last, off, P.checksum (recordBody i v)⟩ }
      (set values i v) i last (off + (record i v).length) last := by
  have hcurrent := h.current
  refine ⟨fun j => ?_, fun j e w he hw => ?_, fun j k e e' he he' hjk => ?_,
    .inr ⟨⟨last, off, P.checksum (recordBody i v)⟩, v, by simp, by simp, ?_, rfl, ?_⟩, le_rfl, ?_, fun k hk hk' => ?_,
    fun k hk => ?_⟩
  · by_cases hj : j = i
    · simp [hj]
    · simpa [hj] using h.keys j
  · by_cases hj : j = i
    · subst hj
      simp only [lookup_set, if_true, Option.some.injEq] at he hw
      subst he hw
      refine ⟨⟨hs, ⟨writeAt f off (record j v), by simp, At.written f off (record j v)⟩, rfl⟩, .inr ⟨rfl, ?_⟩⟩
      rw [record_length]
      exact (Nat.add_assoc off 12 v.length).le
    · simp only [lookup_set, hj, if_false] at he hw
      refine ⟨h.lies_writeAt hoff hf he hw _, ?_⟩
      rcases (h.lies j e w he hw).2 with hlt | ⟨heq, hle⟩
      · exact .inl (by omega)
      · by_cases hfe : fe = last
        · rw [if_pos hfe] at hoff
          exact .inr ⟨heq.trans hfe, by omega⟩
        · exact .inl (by omega)
  · by_cases hk : k = i
    · subst hk
      simp only [lookup_set, if_true, Option.some.injEq] at he'
      subst he'
      by_cases hj : j = k
      · simp only [lookup_set, hj, if_true, Option.some.injEq] at he
        rw [← he]
      · simp only [lookup_set, hj, if_false] at he
        exact (h.fileID_le he).trans hcurrent
    · simp only [lookup_set, hk, if_false] at he'
      have hle := h.index_le he'
      have hj : j ≠ i := by omega
      simp only [lookup_set, hj, if_false] at he
      exact h.ordered j k e e' he he' hjk
  · intro j e' he'
    by_cases hj : j = i
    · exact hj.le
    · simp only [lookup_set, hj, if_false] at he'
      exact (h.index_le he').trans hi
  · rw [record_length]
    exact Nat.add_assoc _ _ _
  · intro g hg
    simp only [lookup_set, if_true, Option.some.injEq] at hg
    rw [← hg, length_writeAt]
    exact le_max_right _ _
  · exact ⟨_, by rw [le_antisymm hk' hk, lookup_set, if_pos rfl]⟩
  · simpa [hk.ne'] using h.missing k hk

/-- **A write that fails.** The bytes that were written do not touch the data. -/
theorem overwrite (h : Layout P d values now fe oe last) (hoff : off = if fe = last then oe else 0)
    (hf : d.files.lookup last = some f) (bs : Bytes) :
    Layout P { d with files := set d.files last (writeAt f off bs) } values now fe oe last := by
  refine ⟨h.keys, fun i e v he hv => ⟨h.lies_writeAt hoff hf he hv bs, (h.lies i e v he hv).2⟩, h.ordered, ?_, h.current, ?_,
    fun k hk hk' => ?_, fun k hk => ?_⟩
  · rcases h.newest with hnone | ⟨e, v, hnew⟩
    · exact .inl hnone
    · exact .inr ⟨e, v, ⟨hnew.index, hnew.value, hnew.max, hnew.fileID, hnew.offset⟩⟩
  · intro g hg
    by_cases hfe : fe = last
    · simp only [lookup_set, hfe, if_true, Option.some.injEq] at hg
      have hle := h.data f (hfe ▸ hf)
      rw [← hg, length_writeAt]
      omega
    · simp only [lookup_set, hfe, if_false] at hg
      exact h.data g hg
  · by_cases hlast : k = last
    · exact ⟨_, by rw [hlast, lookup_set, if_pos rfl]⟩
    · obtain ⟨g, hg⟩ := h.exist k hk hk'
      exact ⟨g, by simp [hlast, hg]⟩
  · simpa [hk.ne'] using h.missing k hk

/-- **A new file.** -/
theorem newFile (h : Layout P d values now fe oe last) {d' : Disk} (hindex : d'.index = d.index)
    (hfiles : d'.files = set d.files (last + 1) f) : Layout P d' values now fe oe (last + 1) := by
  have hnone := h.missing (last + 1) (Nat.lt_succ_self last)
  have hcurrent := h.current
  refine ⟨fun i => hindex ▸ h.keys i, fun i e v he hv => ?_, hindex ▸ h.ordered, ?_, by omega, fun g hg => ?_, fun k hk hk' => ?_,
    fun k hk => ?_⟩
  · obtain ⟨hlies, hbefore⟩ := h.lies i e v (hindex ▸ he) hv
    exact ⟨hfiles ▸ hlies.set_new hnone, hbefore⟩
  · rcases h.newest with hempty | ⟨e, v, hnew⟩
    · exact .inl (hindex ▸ hempty)
    · exact .inr ⟨e, v, hindex ▸ hnew.index, hnew.value, hindex ▸ hnew.max, hnew.fileID, hnew.offset⟩
  · have hne : fe ≠ last + 1 := by omega
    rw [hfiles, lookup_set, if_neg hne] at hg
    exact h.data g hg
  · rw [hfiles]
    by_cases hlast : k = last + 1
    · exact ⟨f, by simp [hlast]⟩
    · obtain ⟨g, hg⟩ := h.exist k hk (by omega)
      exact ⟨g, by simp [hlast, hg]⟩
  · have hne : k ≠ last + 1 := by omega
    rw [hfiles, lookup_set, if_neg hne]
    exact h.missing k (by omega)

/-- **A deletion.** The files of the smallest instance and later ones stay. -/
theorem delete (h : Layout P d values now fe oe last) {d' : Disk} (hmin : ∀ x ∈ values, i ≤ x.1)
    (hlt : ∃ x ∈ values, i < x.1) (hindex : d'.index = remove d.index (· = i))
    (hfiles : ∀ k, (∀ e, d.index.lookup i = some e → e.fileID ≤ k) → d'.files.lookup k = d.files.lookup k) :
    Layout P d' (remove values (· = i)) now fe oe last := by
  have hnow : i < now := by
    obtain ⟨x, hx, hix⟩ := hlt
    obtain ⟨v, hv⟩ := lookup_of_mem hx
    obtain ⟨e, he, -⟩ := h.entry hv
    exact hix.trans_le (h.index_le he)
  have hfe : ∀ k, fe ≤ k → d'.files.lookup k = d.files.lookup k := by
    intro k hk
    apply hfiles
    intro e he
    exact (h.fileID_le he).trans hk
  have hlookup : ∀ j e, d'.index.lookup j = some e → j ≠ i ∧ d.index.lookup j = some e := by
    intro j e he
    rw [hindex, lookup_remove] at he
    split at he
    · cases he
    · exact ⟨‹_›, he⟩
  refine ⟨fun j => ?_, fun j e v he hv => ?_, fun j k e e' he he' => ?_, ?_, h.current, fun f hf => ?_, fun k hk hk' => ?_,
    fun k hk => ?_⟩
  · rw [hindex, lookup_remove, lookup_remove]
    split
    · simp
    · exact h.keys j
  · obtain ⟨hj, he⟩ := hlookup j e he
    rw [lookup_remove, if_neg hj] at hv
    obtain ⟨hlies, hbefore⟩ := h.lies j e v he hv
    have hij : i ≤ j := hmin (j, v) (mem_of_lookup hv)
    obtain ⟨f, hf, hat⟩ := hlies.lies
    refine ⟨⟨hlies.storable, ⟨f, ?_, hat⟩, hlies.checksum⟩, hbefore⟩
    rw [hfiles e.fileID fun e' he' => h.ordered i j e' e he' he hij, hf]
  · exact h.ordered j k e e' (hlookup j e he).2 (hlookup k e' he').2
  · rcases h.newest with ⟨-, hzero, -⟩ | ⟨e, v, hnew⟩
    · omega
    · refine .inr ⟨e, v, ?_, ?_, fun j e' he' => hnew.max j e' (hlookup j e' he').2, hnew.fileID, hnew.offset⟩
      · rw [hindex, lookup_remove, if_neg hnow.ne', hnew.index]
      · rw [lookup_remove, if_neg hnow.ne', hnew.value]
  · exact h.data f (hfe fe le_rfl ▸ hf)
  · rw [hfe k hk]
    exact h.exist k hk hk'
  · rw [hfe k (h.current.trans hk.le)]
    exact h.missing k hk

/-- **A scan.** What it cuts off lies behind the data. -/
theorem scanned (h : Layout P d values now fe oe last) {d' : Disk} (hindex : ∀ i, d'.index.lookup i = d.index.lookup i)
    (hfiles : ∀ k, d'.files.lookup k = d.files.lookup k ∨ fe ≤ k ∧ ∃ f, d.files.lookup k = some f ∧
      d'.files.lookup k = some (f.take (if k = fe then oe else 0))) : Layout P d' values now fe oe last := by
  refine ⟨fun i => by rw [hindex]; exact h.keys i, fun i e v he hv => ?_, fun i j e e' he he' => ?_, ?_, h.current,
    fun f hf => ?_, fun k hk hk' => ?_, fun k hk => ?_⟩
  · rw [hindex] at he
    obtain ⟨hlies, hbefore⟩ := h.lies i e v he hv
    obtain ⟨f, hf, hat⟩ := hlies.lies
    rcases hfiles e.fileID with hsame | ⟨hle, g, hg, hcut⟩
    · exact ⟨⟨hlies.storable, ⟨f, hsame.trans hf, hat⟩, hlies.checksum⟩, hbefore⟩
    · rw [hf] at hg
      cases hg
      rcases hbefore with hlt | ⟨heq, hend⟩
      · omega
      · rw [if_pos heq] at hcut
        refine ⟨⟨hlies.storable, ⟨_, hcut, hat.truncate ?_⟩, hlies.checksum⟩, .inr ⟨heq, hend⟩⟩
        rw [record_length]
        omega
  · exact h.ordered i j e e' (hindex i ▸ he) (hindex j ▸ he')
  · rcases h.newest with ⟨hnone, hzero⟩ | ⟨e, v, hnew⟩
    · exact .inl ⟨fun i => (hindex i).trans (hnone i), hzero⟩
    · exact .inr ⟨e, v, (hindex now).trans hnew.index, hnew.value, fun i e' he' => hnew.max i e' (hindex i ▸ he'), hnew.fileID,
        hnew.offset⟩
  · rcases hfiles fe with hsame | ⟨-, g, hg, hcut⟩
    · exact h.data f (hsame ▸ hf)
    · rw [hcut, if_pos rfl] at hf
      cases hf
      have hle := h.data g hg
      rw [List.length_take]
      omega
  · rcases hfiles k with hsame | ⟨-, g, -, hcut⟩
    · rw [hsame]
      exact h.exist k hk hk'
    · exact ⟨_, hcut⟩
  · rcases hfiles k with hsame | ⟨-, g, hg, -⟩
    · rw [hsame]
      exact h.missing k hk
    · rw [h.missing k hk] at hg
      cases hg

end Layout

end PhxPaxos
