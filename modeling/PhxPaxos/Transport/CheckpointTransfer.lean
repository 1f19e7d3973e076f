import PhxPaxos.Model.CheckpointTransfer
import PhxPaxos.Storage.FilePath

/-!
# Checkpoint transfers

Whatever is lost, repeated or late, of however many transfers, the receiver has written a prefix of the blocks of the transfer it
is at (`Sound.received`), each where the one before ended (`writeBlocks`). So when the last message finds it finished, every file
that is not empty is there with all of its bytes, where files keep their places (`KeepsPlace`), and nothing else is but what
could not be cleared before (`Reachable.loaded_complete`).
-/

namespace PhxPaxos

open Paths

/-! ## Writing blocks -/

/-- Where a file belongs: what its path in the temporary directory denotes. -/
def checkpointPlace (cwd : Location) (logStoragePath : Path) (smid : Int) (filePath : Path) : Location :=
  locate cwd (checkpointFilePath (getTmpDirPath logStoragePath smid) filePath)

/-- Where the receiver puts a file. -/
def filePlace (cwd : Location) (logStoragePath : Path) (smid : Int) (filePath : Path) : Location :=
  let names := components (checkpointFilePath (getTmpDirPath logStoragePath smid) filePath)
  walk (formatStart cwd names) names

theorem getTmpDirPath_ne_nil (logStoragePath : Path) (smid : Int) : getTmpDirPath logStoragePath smid ≠ [] := by
  unfold getTmpDirPath
  rw [Ne, List.take_eq_nil_iff, List.append_eq_nil_iff, List.append_eq_nil_iff]
  rintro (hzero | ⟨⟨-, hname⟩, -⟩)
  · cases hzero
  · cases hname

/-- With a path that keeps its place a file is put where it belongs, in the temporary directory. -/
theorem filePlace_eq {logStoragePath : Path} {smid : Int} {filePath : Path}
    (h : KeepsPlace (getTmpDirPath logStoragePath smid) filePath) (cwd : Location) :
    filePlace cwd logStoragePath smid filePath = checkpointPlace cwd logStoragePath smid filePath ∧
      Ancestor (locate cwd (getTmpDirPath logStoragePath smid)) (checkpointPlace cwd logStoragePath smid filePath) := by
  refine ⟨?_, (h.straight (getTmpDirPath_ne_nil logStoragePath smid) cwd).1⟩
  unfold filePlace checkpointPlace locate
  dsimp only
  rw [h.guessed.formatStart_eq cwd]

section Write

variable {place : Int → Path → Location} {files files' : Location → Option Files.Content}

/-- Append a block where the file ends there. -/
def writeBlock (place : Int → Path → Location) (files : Location → Option Files.Content) (b : FileBlock) :
    Option (Location → Option Files.Content) :=
  let l := place b.smid b.filePath
  let content := (files l).getD []
  if content.length = b.offset then some (Function.update files l (some (content ++ b.buffer))) else none

def writeBlocks (place : Int → Path → Location) (files : Location → Option Files.Content) (bs : List FileBlock) :
    Option (Location → Option Files.Content) := bs.foldlM (writeBlock place) files

theorem writeBlocks_append (bs cs : List FileBlock) :
    writeBlocks place files (bs ++ cs) = (writeBlocks place files bs).bind fun f => writeBlocks place f cs :=
  List.foldlM_append

theorem writeBlock_eq_some {b : FileBlock} (h : writeBlock place files b = some files') :
    ((files (place b.smid b.filePath)).getD []).length = b.offset ∧
      files' = Function.update files (place b.smid b.filePath)
        (some ((files (place b.smid b.filePath)).getD [] ++ b.buffer)) := by
  unfold writeBlock at h
  dsimp only at h
  split at h
  case isTrue hlen => exact ⟨hlen, (Option.some.inj h).symm⟩
  case isFalse => cases h

theorem writeBlocks_cons {b : FileBlock} {bs : List FileBlock} (h : writeBlocks place files (b :: bs) = some files') :
    ∃ f, writeBlock place files b = some f ∧ writeBlocks place f bs = some files' := by
  unfold writeBlocks at h
  rw [List.foldlM_cons] at h
  exact Option.bind_eq_some_iff.mp h

theorem writeBlocks_nil (h : writeBlocks place files [] = some files') : files' = files := (Option.some.inj h).symm

/-- The pieces that are read are written one behind the other. -/
theorem writeBlocks_readLoop (smid : Int) (cpid : Nat) (filePath : Path) {size : Nat} (hsize : size ≠ 0) {offset : Nat}
    {rest : Files.Content} (hrest : rest ≠ [])
    (h : writeBlocks place files ((readLoop size offset rest).map fun b => ⟨smid, cpid, filePath, b.1, b.2⟩) = some files') :
    ((files (place smid filePath)).getD []).length = offset ∧
      files' = Function.update files (place smid filePath) (some ((files (place smid filePath)).getD [] ++ rest)) := by
  induction offset, rest using readLoop.induct size generalizing files with
  | case1 offset rest hnil => exact absurd (hnil.resolve_right hsize) hrest
  | case2 offset rest hnil hlt =>
    rw [readLoop, if_neg hnil, if_pos hlt] at h
    obtain ⟨f, hf, hnext⟩ := writeBlocks_cons h
    obtain rfl := writeBlocks_nil hnext
    exact writeBlock_eq_some hf
  | case3 offset rest hnil hlt ih =>
    rw [readLoop, if_neg hnil, if_neg hlt] at h
    obtain ⟨f, hf, hnext⟩ := writeBlocks_cons h
    obtain ⟨hlen, rfl⟩ := writeBlock_eq_some hf
    refine ⟨hlen, ?_⟩
    by_cases hdrop : rest.drop size = []
    · -- the buffer was full, and the file is at its end
      rw [hdrop, readLoop, if_pos (Or.inl rfl)] at hnext
      rw [writeBlocks_nil hnext, List.take_of_length_le (List.drop_eq_nil_iff.mp hdrop)]
    · obtain ⟨-, hfiles⟩ := ih hdrop hnext
      rw [hfiles, Function.update_self, Option.getD_some, Function.update_idem, List.append_assoc, List.take_append_drop]

/-- A file is written where there is nothing, and whole. -/
theorem SentFile.writeBlocks {f : SentFile} (h : PhxPaxos.writeBlocks place files f.blocks = some files') :
    f.content = [] ∧ files' = files ∨ f.content ≠ [] ∧ (files (place f.smid f.filePath)).getD [] = [] ∧
      files' = Function.update files (place f.smid f.filePath) (some f.content) := by
  unfold SentFile.blocks at h
  by_cases hcontent : f.content = []
  · rw [hcontent, readLoop, if_pos (Or.inl rfl)] at h
    exact Or.inl ⟨hcontent, writeBlocks_nil h⟩
  · obtain ⟨hlen, hfiles⟩ :=
      writeBlocks_readLoop f.smid f.checkpointInstanceID f.filePath (by decide : tmpBufferSize ≠ 0) hcontent h
    have hnil := List.eq_nil_of_length_eq_zero hlen
    rw [hnil, List.nil_append] at hfiles
    exact Or.inr ⟨hcontent, hnil, hfiles⟩

theorem writeFiles_cons {f : SentFile} {fs : List SentFile}
    (h : writeBlocks place files ((f :: fs).flatMap SentFile.blocks) = some files') :
    ∃ g, writeBlocks place files f.blocks = some g ∧ writeBlocks place g (fs.flatMap SentFile.blocks) = some files' := by
  rw [List.flatMap_cons, writeBlocks_append] at h
  exact Option.bind_eq_some_iff.mp h

/-- No file is written over one that is there. -/
theorem writeFiles_kept {fs : List SentFile} (h : writeBlocks place files (fs.flatMap SentFile.blocks) = some files') {l : Location}
    {c : Files.Content} (hl : files l = some c) (hc : c ≠ []) : files' l = some c := by
  induction fs generalizing files with
  | nil => rwa [writeBlocks_nil h]
  | cons f fs ih =>
    obtain ⟨g, hg, hrest⟩ := writeFiles_cons h
    refine ih hrest ?_
    rcases SentFile.writeBlocks hg with ⟨-, rfl⟩ | ⟨-, hnil, rfl⟩
    · exact hl
    · have hne : l ≠ place f.smid f.filePath := by
        rintro rfl
        rw [hl] at hnil
        exact hc hnil
      rwa [Function.update_of_ne hne]

/-- All files are written, and no others. -/
theorem writeFiles_spec {fs : List SentFile} (h : writeBlocks place files (fs.flatMap SentFile.blocks) = some files') :
    (∀ f ∈ fs, f.content ≠ [] → files' (place f.smid f.filePath) = some f.content) ∧
      ∀ l, files' l ≠ files l → ∃ f ∈ fs, f.content ≠ [] ∧ place f.smid f.filePath = l := by
  induction fs generalizing files with
  | nil =>
    refine ⟨fun f hf => absurd hf List.not_mem_nil, fun l hl => ?_⟩
    rw [writeBlocks_nil h] at hl
    exact absurd rfl hl
  | cons f fs ih =>
    obtain ⟨g, hg, hrest⟩ := writeFiles_cons h
    obtain ⟨hall, honly⟩ := ih hrest
    constructor
    · intro f' hf' hcontent
      rcases List.mem_cons.mp hf' with rfl | hf'
      · rcases SentFile.writeBlocks hg with ⟨hnil, -⟩ | ⟨-, -, rfl⟩
        · exact absurd hnil hcontent
        · exact writeFiles_kept hrest (Function.update_self ..) hcontent
      · exact hall f' hf' hcontent
    · intro l hl
      by_cases hgl : files' l = g l
      · rcases SentFile.writeBlocks hg with ⟨-, rfl⟩ | ⟨hcontent, -, rfl⟩
        · exact absurd hgl hl
        · refine ⟨f, List.mem_cons_self, hcontent, ?_⟩
          by_contra hne
          rw [Function.update_of_ne (Ne.symm hne)] at hgl
          exact hl hgl
      · obtain ⟨f', hf', hcontent, hplace⟩ := honly l hgl
        exact ⟨f', List.mem_cons_of_mem f hf', hcontent, hplace⟩

end Write

/-! ## The files that are sent -/

section Listed

variable {openFile : Path → Option Files.Content} {sm : SMCheckpoint} {sms : List SMCheckpoint} {files : List SentFile}
  {already already' : List Path} {path : Path}

/-- The directory of a state machine with a slash at its end. -/
def slashedDir (dirPath : Path) : Path := if dirPath.getLast? = some '/' then dirPath else dirPath ++ ['/']

/-- The state machine lists the file `filePath` of its directory, which is `path`. -/
def SMCheckpoint.Lists (sm : SMCheckpoint) (path filePath : Path) : Prop :=
  ∃ dirPath fileList, sm.checkpointState = some (dirPath, fileList) ∧ dirPath ≠ [] ∧ filePath ∈ fileList ∧
    path = slashedDir dirPath ++ filePath

/-- The file is sent for one of the state machines that list it. -/
def SentFor (openFile : Path → Option Files.Content) (sms : List SMCheckpoint) (files : List SentFile) (path : Path) : Prop :=
  ∃ f ∈ files, ∃ sm ∈ sms, sm.Lists path f.filePath ∧ f.smid = sm.smid ∧ openFile path = some f.content

theorem SentFor.mono {sms' : List SMCheckpoint} {files' : List SentFile} (h : SentFor openFile sms files path)
    (hsms : sms ⊆ sms') (hfiles : files ⊆ files') : SentFor openFile sms' files' path := by
  obtain ⟨f, hf, sm, hsm, hlists⟩ := h
  exact ⟨f, hfiles hf, sm, hsms hsm, hlists⟩

/-- The paths of a list, all of them where it went through, are sent or were before. -/
theorem sendFileList_spec {dirPath : Path} {fileList : List Path} {ok : Bool}
    (h : sendFileList openFile sm dirPath fileList already = (files, ok, already')) :
    (ok = true → ∀ p ∈ fileList, dirPath ++ p ∈ already') ∧ already ⊆ already' ∧
      ∀ path ∈ already', path ∈ already ∨ ∃ f ∈ files, f.filePath ∈ fileList ∧ path = dirPath ++ f.filePath ∧
        f.smid = sm.smid ∧ openFile path = some f.content := by
  induction fileList generalizing files ok already already' with
  | nil =>
    obtain ⟨rfl, rfl, rfl⟩ := h
    exact ⟨fun _ p hp => absurd hp List.not_mem_nil, List.Subset.refl _, fun _ => Or.inl⟩
  | cons p fileList ih =>
    unfold sendFileList sendFile at h
    dsimp only at h
    by_cases hmem : dirPath ++ p ∈ already
    · -- the path was sent before
      rw [if_pos (List.contains_iff_mem.mpr hmem)] at h
      dsimp only at h
      generalize hrest : sendFileList openFile sm dirPath fileList already = rest at h
      obtain ⟨files₁, ok₁, already₁⟩ := rest
      obtain ⟨rfl, rfl, rfl⟩ := h
      obtain ⟨hall, hsub, hfrom⟩ := ih hrest
      refine ⟨fun hok q hq => ?_, hsub, fun q hq => ?_⟩
      · rcases List.mem_cons.mp hq with rfl | hq
        · exact hsub hmem
        · exact hall hok q hq
      · refine (hfrom q hq).imp_right ?_
        rintro ⟨f, hf, hlist, hsent⟩
        exact ⟨f, hf, List.mem_cons_of_mem p hlist, hsent⟩
    · rw [if_neg (mt List.contains_iff_mem.mp hmem)] at h
      cases hopen : openFile (dirPath ++ p) with
      | none =>
        rw [hopen, Option.map_none] at h
        obtain ⟨rfl, rfl, rfl⟩ := h
        exact ⟨fun hok => absurd hok Bool.false_ne_true, List.Subset.refl _, fun _ => Or.inl⟩
      | some content =>
        rw [hopen, Option.map_some] at h
        dsimp only at h
        generalize hrest : sendFileList openFile sm dirPath fileList ((dirPath ++ p) :: already) = rest at h
        obtain ⟨files₁, ok₁, already₁⟩ := rest
        obtain ⟨rfl, rfl, rfl⟩ := h
        obtain ⟨hall, hsub, hfrom⟩ := ih hrest
        refine ⟨fun hok q hq => ?_, fun q hq => hsub (List.mem_cons_of_mem _ hq), fun q hq => ?_⟩
        · rcases List.mem_cons.mp hq with rfl | hq
          · exact hsub List.mem_cons_self
          · exact hall hok q hq
        · rcases hfrom q hq with hq | ⟨f, hf, hlist, hsent⟩
          · rcases List.mem_cons.mp hq with rfl | hq
            · exact Or.inr ⟨_, List.mem_cons_self, List.mem_cons_self, rfl, rfl, hopen⟩
            · exact Or.inl hq
          · exact Or.inr ⟨f, List.mem_cons_of_mem _ hf, List.mem_cons_of_mem p hlist, hsent⟩

theorem sendCheckpointFofaSM_spec {ok : Bool} (h : sendCheckpointFofaSM openFile sm already = (files, ok, already')) :
    (ok = true → ∀ path p, sm.Lists path p → path ∈ already') ∧
      ∀ path ∈ already', path ∈ already ∨ SentFor openFile [sm] files path := by
  unfold sendCheckpointFofaSM at h
  cases hstate : sm.checkpointState with
  | none =>
    rw [hstate] at h
    obtain ⟨rfl, rfl, rfl⟩ := h
    exact ⟨fun hok => absurd hok Bool.false_ne_true, fun _ => Or.inl⟩
  | some state =>
    obtain ⟨dirPath, fileList⟩ := state
    rw [hstate] at h
    dsimp only at h
    split at h
    case isTrue hdir =>
      obtain ⟨rfl, rfl, rfl⟩ := h
      refine ⟨fun _ path p hlists => ?_, fun _ => Or.inl⟩
      obtain ⟨dirPath', fileList', hstate', hdir', -⟩ := hlists
      cases hstate.symm.trans hstate'
      exact absurd hdir hdir'
    case isFalse hdir =>
      obtain ⟨hall, -, hfrom⟩ := sendFileList_spec h
      refine ⟨fun hok path p hlists => ?_, fun path hpath => (hfrom path hpath).imp_right ?_⟩
      · obtain ⟨dirPath', fileList', hstate', -, hp, rfl⟩ := hlists
        cases hstate.symm.trans hstate'
        exact hall hok p hp
      · rintro ⟨f, hf, hlist, rfl, hsmid, hopen⟩
        exact ⟨f, hf, sm, List.mem_singleton_self sm, ⟨dirPath, fileList, hstate, hdir, hlist, rfl⟩, hsmid, hopen⟩

/-- Every file that is listed is sent, under the name of one of those that list it. -/
theorem sendCheckpointFiles_spec (h : (sendCheckpointFiles openFile sms already).2 = true) {p : Path} (hsm : sm ∈ sms)
    (hlists : sm.Lists path p) : path ∈ already ∨ SentFor openFile sms (sendCheckpointFiles openFile sms already).1 path := by
  induction sms generalizing already with
  | nil => exact absurd hsm List.not_mem_nil
  | cons sm₀ sms ih =>
    unfold sendCheckpointFiles at h ⊢
    generalize hfirst : sendCheckpointFofaSM openFile sm₀ already = first at h ⊢
    obtain ⟨files₁, ok, already₁⟩ := first
    obtain ⟨hall, hfrom⟩ := sendCheckpointFofaSM_spec hfirst
    cases ok with
    | false => exact absurd h Bool.false_ne_true
    | true =>
      have hold (hpath : path ∈ already₁) :
          path ∈ already ∨ SentFor openFile (sm₀ :: sms) (files₁ ++ (sendCheckpointFiles openFile sms already₁).1) path :=
        (hfrom path hpath).imp_right fun hsent => hsent.mono (by simp) (List.subset_append_left _ _)
      rcases List.mem_cons.mp hsm with rfl | hsm
      · exact hold (hall rfl path p hlists)
      · rcases ih h hsm with hpath | hsent
        · exact hold hpath
        · exact Or.inr (hsent.mono (List.subset_cons_self _ _) (List.subset_append_right _ _))

end Listed

/-! ## Receiving a block -/

theorem formatLoop_ids {ns : List Name} : ∀ {fmt : Path} {r : FileReceiver} {fs : FileSystem},
    (formatLoop r fs fmt ns).2.2.1.senderNodeID = r.senderNodeID ∧ (formatLoop r fs fmt ns).2.2.1.uuid = r.uuid ∧
      (formatLoop r fs fmt ns).2.2.1.sequence = r.sequence := by
  induction ns with
  | nil => exact ⟨rfl, rfl, rfl⟩
  | cons n ns ih =>
    intro fmt r fs
    cases ns with
    | nil => exact ⟨rfl, rfl, rfl⟩
    | cons m ms =>
      unfold formatLoop
      dsimp only
      split
      · exact ih
      · split
        · exact ⟨rfl, rfl, rfl⟩
        · exact ih

theorem initFilePath_ids (r : FileReceiver) (fs : FileSystem) (p : Path) :
    (initFilePath r fs p).2.2.1.senderNodeID = r.senderNodeID ∧ (initFilePath r fs p).2.2.1.uuid = r.uuid ∧
      (initFilePath r fs p).2.2.1.sequence = r.sequence := formatLoop_ids

/-- A message that is taken is the one before again, or the next one, whose block is appended where the file ends. -/
theorem receiveFile_ok {logStoragePath : Path} {msg : FileMsg} {r r' : FileReceiver} {fs fs' : FileSystem} (hr : r.Recorded fs)
    (h : receiveFile logStoragePath msg r fs = (0, r', fs')) :
    msg.nodeID = r.senderNodeID ∧ msg.uuid = r.uuid ∧ r'.senderNodeID = r.senderNodeID ∧ r'.uuid = r.uuid ∧
      r'.Recorded fs' ∧ fs'.cwd = fs.cwd ∧
      (r'.sequence = r.sequence ∧ fs'.files = fs.files ∨
        msg.sequence = r.sequence + 1 ∧ r'.sequence = r.sequence + 1 ∧ ∀ cpid,
          writeBlock (filePlace fs.cwd logStoragePath) fs.files ⟨msg.smid, cpid, msg.filePath, msg.offset, msg.buffer⟩ =
            some fs'.files) := by
  unfold receiveFile at h
  generalize hinit :
    initFilePath r fs (checkpointFilePath (getTmpDirPath logStoragePath msg.smid) msg.filePath) = x at h
  obtain ⟨ret, fmt, r₁, fs₁⟩ := x
  dsimp only at h
  split at h
  · cases congrArg Prod.fst h
  case isFalse hids =>
    rw [not_or, not_not, not_not] at hids
    obtain ⟨hnode, huuid⟩ := hids
    split at h
    case isTrue =>
      obtain ⟨-, rfl, rfl⟩ := h
      exact ⟨hnode, huuid, rfl, rfl, hr, rfl, Or.inl ⟨rfl, rfl⟩⟩
    case isFalse =>
      split at h
      · cases congrArg Prod.fst h
      case isFalse hsequence =>
        split at h
        · cases congrArg Prod.fst h
        case isFalse hret =>
          rw [not_not] at hret
          subst hret
          have hids : r₁.senderNodeID = r.senderNodeID ∧ r₁.uuid = r.uuid ∧ r₁.sequence = r.sequence := by
            have hsame := initFilePath_ids r fs (checkpointFilePath (getTmpDirPath logStoragePath msg.smid) msg.filePath)
            rwa [hinit] at hsame
          obtain ⟨hplace, hrecorded, hgrown⟩ := initFilePath_spec hr hinit
          have hl : locate fs₁.cwd fmt = filePlace fs.cwd logStoragePath msg.smid msg.filePath := by rw [hgrown.cwd, hplace]; rfl
          rw [hl, hgrown.files] at h
          split at h
          · cases congrArg Prod.fst h
          · split at h
            · cases congrArg Prod.fst h
            case isFalse hlen =>
              rw [not_not] at hlen
              split at h
              · cases congrArg Prod.fst h
              · obtain ⟨-, rfl, rfl⟩ := h
                refine ⟨hnode, huuid, hids.1, hids.2.1, hrecorded, hgrown.cwd, Or.inr ⟨not_not.mp hsequence, ?_, fun cpid => ?_⟩⟩
                · rw [hids.2.2]
                · exact if_pos hlen

/-! ## Every run -/

namespace TransferSystem

variable {τ : Type*} {cwd : Location} {logStoragePath : Path} {transfer : τ → Transfer} {s : TransferSystem τ}

/-- The message is one of the transfer: the block that its number says, or the last one behind all blocks. -/
def Of (t : Transfer) : TransferMsg → Prop
  | .begin nodeID uuid _ => nodeID = t.nodeID ∧ uuid = t.uuid
  | .ing msg => ∃ k b, t.blocks[k]? = some b ∧ msg = t.msg (k + 1) b
  | .end nodeID uuid sequence => nodeID = t.nodeID ∧ uuid = t.uuid ∧ sequence = t.blocks.length + 1 ∧ t.complete = true

/-- A sender has sent the blocks with the numbers up to its own, no more than a lead ahead of what was acknowledged. -/
structure SenderOk (t : Transfer) (s : FileSender) : Prop where
  before : s.begins < 2 → s.sequence = 0 ∧ s.rest = t.blocks
  after : 2 ≤ s.begins → 1 ≤ s.sequence ∧ s.sequence ≤ t.blocks.length + 1 ∧ s.rest = t.blocks.drop (s.sequence - 1)
  lead : s.sequence ≤ s.ackSequence + checkpointAckLead + 1

/-- The files are what the first `k` blocks make of files that none were below the temporary directories, but for what was
left there. -/
def Received (cwd : Location) (logStoragePath : Path) (left : Location → Bool) (t : Transfer) (k : Nat)
    (files : Location → Option Files.Content) : Prop :=
  k ≤ t.blocks.length ∧ ∃ files₀,
    (∀ l, inTmp (locate cwd logStoragePath) l = true → left l = false → files₀ l = none) ∧
    writeBlocks (filePlace cwd logStoragePath) files₀ (t.blocks.take k) = some files

/-- The files of the transfer are there, and below the temporary directories no others, but for what was left there. -/
structure Complete (cwd : Location) (logStoragePath : Path) (left : Location → Bool) (t : Transfer)
    (files : Location → Option Files.Content) : Prop where
  complete : t.complete = true
  sent : ∀ f ∈ t.files, f.content ≠ [] → files (filePlace cwd logStoragePath f.smid f.filePath) = some f.content
  only : ∀ l, inTmp (locate cwd logStoragePath) l = true → left l = false → files l ≠ none →
    ∃ f ∈ t.files, filePlace cwd logStoragePath f.smid f.filePath = l

structure Sound (cwd : Location) (logStoragePath : Path) (transfer : τ → Transfer) (s : TransferSystem τ) : Prop where
  cwd_eq : s.fs.cwd = cwd
  recorded : s.receiver.Recorded s.fs
  senders : ∀ t, SenderOk (transfer t) (s.senders t)
  msgs : ∀ m ∈ s.msgs, ∃ t, Of (transfer t) m
  received : ∀ t, (transfer t).nodeID = s.receiver.senderNodeID → (transfer t).uuid = s.receiver.uuid →
    Received cwd logStoragePath s.left (transfer t) s.receiver.sequence s.fs.files
  loaded : ∀ x ∈ s.loaded, ∃ t, (transfer t).nodeID = x.nodeID ∧ (transfer t).uuid = x.uuid ∧
    Complete cwd logStoragePath x.left (transfer t) x.files

/-- All blocks make all files. -/
theorem Received.complete {left : Location → Bool} {t : Transfer} {files : Location → Option Files.Content}
    (h : Received cwd logStoragePath left t t.blocks.length files) (hcomplete : t.complete = true) :
    Complete cwd logStoragePath left t files := by
  obtain ⟨-, files₀, hnone, hwrite⟩ := h
  rw [List.take_length] at hwrite
  obtain ⟨hsent, honly⟩ := writeFiles_spec hwrite
  refine ⟨hcomplete, hsent, fun l hl hleft hfile => ?_⟩
  obtain ⟨f, hf, -, hplace⟩ := honly l fun heq => hfile (heq.trans (hnone l hl hleft))
  exact ⟨f, hf, hplace⟩

/-- The next block. -/
theorem Received.next {left : Location → Bool} {t : Transfer} {k : Nat} {files files' : Location → Option Files.Content}
    {b : FileBlock} (h : Received cwd logStoragePath left t k files) (hb : t.blocks[k]? = some b)
    (hwrite : writeBlock (filePlace cwd logStoragePath) files b = some files') :
    Received cwd logStoragePath left t (k + 1) files' := by
  obtain ⟨-, files₀, hnone, hprefix⟩ := h
  refine ⟨(List.getElem?_eq_some_iff.mp hb).1, files₀, hnone, ?_⟩
  rw [List.take_add_one, hb, Option.toList_some, writeBlocks_append, hprefix, Option.bind_some]
  simp [writeBlocks, hwrite]

theorem senderOk_start (t : Transfer) : SenderOk t { rest := t.blocks } where
  before _ := ⟨rfl, rfl⟩
  after h := absurd h (show ¬ 2 ≤ 0 from by decide)
  lead := Nat.zero_le _

/-- What a round of the thread sends is the next message of its transfer. -/
theorem SenderOk.send {t : Transfer} {s : FileSender} (h : SenderOk t s) (now : Nat) (sent : Bool) :
    SenderOk t (s.send t now sent).1 ∧ ∀ m ∈ (s.send t now sent).2, Of t m := by
  have hended : SenderOk t { s with isEnded := true } ∧ ∀ m ∈ (none : Option TransferMsg), Of t m :=
    ⟨⟨h.before, h.after, h.lead⟩, fun m hm => absurd hm (Option.not_mem_none m)⟩
  have hstay : SenderOk t s ∧ ∀ m ∈ (none : Option TransferMsg), Of t m :=
    ⟨h, fun m hm => absurd hm (Option.not_mem_none m)⟩
  unfold FileSender.send
  split
  · exact hstay
  split
  case isTrue hbegins =>
    obtain ⟨hsequence, hrest⟩ := h.before hbegins
    split
    · exact hended
    · refine ⟨⟨fun hlt => ?_, fun hge => ?_, ?_⟩, fun m hm => ?_⟩
      · dsimp only at hlt ⊢
        rw [if_neg (by omega)]
        exact ⟨hsequence, hrest⟩
      · dsimp only at hge ⊢
        rw [if_pos (by omega), hsequence, hrest]
        exact ⟨le_rfl, Nat.le_add_left 1 _, rfl⟩
      · dsimp only
        split <;> omega
      · cases hm
        exact ⟨rfl, rfl⟩
  case isFalse hbegins =>
    obtain ⟨hpos, hle, hrest⟩ := h.after (Nat.not_lt.mp hbegins)
    split
    case h_1 hnil =>
      split
      case isTrue hend =>
        refine ⟨hended.1, fun m hm => ?_⟩
        cases hm
        rw [Bool.and_eq_true] at hend
        rw [hnil] at hrest
        have hdone := List.drop_eq_nil_iff.mp hrest.symm
        exact ⟨rfl, rfl, by omega, hend.1⟩
      case isFalse => exact hended
    case h_2 b rest hcons =>
      split
      · exact hended
      split
      · split
        · exact hended
        · exact hstay
      case isFalse hlead =>
        split
        · exact hstay
        · have hb : t.blocks[s.sequence - 1]? = some b := by
            rw [← List.head?_drop, ← hrest, hcons, List.head?_cons]
          have hlt := (List.getElem?_eq_some_iff.mp hb).1
          refine ⟨⟨fun hlt => absurd hlt hbegins, fun _ => ⟨?_, ?_, ?_⟩, ?_⟩, fun m hm => ?_⟩
          · exact Nat.succ_pos _
          · dsimp only
            omega
          · dsimp only
            rw [Nat.add_sub_cancel, show s.sequence = s.sequence - 1 + 1 by omega, ← List.tail_drop, ← hrest, hcons, List.tail_cons]
          · dsimp only
            omega
          · cases hm
            exact ⟨s.sequence - 1, b, hb, by rw [Nat.sub_add_cancel hpos]⟩

theorem SenderOk.onAck {t : Transfer} {s : FileSender} (h : SenderOk t s) (now : Nat) (ack : TransferAck) :
    SenderOk t (s.onAck t now ack) := by
  unfold FileSender.onAck
  split
  · exact h
  split
  · exact ⟨h.before, h.after, h.lead⟩
  split
  · exact h
  split
  · exact h
  · exact ⟨h.before, h.after, h.lead.trans (by dsimp only; omega)⟩

/-- The receiver is reset: it is at no transfer. -/
theorem Sound.reset (h : Sound cwd logStoragePath transfer s) (hnode : ∀ t, (transfer t).nodeID ≠ nullnode) (fs : FileSystem)
    (hcwd : fs.cwd = s.fs.cwd) (left : Location → Bool) (acks : List TransferAck) :
    Sound cwd logStoragePath transfer { s with receiver := {}, fs := fs, left := left, acks := acks } where
  cwd_eq := hcwd.trans h.cwd_eq
  recorded _ hp := absurd hp List.not_mem_nil
  senders := h.senders
  msgs := h.msgs
  received t ht := absurd ht (hnode t)
  loaded := h.loaded

theorem clearCheckpointTmp_cwd (logStoragePath : Path) (io : ReceiveIO) (fs : FileSystem) :
    (clearCheckpointTmp logStoragePath io fs).2.cwd = fs.cwd := by
  unfold clearCheckpointTmp
  dsimp only
  split
  · rfl
  · cases io.clearFailed <;> rfl

/-- A file in one of two sets of directories. -/
theorem inDirs_of_or {p q r : Name → Bool} {base l : Location} (hor : ∀ n, p n = true → q n = true ∨ r n = true)
    (h : inDirs p base l = true) (hr : inDirs r base l = false) : inDirs q base l = true := by
  unfold inDirs belowDirs at h hr ⊢
  by_cases hbase : base <+: l
  · simp only [if_pos hbase] at h hr ⊢
    cases hdrop : l.drop base.length with
    | nil => simp [hdrop] at h
    | cons n ns =>
      simp only [hdrop] at h hr ⊢
      by_cases hp : p n = true
      · rw [if_pos hp] at h
        rcases hor n hp with hq | hrn
        · rwa [if_pos hq]
        · rw [if_pos hrn] at hr
          exact absurd h (Bool.eq_false_iff.mp hr)
      · rw [if_neg hp] at h
        cases h
  · simp [hbase] at h

/-- After it succeeded nothing is left of earlier transfers, where the directories could be opened. -/
theorem clearCheckpointTmp_ok {io : ReceiveIO} {fs fs' : FileSystem}
    (h : clearCheckpointTmp logStoragePath io fs = (0, fs')) {l : Location}
    (hl : inTmp (locate fs.cwd logStoragePath) l = true) (hleft : leftInTmp logStoragePath io fs.cwd l = false) :
    fs'.files l = none := by
  have hopened : inDirs (fun n => isTmpName n && io.mayOpenDir n) (locate fs.cwd logStoragePath) l = true := by
    refine inDirs_of_or (fun n hn => ?_) hl hleft
    cases hopen : io.mayOpenDir n <;> simp [hn]
  unfold clearCheckpointTmp at h
  dsimp only at h
  split at h
  · cases congrArg Prod.fst h
  · cases hfailed : io.clearFailed with
    | some removed =>
      rw [hfailed] at h
      cases congrArg Prod.fst h
    | none =>
      rw [hfailed] at h
      obtain ⟨-, rfl⟩ := h
      exact if_pos hopened

theorem receiveFile_cwd (logStoragePath : Path) (msg : FileMsg) (r : FileReceiver) (fs : FileSystem) :
    (receiveFile logStoragePath msg r fs).2.2.cwd = fs.cwd := by
  unfold receiveFile
  have hframe := (initFilePath_frame r fs (checkpointFilePath (getTmpDirPath logStoragePath msg.smid) msg.filePath)).2
  split
  · rfl
  split
  · rfl
  split
  · rfl
  dsimp only
  split
  · exact hframe
  split
  · exact hframe
  split
  · exact hframe
  split <;> exact hframe

theorem newFileReceiver_cwd (logStoragePath : Path) (io : ReceiveIO) (nodeID : NodeID) (uuid : Nat) (r : FileReceiver) (fs : FileSystem) :
    (newFileReceiver logStoragePath io nodeID uuid r fs).2.2.cwd = fs.cwd := by
  have hclear := clearCheckpointTmp_cwd logStoragePath io fs
  unfold newFileReceiver
  dsimp only
  split
  · exact hclear
  · split <;> exact hclear

theorem newFileReceiver_ok {io : ReceiveIO} {nodeID : NodeID} {uuid : Nat} {r r' : FileReceiver} {fs fs' : FileSystem}
    (h : newFileReceiver logStoragePath io nodeID uuid r fs = (0, r', fs')) :
    r' = { senderNodeID := nodeID, uuid := uuid } ∧
      ∀ l, inTmp (locate fs.cwd logStoragePath) l = true → leftInTmp logStoragePath io fs.cwd l = false →
        fs'.files l = none := by
  unfold newFileReceiver at h
  generalize hclear : clearCheckpointTmp logStoragePath io fs = x at h
  obtain ⟨ret, fs₁⟩ := x
  dsimp only at h
  split at h
  case isTrue hret => exact absurd (congrArg Prod.fst h) hret
  case isFalse hret =>
    split at h
    · cases congrArg Prod.fst h
    · obtain ⟨-, rfl, rfl⟩ := h
      rw [not_not.mp hret] at hclear
      exact ⟨rfl, fun l => clearCheckpointTmp_ok hclear⟩

theorem onSendCheckpointFile_cwd (logStoragePath : Path) (io : ReceiveIO) (msg : TransferMsg) (r : FileReceiver) (fs : FileSystem) :
    (onSendCheckpointFile logStoragePath io msg r fs).2.2.cwd = fs.cwd := by
  cases msg with
  | begin nodeID uuid sequence =>
    have hnew := newFileReceiver_cwd logStoragePath io nodeID uuid r fs
    unfold onSendCheckpointFile
    dsimp only
    split
    · exact hnew
    · split <;> exact hnew
  | ing msg => exact receiveFile_cwd logStoragePath msg r fs
  | «end» nodeID uuid sequence => rfl

/-- The first message of a transfer, or the next one. -/
theorem Sound.onSendCheckpointFile (h : Sound cwd logStoragePath transfer s)
    (hunique : ∀ t t', (transfer t).nodeID = (transfer t').nodeID → (transfer t).uuid = (transfer t').uuid → t = t')
    {io : ReceiveIO} {msg : TransferMsg} {t : τ} (hmsg : Of (transfer t) msg) (fs : FileSystem) {fs' : FileSystem} {r' : FileReceiver}
    (hcwd : fs.cwd = s.fs.cwd) (hfiles : fs.files = s.fs.files) (hrecorded : s.receiver.Recorded fs)
    (hok : PhxPaxos.onSendCheckpointFile logStoragePath io msg s.receiver fs = (0, r', fs')) (acks : List TransferAck) :
    Sound cwd logStoragePath transfer
      { s with
        receiver := r', fs := fs', acks := acks
        left := if msg.isBegin then leftInTmp logStoragePath io fs.cwd else s.left } := by
  have hcwd' : fs'.cwd = cwd := by
    have hsame := onSendCheckpointFile_cwd logStoragePath io msg s.receiver fs
    rw [hok] at hsame
    exact hsame.trans (hcwd.trans h.cwd_eq)
  cases msg with
  | begin nodeID uuid sequence =>
    unfold PhxPaxos.onSendCheckpointFile at hok
    dsimp only at hok
    generalize hnew : newFileReceiver logStoragePath io nodeID uuid s.receiver fs = x at hok
    obtain ⟨ret, r₁, fs₁⟩ := x
    dsimp only at hok
    split at hok
    case isTrue hret => exact absurd (congrArg Prod.fst hok) hret
    case isFalse hret =>
      split at hok
      · cases congrArg Prod.fst hok
      · obtain ⟨-, rfl, rfl⟩ := hok
        rw [not_not.mp hret] at hnew
        obtain ⟨rfl, hnone⟩ := newFileReceiver_ok hnew
        rw [hcwd, h.cwd_eq] at hnone ⊢
        exact ⟨hcwd', fun _ hp => absurd hp List.not_mem_nil, h.senders, h.msgs,
          fun t' _ _ => ⟨Nat.zero_le _, fs'.files, hnone, rfl⟩, h.loaded⟩
  | ing msg =>
    obtain ⟨hnodeID, huuid, hnodeID', huuid', hrecorded', -, hwrite⟩ := receiveFile_ok hrecorded hok
    refine ⟨hcwd', hrecorded', h.senders, h.msgs, fun t' ht' hu' => ?_, h.loaded⟩
    dsimp only at ht' hu' ⊢
    rw [hnodeID'] at ht'
    rw [huuid'] at hu'
    have hreceived := h.received t' ht' hu'
    rcases hwrite with ⟨hsequence, hsame⟩ | ⟨hnumber, hsequence, hblock⟩
    · rwa [hsequence, hsame, hfiles]
    · obtain ⟨k, b, hb, rfl⟩ := hmsg
      obtain rfl : t' = t := hunique t' t (ht'.trans hnodeID.symm) (hu'.trans huuid.symm)
      obtain rfl : k = s.receiver.sequence := Nat.succ.inj hnumber
      rw [hsequence]
      refine hreceived.next hb ?_
      have hwritten := hblock b.checkpointInstanceID
      rwa [hcwd, h.cwd_eq, hfiles] at hwritten
  | «end» nodeID uuid sequence => cases congrArg Prod.fst hok

/-- The last message ends the transfer that the receiver has all blocks of. -/
theorem Sound.deliver (h : Sound cwd logStoragePath transfer s)
    (hunique : ∀ t t', (transfer t).nodeID = (transfer t').nodeID → (transfer t).uuid = (transfer t').uuid → t = t')
    (hnode : ∀ t, (transfer t).nodeID ≠ nullnode) {msg : TransferMsg} (hmsg : msg ∈ s.msgs) (io : ReceiveIO) :
    Sound cwd logStoragePath transfer (s.deliver logStoragePath msg io) := by
  obtain ⟨t, ht⟩ := h.msgs msg hmsg
  have hfile : (∀ nodeID uuid sequence, msg ≠ .end nodeID uuid sequence) →
      Sound cwd logStoragePath transfer (s.deliver logStoragePath msg io) := by
    intro hne
    have hcwd := onSendCheckpointFile_cwd logStoragePath io msg s.receiver (s.fs.withIO io)
    have heq : s.deliver logStoragePath msg io =
        let left := if msg.isBegin then leftInTmp logStoragePath io (s.fs.withIO io).cwd else s.left
        let x := PhxPaxos.onSendCheckpointFile logStoragePath io msg s.receiver (s.fs.withIO io)
        if x.1 ≠ 0 then { s with receiver := {}, fs := x.2.2, left := left, acks := msg.ack false :: s.acks }
        else { s with receiver := x.2.1, fs := x.2.2, left := left, acks := msg.ack true :: s.acks } := by
      cases msg with
      | «end» nodeID uuid sequence => exact absurd rfl (hne nodeID uuid sequence)
      | _ => rfl
    rw [heq]
    generalize hok : PhxPaxos.onSendCheckpointFile logStoragePath io msg s.receiver (s.fs.withIO io) = x at hcwd ⊢
    obtain ⟨ret, r', fs'⟩ := x
    dsimp only at hcwd ⊢
    split
    · exact h.reset hnode fs' hcwd _ _
    case isFalse hret =>
      rw [not_not.mp hret] at hok
      exact h.onSendCheckpointFile hunique ht (s.fs.withIO io) rfl rfl h.recorded hok _
  cases msg with
  | begin nodeID uuid sequence => exact hfile fun _ _ _ heq => by cases heq
  | ing msg => exact hfile fun _ _ _ heq => by cases heq
  | «end» nodeID uuid sequence =>
    obtain ⟨hnodeID, huuid, hsequence, hcomplete⟩ := ht
    unfold TransferSystem.deliver
    dsimp only
    split
    case isTrue hfinish =>
      rw [FileReceiver.isReceiverFinish, Bool.and_eq_true, Bool.and_eq_true, decide_eq_true_eq, decide_eq_true_eq,
        decide_eq_true_eq] at hfinish
      obtain ⟨⟨hsender, huuid'⟩, hlast⟩ := hfinish
      have hreceived := h.received t (hnodeID.symm.trans hsender) (huuid.symm.trans huuid')
      rw [show s.receiver.sequence = (transfer t).blocks.length by omega] at hreceived
      have hreset := h.reset hnode s.fs rfl s.left (if io.loadCheckpointStateOk then s.acks else
        (TransferMsg.end nodeID uuid sequence).ack false :: s.acks)
      refine ⟨hreset.cwd_eq, hreset.recorded, hreset.senders, hreset.msgs, hreset.received, fun x hx => ?_⟩
      rcases List.mem_cons.mp hx with rfl | hx
      · exact ⟨t, hnodeID.symm, huuid.symm, hreceived.complete hcomplete⟩
      · exact h.loaded x hx
    case isFalse => exact h.reset hnode s.fs rfl s.left _

variable [DecidableEq τ]

omit [DecidableEq τ] in
theorem sound_start (fs : FileSystem) (hnode : ∀ t, (transfer t).nodeID ≠ nullnode) :
    Sound fs.cwd logStoragePath transfer (start transfer fs : TransferSystem τ) where
  cwd_eq := rfl
  recorded _ hp := absurd hp List.not_mem_nil
  senders t := senderOk_start (transfer t)
  msgs _ hm := absurd hm List.not_mem_nil
  received t ht := absurd ht (hnode t)
  loaded _ hx := absurd hx List.not_mem_nil

/-- One sender changes as a sender may. -/
theorem senders_update (h : Sound cwd logStoragePath transfer s) {t : τ} {sender : FileSender}
    (hsender : SenderOk (transfer t) sender) (t' : τ) : SenderOk (transfer t') (Function.update s.senders t sender t') := by
  by_cases ht : t' = t
  · subst ht
    rwa [Function.update_self]
  · rw [Function.update_of_ne ht]
    exact h.senders t'

theorem Sound.step (h : Sound cwd logStoragePath transfer s)
    (hunique : ∀ t t', (transfer t).nodeID = (transfer t').nodeID → (transfer t).uuid = (transfer t').uuid → t = t')
    (hnode : ∀ t, (transfer t).nodeID ≠ nullnode) (e : Event τ) :
    Sound cwd logStoragePath transfer (s.step logStoragePath transfer e) := by
  cases e with
  | send t now sent =>
    obtain ⟨hsender, hmsg⟩ := (h.senders t).send now sent
    refine ⟨h.cwd_eq, h.recorded, senders_update h hsender, fun m hm => ?_, h.received, h.loaded⟩
    rcases List.mem_append.mp hm with hm | hm
    · exact ⟨t, hmsg m (Option.mem_toList.mp hm)⟩
    · exact h.msgs m hm
  | ack t now i =>
    simp only [TransferSystem.step]
    split
    · exact h
    case h_2 ack _ =>
      exact ⟨h.cwd_eq, h.recorded, senders_update h ((h.senders t).onAck now ack), h.msgs, h.received, h.loaded⟩
  | deliver i io =>
    simp only [TransferSystem.step]
    split
    · exact h
    case h_2 msg hmsg => exact h.deliver hunique hnode (List.mem_of_getElem? hmsg) io
  | restart => exact h.reset hnode s.fs rfl s.left s.acks

theorem Reachable.sound (h : Reachable logStoragePath transfer s)
    (hunique : ∀ t t', (transfer t).nodeID = (transfer t').nodeID → (transfer t).uuid = (transfer t').uuid → t = t')
    (hnode : ∀ t, (transfer t).nodeID ≠ nullnode) : Sound s.fs.cwd logStoragePath transfer s := by
  have hsome : ∃ cwd, Sound cwd logStoragePath transfer s := by
    induction h with
    | start fs => exact ⟨fs.cwd, sound_start fs hnode⟩
    | step e _ ih =>
      obtain ⟨cwd, hsound⟩ := ih
      exact ⟨cwd, hsound.step hunique hnode e⟩
  obtain ⟨cwd, hsound⟩ := hsome
  rw [hsound.cwd_eq]
  exact hsound

/-- **A checkpoint that is loaded is complete**: where no two transfers have the same uuid of the same node, and the files
keep their places, every file that a state machine lists is in the temporary directory, of one of the state machines that
list it, with the bytes that were read, unless it is empty; and the temporary directories hold nothing else, but for those
that could not be opened when they were cleared. -/
theorem Reachable.loaded_complete (h : Reachable logStoragePath transfer s)
    (hunique : ∀ t t', (transfer t).nodeID = (transfer t').nodeID → (transfer t).uuid = (transfer t').uuid → t = t')
    (hnode : ∀ t, (transfer t).nodeID ≠ nullnode)
    (hkeeps : ∀ t, ∀ f ∈ (transfer t).files, KeepsPlace (getTmpDirPath logStoragePath f.smid) f.filePath)
    {x : Loaded} (hx : x ∈ s.loaded) :
    ∃ t, (transfer t).nodeID = x.nodeID ∧ (transfer t).uuid = x.uuid ∧
      (∀ sm ∈ (transfer t).smList, ∀ path p, sm.Lists path p → ∃ sm' ∈ (transfer t).smList, ∃ p' content,
        sm'.Lists path p' ∧ (transfer t).openFile path = some content ∧
          Ancestor (locate s.fs.cwd (getTmpDirPath logStoragePath sm'.smid))
            (checkpointPlace s.fs.cwd logStoragePath sm'.smid p') ∧
          (content ≠ [] → x.files (checkpointPlace s.fs.cwd logStoragePath sm'.smid p') = some content)) ∧
      ∀ l, inTmp (locate s.fs.cwd logStoragePath) l = true → x.left l = false → x.files l ≠ none →
        ∃ f ∈ (transfer t).files, checkpointPlace s.fs.cwd logStoragePath f.smid f.filePath = l := by
  obtain ⟨t, hnodeID, huuid, hcomplete⟩ := (h.sound hunique hnode).loaded x hx
  refine ⟨t, hnodeID, huuid, fun sm hsm path p hlists => ?_, fun l hl hleft hfile => ?_⟩
  · rcases sendCheckpointFiles_spec hcomplete.complete hsm hlists with hnil | ⟨f, hf, sm', hsm', hlists', hsmid, hopen⟩
    · exact absurd hnil List.not_mem_nil
    · obtain ⟨hplace, hbelow⟩ := filePlace_eq (hkeeps t f hf) s.fs.cwd
      rw [hsmid] at hplace hbelow
      refine ⟨sm', hsm', f.filePath, f.content, hlists', hopen, hbelow, fun hcontent => ?_⟩
      rw [← hplace, ← hsmid]
      exact hcomplete.sent f hf hcontent
  · obtain ⟨f, hf, hplace⟩ := hcomplete.only l hl hleft hfile
    exact ⟨f, hf, (filePlace_eq (hkeeps t f hf) s.fs.cwd).1.symm.trans hplace⟩

theorem Reachable.steps (es : List (Event τ)) (h : Reachable logStoragePath transfer s) :
    Reachable logStoragePath transfer (es.foldl (fun s e => s.step logStoragePath transfer e) s) := by
  induction es generalizing s with
  | nil => exact h
  | cons e es ih => exact ih (h.step e)

/-- State machine 1 lists two files of its directory `d`, one of them empty. -/
def twoFiles (_ : Unit) : Transfer where
  nodeID := 1
  uuid := 7
  openFile p := if p = ['d', '/', 'f'] then some [1, 2] else if p = ['d', '/', 'g'] then some [] else none
  smList := [⟨1, 5, some (['d'], [['f'], ['g']])⟩]

def oneTransfer : List (Event Unit) :=
  [.send () 0 true, .deliver 0 {}, .send () 0 true, .send () 0 true, .deliver 1 {}, .deliver 0 {}, .deliver 0 {},
    .send () 0 true, .deliver 0 {}]

def logPath : Path := ['/', 's', '/', 'd', '/', 'g']

/-- The file `f` is loaded, although its block comes twice. -/
theorem loaded_complete_twoFiles :
    let s := oneTransfer.foldl (fun s e => s.step logPath twoFiles e) (start twoFiles FileSystem.logs)
    s.loaded.length = 1 ∧ ∀ x ∈ s.loaded, x.files (checkpointPlace s.fs.cwd logPath 1 ['f']) = some [1, 2] := by
  intro s
  refine ⟨by decide +kernel, fun x hx => ?_⟩
  have hreachable : Reachable logPath twoFiles s := (Reachable.start FileSystem.logs).steps oneTransfer
  have hkeeps : ∀ t, ∀ f ∈ (twoFiles t).files, KeepsPlace (getTmpDirPath logPath f.smid) f.filePath := by
    rintro ⟨⟩ f hf
    have hfiles : (twoFiles ()).files = [⟨1, 5, ['f'], [1, 2]⟩, ⟨1, 5, ['g'], []⟩] := by decide
    have hnames : ∀ f ∈ (twoFiles ()).files, f.smid = 1 ∧ (f.filePath = ['f'] ∨ f.filePath = ['g']) := by
      rw [hfiles]
      decide
    obtain ⟨hsmid, hname⟩ := hnames f hf
    rw [hsmid]
    rcases hname with hname | hname <;> rw [hname]
    all_goals
      exact ((keepsPlace_iff (getTmpDirPath_ne_nil logPath 1)).2 ⟨by decide, by decide, by decide⟩).mpr
        ⟨fun _ => ⟨['s'], by decide, by decide⟩, fun _ => by decide⟩
  obtain ⟨t, -, -, hlisted, -⟩ :=
    Reachable.loaded_complete hreachable (fun _ _ _ _ => rfl) (fun _ => Nat.one_ne_zero) hkeeps hx
  obtain ⟨sm, hsm, p, content, ⟨dirPath, fileList, hstate, -, -, hpath⟩, hopen, -, hfile⟩ :=
    hlisted ⟨1, 5, some (['d'], [['f'], ['g']])⟩ (List.mem_singleton_self _) ['d', '/', 'f'] ['f']
      ⟨['d'], [['f'], ['g']], rfl, by decide, by decide, by decide⟩
  obtain rfl := List.mem_singleton.mp hsm
  cases hstate
  obtain rfl : p = ['f'] := by
    injection hpath with _ hslash
    injection hslash with _ hp
    exact hp.symm
  obtain rfl : content = [1, 2] := (Option.some.inj hopen).symm
  exact hfile (by decide)

end TransferSystem
end PhxPaxos
