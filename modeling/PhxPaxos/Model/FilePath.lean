import PhxPaxos.Model.Types
import PhxPaxos.Abstract.Paths
import PhxPaxos.Abstract.Files

/-!
# The files of a checkpoint

The receiving end of a checkpoint transfer on the file system: the path of a file is taken apart into its directories and
put together again, the directories are created on the way, and the content is appended. Paths are lists of characters.
Which directories may be created, and what opening and writing come to, is given (`FileSystem`).
-/

namespace PhxPaxos

open Paths

/-! ## The file system -/

/-- The directories there are: with each one those above it. -/
structure Tree where
  isDir : Location → Bool
  root : isDir [] = true
  parent : ∀ l n, isDir (l ++ [n]) = true → isDir l = true

/-- The file system as the process sees it. -/
structure FileSystem where
  cwd : Location
  tree : Tree
  cwd_isDir : tree.isDir cwd = true
  mayCreate : Location → Bool := fun _ => true
  files : Location → Option Files.Content := fun _ => none
  mayOpen : Location → Bool := fun _ => true
  /-- How much is written, where it is not all. -/
  shortWrite : Location → Option Nat := fun _ => none

/-- The tree with one more directory, below one that is there. -/
def Tree.insert (t : Tree) (l : Location) (n : Name) (h : t.isDir l = true) : Tree where
  isDir d := t.isDir d || d = l ++ [n]
  root := by rw [t.root, Bool.true_or]
  parent d m hd := by
    rw [Bool.or_eq_true, decide_eq_true_eq] at hd ⊢
    rcases hd with hd | hd
    · exact Or.inl (t.parent d m hd)
    · exact Or.inl ((List.append_inj' hd rfl).1 ▸ h)

/-- `access` for a path that ends in a slash. -/
def FileSystem.access (fs : FileSystem) (p : Path) : Bool := fs.tree.isDir (locate fs.cwd p)

/-- Create the directory at a place. -/
def FileSystem.mkdirAt (fs : FileSystem) (l : Location) : Int × FileSystem :=
  match l.getLast? with
  | none => (-1, fs)
  | some n =>
    if h : fs.tree.isDir l.dropLast = true then
      if fs.mayCreate l then
        (0, { fs with
          tree := fs.tree.insert l.dropLast n h
          cwd_isDir := by
            show (_ || _) = true
            rw [fs.cwd_isDir, Bool.true_or] })
      else (-1, fs)
    else (-1, fs)

/-- `mkdir` -/
def FileSystem.mkdir (fs : FileSystem) (p : Path) : Int × FileSystem := fs.mkdirAt (locate fs.cwd p)

/-! ## The receiver -/

/-- The fields of `CheckpointReceiver`. -/
structure FileReceiver where
  mapHasInitDir : List Path := []
  senderNodeID : NodeID := 0
  uuid : Nat := 0
  sequence : Nat := 0
deriving Repr, DecidableEq

/-- A checkpoint message with a piece of a file. -/
structure FileMsg where
  nodeID : NodeID
  uuid : Nat
  sequence : Nat
  smid : Int
  filePath : Path
  offset : Nat
  buffer : Files.Content

/-- `CheckpointReceiver::GetTmpDirPath`: at most 511 characters. -/
def getTmpDirPath (logStoragePath : Path) (smid : Int) : Path :=
  (logStoragePath ++ ['/', 'c', 'p', '_', 't', 'm', 'p', '_'] ++ (toString smid).toList).take 511

/-- `CheckpointReceiver::CreateDir` -/
def createDir (fs : FileSystem) (dirPath : Path) : Int × FileSystem := if fs.access dirPath then (0, fs) else fs.mkdir dirPath

/-- One character of the loop that takes the path apart: the pieces so far and the piece being read. -/
def dirListStep (st : List Name × Name) (c : Char) : List Name × Name :=
  if c = '/' then (if 0 < st.2.length then st.1 ++ [st.2] else st.1, []) else (st.1, st.2 ++ [c])

/-- `vecDirList` in `CheckpointReceiver::InitFilePath` -/
def vecDirList (filePath : Path) : List Name := (('/' :: filePath ++ ['/']).foldl dirListStep ([], [])).1

/-- What the formatted path starts with: no slash if the first piece starts with a dot. -/
def formatHead : List Name → Path
  | (c :: _) :: _ => if c ≠ '.' then ['/'] else []
  | _ => []

/-- The second loop of `CheckpointReceiver::InitFilePath`. -/
def formatLoop (r : FileReceiver) (fs : FileSystem) (fmt : Path) : List Name → Int × Path × FileReceiver × FileSystem
  | [] => (0, fmt, r, fs)
  | [n] => (0, fmt ++ n, r, fs)
  | n :: ns =>
    let fmt := fmt ++ n ++ ['/']
    if fmt ∈ r.mapHasInitDir then formatLoop r fs fmt ns
    else
      let (ret, fs) := createDir fs fmt
      if ret ≠ 0 then (ret, fmt, r, fs)
      else formatLoop { r with mapHasInitDir := fmt :: r.mapHasInitDir } fs fmt ns

/-- `CheckpointReceiver::InitFilePath`: the result, the formatted path, and what it leaves. -/
def initFilePath (r : FileReceiver) (fs : FileSystem) (filePath : Path) : Int × Path × FileReceiver × FileSystem :=
  formatLoop r fs (formatHead (vecDirList filePath)) (vecDirList filePath)

/-- The path that `CheckpointReceiver::ReceiveCheckpoint` asks for. -/
def checkpointFilePath (tmpDir filePath : Path) : Path := tmpDir ++ '/' :: filePath

/-- `CheckpointReceiver::ReceiveCheckpoint` -/
def receiveFile (logStoragePath : Path) (msg : FileMsg) (r : FileReceiver) (fs : FileSystem) :
    Int × FileReceiver × FileSystem :=
  if msg.nodeID ≠ r.senderNodeID ∨ msg.uuid ≠ r.uuid then (-2, r, fs)
  else if msg.sequence = r.sequence then (0, r, fs)
  else if msg.sequence ≠ r.sequence + 1 then (-2, r, fs)
  else
    let (ret, fmt, r, fs) := initFilePath r fs (checkpointFilePath (getTmpDirPath logStoragePath msg.smid) msg.filePath)
    if ret ≠ 0 then (-1, r, fs)
    else
      let l := locate fs.cwd fmt
      if !fs.mayOpen l then (-1, r, fs)
      else
        let content := (fs.files l).getD []
        if content.length ≠ msg.offset then (-2, r, { fs with files := Function.update fs.files l (some content) })
        else
          match fs.shortWrite l with
          | some k => (-1, r, { fs with files := Function.update fs.files l (some (content ++ msg.buffer.take k)) })
          | none =>
            (0, { r with sequence := r.sequence + 1 },
              { fs with files := Function.update fs.files l (some (content ++ msg.buffer)) })

end PhxPaxos
