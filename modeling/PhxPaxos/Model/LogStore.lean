import PhxPaxos.Abstract.Files
import PhxPaxos.Model.Types

/-!
# The log store

`LogStore` appends the records of instances to the files `0.f`, `1.f`, ...; a meta file holds the id of the last one, and
LevelDB, which is a map here, tells where the latest record of an instance lies (`Database`). A new file is filled with
zeros up to `LOG_FILE_MAX_SIZE`. When the process starts, `RebuildIndex` looks for the end of the data.

The file-system calls of a roll-over are a list (`getFileFDCalls`), so that the process can die after any of them. Each
call succeeds; the two cells of the meta file are written by a call each. What the files hold beyond that is bytes.
-/

namespace PhxPaxos

open Files

/-- The checksums of `crc32.h` and the parser of `AcceptorStateData`. -/
structure LogParams where
  metaChecksum : Nat → UInt32
  checksum : Bytes → UInt32
  parse : Bytes → Bool

/-- Where a record lies (`GenFileID`). -/
structure FileID where
  fileID : Nat
  offset : Nat
  checksum : UInt32
deriving DecidableEq

structure MetaFile where
  fileID : Option Nat := none
  checksum : Option UInt32 := none
deriving DecidableEq

/-- What survives a process: the meta file, the files and LevelDB. -/
structure Disk where
  metaFile : MetaFile := {}
  files : List (Nat × Bytes) := []
  index : List (Nat × FileID) := []
deriving DecidableEq

/-! ## File-system calls -/

inductive FsCall
  | lseek
  | close
  | fsync
  | writeMetaFileID (fileID : Nat)
  | writeMetaChecksum (checksum : UInt32)
  | openFile (fileID : Nat)
  | write (fileID offset : Nat) (buffer : Bytes)
deriving DecidableEq

namespace Disk

/-- `lseek` to the end -/
def fileSize (d : Disk) (fileID : Nat) : Nat := ((d.files.lookup fileID).getD []).length

def run (d : Disk) : FsCall → Disk
  | .lseek | .close | .fsync => d
  | .writeMetaFileID fileID => { d with metaFile.fileID := some fileID }
  | .writeMetaChecksum checksum => { d with metaFile.checksum := some checksum }
  | .openFile fileID =>
    match d.files.lookup fileID with
    | some _ => d
    | none => { d with files := set d.files fileID [] }
  | .write fileID offset buffer =>
    { d with files := set d.files fileID (writeAt ((d.files.lookup fileID).getD []) offset buffer) }

def runAll (d : Disk) (calls : List FsCall) : Disk := calls.foldl run d

end Disk

/-! ## Appending -/

/-- The members of `LogStore`; `fileOpen` says that `m_iFd` is not `-1`, `none` for the largest deleted file is `-1`. -/
structure LogStore where
  fileOpen : Bool := true
  fileID : Nat
  nowFileSize : Nat := 0
  nowFileOffset : Nat := 0
  deletedMaxFileID : Option Nat := none
deriving DecidableEq

/-- What follows the length in a record. -/
def recordBody (instanceID : Nat) (buffer : Bytes) : Bytes := encodeLE 8 instanceID ++ buffer

/-- The buffer that `Append` writes. -/
def record (instanceID : Nat) (buffer : Bytes) : Bytes :=
  encodeLE 4 (recordBody instanceID buffer).length ++ recordBody instanceID buffer

namespace LogStore

variable (P : LogParams) (maxSize : Nat)

/-- `ExpandFile` -/
def expandFile (m : LogStore) (d : Disk) : LogStore × Disk :=
  if d.fileSize m.fileID = 0 then
    ({ m with nowFileSize := maxSize, nowFileOffset := 0 }, d.run (.write m.fileID (maxSize - 1) [0]))
  else ({ m with nowFileSize := d.fileSize m.fileID }, d)

/-- `IncreaseFileID` -/
def increaseFileID (m : LogStore) (d : Disk) : LogStore × Disk :=
  ({ m with fileID := m.fileID + 1 },
    d.runAll [.writeMetaFileID (m.fileID + 1), .writeMetaChecksum (P.metaChecksum (m.fileID + 1)), .fsync])

def needsNewFile (m : LogStore) (needWriteSize : Nat) : Prop := m.nowFileOffset + needWriteSize > m.nowFileSize

instance (m : LogStore) (needWriteSize : Nat) : Decidable (m.needsNewFile needWriteSize) :=
  inferInstanceAs (Decidable (_ > _))

/-- `GetFileFD`; the last results are the return value and the offset. -/
def getFileFD (needWriteSize : Nat) (m : LogStore) (d : Disk) : LogStore × Disk × Int × Nat :=
  if !m.fileOpen then (m, d, -1, 0)
  else if m.needsNewFile needWriteSize then
    let (m, d) := increaseFileID P m d
    let d := d.run (.openFile m.fileID)
    -- a new file that has data: an assertion fails
    if d.fileSize m.fileID ≠ 0 then (m, d, -1, 0)
    else
      let (m, d) := expandFile maxSize m d
      (m, d, 0, 0)
  else (m, d, 0, m.nowFileOffset)

/-- The calls that `GetFileFD` makes, with those of `IncreaseFileID`, `OpenFile` and `ExpandFile`. -/
def getFileFDCalls (needWriteSize : Nat) (m : LogStore) : List FsCall :=
  if m.needsNewFile needWriteSize then
    [.lseek, .close, .lseek, .writeMetaFileID (m.fileID + 1), .writeMetaChecksum (P.metaChecksum (m.fileID + 1)), .fsync,
      .openFile (m.fileID + 1), .lseek, .lseek, .lseek, .write (m.fileID + 1) (maxSize - 1) [0], .lseek]
  else [.lseek]

/-- `Append`; the last results are the return value and the file id of the record. -/
def append (instanceID : Nat) (buffer : Bytes) (m : LogStore) (d : Disk) : LogStore × Disk × Int × FileID :=
  let (m, d, ret, offset) := getFileFD P maxSize (record instanceID buffer).length m d
  let e : FileID := ⟨m.fileID, offset, P.checksum (recordBody instanceID buffer)⟩
  if ret ≠ 0 then (m, d, ret, e)
  else
    ({ m with nowFileOffset := m.nowFileOffset + (record instanceID buffer).length },
      d.run (.write m.fileID offset (record instanceID buffer)), 0, e)

/-- `Append` when the write stops after `written` bytes, or writes all of them and the sync fails; the last result is the
return value. -/
def appendFails (instanceID : Nat) (buffer : Bytes) (written : Nat) (m : LogStore) (d : Disk) : LogStore × Disk × Int :=
  let (m, d, ret, offset) := getFileFD P maxSize (record instanceID buffer).length m d
  if ret ≠ 0 then (m, d, ret)
  else (m, d.run (.write m.fileID offset ((record instanceID buffer).take written)), -1)

/-! ## Reading and deleting -/

/-- `Read`: the instance id and the value. -/
def read (e : FileID) (d : Disk) : Disk × Except Int (Nat × Bytes) :=
  let d := d.run (.openFile e.fileID)
  let f := (d.files.lookup e.fileID).getD []
  let len := (f.drop e.offset).take 4
  if len.length ≠ 4 then (d, .error (-1))
  else
    let buffer := (f.drop (e.offset + 4)).take (decodeLE len)
    if buffer.length ≠ decodeLE len then (d, .error (-1))
    else if P.checksum buffer ≠ e.checksum then (d, .error (-2))
    else (d, .ok (decodeLE (buffer.take 8), buffer.drop 8))

/-- `DeleteFile`: all files up to `fileID` that were not deleted before. -/
def deleteFile (fileID : Nat) (m : LogStore) (d : Disk) : LogStore × Disk :=
  let deletedMaxFileID := if m.deletedMaxFileID = none ∧ fileID > 2000 then some (fileID - 2000) else m.deletedMaxFileID
  if deletedMaxFileID.any (fileID ≤ ·) then ({ m with deletedMaxFileID := deletedMaxFileID }, d)
  else
    ({ m with deletedMaxFileID := some fileID },
      { d with files := remove d.files fun k => k ≤ fileID ∧ deletedMaxFileID.all (· < k) })

/-- `Del` -/
def del (e : FileID) (m : LogStore) (d : Disk) : LogStore × Disk × Int :=
  if e.fileID > m.fileID then (m, d, -2)
  else if e.fileID > 0 then
    let (m, d) := deleteFile (e.fileID - 1) m d
    (m, d, 0)
  else (m, d, 0)

/-! ## Starting -/

/-- The disk and the write offset while the index is rebuilt. -/
structure Rebuild where
  disk : Disk
  nowFileOffset : Nat := 0
  nowInstanceID : Nat

/-- The loop of `RebuildIndexForOneFile` over the file `f`, from `offset` on. Every turn but the last reads a record, so
the length of the file bounds their number. The last results are the return value and where to truncate the file. -/
def rebuildRecords (fileID : Nat) (f : Bytes) : Nat → Nat → Rebuild → Rebuild × Int × Option Nat
  | 0, _, r => (r, 0, none)
  | k + 1, offset, r =>
    let len := (f.drop offset).take 4
    if len.length = 0 then ({ r with nowFileOffset := offset }, 0, none)
    else if len.length ≠ 4 then (r, 0, some offset)
    else if decodeLE len = 0 then ({ r with nowFileOffset := offset }, 0, none)
    else if decodeLE len > f.length ∨ decodeLE len < 8 then (r, -1, none)
    else
      let buffer := (f.drop (offset + 4)).take (decodeLE len)
      if buffer.length ≠ decodeLE len then (r, 0, some offset)
      else if decodeLE (buffer.take 8) < r.nowInstanceID then (r, -1, none)
      else
        let r := { r with nowInstanceID := decodeLE (buffer.take 8) }
        if !P.parse (buffer.drop 8) then ({ r with nowFileOffset := offset }, 0, some offset)
        else
          rebuildRecords fileID f k (offset + 4 + decodeLE len)
            { r with disk.index := set r.disk.index r.nowInstanceID ⟨fileID, offset, P.checksum buffer⟩ }

/-- `RebuildIndexForOneFile` -/
def rebuildIndexForOneFile (fileID offset : Nat) (r : Rebuild) : Rebuild × Int :=
  match r.disk.files.lookup fileID with
  | none => (r, 1)
  | some f =>
    match rebuildRecords P fileID f (f.length + 1) offset r with
    | (r, ret, none) => (r, ret)
    | (r, ret, some offset) => ({ r with disk.files := set r.disk.files fileID (f.take offset) }, ret)

/-- The loop of `RebuildIndex` from a file on, up to one that does not exist. -/
def rebuildFiles (metaFileID : Nat) : Nat → Nat → Nat → Rebuild → Rebuild × Int
  | 0, _, _, r => (r, -1)
  | k + 1, fileID, offset, r =>
    let (r, ret) := rebuildIndexForOneFile P fileID offset r
    if ret ≠ 0 ∧ ret ≠ 1 then (r, ret)
    else if ret = 1 then (r, if fileID ≠ 0 ∧ fileID ≠ metaFileID + 1 then -1 else 0)
    else rebuildFiles metaFileID k (fileID + 1) 0 r

/-- `Database::GetMaxInstanceIDFileID` -/
def maxInstanceIDFileID (index : List (Nat × FileID)) : Option (Nat × FileID) :=
  match (index.map Prod.fst).max? with
  | none => none
  | some instanceID => (index.lookup instanceID).map fun e => (instanceID, e)

/-- `RebuildIndex` -/
def rebuildIndex (metaFileID : Nat) (d : Disk) : Rebuild × Int :=
  let (nowInstanceID, fileID, offset) :=
    match maxInstanceIDFileID d.index with
    | none => (0, 0, 0)
    | some (instanceID, e) => (instanceID, e.fileID, e.offset)
  if fileID > metaFileID then ({ disk := d, nowInstanceID := nowInstanceID }, -2)
  else rebuildFiles P metaFileID (d.files.length + 1) fileID offset { disk := d, nowInstanceID := nowInstanceID }

/-- `Init` -/
def init (d : Disk) : LogStore × Disk × Int :=
  let fileID := d.metaFile.fileID.getD 0
  let m : LogStore := { fileOpen := false, fileID := fileID }
  if d.metaFile.checksum.any (· ≠ P.metaChecksum fileID) then (m, d, -2)
  else
    let (r, ret) := rebuildIndex P fileID d
    if ret ≠ 0 then (m, r.disk, -1)
    else
      let m := { m with fileOpen := true, nowFileOffset := r.nowFileOffset }
      let (m, d) := expandFile maxSize m (r.disk.run (.openFile fileID))
      (m, d, 0)

end LogStore

/-! ## The database -/

/-- A database; `store` is none while no process is running, `maxSize` the `LOG_FILE_MAX_SIZE` of the process. `values` are
what was put and not deleted since, the latest first; it is history. -/
structure Database where
  disk : Disk := {}
  store : Option LogStore := none
  maxSize : Nat := 0
  values : List (Nat × Bytes) := []

inductive DatabaseEvent
  | put (instanceID : Nat) (value : Bytes)
  | get (instanceID : Nat)
  /-- `Put` whose write stops after that many bytes, or whose sync fails. -/
  | putFails (instanceID : Nat) (value : Bytes) (written : Nat)
  /-- `sweep` is the random choice to delete files. -/
  | del (instanceID : Nat) (sweep : Bool)
  /-- The process ends and another one starts. -/
  | restart (maxSize : Nat)
  /-- The process dies in `Put`, after that many calls of `GetFileFD`, and another one starts. -/
  | crash (instanceID : Nat) (value : Bytes) (calls maxSize : Nat)

namespace Database

variable (P : LogParams)

/-- `Init` on what an earlier process left. -/
def start (maxSize : Nat) (db : Database) : Database :=
  let (m, d, ret) := LogStore.init P maxSize db.disk
  { db with disk := d, store := if ret = 0 then some m else none, maxSize := maxSize }

/-- `Get` -/
def get (instanceID : Nat) (d : Disk) : Disk × Except Int Bytes :=
  match d.index.lookup instanceID with
  | none => (d, .error 1)
  | some e =>
    match LogStore.read P e d with
    | (d, .error ret) => (d, .error ret)
    | (d, .ok (fileInstanceID, value)) => (d, if fileInstanceID ≠ instanceID then .error (-2) else .ok value)

/-- `Put`; the last result is the return value. -/
def put (instanceID : Nat) (value : Bytes) (m : LogStore) (db : Database) : Database × Int :=
  let (m, d, ret, e) := LogStore.append P db.maxSize instanceID value m db.disk
  if ret ≠ 0 then ({ db with disk := d, store := some m }, ret)
  else
    ({ db with
        disk := { d with index := set d.index instanceID e }
        store := some m
        values := set db.values instanceID value }, 0)

/-- `Put` when `Append` fails; the last result is the return value. -/
def putFails (instanceID : Nat) (value : Bytes) (written : Nat) (m : LogStore) (db : Database) : Database × Int :=
  let (m, d, ret) := LogStore.appendFails P db.maxSize instanceID value written m db.disk
  ({ db with disk := d, store := some m }, ret)

/-- `Del` -/
def del (instanceID : Nat) (sweep : Bool) (m : LogStore) (db : Database) : Database × Int :=
  match if sweep then db.disk.index.lookup instanceID else none with
  | none =>
    if sweep then (db, 0)
    else ({ db with disk.index := remove db.disk.index (· = instanceID), values := remove db.values (· = instanceID) }, 0)
  | some e =>
    let (m, d, ret) := LogStore.del e m db.disk
    if ret ≠ 0 then ({ db with disk := d, store := some m }, ret)
    else
      ({ db with
          disk := { d with index := remove d.index (· = instanceID) }
          store := some m
          values := remove db.values (· = instanceID) }, 0)

/-- The disk that a process leaves which dies in `Put`, after `calls` calls of `GetFileFD`. -/
def diesIn (instanceID : Nat) (value : Bytes) (calls : Nat) (m : LogStore) (db : Database) : Disk :=
  db.disk.runAll ((m.getFileFDCalls P db.maxSize (record instanceID value).length).take calls)

def step (e : DatabaseEvent) (db : Database) : Database :=
  match db.store with
  | none => db
  | some m =>
    match e with
    | .put instanceID value => (put P instanceID value m db).1
    | .get instanceID => { db with disk := (get P instanceID db.disk).1 }
    | .putFails instanceID value written => (putFails P instanceID value written m db).1
    | .del instanceID sweep => (del instanceID sweep m db).1
    | .restart maxSize => start P maxSize db
    | .crash instanceID value calls maxSize => start P maxSize { db with disk := diesIn P instanceID value calls m db }

/-- The instances and values that are stored: the reserved keys of LevelDB are not instances, and a value is the
serialization of an `AcceptorStateData`, shorter than a file gets. -/
structure Storable (instanceID : Nat) (value : Bytes) : Prop where
  instanceID : instanceID + 3 < 2 ^ 64
  length : value.length < 2 ^ 29
  parse : P.parse value = true

/-- How the database is used: instances are put in order, they are deleted in order and never the last one, and a file
has room for a length. -/
def Used (db : Database) : DatabaseEvent → Prop
  | .put instanceID value => Storable P instanceID value ∧ ∀ x ∈ db.values, x.1 ≤ instanceID
  | .get _ => True
  | .putFails instanceID value _ => Storable P instanceID value ∧ ∀ x ∈ db.values, x.1 ≤ instanceID
  | .del instanceID _ => (∀ x ∈ db.values, instanceID ≤ x.1) ∧ ∃ x ∈ db.values, instanceID < x.1
  | .restart maxSize => 4 ≤ maxSize
  | .crash instanceID value _ maxSize =>
    Storable P instanceID value ∧ (∀ x ∈ db.values, x.1 ≤ instanceID) ∧ 4 ≤ maxSize

/-- The states that a database gets into from an empty directory; `Ok` says which of the steps are taken. -/
inductive Run (Ok : Database → DatabaseEvent → Prop) : Database → Prop
  | start (maxSize : Nat) (h : 4 ≤ maxSize) : Run Ok (start P maxSize {})
  | step {db : Database} {e : DatabaseEvent} (h : Run Ok db) (hused : Used P db e) (hok : Ok db e) : Run Ok (step P e db)

end Database

end PhxPaxos
