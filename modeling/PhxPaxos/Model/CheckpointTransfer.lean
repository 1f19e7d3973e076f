import PhxPaxos.Model.FilePath

/-!
# Checkpoint transfers

`CheckpointSender` reads the files of the state machines in blocks and numbers the messages; `Learner::OnSendCheckpoint` has
the receiver append the blocks to files of its own (`receiveFile`). Any number of senders, or of transfers of one sender, and the
receiver run together, and what was once sent may arrive at any time, again, or never. The calls that may fail do so as the event
says.
-/

namespace PhxPaxos

open Paths

/-! ## The files that are sent -/

/-- `sizeof(m_sTmpBuffer)` -/
def tmpBufferSize : Nat := 1048576

/-- What a state machine gives the sender: `GetCheckpointState`, where it succeeds, and the checkpoint instance id. -/
structure SMCheckpoint where
  smid : Int
  checkpointInstanceID : Nat
  checkpointState : Option (Path × List Path)

/-- A piece of a file, as `SendBuffer` is called with it. -/
structure FileBlock where
  smid : Int
  checkpointInstanceID : Nat
  filePath : Path
  offset : Nat
  buffer : Files.Content
deriving DecidableEq

/-- A file that is sent. -/
structure SentFile where
  smid : Int
  checkpointInstanceID : Nat
  filePath : Path
  content : Files.Content
deriving DecidableEq

/-- The loop of `SendFile`: what `read` returns, until it is less than the buffer holds. -/
def readLoop (bufferSize offset : Nat) (rest : Files.Content) : List (Nat × Files.Content) :=
  if rest = [] ∨ bufferSize = 0 then []
  else if rest.length < bufferSize then [(offset, rest)]
  else (offset, rest.take bufferSize) :: readLoop bufferSize (offset + bufferSize) (rest.drop bufferSize)
termination_by rest.length
decreasing_by
  rename_i h _
  obtain ⟨hrest, hsize⟩ := not_or.mp h
  rw [List.length_drop]
  exact Nat.sub_lt (List.length_pos_iff.mpr hrest) (Nat.pos_of_ne_zero hsize)

def SentFile.blocks (f : SentFile) : List FileBlock :=
  (readLoop tmpBufferSize 0 f.content).map fun b => ⟨f.smid, f.checkpointInstanceID, f.filePath, b.1, b.2⟩

/-- `SendFile`: the file, if it is to be sent and can be opened; a path that was sent is skipped. -/
def sendFile (openFile : Path → Option Files.Content) (sm : SMCheckpoint) (dirPath filePath : Path) (mapAlreadySendedFile : List Path) :
    Option (List SentFile × List Path) :=
  let path := dirPath ++ filePath
  if mapAlreadySendedFile.contains path then some ([], mapAlreadySendedFile)
  else (openFile path).map fun content =>
    ([⟨sm.smid, sm.checkpointInstanceID, filePath, content⟩], path :: mapAlreadySendedFile)

/-- The loop over the file list in `SendCheckpointFofaSM`; the `Bool` says that it went through. -/
def sendFileList (openFile : Path → Option Files.Content) (sm : SMCheckpoint) (dirPath : Path) :
    List Path → List Path → List SentFile × Bool × List Path
  | [], already => ([], true, already)
  | filePath :: fileList, already =>
    match sendFile openFile sm dirPath filePath already with
    | none => ([], false, already)
    | some (files, already) =>
      let (files', ok, already) := sendFileList openFile sm dirPath fileList already
      (files ++ files', ok, already)

/-- `SendCheckpointFofaSM` -/
def sendCheckpointFofaSM (openFile : Path → Option Files.Content) (sm : SMCheckpoint) (already : List Path) :
    List SentFile × Bool × List Path :=
  match sm.checkpointState with
  | none => ([], false, already)
  | some (dirPath, fileList) =>
    if dirPath = [] then ([], true, already)
    else sendFileList openFile sm (if dirPath.getLast? = some '/' then dirPath else dirPath ++ ['/']) fileList already

/-- The loop over the state machines in `SendCheckpoint`. -/
def sendCheckpointFiles (openFile : Path → Option Files.Content) : List SMCheckpoint → List Path → List SentFile × Bool
  | [], _ => ([], true)
  | sm :: sms, already =>
    let (files, ok, already) := sendCheckpointFofaSM openFile sm already
    if !ok then (files, false)
    else
      let (files', ok) := sendCheckpointFiles openFile sms already
      (files ++ files', ok)

/-! ## The sender -/

/-- `Checkpoint_ACK_LEAD` -/
def checkpointAckLead : Nat := 10

/-- `Checkpoint_ACK_TIMEOUT` -/
def checkpointAckTimeout : Nat := 120000

/-- The messages of a transfer. -/
inductive TransferMsg
  | begin (nodeID : NodeID) (uuid : Nat) (sequence : Nat)
  | ing (msg : FileMsg)
  | end (nodeID : NodeID) (uuid : Nat) (sequence : Nat)

def TransferMsg.isBegin : TransferMsg → Bool
  | .begin .. => true
  | .ing _ | .end .. => false

/-- The answer to one of them, sent to `nodeID`. -/
structure TransferAck where
  nodeID : NodeID
  uuid : Nat
  sequence : Nat
  ok : Bool

/-- What a transfer is made of: the node that sends and its uuid, the files it can open, and its state machines. -/
structure Transfer where
  nodeID : NodeID
  uuid : Nat
  openFile : Path → Option Files.Content
  smList : List SMCheckpoint

def Transfer.files (t : Transfer) : List SentFile := (sendCheckpointFiles t.openFile t.smList []).1

/-- All files could be opened. -/
def Transfer.complete (t : Transfer) : Bool := (sendCheckpointFiles t.openFile t.smList []).2

def Transfer.blocks (t : Transfer) : List FileBlock := t.files.flatMap SentFile.blocks

/-- The message of `Learner::SendCheckpoint`. -/
def Transfer.msg (t : Transfer) (sequence : Nat) (b : FileBlock) : FileMsg :=
  ⟨t.nodeID, t.uuid, sequence, b.smid, b.filePath, b.offset, b.buffer⟩

/-- `CheckpointSender` on its way through `SendCheckpoint`: how many of the first messages it sent, and the blocks ahead. -/
structure FileSender where
  sequence : Nat := 0
  ackSequence : Nat := 0
  absLastAckTime : Nat := 0
  isEnd : Bool := false
  isEnded : Bool := false
  begins : Nat := 0
  rest : List FileBlock

namespace FileSender

/-- A round of the thread; `sent` says that `SendMessage` returns 0. -/
def send (t : Transfer) (now : Nat) (sent : Bool) (s : FileSender) : FileSender × Option TransferMsg :=
  if s.isEnded then (s, none)
  else if s.begins < 2 then
    if !sent then ({ s with isEnded := true }, none)
    else
      ({ s with
          begins := s.begins + 1
          sequence := if s.begins = 1 then s.sequence + 1 else s.sequence
          absLastAckTime := if s.begins = 0 then now else s.absLastAckTime },
        some (.begin t.nodeID t.uuid s.sequence))
  else
    match s.rest with
    | [] =>
      if t.complete && sent then ({ s with isEnded := true }, some (.end t.nodeID t.uuid s.sequence))
      else ({ s with isEnded := true }, none)
    | b :: rest =>
      if s.isEnd then ({ s with isEnded := true }, none)
      else if s.sequence > s.ackSequence + checkpointAckLead then
        -- the loop of `CheckAck`
        if now - s.absLastAckTime ≥ checkpointAckTimeout then ({ s with isEnded := true }, none) else (s, none)
      else if !sent then (s, none)
      else ({ s with sequence := s.sequence + 1, rest := rest }, some (.ing (t.msg s.sequence b)))

/-- `OnSendCheckpointAck`, `Ack` and `End`. -/
def onAck (t : Transfer) (now : Nat) (ack : TransferAck) (s : FileSender) : FileSender :=
  if s.isEnded then s
  else if !ack.ok then { s with isEnd := true }
  else if ack.uuid ≠ t.uuid then s
  else if ack.sequence ≠ s.ackSequence then s
  else { s with ackSequence := s.ackSequence + 1, absLastAckTime := now }

end FileSender

/-! ## The receiver -/

/-- The name of a temporary directory, which `ClearCheckpointTmp` deletes. -/
def isTmpName (n : Name) : Bool := decide (['c', 'p', '_', 't', 'm', 'p', '_'] <:+: n)

/-- What leads from one of the directories that `p` picks, of a log at `base`, to `l`. -/
def belowDirs (p : Name → Bool) (base l : Location) : Option Location :=
  if base <+: l then
    match l.drop base.length with
    | n :: ns => if p n then some ns else none
    | [] => none
  else none

theorem belowDirs_snoc {p : Name → Bool} {base l : Location} {n : Name} (h : belowDirs p base (l ++ [n]) = none) :
    belowDirs p base l = none := by
  unfold belowDirs at h ⊢
  split
  case isTrue hbase =>
    rw [if_pos (hbase.trans (List.prefix_append l [n])), List.drop_append_of_le_length hbase.length_le] at h
    split
    case h_1 m ns hdrop =>
      rw [hdrop, List.cons_append] at h
      split
      case isTrue hname =>
        dsimp only at h
        rw [if_pos hname] at h
        cases h
      case isFalse => rfl
    case h_2 => rfl
  case isFalse => rfl

/-- The tree without these directories; that of the process and those above it stay. -/
def Tree.clear (t : Tree) (p : Name → Bool) (base cwd : Location) : Tree where
  isDir l := t.isDir l && ((belowDirs p base l).isNone || decide (l <+: cwd))
  root := by simp [t.root]
  parent l n h := by
    rw [Bool.and_eq_true, Bool.or_eq_true, Option.isNone_iff_eq_none, decide_eq_true_eq] at h ⊢
    exact ⟨t.parent l n h.1, h.2.imp belowDirs_snoc fun hcwd => (List.prefix_append l [n]).trans hcwd⟩

/-- A file in one of these directories. -/
def inDirs (p : Name → Bool) (base l : Location) : Bool :=
  match belowDirs p base l with
  | some (_ :: _) => true
  | _ => false

/-- A file in a temporary directory. -/
def inTmp (base l : Location) : Bool := inDirs isTmpName base l

/-- What the calls come to that handle a message. Where deleting fails, some of the files are gone; a temporary directory
that `opendir` does not open stays as it is, and `DeleteDir` returns 0 for it. -/
structure ReceiveIO where
  mayOpenDir : Name → Bool := fun _ => true
  clearFailed : Option (Location → Bool) := none
  clearAllLogOk : Bool := true
  setMinChosenInstanceIDOk : Bool := true
  mayCreate : Location → Bool := fun _ => true
  mayOpen : Location → Bool := fun _ => true
  shortWrite : Location → Option Nat := fun _ => none
  loadCheckpointStateOk : Bool := true

def FileSystem.withIO (io : ReceiveIO) (fs : FileSystem) : FileSystem :=
  { fs with mayCreate := io.mayCreate, mayOpen := io.mayOpen, shortWrite := io.shortWrite }

/-- `CheckpointReceiver::ClearCheckpointTmp` -/
def clearCheckpointTmp (logStoragePath : Path) (io : ReceiveIO) (fs : FileSystem) : Int × FileSystem :=
  let base := locate fs.cwd logStoragePath
  let opened := fun n => isTmpName n && io.mayOpenDir n
  if !fs.tree.isDir base then (-1, fs)
  else
    match io.clearFailed with
    | some removed => (-1, { fs with files := fun l => if inDirs opened base l && removed l then none else fs.files l })
    | none =>
      (0, { fs with
        tree := fs.tree.clear opened base fs.cwd
        cwd_isDir := by
          show (_ && _) = true
          rw [fs.cwd_isDir, decide_eq_true (List.prefix_refl fs.cwd), Bool.or_true, Bool.and_true]
        files := fun l => if inDirs opened base l then none else fs.files l })

/-- The files that `ClearCheckpointTmp` does not get to. -/
def leftInTmp (logStoragePath : Path) (io : ReceiveIO) (cwd l : Location) : Bool :=
  inDirs (fun n => isTmpName n && !io.mayOpenDir n) (locate cwd logStoragePath) l

/-- `CheckpointReceiver::NewReceiver` -/
def newFileReceiver (logStoragePath : Path) (io : ReceiveIO) (senderNodeID : NodeID) (uuid : Nat) (r : FileReceiver)
    (fs : FileSystem) : Int × FileReceiver × FileSystem :=
  let (ret, fs) := clearCheckpointTmp logStoragePath io fs
  if ret ≠ 0 then (ret, r, fs)
  else if !io.clearAllLogOk then (-1, r, fs)
  else (0, { mapHasInitDir := [], senderNodeID := senderNodeID, uuid := uuid, sequence := 0 }, fs)

/-- `CheckpointReceiver::IsReceiverFinish` -/
def FileReceiver.isReceiverFinish (senderNodeID : NodeID) (uuid endSequence : Nat) (r : FileReceiver) : Bool :=
  senderNodeID = r.senderNodeID && uuid = r.uuid && endSequence = r.sequence + 1

/-- `Learner::OnSendCheckpoint_Begin` and `OnSendCheckpoint_Ing`. -/
def onSendCheckpointFile (logStoragePath : Path) (io : ReceiveIO) (msg : TransferMsg) (r : FileReceiver) (fs : FileSystem) :
    Int × FileReceiver × FileSystem :=
  match msg with
  | .begin nodeID uuid _ =>
    let (ret, r, fs) := newFileReceiver logStoragePath io nodeID uuid r fs
    if ret ≠ 0 then (ret, r, fs) else if !io.setMinChosenInstanceIDOk then (-1, r, fs) else (0, r, fs)
  | .ing msg => receiveFile logStoragePath msg r fs
  | .end _ _ _ => (-1, r, fs)

def TransferMsg.ack (ok : Bool) : TransferMsg → TransferAck
  | .begin nodeID uuid sequence => ⟨nodeID, uuid, sequence, ok⟩
  | .ing msg => ⟨msg.nodeID, msg.uuid, msg.sequence, ok⟩
  | .end nodeID uuid sequence => ⟨nodeID, uuid, sequence, ok⟩

/-! ## Senders and receiver -/

/-- What was handed to `LoadCheckpointState`, of which transfer; `left` is what was not cleared for it. -/
structure Loaded where
  nodeID : NodeID
  uuid : Nat
  files : Location → Option Files.Content
  left : Location → Bool

/-- `left` is history: what the last begin of a transfer did not clear. -/
structure TransferSystem (τ : Type*) where
  senders : τ → FileSender
  msgs : List TransferMsg := []
  acks : List TransferAck := []
  receiver : FileReceiver := {}
  fs : FileSystem
  left : Location → Bool := fun _ => false
  loaded : List Loaded := []

namespace TransferSystem

variable {τ : Type*} [DecidableEq τ]

def start (transfer : τ → Transfer) (fs : FileSystem) : TransferSystem τ where
  senders t := { rest := (transfer t).blocks }
  fs := fs

def send (transfer : τ → Transfer) (t : τ) (now : Nat) (sent : Bool) (s : TransferSystem τ) : TransferSystem τ :=
  let (sender, msg) := (s.senders t).send (transfer t) now sent
  { s with senders := Function.update s.senders t sender, msgs := msg.toList ++ s.msgs }

/-- `Learner::OnSendCheckpoint` -/
def deliver (logStoragePath : Path) (msg : TransferMsg) (io : ReceiveIO) (s : TransferSystem τ) : TransferSystem τ :=
  let fs := s.fs.withIO io
  match msg with
  | .end nodeID uuid sequence =>
    if s.receiver.isReceiverFinish nodeID uuid sequence then
      -- the process ends when all is loaded
      { s with
        receiver := {}
        acks := if io.loadCheckpointStateOk then s.acks else msg.ack false :: s.acks
        loaded := ⟨nodeID, uuid, fs.files, s.left⟩ :: s.loaded }
    else { s with receiver := {}, acks := msg.ack false :: s.acks }
  | msg =>
    let left := if msg.isBegin then leftInTmp logStoragePath io fs.cwd else s.left
    let (ret, receiver, fs) := onSendCheckpointFile logStoragePath io msg s.receiver fs
    if ret ≠ 0 then { s with receiver := {}, fs := fs, left := left, acks := msg.ack false :: s.acks }
    else { s with receiver := receiver, fs := fs, left := left, acks := msg.ack true :: s.acks }

inductive Event (τ : Type*)
  | send (t : τ) (now : Nat) (sent : Bool)
  | ack (t : τ) (now : Nat) (i : Nat)
  | deliver (i : Nat) (io : ReceiveIO)
  | restart

/-- `i` is the place of the message among those that were sent. -/
def step (logStoragePath : Path) (transfer : τ → Transfer) (e : Event τ) (s : TransferSystem τ) : TransferSystem τ :=
  match e with
  | .send t now sent => s.send transfer t now sent
  | .ack t now i =>
    match s.acks[i]? with
    | none => s
    | some ack => { s with senders := Function.update s.senders t ((s.senders t).onAck (transfer t) now ack) }
  | .deliver i io =>
    match s.msgs[i]? with
    | none => s
    | some msg => s.deliver logStoragePath msg io
  | .restart => { s with receiver := {} }

inductive Reachable (logStoragePath : Path) (transfer : τ → Transfer) : TransferSystem τ → Prop
  | start (fs : FileSystem) : Reachable logStoragePath transfer (start transfer fs)
  | step (e : Event τ) {s : TransferSystem τ} :
      Reachable logStoragePath transfer s → Reachable logStoragePath transfer (s.step logStoragePath transfer e)

end TransferSystem
end PhxPaxos
