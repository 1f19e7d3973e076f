import Mathlib.Algebra.Group.Nat.Defs
import PhxPaxos.Model.Learner

/-!
# The pace of the learner sender

`LearnerSender` with its ack lead, its clock and the points at which its thread stops, the learner that receives the values
and acknowledges some of them, and the messages between the two, which arrive in order. One run of `SendLearnedValue` is
modelled, from `Prepare` to its return. Beside it the receiver advances by other means and may acknowledge the values of
another sender, and the clock goes on. `sent` is the list of the instances whose values were sent, the latest first.
-/

namespace PhxPaxos

/-! ## The options -/

namespace InsideOptions

def learnerReceiverAckLead (isLargeBufferMode : Bool) : Nat := if isLargeBufferMode then 2 else 4

def learnerSenderPrepareTimeoutMs (isLargeBufferMode : Bool) : Nat := if isLargeBufferMode then 6000 else 5000

def learnerSenderAckTimeoutMs (isLargeBufferMode : Bool) : Nat := if isLargeBufferMode then 60000 else 5000

def learnerSenderAckLead (isLargeBufferMode : Bool) : Nat := if isLargeBufferMode then 5 else 21

end InsideOptions

open InsideOptions

/-- `(int)llPassTime >= timeout`, where `llPassTime` is the time since `last`. -/
def passed (timeout now last : Nat) : Bool := decide ((timeout : Int) ≤ ((now - last : Nat) : Int).bmod (2 ^ 32))

/-- `llInstanceID + iLead` -/
def addLead (instanceID lead : Nat) : Nat := (instanceID + lead) % 2 ^ 64

/-! ## The sender -/

/-- Why `SendLearnedValue` returned. -/
inductive SendEnd
  | sendOneFail
  | alreadyCatchUp
  | ackTimeout
  | sendDone
deriving DecidableEq

/-- Where the sending thread is: in `WaitToSend`, before the test of the loop of `SendLearnedValue`, before `CheckAck`, in
the `WaitTime` of `CheckAck`, or after the return of `SendLearnedValue`. -/
inductive SendPoint
  | waitToSend
  | loop
  | checkAck
  | waitTime
  | ended (how : SendEnd)
deriving DecidableEq

/-- `LearnerSender` with what its pace depends on. -/
structure PacedSender extends LearnerSender where
  ackLead : Nat
  absLastSendTime : Nat := 0
  absLastAckTime : Nat := 0
  point : SendPoint := .waitToSend
deriving DecidableEq

namespace PacedSender

variable (large : Bool)

/-- The last send is too long ago for `IsIMSending`. -/
def sendTimeout (now : Nat) (s : PacedSender) : Bool := passed (learnerSenderPrepareTimeoutMs large) now s.absLastSendTime

def prepare (now beginInstanceID : Nat) (sendToNodeID : NodeID) (s : PacedSender) : PacedSender :=
  let (l, ret) := s.toLearnerSender.prepare (s.sendTimeout large now) beginInstanceID sendToNodeID
  if ret then { s with toLearnerSender := l, absLastSendTime := now, absLastAckTime := now } else s

def comfirm (now beginInstanceID : Nat) (sendToNodeID : NodeID) (s : PacedSender) : PacedSender :=
  { s with toLearnerSender := s.toLearnerSender.comfirm (s.sendTimeout large now) beginInstanceID sendToNodeID }

def ack (now ackInstanceID : Nat) (fromNodeID : NodeID) (s : PacedSender) : PacedSender :=
  let l := s.toLearnerSender.ack (s.sendTimeout large now) ackInstanceID fromNodeID
  { s with toLearnerSender := l, absLastAckTime := if l.ackInstanceID > s.ackInstanceID then now else s.absLastAckTime }

def cutAckLead (ackLead : Nat) : Nat :=
  let receiveAckLead := learnerReceiverAckLead large
  if ackLead - receiveAckLead > receiveAckLead then ackLead - receiveAckLead else ackLead

/-- The condition under which `CheckAck` waits. -/
def waits (sendInstanceID : Nat) (s : PacedSender) : Bool := decide (sendInstanceID > addLead s.ackInstanceID s.ackLead)

def ackTimedOut (now : Nat) (s : PacedSender) : Bool := passed (learnerSenderAckTimeoutMs large) now s.absLastAckTime

/-- `WaitToSend`, and the start of `SendLearnedValue` when it returns. -/
def waitToSend (s : PacedSender) : PacedSender :=
  if s.isComfirmed then { s with sendInstanceID := s.beginInstanceID, lastChecksum := 0, point := .loop } else s

/-- The test of the loop of `SendLearnedValue` and `SendOne`, with the instance whose value is sent. -/
def sendOne (instanceID : Nat) (ok : Bool) (s : PacedSender) : PacedSender × Option Nat :=
  if s.sendInstanceID < instanceID then
    if ok then ({ s with point := .checkAck }, some s.sendInstanceID)
    else ({ s with point := .ended .sendOneFail }, none)
  else ({ s with ackLead := learnerSenderAckLead large, point := .ended .sendDone }, none)

/-- The loop of `CheckAck` up to its next `WaitTime`. Where `CheckAck` returns true, the turn of `SendLearnedValue` ends with
the next instance and `ReleshSending`. -/
def checkWait (now : Nat) (s : PacedSender) : PacedSender :=
  if s.waits s.sendInstanceID then
    if s.ackTimedOut large now then { s with ackLead := cutAckLead large s.ackLead, point := .ended .ackTimeout }
    else { s with point := .waitTime }
  else { s with sendInstanceID := s.sendInstanceID + 1, absLastSendTime := now, point := .loop }

def checkAck (now : Nat) (s : PacedSender) : PacedSender :=
  if s.sendInstanceID < s.ackInstanceID then
    { s with ackLead := learnerSenderAckLead large, point := .ended .alreadyCatchUp }
  else s.checkWait large now

end PacedSender

/-- The ack leads that `CutAckLead` and the resets lead to. -/
inductive AckLead (large : Bool) : Nat → Prop
  | reset : AckLead large (learnerSenderAckLead large)
  | cut {ackLead : Nat} : AckLead large ackLead → AckLead large (PacedSender.cutAckLead large ackLead)

/-! ## The receiver -/

/-- What a learner acknowledges values by. -/
structure ValueReceiver where
  nodeID : NodeID
  instanceID : Nat
  lastAckInstanceID : Nat
deriving DecidableEq

namespace ValueReceiver

variable (large : Bool)

/-- `Learner::SendLearnValue_Ack`, with the instance that the ack carries. -/
def sendLearnValueAck (r : ValueReceiver) : ValueReceiver × Option Nat :=
  if r.instanceID < addLead r.lastAckInstanceID (learnerReceiverAckLead large) then (r, none)
  else ({ r with lastAckInstanceID := r.instanceID }, some r.instanceID)

/-- `Learner::OnSendLearnValue` for a value that needs an ack, where `ok` says that `LearnValue` succeeds, and the new
instance that follows a learned value. -/
def onSendLearnValue (instanceID : Nat) (ok : Bool) (r : ValueReceiver) : ValueReceiver × Option Nat :=
  if instanceID > r.instanceID then (r, none)
  else if instanceID < r.instanceID then r.sendLearnValueAck large
  else if ok then
    let (r, ack) := r.sendLearnValueAck large
    ({ r with instanceID := r.instanceID + 1 }, ack)
  else (r, none)

end ValueReceiver

/-! ## Both -/

/-- The buffer modes of the two processes. -/
structure BufferModes where
  sender : Bool
  receiver : Bool

/-- A sender at work: the instance of its node, the values and the acks under way, and the receiver. -/
structure ValueStream where
  now : Nat
  instanceID : Nat
  sender : PacedSender
  values : List Nat := []
  acks : List Nat := []
  receiver : ValueReceiver
  sent : List Nat := []
deriving DecidableEq

namespace ValueStream

/-- `Prepare` succeeded for a receiver that asked at `beginInstanceID`. -/
def start (m : BufferModes) (now instanceID beginInstanceID ackLead : Nat) (receiver : ValueReceiver) : ValueStream where
  now := now
  instanceID := instanceID
  sender := { ackLead := ackLead : PacedSender }.prepare m.sender now beginInstanceID receiver.nodeID
  receiver := receiver

inductive Act
  | tick (ms : Nat)
  | newInstance
  | comfirm (instanceID : Nat)
  | waitToSend
  | sendOne (ok : Bool)
  | checkAck
  | waitTime
  | receive (ok : Bool)
  | ack
  | advance
  | ackOther
deriving DecidableEq

def step (m : BufferModes) (a : Act) (s : ValueStream) : ValueStream :=
  match a with
  | .tick ms => { s with now := s.now + ms }
  | .newInstance => { s with instanceID := s.instanceID + 1 }
  | .comfirm instanceID => { s with sender := s.sender.comfirm m.sender s.now instanceID s.receiver.nodeID }
  | .waitToSend => if s.sender.point = .waitToSend then { s with sender := s.sender.waitToSend } else s
  | .sendOne ok =>
    if s.sender.point = .loop then
      let (sender, sent) := s.sender.sendOne m.sender s.instanceID ok
      { s with sender := sender, values := s.values ++ sent.toList, sent := sent.toList ++ s.sent }
    else s
  | .checkAck => if s.sender.point = .checkAck then { s with sender := s.sender.checkAck m.sender s.now } else s
  | .waitTime => if s.sender.point = .waitTime then { s with sender := s.sender.checkWait m.sender s.now } else s
  | .receive ok =>
    match s.values with
    | [] => s
    | instanceID :: values =>
      let (receiver, ack) := s.receiver.onSendLearnValue m.receiver instanceID ok
      { s with values := values, receiver := receiver, acks := s.acks ++ ack.toList }
  | .ack =>
    match s.acks with
    | [] => s
    | instanceID :: acks =>
      { s with acks := acks, sender := s.sender.ack m.sender s.now instanceID s.receiver.nodeID }
  | .advance => { s with receiver.instanceID := s.receiver.instanceID + 1 }
  | .ackOther => { s with receiver := (s.receiver.sendLearnValueAck m.receiver).1 }

/-- All values were handled and all acks were delivered. -/
def Quiet (s : ValueStream) : Prop := s.values = [] ∧ s.acks = []

instance (s : ValueStream) : Decidable s.Quiet := inferInstanceAs (Decidable (_ ∧ _))

/-- Values are sent and learned without failures, and the ack timer does not run out while a value or an ack is under way. -/
def Delivers (m : BufferModes) (a : Act) (s : ValueStream) : Prop :=
  a ≠ .sendOne false ∧ a ≠ .receive false ∧
    (a = .checkAck ∨ a = .waitTime → s.sender.ackTimedOut m.sender s.now = true → s.Quiet)

instance (m : BufferModes) (a : Act) (s : ValueStream) : Decidable (Delivers m a s) := inferInstanceAs (Decidable (_ ∧ _ ∧ _))

/-- Acks come while the sender counts as sending, none goes to another sender, and the instance of the receiver is so far from
the greatest id that the sum with the ack lead does not wrap. -/
def InTime (m : BufferModes) (a : Act) (s : ValueStream) : Prop :=
  (a = .ack → s.sender.sendTimeout m.sender s.now = false) ∧ a ≠ .ackOther ∧
    s.receiver.instanceID + 1 + learnerSenderAckLead m.sender < 2 ^ 64

instance (m : BufferModes) (a : Act) (s : ValueStream) : Decidable (InTime m a s) := inferInstanceAs (Decidable (_ ∧ _ ∧ _))

end ValueStream

/-- The runs of a sender whose steps all satisfy `ok`, for every begin instance, every last ack of the receiver at or below it
and every ack lead. -/
inductive PaceRun (m : BufferModes) (ok : ValueStream.Act → ValueStream → Prop) : ValueStream → Prop
  | start {now instanceID beginInstanceID ackLead : Nat} {receiver : ValueReceiver} :
      receiver.lastAckInstanceID ≤ beginInstanceID → beginInstanceID ≤ receiver.instanceID → AckLead m.sender ackLead →
        PaceRun m ok (ValueStream.start m now instanceID beginInstanceID ackLead receiver)
  | step {a : ValueStream.Act} {s : ValueStream} : PaceRun m ok s → ok a s → PaceRun m ok (s.step m a)

namespace ValueStream

variable (m : BufferModes) (ok : Act → ValueStream → Prop)

/-- The steps of `acts`, in order. -/
def run (acts : List Act) (s : ValueStream) : ValueStream := acts.foldl (fun s a => s.step m a) s

/-- The steps of `acts` from `s` all satisfy `ok`. -/
def RunOk : List Act → ValueStream → Prop
  | [], _ => True
  | a :: acts, s => ok a s ∧ RunOk acts (s.step m a)

instance RunOk.decidable [∀ a s, Decidable (ok a s)] : (acts : List Act) → (s : ValueStream) → Decidable (RunOk m ok acts s)
  | [], _ => isTrue trivial
  | a :: acts, s =>
    have := RunOk.decidable acts (s.step m a)
    inferInstanceAs (Decidable (ok a s ∧ RunOk m ok acts (s.step m a)))

end ValueStream

theorem PaceRun.run {m : BufferModes} {ok : ValueStream.Act → ValueStream → Prop} (acts : List ValueStream.Act) :
    ∀ {s : ValueStream}, PaceRun m ok s → ValueStream.RunOk m ok acts s → PaceRun m ok (s.run m acts) := by
  induction acts with
  | nil => exact fun h _ => h
  | cons a acts ih => exact fun h hok => ih (h.step hok.1) hok.2

end PhxPaxos
