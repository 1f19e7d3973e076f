import PhxPaxos.Abstract.Framing
import PhxPaxos.Model.BaseMsg

/-!
# Connections

A `MessageEvent` sends or receives the messages of one peer over non-blocking sockets. The sending side takes messages
from a queue and resumes a frame that the socket did not take whole (`doOnWrite`), the receiving side resumes in the middle
of a length or of a body (`onRead`); after an error the sending side connects again (`reConnect`). A `Channel` is a sender
with all connections that it had, the bytes on their way, and the receiver at each one's end.

What a socket takes or gives at a time is chosen by the environment (`Sending`, the numbers in `ChannelEvent`).
-/

namespace PhxPaxos

open Files Framing

/-! ## Sockets -/

/-- `Socket::receive` on a socket with the bytes `arrived`, of which it gives at most `n` and at least one. The second part
is `again`; a socket that the peer has closed gives nothing and does not set it. -/
def receive (arrived : Bytes) (closed : Bool) (n size : Nat) : Bytes × Bool :=
  if size = 0 then ([], false)
  else if arrived = [] then ([], !closed)
  else (arrived.take (max 1 (min n size)), false)

/-- How a socket takes bytes: so many, and then no more for now or an exception. -/
structure Sending where
  accepted : Nat
  fails : Bool
deriving DecidableEq

/-- `Socket::send`: the bytes that were taken, and whether it throws. -/
def send (data : Bytes) (s : Sending) : Bytes × Bool := (data.take s.accepted, s.fails && decide (s.accepted < data.length))

/-- `BytesBuffer::Ready`; a buffer that is too short is replaced. -/
def ready (buffer : Bytes) (len : Nat) : Bytes := if buffer.length < len then List.replicate len 0 else buffer

/-! ## Receiving -/

/-- The members of `MessageEvent` for reading. -/
structure Reading where
  leftReadLen : Nat := 0
  lastReadPos : Nat := 0
  readHeadBuffer : Bytes := [0, 0, 0, 0]
  lastReadHeadPos : Nat := 0
  readCacheBuffer : Bytes := []
deriving DecidableEq

/-- What a call of `OnRead` does: the bytes that it took from the socket, the message of `ReadDone` and the return value. -/
structure ReadResult where
  event : Reading
  taken : Bytes
  done : Option Bytes
  ret : Int

namespace Reading

/-- `MessageEvent::ReadLeft` -/
def readLeft (arrived : Bytes) (closed : Bool) (n : Nat) (e : Reading) : ReadResult :=
  let (bytes, _) := receive arrived closed n e.leftReadLen
  if bytes = [] then ⟨e, [], none, -1⟩
  else
    let e := { e with
      readCacheBuffer := writeAt e.readCacheBuffer e.lastReadPos bytes
      leftReadLen := e.leftReadLen - bytes.length
      lastReadPos := e.lastReadPos + bytes.length }
    if e.leftReadLen = 0 then
      ⟨{ e with leftReadLen := 0, lastReadPos := 0 }, bytes, some (e.readCacheBuffer.take e.lastReadPos), 0⟩
    else ⟨e, bytes, none, 0⟩

/-- The end of `MessageEvent::OnRead`: the length is known, a part of the body may be there. -/
def readBody (arrived : Bytes) (closed : Bool) (n len : Nat) (head : Bytes) (e : Reading) : ReadResult :=
  let e := { e with readCacheBuffer := ready e.readCacheBuffer len, leftReadLen := len, lastReadPos := 0 }
  let (bytes, again) := receive arrived closed n len
  if bytes = [] then
    if !again then ⟨e, head, none, -1⟩ else ⟨e, head, none, 0⟩
  else
    let e := { e with readCacheBuffer := writeAt e.readCacheBuffer 0 bytes }
    if bytes.length = len then
      ⟨{ e with leftReadLen := 0, lastReadPos := 0 }, head ++ bytes, some (e.readCacheBuffer.take len), 0⟩
    else if bytes.length < len then
      ⟨{ e with lastReadPos := bytes.length, leftReadLen := len - bytes.length }, head ++ bytes, none, 0⟩
    else ⟨e, head ++ bytes, none, -2⟩

/-- `MessageEvent::OnRead`; `n` and `k` bound what the first and the second `receive` give. -/
def onRead (isLargeBufferMode : Bool) (arrived : Bytes) (closed : Bool) (n k : Nat) (e : Reading) : ReadResult :=
  if e.leftReadLen > 0 then readLeft arrived closed n e
  else
    let (bytes, _) := receive arrived closed n (4 - e.lastReadHeadPos)
    if bytes = [] then ⟨e, [], none, -1⟩
    else
      let e := { e with
        readHeadBuffer := writeAt e.readHeadBuffer e.lastReadHeadPos bytes
        lastReadHeadPos := e.lastReadHeadPos + bytes.length }
      if e.lastReadHeadPos < 4 then ⟨e, bytes, none, 0⟩
      else
        let e := { e with lastReadHeadPos := 0 }
        let len : Int := ((decodeBE e.readHeadBuffer : Int) - 4).bmod (2 ^ 32)
        if len < 0 ∨ len > maxValueSize isLargeBufferMode then ⟨e, bytes, none, -2⟩
        else readBody (arrived.drop bytes.length) closed k len.toNat bytes e

end Reading

/-! ## Sending -/

/-- `TCP_QUEUE_MAXLEN` -/
def tcpQueueMaxLen (isLargeBufferMode : Bool) : Nat := if isLargeBufferMode then 1024 else 10240

/-- `TCP_OUTQUEUE_DROP_TIMEMS` -/
def tcpOutQueueDropTimeMs (isLargeBufferMode : Bool) : Nat := if isLargeBufferMode then 20000 else 5000

/-- `MAX_QUEUE_MEM_SIZE` -/
def maxQueueMemSize : Nat := 209715200

/-- The members of `MessageEvent` for writing. `events` says that `m_iEvents` has `EPOLLOUT`, `inLoop` that the event loop
waits for it, `timer` that the connection is to be opened again. -/
structure Writing where
  events : Bool := false
  inLoop : Bool := false
  isDestroy : Bool := false
  timer : Bool := false
  leftWriteLen : Nat := 0
  lastWritePos : Nat := 0
  writeCacheBuffer : Bytes := []
  inQueue : List (Nat × Bytes) := []
  queueMemSize : Int := 0
deriving DecidableEq

/-- How `DoOnWrite` returns. -/
inductive WriteRet
  | ok
  | wait
  | thrown
deriving DecidableEq

/-- What a call of `DoOnWrite` does: the bytes that the socket took, and the message that it took from the queue and did
not drop. -/
structure WriteResult where
  event : Writing
  accepted : Bytes
  message : Option Bytes
  ret : WriteRet

namespace Writing

/-- `MessageEvent::AddMessage` -/
def addMessage (isLargeBufferMode : Bool) (now : Nat) (message : Bytes) (e : Writing) : Writing × Int :=
  if e.inQueue.length > tcpQueueMaxLen isLargeBufferMode then (e, -2)
  else if e.queueMemSize > maxQueueMemSize then (e, -2)
  else ({ e with inQueue := e.inQueue ++ [(now, message)], queueMemSize := e.queueMemSize + message.length }, 0)

/-- `Event::AddEvent(EPOLLOUT)` with `EventLoop::ModEvent` -/
def addEvent (e : Writing) : Writing := if e.events then e else { e with events := true, inLoop := true }

/-- `Event::RemoveEvent(EPOLLOUT)` with `EventLoop::RemoveEvent`, in `MessageEvent::WriteDone` -/
def writeDone (e : Writing) : Writing := if e.events then { e with events := false, inLoop := false } else e

/-- `MessageEvent::WriteLeft` -/
def writeLeft (s : Sending) (e : Writing) : WriteResult :=
  let (bytes, throws) := send ((e.writeCacheBuffer.drop e.lastWritePos).take e.leftWriteLen) s
  if throws then ⟨e, bytes, none, .thrown⟩
  else if bytes = [] then ⟨e.addEvent, [], none, .wait⟩
  else
    let e := { e with leftWriteLen := e.leftWriteLen - bytes.length, lastWritePos := e.lastWritePos + bytes.length }
    if e.leftWriteLen = 0 then ⟨{ e with leftWriteLen := 0, lastWritePos := 0 }, bytes, none, .ok⟩
    else ⟨e, bytes, none, .ok⟩

/-- The end of `MessageEvent::DoOnWrite`: a message of the queue is written. -/
def writeMessage (message : Bytes) (s : Sending) (e : Writing) : WriteResult :=
  let len := message.length + 4
  let e := { e with
    writeCacheBuffer := writeAt (ready e.writeCacheBuffer len) 0 (frame message), leftWriteLen := len, lastWritePos := 0 }
  let (bytes, throws) := send (e.writeCacheBuffer.take len) s
  if throws then ⟨e, bytes, some message, .thrown⟩
  else if bytes = [] then ⟨e.addEvent, [], some message, .wait⟩
  else if bytes.length = len then ⟨{ e with leftWriteLen := 0, lastWritePos := 0 }, bytes, some message, .ok⟩
  else if bytes.length < len then
    ⟨{ e with lastWritePos := bytes.length, leftWriteLen := len - bytes.length }, bytes, some message, .ok⟩
  else ⟨e, bytes, some message, .ok⟩

/-- `MessageEvent::DoOnWrite` -/
def doOnWrite (isLargeBufferMode : Bool) (now : Nat) (s : Sending) (e : Writing) : WriteResult :=
  if e.leftWriteLen > 0 then writeLeft s e
  else
    match e.inQueue with
    | [] => ⟨e, [], none, .ok⟩
    | (enqueueTime, message) :: queue =>
      let e := { e with inQueue := queue, queueMemSize := e.queueMemSize - message.length }
      let delayMs : Int := if now > enqueueTime then toInt (now - enqueueTime) else 0
      if delayMs > tcpOutQueueDropTimeMs isLargeBufferMode then ⟨e, [], none, .ok⟩
      else writeMessage message s e

/-- `EventLoop::OnError` with `MessageEvent::OnError` for a connection that sends. -/
def onError (isActive : Bool) (e : Writing) : Writing :=
  let e := { e with inLoop := false }
  if isActive then { e with timer := true }
  else { e with inQueue := [], queueMemSize := 0, isDestroy := true }

/-- `MessageEvent::ReConnect` -/
def reConnect (e : Writing) : Writing := addEvent { e with events := false, leftWriteLen := 0, lastWritePos := 0 }

end Writing

/-! ## Channels -/

/-- One connection and the receiver at its end. `written`, `read`, `sent` and `delivered` are the bytes that the socket took
and that the receiver read, the messages that were taken from the queue for it, and those that were handed over. -/
structure Link where
  flight : Bytes := []
  arrived : Bytes := []
  closed : Bool := false
  reader : Reading := {}
  failed : Bool := false
  written : Bytes := []
  read : Bytes := []
  sent : List Bytes := []
  delivered : List Bytes := []
deriving DecidableEq

/-- A sender with its present connection and the earlier ones, the latest first; `sent` are all messages that it took from
its queue and did not drop. -/
structure Channel where
  writer : Writing := {}
  link : Link := {}
  old : List Link := []
  sent : List Bytes := []
deriving DecidableEq

inductive ChannelEvent
  | addMessage (now : Nat) (message : Bytes)
  | openWrite
  | doOnWrite (now : Nat) (s : Sending) (isActive : Bool)
  | writeDone
  | error (isActive : Bool)
  | timeout
  | arrive (i n : Nat)
  | cut (i : Nat)
  | onRead (i n k : Nat)
deriving DecidableEq

namespace Link

/-- The socket takes bytes, and the sender takes a message for this connection. -/
def write (bytes : Bytes) (message : Option Bytes) (l : Link) : Link :=
  { l with flight := l.flight ++ bytes, written := l.written ++ bytes, sent := l.sent ++ message.toList }

def arrive (n : Nat) (l : Link) : Link :=
  { l with arrived := l.arrived ++ l.flight.take n, flight := l.flight.drop n }

/-- The connection breaks: what is on its way is lost. -/
def cut (l : Link) : Link := { l with flight := [], closed := true }

/-- The receiver is destroyed after an error. -/
def onRead (isLargeBufferMode : Bool) (n k : Nat) (l : Link) : Link :=
  let r := l.reader.onRead isLargeBufferMode l.arrived l.closed n k
  { l with
    reader := r.event
    arrived := l.arrived.drop r.taken.length
    read := l.read ++ r.taken
    delivered := l.delivered ++ r.done.toList
    failed := decide (r.ret ≠ 0) }

end Link

namespace Channel

variable (isLargeBufferMode : Bool)

/-- The connections, the present one first. -/
def links (c : Channel) : List Link := c.link :: c.old

def modify (f : Link → Link) : Nat → Channel → Channel
  | 0, c => { c with link := f c.link }
  | i + 1, c => { c with old := c.old.modify i f }

def reConnect (c : Channel) : Channel :=
  { c with writer := c.writer.reConnect, link := {}, old := c.link :: c.old }

/-- `MessageEvent::OpenWrite` -/
def openWrite (c : Channel) : Channel :=
  if c.writer.inQueue = [] then c
  else if c.writer.isDestroy then
    let c := c.reConnect
    { c with writer.isDestroy := false }
  else { c with writer := c.writer.addEvent }

/-- One turn of the loop of `MessageEvent::OnWrite`; an exception ends in the error handling of the event loop. -/
def doOnWrite (now : Nat) (s : Sending) (isActive : Bool) (c : Channel) : Channel :=
  let r := c.writer.doOnWrite isLargeBufferMode now s
  let c := { c with writer := r.event, link := c.link.write r.accepted r.message, sent := c.sent ++ r.message.toList }
  match r.ret with
  | .ok | .wait => c
  | .thrown => { c with writer := c.writer.onError isActive }

def step (c : Channel) : ChannelEvent → Channel
  | .addMessage now message => { c with writer := (c.writer.addMessage isLargeBufferMode now message).1 }
  | .openWrite => c.openWrite
  | .doOnWrite now s isActive => c.doOnWrite isLargeBufferMode now s isActive
  | .writeDone => { c with writer := c.writer.writeDone }
  | .error isActive => { c with writer := c.writer.onError isActive }
  | .timeout => { c.reConnect with writer.timer := false }
  | .arrive i n => c.modify (Link.arrive n) i
  | .cut i => c.modify Link.cut i
  | .onRead i n k => c.modify (Link.onRead isLargeBufferMode n k) i

/-- The event loop calls what it waits for, nothing arrives on a closed connection, and `OnRead` is called where there is
something to read or the peer has closed; messages are not empty and not too long. -/
def Enabled (c : Channel) : ChannelEvent → Prop
  | .addMessage _ message => message ≠ [] ∧ message.length ≤ maxValueSize isLargeBufferMode
  | .openWrite => True
  | .doOnWrite .. => c.writer.inLoop = true ∧ (c.writer.inQueue ≠ [] ∨ c.writer.leftWriteLen > 0)
  | .writeDone => c.writer.inLoop = true ∧ c.writer.leftWriteLen = 0
  | .error _ => c.writer.inLoop = true
  | .timeout => c.writer.timer = true
  | .arrive i _ => ∃ l, c.links[i]? = some l ∧ l.closed = false
  | .cut _ => True
  | .onRead i _ _ => ∃ l, c.links[i]? = some l ∧ l.failed = false ∧ (l.arrived ≠ [] ∨ l.closed = true)

instance (c : Channel) : (e : ChannelEvent) → Decidable (Enabled isLargeBufferMode c e)
  | .addMessage _ message =>
    inferInstanceAs (Decidable (message ≠ [] ∧ message.length ≤ maxValueSize isLargeBufferMode))
  | .openWrite | .cut _ => isTrue trivial
  | .doOnWrite .. =>
    inferInstanceAs (Decidable (c.writer.inLoop = true ∧ (c.writer.inQueue ≠ [] ∨ c.writer.leftWriteLen > 0)))
  | .writeDone => inferInstanceAs (Decidable (c.writer.inLoop = true ∧ c.writer.leftWriteLen = 0))
  | .error _ => inferInstanceAs (Decidable (c.writer.inLoop = true))
  | .timeout => inferInstanceAs (Decidable (c.writer.timer = true))
  | .arrive i _ => inferInstanceAs (Decidable (∃ l ∈ c.links[i]?, l.closed = false))
  | .onRead i _ _ => inferInstanceAs (Decidable (∃ l ∈ c.links[i]?, l.failed = false ∧ (l.arrived ≠ [] ∨ l.closed = true)))

/-- The events happen one after the other. -/
def Happens : Channel → List ChannelEvent → Prop
  | _, [] => True
  | c, e :: es => Enabled isLargeBufferMode c e ∧ Happens (c.step isLargeBufferMode e) es

def decidableHappens : (c : Channel) → (es : List ChannelEvent) → Decidable (Happens isLargeBufferMode c es)
  | _, [] => isTrue trivial
  | c, e :: es =>
    have := decidableHappens (c.step isLargeBufferMode e) es
    inferInstanceAs (Decidable (Enabled isLargeBufferMode c e ∧ Happens isLargeBufferMode (c.step isLargeBufferMode e) es))

instance (c : Channel) (es : List ChannelEvent) : Decidable (Happens isLargeBufferMode c es) :=
  decidableHappens isLargeBufferMode c es

/-- The channels that a run leads to. -/
inductive Reachable : Channel → Prop
  | start : Reachable {}
  | next {c : Channel} (h : Reachable c) (e : ChannelEvent) (he : Enabled isLargeBufferMode c e) :
    Reachable (c.step isLargeBufferMode e)

end Channel

end PhxPaxos
