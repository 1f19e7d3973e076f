import PhxPaxos.Model.MessageEvent

/-!
# What a connection delivers

The receiver keeps the bytes of an unfinished frame (`Reading.pending`), the sender those that the socket has not taken yet
(`Writing.remaining`). So on every connection the messages delivered are the first of those sent, and all of them once every
byte has been written and read (`channel_delivers`); a new connection begins with a frame. With the old one the message in
the middle of being written is lost, and those that the socket had taken and the receiver had not read whole: there are no
acknowledgments, and a connection that breaks may lose several messages (`not_at_most_one_lost`).
-/

namespace PhxPaxos

open Files Framing

variable {isLargeBufferMode : Bool}

/-- A message that may be sent. -/
structure Framable (isLargeBufferMode : Bool) (m : Bytes) : Prop where
  ne_nil : m ≠ []
  le : m.length ≤ maxValueSize isLargeBufferMode

theorem Framable.short {m : Bytes} (h : Framable isLargeBufferMode m) : Short m := by
  have hmax := maxValueSize_bounds isLargeBufferMode
  have hle := h.le
  unfold Short
  omega

/-! ## Receiving -/

section Receive

variable {arrived : Bytes} {closed : Bool} {n size : Nat}

theorem receive_nil (hsize : 0 < size) : receive [] closed n size = ([], !closed) := by
  unfold receive
  rw [if_neg (by omega), if_pos rfl]

/-- Of what is there, at least a byte is given and at most `size`. -/
theorem receive_some (closed : Bool) (n : Nat) (hsize : 0 < size) (h : arrived ≠ []) :
    ∃ bytes, receive arrived closed n size = (bytes, false) ∧ bytes ≠ [] ∧ bytes <+: arrived ∧ bytes.length ≤ size := by
  refine ⟨arrived.take (max 1 (min n size)), ?_, ?_, List.take_prefix _ _, ?_⟩
  · unfold receive
    rw [if_neg (by omega), if_neg h]
  · have hpos := List.length_pos_iff.mpr h
    apply List.ne_nil_of_length_pos
    rw [List.length_take]
    omega
  · rw [List.length_take]
    omega

end Receive

theorem ready_length (buffer : Bytes) (len : Nat) : len ≤ (ready buffer len).length := by
  unfold ready
  split
  · rw [List.length_replicate]
  · omega

namespace Reading

variable {e : Reading} {arrived rest m : Bytes} {closed : Bool} {n k : Nat} {ms : List Bytes}

/-- The bytes of the frame that is not complete. -/
def pending (e : Reading) : Bytes :=
  if e.leftReadLen = 0 then e.readHeadBuffer.take e.lastReadHeadPos
  else encodeBE (e.lastReadPos + e.leftReadLen + 4) ++ e.readCacheBuffer.take e.lastReadPos

/-- In the middle of a length, or of a body that has room. -/
structure WellFormed (isLargeBufferMode : Bool) (e : Reading) : Prop where
  head : e.readHeadBuffer.length = 4
  headPos : e.lastReadHeadPos < 4
  body : e.leftReadLen > 0 → e.lastReadHeadPos = 0 ∧ e.lastReadPos + e.leftReadLen ≤ maxValueSize isLargeBufferMode ∧
    e.lastReadPos + e.leftReadLen ≤ e.readCacheBuffer.length

/-- A call on a stream that goes on with the frames of `ms`: what it took belongs to them, the message that it delivers is the
first of them, and it fails only on a closed connection. -/
structure Advances (isLargeBufferMode : Bool) (e : Reading) (arrived : Bytes) (closed : Bool) (ms : List Bytes)
    (r : ReadResult) : Prop where
  taken : r.taken <+: arrived
  done : ∃ ms', ms = r.done.toList ++ ms'
  pending : ∃ p, e.pending ++ r.taken = frames r.done.toList ++ p ∧ Partial p ∧
    (r.ret = 0 → r.event.WellFormed isLargeBufferMode ∧ r.event.pending = p)
  closed : r.ret ≠ 0 → closed = true

theorem pending_partial (h : e.WellFormed isLargeBufferMode) : Partial e.pending := by
  unfold pending
  split
  · apply Partial.head
    have := h.headPos
    rw [List.length_take]
    omega
  · rename_i hleft
    obtain ⟨-, hmax, hroom⟩ := h.body (by omega)
    have hbound := maxValueSize_bounds isLargeBufferMode
    apply Partial.body (by omega)
    rw [List.length_take]
    omega

/-- A body of which `bytes` more have come. -/
theorem pending_body (hleft : e.leftReadLen ≠ 0) :
    e.pending = encodeBE (e.lastReadPos + e.leftReadLen + 4) ++ e.readCacheBuffer.take e.lastReadPos := if_neg hleft

theorem pending_head (hleft : e.leftReadLen = 0) : e.pending = e.readHeadBuffer.take e.lastReadHeadPos := if_pos hleft

/-- The peer has closed the connection, and nothing is left to read. -/
theorem advances_closed (h : e.WellFormed isLargeBufferMode) (ms : List Bytes) :
    Advances isLargeBufferMode e [] true ms ⟨e, [], none, -1⟩ where
  taken := List.nil_prefix
  done := ⟨ms, rfl⟩
  pending := ⟨e.pending, by simp, pending_partial h, fun hret => absurd hret (by simp)⟩
  closed _ := rfl

/-- **In the middle of a body.** -/
theorem readLeft_advances (h : e.WellFormed isLargeBufferMode) (hleft : e.leftReadLen > 0)
    (hms : ∀ m ∈ ms, Framable isLargeBufferMode m) (hstream : e.pending ++ arrived <+: frames ms)
    (hready : arrived ≠ [] ∨ closed = true) :
    Advances isLargeBufferMode e arrived closed ms (readLeft arrived closed n e) := by
  obtain ⟨hpos, hmax, hroom⟩ := h.body hleft
  by_cases hnil : arrived = []
  · obtain rfl : closed = true := hready.resolve_left fun h => h hnil
    subst hnil
    have heq : readLeft [] true n e = ⟨e, [], none, -1⟩ := by
      unfold readLeft
      rw [receive_nil hleft]
      rfl
    rw [heq]
    exact advances_closed h ms
  obtain ⟨bytes, hrecv, hne, hpre, hle⟩ := receive_some closed n hleft hnil
  have hpending := pending_body (e := e) (by omega)
  rw [hpending, List.append_assoc] at hstream
  obtain ⟨m, ms', rfl, hhead, hbody⟩ := frames_uncons (encodeBE_length _) hstream
  have hbound := maxValueSize_bounds isLargeBufferMode
  have hlen : e.lastReadPos + e.leftReadLen = m.length := by
    have := encodeBE_inj (by omega) (hms m List.mem_cons_self).short hhead
    omega
  have htake := take_writeAt (show e.lastReadPos ≤ e.readCacheBuffer.length by omega) bytes
  have heq : readLeft arrived closed n e =
      if e.leftReadLen - bytes.length = 0 then
        ⟨{ e with readCacheBuffer := writeAt e.readCacheBuffer e.lastReadPos bytes, leftReadLen := 0, lastReadPos := 0 }, bytes,
          some ((writeAt e.readCacheBuffer e.lastReadPos bytes).take (e.lastReadPos + bytes.length)), 0⟩
      else
        ⟨{ e with readCacheBuffer := writeAt e.readCacheBuffer e.lastReadPos bytes,
                  leftReadLen := e.leftReadLen - bytes.length, lastReadPos := e.lastReadPos + bytes.length }, bytes, none, 0⟩ := by
    unfold readLeft
    rw [hrecv]
    exact if_neg hne
  rw [heq]
  by_cases hdone : e.leftReadLen - bytes.length = 0
  · rw [if_pos hdone, htake]
    have hm : e.readCacheBuffer.take e.lastReadPos ++ bytes = m := by
      have hpre : e.readCacheBuffer.take e.lastReadPos ++ bytes <+: m ++ frames ms' :=
        ((List.prefix_append_right_inj _).mpr hpre).trans hbody
      have hlength : (e.readCacheBuffer.take e.lastReadPos ++ bytes).length = m.length := by
        rw [List.length_append, List.length_take]
        omega
      exact (List.prefix_of_prefix_length_le hpre (List.prefix_append m _) (by omega)).eq_of_length hlength
    rw [hm]
    refine ⟨hpre, ⟨ms', rfl⟩, ⟨[], ?_, Partial.nil, fun _ => ⟨⟨h.head, h.headPos, fun hpos => absurd hpos (by simp)⟩, ?_⟩⟩,
      fun hret => absurd rfl hret⟩
    · rw [hpending, hhead, List.append_assoc, hm]
      simp [frame]
    · rw [pending_head rfl]
      show e.readHeadBuffer.take e.lastReadHeadPos = []
      rw [hpos, List.take_zero]
  · rw [if_neg hdone]
    have hwf : WellFormed isLargeBufferMode
        { e with readCacheBuffer := writeAt e.readCacheBuffer e.lastReadPos bytes,
                 leftReadLen := e.leftReadLen - bytes.length, lastReadPos := e.lastReadPos + bytes.length } := by
      refine ⟨h.head, h.headPos, fun _ => ⟨hpos, ?_, ?_⟩⟩
      · show e.lastReadPos + bytes.length + (e.leftReadLen - bytes.length) ≤ _
        omega
      · show e.lastReadPos + bytes.length + (e.leftReadLen - bytes.length) ≤ (writeAt _ _ _).length
        rw [length_writeAt]
        omega
    refine ⟨hpre, ⟨m :: ms', rfl⟩, ⟨_, ?_, pending_partial hwf, fun _ => ⟨hwf, rfl⟩⟩, fun hret => absurd rfl hret⟩
    have hsum : e.lastReadPos + bytes.length + (e.leftReadLen - bytes.length) = e.lastReadPos + e.leftReadLen := by omega
    have hnew := pending_body
      (e := { e with readCacheBuffer := writeAt e.readCacheBuffer e.lastReadPos bytes,
                     leftReadLen := e.leftReadLen - bytes.length, lastReadPos := e.lastReadPos + bytes.length }) hdone
    simp only [hsum, htake] at hnew
    rw [hnew, hpending, Option.toList_none, frames_nil, List.nil_append, List.append_assoc]

/-- The length of the frame has just been read. -/
def startBody (len : Nat) (e : Reading) : Reading :=
  { e with lastReadHeadPos := 0, readCacheBuffer := ready e.readCacheBuffer len, leftReadLen := len, lastReadPos := 0 }

theorem startBody_wellFormed {len : Nat} (hhead : e.readHeadBuffer.length = 4) (hlen : len ≤ maxValueSize isLargeBufferMode) :
    (e.startBody len).WellFormed isLargeBufferMode := by
  refine ⟨hhead, Nat.zero_lt_succ 3, fun _ => ⟨rfl, ?_, ?_⟩⟩
  · show 0 + len ≤ _
    omega
  · have hroom := ready_length e.readCacheBuffer len
    show 0 + len ≤ (ready e.readCacheBuffer len).length
    omega

theorem startBody_pending {len : Nat} (hlen : len ≠ 0) : (e.startBody len).pending = encodeBE (len + 4) := by
  rw [pending_body hlen]
  show encodeBE (0 + len + 4) ++ (ready e.readCacheBuffer len).take 0 = _
  rw [List.take_zero, List.append_nil, Nat.zero_add]

/-- The second `receive` goes on as the next call would, where it finds something. -/
theorem readBody_eq {len : Nat} {head : Bytes} (hlen : 0 < len) (hready : arrived ≠ [] ∨ closed = true) :
    readBody arrived closed k len head { e with lastReadHeadPos := 0 } =
      { readLeft arrived closed k (e.startBody len) with
        taken := head ++ (readLeft arrived closed k (e.startBody len)).taken } := by
  by_cases hnil : arrived = []
  · subst hnil
    have hclosed : closed = true := hready.resolve_left fun h => h rfl
    subst hclosed
    have hrecv : receive [] true k len = ([], false) := receive_nil hlen
    have hleft : (e.startBody len).leftReadLen = len := rfl
    unfold readBody readLeft
    rw [hleft, hrecv]
    simp [startBody]
  · obtain ⟨bytes, hrecv, hne, -, hle⟩ := receive_some closed k hlen hnil
    have hleft : (e.startBody len).leftReadLen = len := rfl
    unfold readBody readLeft
    rw [hleft, hrecv]
    by_cases hdone : bytes.length = len
    · simp [hne, hdone, startBody]
    · have hlt : bytes.length < len := by omega
      have hsub : len - bytes.length ≠ 0 := by omega
      simp [hne, hdone, hlt, hsub, startBody]

theorem readBody_wait {len : Nat} {head : Bytes} (hlen : 0 < len) :
    readBody [] false k len head { e with lastReadHeadPos := 0 } = ⟨e.startBody len, head, none, 0⟩ := by
  unfold readBody
  rw [receive_nil hlen]
  rfl

/-- Bytes that complete the length come first. -/
theorem Advances.prepend {e' : Reading} {bytes : Bytes} {r : ReadResult} (hpending : e.pending ++ bytes = e'.pending)
    (h : Advances isLargeBufferMode e' arrived closed ms r) :
    Advances isLargeBufferMode e (bytes ++ arrived) closed ms { r with taken := bytes ++ r.taken } := by
  obtain ⟨p, hp, hpart, hret⟩ := h.pending
  refine ⟨(List.prefix_append_right_inj _).mpr h.taken, h.done, ⟨p, ?_, hpart, hret⟩, h.closed⟩
  show e.pending ++ (bytes ++ r.taken) = _
  rw [← List.append_assoc, hpending, hp]

/-- More of the length has been read. -/
def addHead (bytes : Bytes) (e : Reading) : Reading :=
  { e with
    readHeadBuffer := writeAt e.readHeadBuffer e.lastReadHeadPos bytes
    lastReadHeadPos := e.lastReadHeadPos + bytes.length }

theorem addHead_head (h : e.WellFormed isLargeBufferMode) {bytes : Bytes} (hle : e.lastReadHeadPos + bytes.length ≤ 4) :
    (e.addHead bytes).readHeadBuffer.length = 4 ∧
      (e.addHead bytes).readHeadBuffer.take (e.addHead bytes).lastReadHeadPos =
        e.readHeadBuffer.take e.lastReadHeadPos ++ bytes := by
  have hhead := h.head
  have hpos := h.headPos
  constructor
  · show (writeAt e.readHeadBuffer e.lastReadHeadPos bytes).length = 4
    rw [length_writeAt, hhead]
    omega
  · exact take_writeAt (by omega) bytes

/-- **A part of a length.** -/
theorem onRead_head (h : e.WellFormed isLargeBufferMode) (hleft : e.leftReadLen = 0) {bytes : Bytes} (ms : List Bytes)
    (hrecv : receive arrived closed n (4 - e.lastReadHeadPos) = (bytes, false)) (hne : bytes ≠ []) (hpre : bytes <+: arrived)
    (hshort : e.lastReadHeadPos + bytes.length < 4) :
    Advances isLargeBufferMode e arrived closed ms (e.onRead isLargeBufferMode arrived closed n k) := by
  have heq : e.onRead isLargeBufferMode arrived closed n k = ⟨e.addHead bytes, bytes, none, 0⟩ := by
    unfold onRead
    rw [if_neg (by omega), hrecv]
    exact (if_neg hne).trans (if_pos hshort)
  obtain ⟨hhead, htake⟩ := addHead_head h hshort.le
  have hwf : (e.addHead bytes).WellFormed isLargeBufferMode :=
    ⟨hhead, hshort, fun hpos => absurd hpos (by show ¬ e.leftReadLen > 0; omega)⟩
  rw [heq]
  refine ⟨hpre, ⟨ms, rfl⟩, ⟨_, ?_, pending_partial hwf, fun _ => ⟨hwf, rfl⟩⟩, fun hret => absurd rfl hret⟩
  rw [pending_head (e := e.addHead bytes) hleft, htake, pending_head hleft, Option.toList_none, frames_nil, List.nil_append]

/-- **The end of a length**, and what has come of the body. -/
theorem onRead_body (h : e.WellFormed isLargeBufferMode) (hleft : e.leftReadLen = 0) {bytes : Bytes}
    (hrecv : receive (bytes ++ rest) closed n (4 - e.lastReadHeadPos) = (bytes, false)) (hne : bytes ≠ [])
    (hfour : e.lastReadHeadPos + bytes.length = 4) (hms : ∀ m ∈ ms, Framable isLargeBufferMode m)
    (hstream : e.pending ++ (bytes ++ rest) <+: frames ms) :
    Advances isLargeBufferMode e (bytes ++ rest) closed ms (e.onRead isLargeBufferMode (bytes ++ rest) closed n k) := by
  obtain ⟨hhead, htake⟩ := addHead_head h hfour.le
  generalize hread : e.addHead bytes = e' at hhead htake
  have hpos' : e'.lastReadHeadPos = 4 := by
    rw [← hread]
    exact hfour
  rw [hpos', List.take_of_length_le hhead.le] at htake
  -- the four bytes are the length of the first message
  rw [pending_head hleft, ← List.append_assoc, ← htake] at hstream
  obtain ⟨m, ms', rfl, hlenbytes, hbody⟩ := frames_uncons hhead hstream
  have hm := hms m List.mem_cons_self
  have hpos : 0 < m.length := List.length_pos_of_ne_nil hm.ne_nil
  have hlen : ((decodeBE e'.readHeadBuffer : Int) - 4).bmod (2 ^ 32) = m.length := by
    have hbound := maxValueSize_bounds isLargeBufferMode
    have hle := hm.le
    rw [hlenbytes, decodeBE_encodeBE hm.short, Int.bmod_def]
    omega
  have hstart : e.pending ++ bytes = (e'.startBody m.length).pending := by
    rw [startBody_pending (by omega), ← hlenbytes, htake, pending_head hleft]
  have hwf := startBody_wellFormed (e := e') hhead hm.le
  have heq : e.onRead isLargeBufferMode (bytes ++ rest) closed n k =
      readBody rest closed k m.length bytes { e' with lastReadHeadPos := 0 } := by
    have hle : ¬ ((m.length : Int) < 0 ∨ (m.length : Int) > maxValueSize isLargeBufferMode) := by
      have := hm.le
      omega
    rw [← hread] at hlen ⊢
    have hlen : ((decodeBE (writeAt e.readHeadBuffer e.lastReadHeadPos bytes) : Int) - 4).bmod (2 ^ 32) = m.length := hlen
    unfold onRead
    rw [if_neg (by omega), hrecv]
    simp only [if_neg hne, hfour, Nat.lt_irrefl, if_false, hlen, List.drop_left, Int.toNat_natCast]
    rw [if_neg hle]
    rfl
  rw [heq]
  by_cases hmore : rest ≠ [] ∨ closed = true
  · have hnext : Advances isLargeBufferMode _ rest closed (m :: ms') (readLeft rest closed k _) :=
      readLeft_advances hwf hpos hms (by
        rw [startBody_pending (by omega), frames_cons, frame, List.append_assoc]
        exact (List.prefix_append_right_inj _).mpr hbody) hmore
    rw [readBody_eq (e := e') hpos hmore]
    exact hnext.prepend hstart
  · obtain ⟨rfl, rfl⟩ : rest = [] ∧ closed = false := by simpa using hmore
    rw [readBody_wait (e := e') hpos]
    refine ⟨List.prefix_append _ _, ⟨m :: ms', rfl⟩, ⟨_, ?_, pending_partial hwf, fun _ => ⟨hwf, rfl⟩⟩,
      fun hret => absurd rfl hret⟩
    rw [hstart]
    rfl

/-- **A call of `OnRead`.** -/
theorem onRead_advances (h : e.WellFormed isLargeBufferMode) (hms : ∀ m ∈ ms, Framable isLargeBufferMode m)
    (hstream : e.pending ++ arrived <+: frames ms) (hready : arrived ≠ [] ∨ closed = true) :
    Advances isLargeBufferMode e arrived closed ms (e.onRead isLargeBufferMode arrived closed n k) := by
  by_cases hleft : e.leftReadLen > 0
  · have heq : e.onRead isLargeBufferMode arrived closed n k = readLeft arrived closed n e := if_pos hleft
    rw [heq]
    exact readLeft_advances h hleft hms hstream hready
  have hzero : e.leftReadLen = 0 := by omega
  have hneed : 0 < 4 - e.lastReadHeadPos := by
    have := h.headPos
    omega
  by_cases hnil : arrived = []
  · obtain rfl : closed = true := hready.resolve_left fun h => h hnil
    subst hnil
    have heq : e.onRead isLargeBufferMode [] true n k = ⟨e, [], none, -1⟩ := by
      unfold onRead
      rw [if_neg hleft, receive_nil hneed]
      rfl
    rw [heq]
    exact advances_closed h ms
  obtain ⟨bytes, hrecv, hne, hpre, hle⟩ := receive_some closed n hneed hnil
  by_cases hshort : e.lastReadHeadPos + bytes.length < 4
  · exact onRead_head h hzero ms hrecv hne hpre hshort
  · obtain ⟨rest, rfl⟩ := hpre
    exact onRead_body h hzero hrecv hne (by omega) hms hstream

end Reading

/-! ## Sending -/

/-- `rest` are the bytes of the last frame that were not written. -/
def Unwritten (l : Link) (rest : Bytes) : Prop :=
  rest = [] ∧ l.written = frames l.sent ∨
    ∃ ms m p, l.sent = ms ++ [m] ∧ l.written = frames ms ++ p ∧ p ++ rest = frame m ∧ rest ≠ []

section Unwritten

variable {l : Link} {rest bytes more m : Bytes}

/-- The socket takes a part of a frame. -/
theorem Unwritten.part {ms : List Bytes} {p : Bytes} (hsent : l.sent = ms ++ [m]) (hwritten : l.written = frames ms ++ p)
    (hframe : p ++ rest = frame m) : Unwritten l rest := by
  by_cases hrest : rest = []
  · subst hrest
    rw [List.append_nil] at hframe
    refine .inl ⟨rfl, ?_⟩
    rw [hwritten, hsent, hframe]
    simp
  · exact .inr ⟨ms, m, p, hsent, hwritten, hframe, hrest⟩

/-- The socket takes bytes of what was left. -/
theorem Unwritten.write (h : Unwritten l (bytes ++ more)) : Unwritten (l.write bytes none) more := by
  have hsent : (l.write bytes none).sent = l.sent := List.append_nil _
  obtain ⟨hnil, hwritten⟩ | ⟨ms, m, p, hms, hwritten, hframe, -⟩ := h
  · obtain ⟨rfl, rfl⟩ := List.append_eq_nil_iff.mp hnil
    refine .inl ⟨rfl, ?_⟩
    show l.written ++ [] = _
    rw [List.append_nil, hsent, hwritten]
  · refine Unwritten.part (p := p ++ bytes) (hsent.trans hms) ?_ (by rw [List.append_assoc, hframe])
    show l.written ++ bytes = _
    rw [hwritten, List.append_assoc]

/-- A message is taken from the queue. -/
theorem Unwritten.take (h : Unwritten l []) (m : Bytes) : Unwritten { l with sent := l.sent ++ [m] } (frame m) := by
  obtain ⟨-, hwritten⟩ | ⟨-, -, -, -, -, -, hne⟩ := h
  · exact Unwritten.part (p := []) rfl (hwritten.trans (List.append_nil _).symm) rfl
  · exact absurd rfl hne

/-- What has been written is whole but for the last frame. -/
theorem Unwritten.frames (h : Unwritten l rest) (hms : ∀ m ∈ l.sent, Short m) :
    ∃ ms p, l.written = frames ms ++ p ∧ Partial p ∧ ∃ lost : Option Bytes, l.sent = ms ++ lost.toList := by
  obtain ⟨-, hwritten⟩ | ⟨ms, m, p, hsent, hwritten, hframe, hne⟩ := h
  · exact ⟨l.sent, [], by rw [hwritten, List.append_nil], Partial.nil, none, (List.append_nil _).symm⟩
  · refine ⟨ms, p, hwritten, ?_, some m, hsent⟩
    refine Partial.of_begin (hms m (by simp [hsent])) ⟨rest, hframe⟩ fun hp => hne ?_
    rw [hp] at hframe
    exact List.append_cancel_left (hframe.trans (List.append_nil _).symm)

theorem Unwritten.begins (h : Unwritten l rest) : l.written <+: Framing.frames l.sent := by
  obtain ⟨-, hwritten⟩ | ⟨ms, m, p, hsent, hwritten, hframe, -⟩ := h
  · rw [hwritten]
  · refine ⟨rest, ?_⟩
    rw [hwritten, hsent, List.append_assoc, hframe]
    simp

end Unwritten

namespace Writing

variable {e : Writing} {l : Link} {s : Sending} {now : Nat} {m : Bytes}

/-- The bytes of the frame that the socket has not taken. -/
def remaining (e : Writing) : Bytes := (e.writeCacheBuffer.drop e.lastWritePos).take e.leftWriteLen

def WellFormed (e : Writing) : Prop := e.lastWritePos + e.leftWriteLen ≤ e.writeCacheBuffer.length

/-- A turn of the loop on a connection: what the socket took belongs to the frame that is being written. -/
structure Advances (l : Link) (e : Writing) (r : WriteResult) : Prop where
  unwritten : ∃ rest, Unwritten (l.write r.accepted r.message) rest ∧ (r.event.leftWriteLen = 0 → rest = []) ∧
    (r.ret ≠ .thrown → r.event.WellFormed ∧ r.event.remaining = rest)
  events : r.event.events = e.events
  inLoop : r.event.inLoop = e.inLoop
  queue : ∀ x ∈ r.event.inQueue, x ∈ e.inQueue
  message : ∀ m ∈ r.message, ∃ t, (t, m) ∈ e.inQueue

/-- The socket takes the first bytes, and not all where it throws. -/
theorem send_spec (data : Bytes) (s : Sending) :
    ∃ bytes more throws, send data s = (bytes, throws) ∧ data = bytes ++ more ∧ (throws = true → more ≠ []) := by
  refine ⟨_, data.drop s.accepted, _, rfl, (List.take_append_drop _ _).symm, fun h => ?_⟩
  simp only [Bool.and_eq_true, decide_eq_true_eq] at h
  apply List.ne_nil_of_length_pos
  rw [List.length_drop]
  omega

theorem addEvent_of_events (h : e.events = true) : e.addEvent = e := if_pos h

theorem remaining_length (h : e.WellFormed) : e.remaining.length = e.leftWriteLen := by
  unfold WellFormed at h
  rw [remaining, List.length_take, List.length_drop]
  omega

/-- The rest of a frame after `n` more bytes. -/
theorem remaining_drop {e' : Writing} {n : Nat} (hcache : e'.writeCacheBuffer = e.writeCacheBuffer)
    (hpos : e'.lastWritePos = e.lastWritePos + n) (hleft : e'.leftWriteLen = e.leftWriteLen - n) :
    e'.remaining = e.remaining.drop n := by
  rw [remaining, remaining, hcache, hpos, hleft, List.drop_take, List.drop_drop]

theorem remaining_nil (h : e.leftWriteLen = 0) : e.remaining = [] := by
  rw [remaining, h, List.take_zero]

theorem writeLeft_eq {bytes : Bytes} {throws : Bool} (hsend : send e.remaining s = (bytes, throws)) :
    writeLeft s e =
      if throws then ⟨e, bytes, none, .thrown⟩
      else if bytes = [] then ⟨e.addEvent, [], none, .wait⟩
      else if e.leftWriteLen - bytes.length = 0 then ⟨{ e with leftWriteLen := 0, lastWritePos := 0 }, bytes, none, .ok⟩
      else ⟨{ e with leftWriteLen := e.leftWriteLen - bytes.length, lastWritePos := e.lastWritePos + bytes.length }, bytes,
        none, .ok⟩ := by
  unfold remaining at hsend
  unfold writeLeft
  rw [hsend]

theorem writeLeft_message : (writeLeft s e).message = none := by
  obtain ⟨bytes, more, throws, hsend, -, -⟩ := send_spec e.remaining s
  rw [writeLeft_eq hsend]
  split_ifs <;> rfl

/-- **In the middle of a frame.** -/
theorem writeLeft_advances (h : e.WellFormed) (hevents : e.events = true) (hleft : e.leftWriteLen > 0)
    (hl : Unwritten l e.remaining) : Advances l e (writeLeft s e) := by
  have hlen := remaining_length h
  obtain ⟨bytes, more, throws, hsend, hdata, hthrows⟩ := send_spec e.remaining s
  have hsum : bytes.length + more.length = e.leftWriteLen := by rw [← hlen, hdata, List.length_append]
  rw [hdata] at hl
  have hwrite := hl.write
  rw [writeLeft_eq hsend]
  cases throws with
  | true =>
    rw [if_pos rfl]
    refine ⟨⟨more, hwrite, fun hzero => ?_, fun hret => absurd rfl hret⟩, rfl, rfl, fun x hx => hx, fun _ hm => by cases hm⟩
    exact absurd hzero (Nat.ne_of_gt hleft)
  | false =>
    by_cases hne : bytes = []
    · subst hne
      rw [if_neg (by simp), if_pos rfl, addEvent_of_events hevents]
      refine ⟨⟨more, hwrite, fun hzero => ?_, fun _ => ⟨h, hdata⟩⟩, rfl, rfl, fun x hx => hx, fun _ hm => by cases hm⟩
      exact absurd hzero (Nat.ne_of_gt hleft)
    · rw [if_neg (by simp), if_neg hne]
      by_cases hdone : e.leftWriteLen - bytes.length = 0
      · have hmore : more = [] := List.eq_nil_of_length_eq_zero (by omega)
        rw [if_pos hdone]
        refine ⟨⟨more, hwrite, fun _ => hmore, fun _ => ⟨Nat.zero_le _, ?_⟩⟩, rfl, rfl, fun x hx => hx, fun _ hm => by cases hm⟩
        rw [hmore]
        exact remaining_nil rfl
      · rw [if_neg hdone]
        unfold WellFormed at h
        refine ⟨⟨more, hwrite, fun hzero => absurd hzero hdone, fun _ => ⟨?_, ?_⟩⟩, rfl, rfl, fun x hx => hx,
          fun _ hm => by cases hm⟩
        · show e.lastWritePos + bytes.length + (e.leftWriteLen - bytes.length) ≤ e.writeCacheBuffer.length
          omega
        · have hrest : remaining { e with
              leftWriteLen := e.leftWriteLen - bytes.length, lastWritePos := e.lastWritePos + bytes.length } =
              e.remaining.drop bytes.length := remaining_drop rfl rfl rfl
          rw [hdata, List.drop_left] at hrest
          exact hrest

/-- The frame of a message is put into the buffer. -/
def startFrame (m : Bytes) (e : Writing) : Writing :=
  { e with writeCacheBuffer := writeAt (ready e.writeCacheBuffer (m.length + 4)) 0 (frame m),
           leftWriteLen := m.length + 4, lastWritePos := 0 }

theorem startFrame_wellFormed : (e.startFrame m).WellFormed := by
  show 0 + (m.length + 4) ≤ (writeAt (ready e.writeCacheBuffer (m.length + 4)) 0 (frame m)).length
  rw [length_writeAt, frame_length]
  omega

theorem startFrame_remaining : (e.startFrame m).remaining = frame m := by
  have htake := take_writeAt (Nat.zero_le (ready e.writeCacheBuffer (m.length + 4)).length) (frame m)
  rw [Nat.zero_add, frame_length, List.take_zero, List.nil_append] at htake
  exact htake

/-- A new frame is written as one that was begun. -/
theorem writeMessage_eq : writeMessage m s e = { writeLeft s (e.startFrame m) with message := some m } := by
  obtain ⟨bytes, more, throws, hsend, hdata, -⟩ := send_spec (e.startFrame m).remaining s
  have hle : bytes.length ≤ m.length + 4 := by
    have hlen := congrArg List.length hdata
    rw [startFrame_remaining, frame_length, List.length_append] at hlen
    omega
  have hmessage : writeMessage m s e =
      if throws then ⟨e.startFrame m, bytes, some m, .thrown⟩
      else if bytes = [] then ⟨(e.startFrame m).addEvent, [], some m, .wait⟩
      else if bytes.length = m.length + 4 then
        ⟨{ e.startFrame m with leftWriteLen := 0, lastWritePos := 0 }, bytes, some m, .ok⟩
      else if bytes.length < m.length + 4 then
        ⟨{ e.startFrame m with lastWritePos := bytes.length, leftWriteLen := m.length + 4 - bytes.length }, bytes, some m, .ok⟩
      else ⟨e.startFrame m, bytes, some m, .ok⟩ := by
    have hcache : send ((writeAt (ready e.writeCacheBuffer (m.length + 4)) 0 (frame m)).take (m.length + 4)) s =
        (bytes, throws) := hsend
    unfold writeMessage
    dsimp only
    rw [hcache]
    rfl
  rw [hmessage, writeLeft_eq hsend]
  cases throws with
  | true => rfl
  | false =>
    by_cases hne : bytes = []
    · simp [hne]
    · by_cases hdone : bytes.length = m.length + 4
      · simp [hne, hdone, startFrame]
      · have hlt : bytes.length < m.length + 4 := by omega
        have hsub : m.length + 4 - bytes.length ≠ 0 := by omega
        simp [hne, hdone, hlt, hsub, startFrame]

/-- **A turn of the loop of `OnWrite`.** -/
theorem doOnWrite_advances (isLargeBufferMode : Bool) (now : Nat) (s : Sending) (h : e.WellFormed) (hevents : e.events = true) (hl : Unwritten l e.remaining) :
    Advances l e (e.doOnWrite isLargeBufferMode now s) := by
  by_cases hleft : e.leftWriteLen > 0
  · have heq : e.doOnWrite isLargeBufferMode now s = writeLeft s e := if_pos hleft
    rw [heq]
    exact writeLeft_advances h hevents hleft hl
  have hzero : e.leftWriteLen = 0 := by omega
  rw [remaining_nil hzero] at hl
  have hidle : Unwritten (l.write [] none) [] := by simpa [Link.write] using hl
  unfold doOnWrite
  rw [if_neg hleft]
  cases hqueue : e.inQueue with
  | nil =>
    refine ⟨⟨[], hidle, fun _ => rfl, fun _ => ⟨h, remaining_nil hzero⟩⟩, rfl, rfl, fun x hx => hx,
      fun _ hm => by cases hm⟩
  | cons x queue =>
    obtain ⟨enqueueTime, m⟩ := x
    have hsub : ∀ x ∈ queue, x ∈ e.inQueue := fun x hx => by rw [hqueue]; exact List.mem_cons_of_mem _ hx
    dsimp only
    generalize (if now > enqueueTime then toInt (now - enqueueTime) else 0 : Int) = delayMs
    by_cases hold : delayMs > tcpOutQueueDropTimeMs isLargeBufferMode
    · rw [if_pos hold]
      refine ⟨⟨[], hidle, fun _ => rfl, fun _ => ⟨h, remaining_nil hzero⟩⟩, rfl, rfl, hsub, fun _ hm => by cases hm⟩
    · rw [if_neg hold]
      have htake := writeLeft_advances (s := s) (e := startFrame m { e with
          inQueue := queue, queueMemSize := e.queueMemSize - m.length }) startFrame_wellFormed hevents (Nat.succ_pos _)
        (by rw [startFrame_remaining]; exact hl.take m)
      rw [writeMessage_eq]
      obtain ⟨rest, hrest, hdone, hret⟩ := htake.unwritten
      refine ⟨⟨rest, ?_, hdone, hret⟩, htake.events, htake.inLoop, fun x hx => hsub x (htake.queue x hx), fun m' hm => ?_⟩
      · have hwrite : ∀ bytes, Link.write bytes none { l with sent := l.sent ++ [m] } = l.write bytes (some m) := by
          intro bytes
          simp [Link.write]
        rw [writeLeft_message, hwrite] at hrest
        exact hrest
      · obtain rfl : m = m' := Option.mem_some_iff.mp hm
        exact ⟨enqueueTime, by rw [hqueue]; exact List.mem_cons_self⟩

end Writing

/-! ## The invariant -/

/-- What holds on every connection. -/
structure Link.Invariant (isLargeBufferMode : Bool) (l : Link) : Prop where
  framable : ∀ m ∈ l.sent, Framable isLargeBufferMode m
  unwritten : ∃ rest, Unwritten l rest
  transit : l.closed = false → l.read ++ l.arrived ++ l.flight = l.written
  arrived : l.read ++ l.arrived <+: l.written
  reading : ∃ ms p, l.sent = l.delivered ++ ms ∧ l.read = frames l.delivered ++ p ∧ Partial p ∧
    (l.failed = false → l.reader.WellFormed isLargeBufferMode ∧ l.reader.pending = p)
  failed : l.failed = true → l.closed = true

namespace Link

variable {l : Link} {bytes : Bytes} {message : Option Bytes} {n k : Nat}

theorem Invariant.new : Invariant isLargeBufferMode {} where
  framable := by simp
  unwritten := ⟨[], .inl ⟨rfl, rfl⟩⟩
  transit _ := rfl
  arrived := List.nil_prefix
  reading := ⟨[], [], rfl, rfl, Partial.nil, fun _ => ⟨⟨rfl, by decide, by simp⟩, rfl⟩⟩
  failed h := by simp at h

theorem Invariant.write (h : l.Invariant isLargeBufferMode) (hmessage : ∀ m ∈ message, Framable isLargeBufferMode m)
    (hwritten : ∃ rest, Unwritten (l.write bytes message) rest) : (l.write bytes message).Invariant isLargeBufferMode := by
  obtain ⟨ms, p, hsent, hread, hpart, hreader⟩ := h.reading
  refine ⟨fun m hm => ?_, hwritten, fun hopen => ?_, h.arrived.trans (List.prefix_append _ _), ?_, h.failed⟩
  · obtain hm | hm := List.mem_append.mp hm
    · exact h.framable m hm
    · exact hmessage m (Option.mem_toList.mp hm)
  · show l.read ++ l.arrived ++ (l.flight ++ bytes) = l.written ++ bytes
    rw [← h.transit hopen, List.append_assoc, List.append_assoc, List.append_assoc]
  · refine ⟨ms ++ message.toList, p, ?_, hread, hpart, hreader⟩
    show l.sent ++ message.toList = l.delivered ++ (ms ++ message.toList)
    rw [hsent, List.append_assoc]

theorem Invariant.arrive (h : l.Invariant isLargeBufferMode) (hopen : l.closed = false) :
    (l.arrive n).Invariant isLargeBufferMode := by
  have htransit := h.transit hopen
  have hsplit : l.read ++ (l.arrived ++ l.flight.take n) ++ l.flight.drop n = l.written := by
    rw [← htransit, List.append_assoc, List.append_assoc, List.append_assoc, List.take_append_drop]
  exact ⟨h.framable, h.unwritten, fun _ => hsplit, ⟨_, hsplit⟩, h.reading, h.failed⟩

theorem Invariant.cut (h : l.Invariant isLargeBufferMode) : l.cut.Invariant isLargeBufferMode :=
  ⟨h.framable, h.unwritten, fun hopen => absurd hopen (by simp [Link.cut]), h.arrived, h.reading, fun _ => rfl⟩

theorem Invariant.begins (h : l.Invariant isLargeBufferMode) : l.read ++ l.arrived <+: frames l.sent := by
  obtain ⟨rest, hrest⟩ := h.unwritten
  exact h.arrived.trans hrest.begins

theorem Invariant.onRead (h : l.Invariant isLargeBufferMode) (hrun : l.failed = false)
    (hready : l.arrived ≠ [] ∨ l.closed = true) : (l.onRead isLargeBufferMode n k).Invariant isLargeBufferMode := by
  obtain ⟨ms, p, hsent, hread, hpart, hreader⟩ := h.reading
  obtain ⟨hwf, hpending⟩ := hreader hrun
  have hstream : l.reader.pending ++ l.arrived <+: frames ms := by
    have hbegins := h.begins
    rw [hread, hsent, frames_append, List.append_assoc, List.prefix_append_right_inj] at hbegins
    rwa [hpending]
  have hms : ∀ m ∈ ms, Framable isLargeBufferMode m := fun m hm =>
    h.framable m (by rw [hsent]; exact List.mem_append_right _ hm)
  have hadv := Reading.onRead_advances (n := n) (k := k) hwf hms hstream hready
  unfold Link.onRead
  generalize l.reader.onRead isLargeBufferMode l.arrived l.closed n k = r at hadv ⊢
  obtain ⟨rest, hrest⟩ := hadv.taken
  obtain ⟨ms', hms'⟩ := hadv.done
  obtain ⟨p', hp', hpart', hret⟩ := hadv.pending
  have hsplit : l.read ++ r.taken ++ l.arrived.drop r.taken.length = l.read ++ l.arrived := by
    rw [← hrest, List.drop_left, List.append_assoc]
  have harrived : l.read ++ r.taken ++ l.arrived.drop r.taken.length <+: l.written := hsplit ▸ h.arrived
  refine ⟨h.framable, h.unwritten, fun hopen => ?_, harrived, ⟨ms', p', ?_, ?_, hpart', fun hok => hret ?_⟩,
    fun hfail => hadv.closed (of_decide_eq_true hfail)⟩
  · show l.read ++ r.taken ++ l.arrived.drop r.taken.length ++ l.flight = l.written
    rw [hsplit, h.transit hopen]
  · show l.sent = l.delivered ++ r.done.toList ++ ms'
    rw [hsent, hms', List.append_assoc]
  · show l.read ++ r.taken = frames (l.delivered ++ r.done.toList) ++ p'
    rw [hread, List.append_assoc, ← hpending, hp', frames_append, List.append_assoc]
  · simpa using hok

/-- What a connection leaves undelivered: the messages `unread`, whose frames the socket took and the receiver has not read
whole, and the message that is being written. -/
structure Loses (l : Link) (unread : List Bytes) (writing : Option Bytes) : Prop where
  sent : l.sent = l.delivered ++ unread ++ writing.toList
  read : ∃ p, l.read = frames l.delivered ++ p ∧ Partial p
  written : ∃ p, l.written = frames (l.delivered ++ unread) ++ p ∧ Partial p
  all_read : l.read = l.written → unread = []

theorem Invariant.loses (h : l.Invariant isLargeBufferMode) : ∃ unread writing, l.Loses unread writing := by
  have hshort : ∀ m ∈ l.sent, Short m := fun m hm => (h.framable m hm).short
  obtain ⟨rest, hrest⟩ := h.unwritten
  obtain ⟨ms, q, hwritten, hq, writing, hsent⟩ := hrest.frames hshort
  obtain ⟨ms', p, hsent', hread, hp, -⟩ := h.reading
  have hdelivered : ∀ m ∈ l.delivered, Short m := fun m hm => hshort m (by rw [hsent']; exact List.mem_append_left _ hm)
  have hms : ∀ m ∈ ms, Short m := fun m hm => hshort m (by rw [hsent]; exact List.mem_append_left _ hm)
  have hbegins : frames l.delivered ++ p <+: frames ms ++ q := by
    rw [← hread, ← hwritten]
    exact (List.prefix_append _ _).trans h.arrived
  obtain ⟨unread, rfl⟩ := frames_prefix hdelivered hms hq hbegins
  refine ⟨unread, writing, hsent, ⟨p, hread, hp⟩, ⟨q, hwritten, hq⟩, fun hall => ?_⟩
  have heq : frames l.delivered ++ p = frames (l.delivered ++ unread) ++ q := by rw [← hread, hall, hwritten]
  have hsame := (frames_inj hdelivered hms hp hq heq).1
  exact List.append_cancel_left (hsame.symm.trans (List.append_nil _).symm)

theorem Invariant.delivers_all (h : l.Invariant isLargeBufferMode) (hread : l.read = l.written)
    (hwritten : l.written = frames l.sent) : l.delivered = l.sent := by
  have hshort : ∀ m ∈ l.sent, Short m := fun m hm => (h.framable m hm).short
  obtain ⟨ms, p, hsent, hread', hp, -⟩ := h.reading
  have heq : frames l.delivered ++ p = frames l.sent ++ [] := by rw [← hread', hread, hwritten, List.append_nil]
  have hdelivered : ∀ m ∈ l.delivered, Short m := fun m hm => hshort m (by rw [hsent]; exact List.mem_append_left _ hm)
  exact (frames_inj hdelivered hshort hp Partial.nil heq).1

end Link

namespace Channel

variable {c : Channel}

/-- `events` stays set while a broken connection waits to be opened again, so that nothing is written to it. -/
structure Invariant (isLargeBufferMode : Bool) (c : Channel) : Prop where
  events : c.writer.inLoop = true → c.writer.events = true
  queue : ∀ x ∈ c.writer.inQueue, Framable isLargeBufferMode x.2
  unwritten : ∃ rest, Unwritten c.link rest ∧ (c.writer.leftWriteLen = 0 → rest = []) ∧
    (c.writer.inLoop = true ∨ c.writer.events = false → c.writer.WellFormed ∧ c.writer.remaining = rest)
  links : ∀ l ∈ c.links, l.Invariant isLargeBufferMode
  sent : c.sent = c.links.reverse.flatMap Link.sent

namespace Invariant

theorem start : Invariant isLargeBufferMode {} where
  events h := by simp at h
  queue := by simp
  unwritten := ⟨[], .inl ⟨rfl, rfl⟩, fun _ => rfl, fun _ => ⟨Nat.zero_le _, rfl⟩⟩
  links l hl := by
    obtain rfl := List.mem_singleton.mp hl
    exact Link.Invariant.new
  sent := rfl

/-- The members of the sender that have to do with the queue. -/
theorem enqueue (h : c.Invariant isLargeBufferMode) {now : Nat} {message : Bytes}
    (hmessage : Framable isLargeBufferMode message) :
    Invariant isLargeBufferMode { c with writer := (c.writer.addMessage isLargeBufferMode now message).1 } := by
  unfold Writing.addMessage
  split_ifs
  · exact h
  · exact h
  · refine ⟨h.events, fun x hx => ?_, h.unwritten, h.links, h.sent⟩
    obtain hx | hx := List.mem_append.mp hx
    · exact h.queue x hx
    · obtain rfl := List.mem_singleton.mp hx
      exact hmessage

theorem reConnect (h : c.Invariant isLargeBufferMode) : c.reConnect.Invariant isLargeBufferMode := by
  refine ⟨fun _ => rfl, h.queue, ⟨[], .inl ⟨rfl, rfl⟩, fun _ => rfl, fun _ => ⟨Nat.zero_le _, ?_⟩⟩, fun l hl => ?_, ?_⟩
  · exact Writing.remaining_nil rfl
  · obtain rfl | hl := List.mem_cons.mp hl
    · exact Link.Invariant.new
    · exact h.links l hl
  · show c.sent = (({} : Link) :: c.links).reverse.flatMap Link.sent
    rw [List.reverse_cons, List.flatMap_append, ← h.sent]
    exact (List.append_nil _).symm

theorem addEvent (h : c.Invariant isLargeBufferMode) : Invariant isLargeBufferMode { c with writer := c.writer.addEvent } := by
  unfold Writing.addEvent
  split
  · exact h
  · rename_i hevents
    obtain ⟨rest, hrest, hzero, hwf⟩ := h.unwritten
    have hwf := hwf (.inr (by simpa using hevents))
    exact ⟨fun _ => rfl, h.queue, ⟨rest, hrest, hzero, fun _ => hwf⟩, h.links, h.sent⟩

theorem openWrite (h : c.Invariant isLargeBufferMode) : c.openWrite.Invariant isLargeBufferMode := by
  unfold Channel.openWrite
  split_ifs
  · exact h
  · obtain ⟨hevents, hqueue, hunwritten, hlinks, hsent⟩ := h.reConnect
    exact ⟨hevents, hqueue, hunwritten, hlinks, hsent⟩
  · exact h.addEvent

theorem onError (h : c.Invariant isLargeBufferMode) (isActive : Bool) (hevents : c.writer.events = true) :
    Invariant isLargeBufferMode { c with writer := c.writer.onError isActive } := by
  obtain ⟨rest, hrest, hzero, -⟩ := h.unwritten
  unfold Writing.onError
  cases isActive with
  | true =>
    exact ⟨fun hloop => by simp at hloop, h.queue, ⟨rest, hrest, hzero, fun hw => by simp [hevents] at hw⟩, h.links, h.sent⟩
  | false =>
    exact ⟨fun hloop => by simp at hloop, fun x hx => by simp at hx,
      ⟨rest, hrest, hzero, fun hw => by simp [hevents] at hw⟩, h.links, h.sent⟩

theorem writeDone (h : c.Invariant isLargeBufferMode) (hloop : c.writer.inLoop = true) :
    Invariant isLargeBufferMode { c with writer := c.writer.writeDone } := by
  obtain ⟨rest, hrest, hzero, hwf⟩ := h.unwritten
  have hwf := hwf (.inl hloop)
  unfold Writing.writeDone
  split
  · exact ⟨fun hloop => by simp at hloop, h.queue, ⟨rest, hrest, hzero, fun _ => hwf⟩, h.links, h.sent⟩
  · exact h

theorem doOnWrite (h : c.Invariant isLargeBufferMode) (hloop : c.writer.inLoop = true) {now : Nat} {s : Sending}
    {isActive : Bool} : (c.doOnWrite isLargeBufferMode now s isActive).Invariant isLargeBufferMode := by
  obtain ⟨_, hrest, -, hwell⟩ := h.unwritten
  obtain ⟨hwf, rfl⟩ := hwell (.inl hloop)
  have hevents := h.events hloop
  have hadv := Writing.doOnWrite_advances isLargeBufferMode now s hwf hevents hrest
  unfold Channel.doOnWrite
  generalize c.writer.doOnWrite isLargeBufferMode now s = r at hadv ⊢
  obtain ⟨rest, hwrite, hzero, hret⟩ := hadv.unwritten
  have hqueue : ∀ x ∈ r.event.inQueue, Framable isLargeBufferMode x.2 := fun x hx => h.queue x (hadv.queue x hx)
  have hmessage : ∀ m ∈ r.message, Framable isLargeBufferMode m := by
    intro m hm
    obtain ⟨t, ht⟩ := hadv.message m hm
    exact h.queue (t, m) ht
  have hlinks : ∀ l ∈ c.link.write r.accepted r.message :: c.old, l.Invariant isLargeBufferMode := by
    intro l hl
    obtain rfl | hl := List.mem_cons.mp hl
    · exact (h.links c.link List.mem_cons_self).write hmessage ⟨rest, hwrite⟩
    · exact h.links l (List.mem_cons_of_mem _ hl)
  have hsent : c.sent ++ r.message.toList = (c.link.write r.accepted r.message :: c.old).reverse.flatMap Link.sent := by
    rw [h.sent, Channel.links, List.reverse_cons, List.reverse_cons, List.flatMap_append, List.flatMap_append, List.append_assoc]
    simp [Link.write]
  have hon : r.event.events = true := hadv.events.trans hevents
  have hbefore (hok : r.ret ≠ .thrown) : Invariant isLargeBufferMode
      { c with writer := r.event, link := c.link.write r.accepted r.message, sent := c.sent ++ r.message.toList } :=
    ⟨fun _ => hon, hqueue, ⟨rest, hwrite, hzero, fun _ => hret hok⟩, hlinks, hsent⟩
  obtain ⟨event, accepted, message, ret⟩ := r
  cases ret with
  | ok => exact hbefore (by simp)
  | wait => exact hbefore (by simp)
  | thrown =>
    have hon : event.events = true := hon
    cases isActive with
    | true =>
      exact ⟨fun hloop => by simp [Writing.onError] at hloop, hqueue,
        ⟨rest, hwrite, hzero, fun hw => by simp [Writing.onError, hon] at hw⟩, hlinks, hsent⟩
    | false =>
      exact ⟨fun hloop => by simp [Writing.onError] at hloop, fun x hx => by simp [Writing.onError] at hx,
        ⟨rest, hwrite, hzero, fun hw => by simp [Writing.onError, hon] at hw⟩, hlinks, hsent⟩

theorem modify (h : c.Invariant isLargeBufferMode) {f : Link → Link} {i : Nat}
    (hf : ∀ l, c.links[i]? = some l → (f l).Invariant isLargeBufferMode)
    (hwritten : ∀ l, (f l).written = l.written ∧ (f l).sent = l.sent) : (c.modify f i).Invariant isLargeBufferMode := by
  have hunwritten : ∀ l rest, Unwritten l rest → Unwritten (f l) rest := by
    intro l rest hl
    unfold Unwritten at hl ⊢
    rwa [(hwritten l).1, (hwritten l).2]
  obtain ⟨rest, hrest, hzero, hwf⟩ := h.unwritten
  cases i with
  | zero =>
    refine ⟨h.events, h.queue, ⟨rest, hunwritten _ _ hrest, hzero, hwf⟩, fun l hl => ?_, ?_⟩
    · obtain rfl | hl := List.mem_cons.mp hl
      · exact hf c.link rfl
      · exact h.links l (List.mem_cons_of_mem _ hl)
    · show c.sent = (f c.link :: c.old).reverse.flatMap Link.sent
      rw [h.sent]
      simp [Channel.links, hwritten]
  | succ i =>
    refine ⟨h.events, h.queue, ⟨rest, hrest, hzero, hwf⟩, fun l hl => ?_, ?_⟩
    · obtain rfl | hl := List.mem_cons.mp hl
      · exact h.links c.link List.mem_cons_self
      · obtain ⟨j, hj⟩ := List.mem_iff_getElem?.mp hl
        change (c.old.modify i f)[j]? = some l at hj
        rw [List.getElem?_modify] at hj
        obtain ⟨x, hx, hxl⟩ := Option.map_eq_some_iff.mp hj
        by_cases hij : i = j
        · subst hij
          rw [if_pos rfl] at hxl
          exact hxl ▸ hf x hx
        · rw [if_neg hij] at hxl
          exact hxl ▸ h.links x (List.mem_cons_of_mem _ (List.mem_of_getElem? hx))
    · have hmap : (c.old.modify i f).map Link.sent = c.old.map Link.sent := by
        apply List.ext_getElem?
        intro j
        rw [List.getElem?_map, List.getElem?_map, List.getElem?_modify]
        cases c.old[j]? with
        | none => rfl
        | some x =>
          by_cases hij : i = j
          · simp [hij, hwritten x]
          · simp [hij]
      show c.sent = (c.link :: c.old.modify i f).reverse.flatMap Link.sent
      rw [h.sent]
      simp only [Channel.links, List.flatMap_def, List.map_reverse, List.map_cons, hmap]

/-- **One event.** -/
theorem step (h : c.Invariant isLargeBufferMode) {e : ChannelEvent} (he : Enabled isLargeBufferMode c e) :
    (c.step isLargeBufferMode e).Invariant isLargeBufferMode := by
  cases e with
  | addMessage now message => exact h.enqueue ⟨he.1, he.2⟩
  | openWrite => exact h.openWrite
  | doOnWrite now s isActive => exact h.doOnWrite he.1
  | writeDone => exact h.writeDone he.1
  | error isActive => exact h.onError isActive (h.events he)
  | timeout =>
    obtain ⟨hevents, hqueue, hunwritten, hlinks, hsent⟩ := h.reConnect
    exact ⟨hevents, hqueue, hunwritten, hlinks, hsent⟩
  | arrive i n =>
    obtain ⟨l, hl, hopen⟩ := he
    refine h.modify (fun l' hl' => ?_) fun l => ⟨rfl, rfl⟩
    obtain rfl : l = l' := by simpa [hl] using hl'
    exact (h.links l (List.mem_of_getElem? hl)).arrive hopen
  | cut i => exact h.modify (fun l hl => (h.links l (List.mem_of_getElem? hl)).cut) fun l => ⟨rfl, rfl⟩
  | onRead i n k =>
    obtain ⟨l, hl, hrun, hready⟩ := he
    refine h.modify (fun l' hl' => ?_) fun l => ⟨rfl, rfl⟩
    obtain rfl : l = l' := by simpa [hl] using hl'
    exact (h.links l (List.mem_of_getElem? hl)).onRead hrun hready

end Invariant

/-- **Every run.** -/
theorem Reachable.invariant (h : Reachable isLargeBufferMode c) : c.Invariant isLargeBufferMode := by
  induction h with
  | start => exact Invariant.start
  | next _ e he ih => exact ih.step he

/-- **What a channel delivers.** On every connection the messages delivered are the first of those that were sent on it, and
a receiver gives up only when the connection is closed. What is not delivered is the message that is being written and, before
it, those that were written and not read whole, which are none once all bytes that were written have been read. On the present
connection none is missing when no bytes are left to be written, either. The connections share out the messages that were
taken from the queue, in order. -/
theorem channel_delivers (h : Reachable isLargeBufferMode c) :
    (∀ l ∈ c.links, l.delivered <+: l.sent ∧ l.written <+: frames l.sent ∧ (l.failed = true → l.closed = true) ∧
      ∃ unread writing, l.Loses unread writing) ∧
    (c.writer.leftWriteLen = 0 → c.link.read = c.link.written → c.link.delivered = c.link.sent) ∧
    c.sent = c.links.reverse.flatMap Link.sent := by
  have hinv := h.invariant
  refine ⟨fun l hl => ?_, fun hleft hread => ?_, hinv.sent⟩
  · have hlink := hinv.links l hl
    obtain ⟨ms, p, hsent, -⟩ := hlink.reading
    obtain ⟨rest, hrest⟩ := hlink.unwritten
    exact ⟨⟨ms, hsent.symm⟩, hrest.begins, hlink.failed, hlink.loses⟩
  · obtain ⟨rest, hrest, hzero, -⟩ := hinv.unwritten
    obtain ⟨-, hwritten⟩ | ⟨-, -, -, -, -, -, hne⟩ := hrest
    · exact (hinv.links c.link List.mem_cons_self).delivers_all hread hwritten
    · exact absurd (hzero hleft) hne

/-! ## A connection that breaks -/

theorem Reachable.run (h : Reachable isLargeBufferMode c) {es : List ChannelEvent} (hes : Happens isLargeBufferMode c es) :
    Reachable isLargeBufferMode (es.foldl (Channel.step isLargeBufferMode) c) := by
  induction es generalizing c with
  | nil => exact h
  | cons e es ih => exact ih (h.next e hes.1) hes.2

/-- Three messages are queued. The first is read; the second is on its way, and of the third one byte is written, when the
connection breaks. -/
def brokenEvents : List ChannelEvent :=
  [.addMessage 0 [7], .addMessage 0 [8], .addMessage 0 [9], .addMessage 0 [10], .openWrite, .doOnWrite 0 ⟨3, false⟩ true,
    .doOnWrite 0 ⟨2, false⟩ true, .arrive 0 5, .onRead 0 4 1, .doOnWrite 0 ⟨5, false⟩ true, .doOnWrite 0 ⟨1, true⟩ true,
    .cut 0]

/-- The sender connects again, and sends the next message. -/
def reconnectedEvents : List ChannelEvent :=
  [.timeout, .onRead 1 4 1, .doOnWrite 0 ⟨5, false⟩ true, .arrive 0 5, .onRead 0 4 1]

def reconnected : Channel := (brokenEvents ++ reconnectedEvents).foldl (step false) {}

theorem happens_reconnected : Happens false {} (brokenEvents ++ reconnectedEvents) := by decide

theorem channel_delivers_reconnected : reconnected.link.delivered = [[10]] ∧ ∃ l ∈ reconnected.links,
    l.delivered = [[7]] ∧ ∃ unread writing, l.Loses unread writing ∧ unread ++ writing.toList = [[8], [9]] := by
  obtain ⟨hlinks, hpresent, -⟩ := channel_delivers (Reachable.start.run happens_reconnected)
  refine ⟨hpresent (by decide) (by decide), _, List.mem_cons_of_mem _ List.mem_cons_self, by decide, ?_⟩
  obtain ⟨-, -, -, unread, writing, hloses⟩ := hlinks _ (List.mem_cons_of_mem _ List.mem_cons_self)
  refine ⟨unread, writing, hloses, ?_⟩
  have hsent := hloses.sent
  rw [List.append_assoc] at hsent
  exact List.append_cancel_left (hsent.symm.trans (show _ = [[7]] ++ [[8], [9]] by decide))

/-- The second message was written whole, and is lost with the one that was being written. -/
theorem not_at_most_one_lost : ¬ ∀ c, Reachable false c → ∀ l ∈ c.old, l.failed = true →
    ∃ lost : Option Bytes, l.sent = l.delivered ++ lost.toList := by
  intro h
  obtain ⟨lost, hlost⟩ := h reconnected (Reachable.start.run happens_reconnected) _ List.mem_cons_self (by decide)
  have hsent : [[7], [8], [9]] = [[7]] ++ lost.toList := hlost
  cases lost with
  | none => cases hsent
  | some m => cases hsent

end Channel

end PhxPaxos
