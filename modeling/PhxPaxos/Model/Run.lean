import PhxPaxos.Model.Network

/-!
# Runs

A run given by its events (`Sys.run`), with a check that each message it delivers was sent (`Sys.canRun`), so that what
it ends in is reachable (`Reachable.of_run`); and the limits and the checksum function that the library is built with.
-/

namespace PhxPaxos

/-! ## The checksum -/

/-- `CRC32SKIP` -/
def crc32Skip : Nat := 8

/-- `crc32_tab` -/
def crc32Tab (i : Nat) : Nat :=
  (List.range 8).foldl (fun c _ => if c % 2 = 1 then (c / 2) ^^^ 0xedb88320 else c / 2) i

/-- The bytes that `crc32` reads: one, then every `crc32Skip`-th; the first argument counts down to the next. -/
def crc32Bytes : Nat → Bytes → Bytes
  | _, [] => []
  | 0, b :: bs => b :: crc32Bytes (crc32Skip - 1) bs
  | k + 1, _ :: bs => crc32Bytes k bs

/-- `crc32` with the skip length `CRC32SKIP`. -/
def crc32 (crc : Nat) (buf : Bytes) : Nat :=
  (crc32Bytes 0 buf).foldl (fun c b => crc32Tab ((c ^^^ b.toNat) % 256) ^^^ (c / 256)) (crc ^^^ 0xffffffff) ^^^ 0xffffffff

/-- A library without batch proposals, state machines of the user and a second member list. -/
def Params.plain : Params where
  crc32 := PhxPaxos.crc32
  parseSystemVariables _ := none
  serializeSystemVariables _ := []
  parseBatchPaxosValues _ := none
  serializeBatchPaxosValues _ := []
  maxValueSize := 10485760
  learnerReceiverAckLead := 4
  smids := []
  beforeProposeSmids := []
  openChangeValueBeforePropose := false

/-! ## Runs -/

variable (P : Params)

namespace Sys

def run : List Event → Sys → Sys
  | [], s => s
  | e :: es, s => run es (s.step P e)

/-- The message of the event, if it is one that arrives, was sent there. -/
def canHappen (s : Sys) (e : Event) : Bool :=
  match e.kind with
  | .receive gid msg => s.net.any fun x => decide (e.node ∈ x.dst ∧ x.gid = gid ∧ x.msg = msg)
  | _ => true

def canRun : List Event → Sys → Bool
  | [], _ => true
  | e :: es, s => s.canHappen e && canRun es (s.step P e)

theorem canHappen_sound {s : Sys} {e : Event} (h : s.canHappen e = true) : e.CanHappen inNetwork s := by
  intro gid msg hk
  unfold canHappen at h
  rw [hk] at h
  simpa [inNetwork] using h

end Sys

/-- A run of messages that were sent reaches its end. -/
theorem Reachable.of_run {G : Group} {es : List Event} : ∀ {s : Sys}, Reachable P inNetwork G s →
    s.canRun P es = true → Reachable P inNetwork G (s.run P es) := by
  induction es with
  | nil => exact fun hs _ => hs
  | cons e es ih =>
    intro s hs h
    simp only [Sys.canRun, Bool.and_eq_true] at h
    exact ih (.step e hs (Sys.canHappen_sound h.1)) h.2

/-- Where any message may arrive, every run reaches its end. -/
theorem Reachable.of_run_any {G : Group} {es : List Event} : ∀ {s : Sys}, Reachable P anyMessage G s →
    Reachable P anyMessage G (s.run P es) := by
  induction es with
  | nil => exact id
  | cons e es ih => exact fun hs => ih (.step e hs fun _ _ _ => trivial)

/-! ## Groups -/

/-- The group of the given nodes, before any membership was agreed on. -/
def Group.ofList (nodes : List NodeID) : Group where
  config n := { myNodeID := n, isIMFollower := false, followToNodeID := nullnode, isUseMembership := false,
                nodeInfoList := nodes, systemVSM := ⟨⟨0, [], 0⟩, ∅⟩, tmpNodeOnlyForLearn := ∅, myFollower := ∅ }
  members := nodes.toFinset
  myNodeID _ := rfl
  nodeInfoList _ := rfl

/-- A client proposes `v` at node `n`, whose commit starts. -/
def proposeEvents (n : NodeID) (callID : Nat) (v : Bytes) : List Event :=
  [⟨n, .newValueGetID callID v 0, {}⟩, ⟨n, .lock callID, {}⟩, ⟨n, .checkNewValue, {}⟩]

/-- A message arrives at node `n` before any membership was agreed on. -/
def deliver (n : NodeID) (msg : PaxosMsg) : Event := ⟨n, .receive 0 msg, {}⟩

end PhxPaxos
