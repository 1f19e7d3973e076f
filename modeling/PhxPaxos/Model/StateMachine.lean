import PhxPaxos.Model.Types

/-!
# State machines and their checkpoints

What `SMFac` asks of its state machines to find where recovery starts: `GetCheckpointInstanceID`, an unsigned 64-bit
number that is `-1` without a checkpoint.

`StateMachine.next` is the first instance that the checkpoint of a state machine does not cover, and
`SMFac.start_le_iff` says where recovery starts by the aggregated id: at the largest of these numbers, over the state
machines of the user if there are any.
-/

namespace PhxPaxos

/-- `NoCheckpoint` -/
def noCheckpoint : UInt64 := -1

/-- A state machine with the checkpoint it reports at the moment. -/
structure StateMachine where
  smid : Nat
  checkpointInstanceID : UInt64

namespace StateMachine

/-- The system variables and the master variables. -/
def isInside (sm : StateMachine) : Bool := sm.smid == systemVSMID || sm.smid == masterVSMID

end StateMachine

/-- The first instance after `id`; after `noCheckpoint` it is `0`. -/
def nextInstance (id : UInt64) : Nat := (id + 1).toNat

/-- The first instance that the checkpoint does not cover. -/
def StateMachine.next (sm : StateMachine) : Nat := nextInstance sm.checkpointInstanceID

/-- The local variables of `SMFac::GetCheckpointInstanceID`. -/
structure SMFacScan where
  cpInstanceID : UInt64 := noCheckpoint
  cpInstanceIDInsize : UInt64 := noCheckpoint
  haveUseSM : Bool := false

namespace SMFac

/-- The comparison of the loop, for either of its two maxima. -/
def larger (cpInstanceID checkpointInstanceID : UInt64) : UInt64 :=
  if checkpointInstanceID = noCheckpoint then cpInstanceID
  else if checkpointInstanceID > cpInstanceID ∨ cpInstanceID = noCheckpoint then checkpointInstanceID
  else cpInstanceID

/-- One turn of the loop of `SMFac::GetCheckpointInstanceID`. -/
def scan (s : SMFacScan) (sm : StateMachine) : SMFacScan :=
  if sm.isInside then { s with cpInstanceIDInsize := larger s.cpInstanceIDInsize sm.checkpointInstanceID }
  else { s with cpInstanceID := larger s.cpInstanceID sm.checkpointInstanceID, haveUseSM := true }

/-- `SMFac::GetCheckpointInstanceID` -/
def getCheckpointInstanceID (sms : List StateMachine) : UInt64 :=
  let s := sms.foldl scan {}
  if s.haveUseSM then s.cpInstanceID else s.cpInstanceIDInsize

end SMFac

/-- The state machines of the user. -/
def userSMs (sms : List StateMachine) : List StateMachine := sms.filter fun sm => !sm.isInside

/-! ## What the aggregated id is -/

theorem nextInstance_noCheckpoint : nextInstance noCheckpoint = 0 := rfl

theorem nextInstance_of_ne {id : UInt64} (h : id ≠ noCheckpoint) : nextInstance id = id.toNat + 1 := by
  have hne : id.toNat ≠ noCheckpoint.toNat := fun heq => h (UInt64.toNat_inj.mp heq)
  have hlt := id.toNat_lt
  have hmax : noCheckpoint.toNat = 2 ^ 64 - 1 := rfl
  unfold nextInstance
  rw [UInt64.toNat_add]
  have hone : (1 : UInt64).toNat = 1 := rfl
  omega

theorem nextInstance_lt (id : UInt64) : nextInstance id < 2 ^ 64 := UInt64.toNat_lt _

theorem nextInstance_injective {id id' : UInt64} (h : nextInstance id = nextInstance id') : id = id' :=
  (UInt64.add_left_inj 1).mp (UInt64.toNat_inj.mp h)

/-- `-1` is the smallest id. -/
theorem nextInstance_larger (id id' : UInt64) :
    nextInstance (SMFac.larger id id') = max (nextInstance id) (nextInstance id') := by
  unfold SMFac.larger
  split
  · rename_i h
    rw [h, nextInstance_noCheckpoint, Nat.max_zero]
  · rename_i h
    split
    · rename_i h'
      rcases h' with hlt | rfl
      · have hlt : id.toNat < id'.toNat := UInt64.lt_iff_toNat_lt.mp hlt
        have hle : nextInstance id ≤ nextInstance id' := by
          by_cases hid : id = noCheckpoint
          · rw [hid, nextInstance_noCheckpoint]
            exact Nat.zero_le _
          · rw [nextInstance_of_ne hid, nextInstance_of_ne h]
            omega
        exact (max_eq_right hle).symm
      · rw [nextInstance_noCheckpoint, Nat.zero_max]
    · rename_i h'
      rw [not_or] at h'
      have hle : id'.toNat ≤ id.toNat := not_lt.mp fun hlt => h'.1 (UInt64.lt_iff_toNat_lt.mpr hlt)
      refine (max_eq_left ?_).symm
      rw [nextInstance_of_ne h, nextInstance_of_ne h'.2]
      omega

namespace SMFac

/-- Where recovery starts: `GetCheckpointInstanceID() + 1`. -/
def start (sms : List StateMachine) : Nat := nextInstance (getCheckpointInstanceID sms)

/-- The state machines whose checkpoints count: those of the user, or all when there is none. -/
def counted (sms : List StateMachine) : List StateMachine := if userSMs sms = [] then sms else userSMs sms

/-- The loop keeps the largest ids of the state machines of the user and of the others. -/
theorem foldl_scan (sms : List StateMachine) : ∀ s : SMFacScan,
    nextInstance (sms.foldl scan s).cpInstanceID =
        ((userSMs sms).map StateMachine.next).foldl max (nextInstance s.cpInstanceID) ∧
      nextInstance (sms.foldl scan s).cpInstanceIDInsize =
        ((sms.filter StateMachine.isInside).map StateMachine.next).foldl max (nextInstance s.cpInstanceIDInsize) ∧
      (sms.foldl scan s).haveUseSM = (s.haveUseSM || !(userSMs sms).isEmpty) := by
  induction sms with
  | nil => exact fun s => ⟨rfl, rfl, by simp [userSMs]⟩
  | cons sm sms ih =>
    intro s
    obtain ⟨hcp, hinsize, huse⟩ := ih (scan s sm)
    rw [List.foldl_cons, hcp, hinsize, huse]
    unfold scan userSMs
    cases hin : sm.isInside with
    | true => simp [hin, nextInstance_larger, StateMachine.next]
    | false => simp [hin, nextInstance_larger, StateMachine.next]

theorem foldl_max_le (xs : List Nat) (a b : Nat) : xs.foldl max a ≤ b ↔ a ≤ b ∧ ∀ x ∈ xs, x ≤ b := by
  induction xs generalizing a with
  | nil => simp
  | cons x xs ih =>
    rw [List.foldl_cons, ih, max_le_iff, List.forall_mem_cons]
    exact and_assoc

/-- **Recovery starts after the largest checkpoint that counts.** -/
theorem start_le_iff {sms : List StateMachine} (i : Nat) : start sms ≤ i ↔ ∀ sm ∈ counted sms, sm.next ≤ i := by
  obtain ⟨hcp, hinsize, huse⟩ := foldl_scan sms {}
  unfold start getCheckpointInstanceID counted
  simp only []
  by_cases hne : userSMs sms = []
  · have huse' : (sms.foldl scan {}).haveUseSM = false := by
      rw [huse, hne]
      rfl
    have hall : sms.filter StateMachine.isInside = sms := by
      refine List.filter_eq_self.mpr fun sm hsm => ?_
      have hnot := List.filter_eq_nil_iff.mp hne sm hsm
      simpa using hnot
    rw [huse', if_pos hne, if_neg Bool.false_ne_true, hinsize, hall, foldl_max_le, nextInstance_noCheckpoint]
    simp
  · have huse' : (sms.foldl scan {}).haveUseSM = true := by
      rw [huse]
      simpa using hne
    rw [huse', if_neg hne, if_pos rfl, hcp, foldl_max_le, nextInstance_noCheckpoint]
    simp

theorem counted_of_user {sms : List StateMachine} {sm : StateMachine} (h : sm ∈ userSMs sms) :
    counted sms = userSMs sms :=
  if_neg (List.ne_nil_of_mem h)

theorem next_le_start {sms : List StateMachine} {sm : StateMachine} (h : sm ∈ counted sms) : sm.next ≤ start sms :=
  (start_le_iff _).mp le_rfl sm h

theorem next_le_start_of_user {sms : List StateMachine} {sm : StateMachine} (h : sm ∈ userSMs sms) :
    sm.next ≤ start sms :=
  next_le_start (counted_of_user h ▸ h)

end SMFac

end PhxPaxos
