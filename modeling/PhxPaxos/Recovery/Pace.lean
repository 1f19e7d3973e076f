import PhxPaxos.Abstract.Window
import PhxPaxos.Model.Pace

/-!
# The pace of learning

The sender of values and their receiver keep a window (`Tracks`): the lead of the window is the ack lead of the sender, its gap
the ack lead of the receiver, and what the receiver told is its last ack. So long as acks come while the sender counts as
sending, the sender stays within its lead and never waits when nothing is under way (`PaceRun.paced`). An ack that comes
later than the prepare timeout is ignored, although the sender waits for it up to the ack timeout (`late_ack_ignored`).
-/

namespace PhxPaxos

open InsideOptions

/-! ## The leads -/

theorem learnerReceiverAckLead_bounds (large : Bool) :
    2 ≤ learnerReceiverAckLead large ∧ learnerReceiverAckLead large ≤ 4 := by
  cases large <;> simp [learnerReceiverAckLead]

theorem cutAckLead_le (large : Bool) (ackLead : Nat) : PacedSender.cutAckLead large ackLead ≤ ackLead := by
  simp only [PacedSender.cutAckLead]
  split <;> omega

/-- No sequence of cuts leads below 3. -/
theorem AckLead.bounds {large : Bool} {ackLead : Nat} (h : AckLead large ackLead) :
    3 ≤ ackLead ∧ ackLead ≤ learnerSenderAckLead large := by
  induction h with
  | reset => cases large <;> simp [learnerSenderAckLead]
  | @cut ackLead _ ih =>
    obtain ⟨hge, hle⟩ := ih
    have hreceive := (learnerReceiverAckLead_bounds large).1
    constructor
    · simp only [PacedSender.cutAckLead]
      split <;> omega
    · exact (cutAckLead_le large ackLead).trans hle

theorem addLead_le (instanceID lead : Nat) : addLead instanceID lead ≤ instanceID + lead := Nat.mod_le _ _

theorem addLead_eq {instanceID lead : Nat} (h : instanceID + lead < 2 ^ 64) : addLead instanceID lead = instanceID + lead :=
  Nat.mod_eq_of_lt h

/-! ## The sender -/

/-- While the sender counts as sending, it knows the greatest instance that the receiver acknowledged. -/
theorem LearnerSender.ack_eq {s : LearnerSender} {sendTimeout : Bool} {ackInstanceID : Nat} {fromNodeID : NodeID}
    (hnow : s.isIMSendingNow sendTimeout = true) (hcomfirmed : s.isComfirmed = true) (hfrom : s.sendToNodeID = fromNodeID) :
    s.ack sendTimeout ackInstanceID fromNodeID = { s with ackInstanceID := max s.ackInstanceID ackInstanceID } := by
  unfold LearnerSender.ack
  by_cases hgt : ackInstanceID > s.ackInstanceID
  · rw [if_pos (by simp [hnow, hcomfirmed, hfrom, hgt]), Nat.max_eq_right (Nat.le_of_lt hgt)]
  · rw [if_neg (by simp [hgt]), Nat.max_eq_left (Nat.le_of_not_gt hgt)]

namespace PacedSender

variable {large : Bool} {now : Nat} {s : PacedSender}

/-- `Comfirm` at most sets the flag. -/
theorem comfirm_eq (large : Bool) (now : Nat) (s : PacedSender) (beginInstanceID : Nat) (sendToNodeID : NodeID) :
    ∃ c, (s.isComfirmed = true → c = true) ∧
      s.comfirm large now beginInstanceID sendToNodeID = { s with isComfirmed := c } := by
  simp only [comfirm, LearnerSender.comfirm]
  split
  · exact ⟨true, fun _ => rfl, rfl⟩
  · exact ⟨s.isComfirmed, id, rfl⟩

/-- An ack of the receiver that comes while the sender counts as sending is taken. -/
theorem ack_eq (ackInstanceID : Nat) {fromNodeID : NodeID} (hsending : s.isIMSending = true)
    (htime : s.sendTimeout large now = false) (hcomfirmed : s.isComfirmed = true) (hfrom : s.sendToNodeID = fromNodeID) :
    ∃ t, s.ack large now ackInstanceID fromNodeID =
      { s with ackInstanceID := max s.ackInstanceID ackInstanceID, absLastAckTime := t } := by
  have hnow : s.isIMSendingNow (s.sendTimeout large now) = true := by
    simp [LearnerSender.isIMSendingNow, hsending, htime]
  simp only [ack, LearnerSender.ack_eq hnow hcomfirmed hfrom]
  exact ⟨_, rfl⟩

/-- Where the sum does not wrap, the sender waits when the value is beyond its lead. -/
theorem waits_iff {sendInstanceID : Nat} (h : s.ackInstanceID + s.ackLead < 2 ^ 64) :
    s.waits sendInstanceID = true ↔ s.ackInstanceID + s.ackLead < sendInstanceID := by
  simp only [waits, addLead_eq h, decide_eq_true_eq, gt_iff_lt]

end PacedSender

/-! ## The receiver -/

namespace ValueReceiver

variable {large : Bool} {r : ValueReceiver}

/-- A learner that does not acknowledge is near to its last ack. -/
theorem sendLearnValueAck_cases (large : Bool) (r : ValueReceiver) :
    (r.sendLearnValueAck large = (r, none) ∧ r.instanceID < r.lastAckInstanceID + learnerReceiverAckLead large) ∨
      r.sendLearnValueAck large = ({ r with lastAckInstanceID := r.instanceID }, some r.instanceID) := by
  simp only [sendLearnValueAck]
  split
  case isTrue hlt => exact Or.inl ⟨rfl, hlt.trans_le (addLead_le _ _)⟩
  case isFalse => exact Or.inr rfl

/-- A value at or below the instance of the learner is behind it afterwards, whether it was learned or came late. -/
theorem onSendLearnValue_cases (large : Bool) {instanceID : Nat} (hle : instanceID ≤ r.instanceID) :
    ∃ n, r.instanceID ≤ n ∧ instanceID < n ∧
      ((r.onSendLearnValue large instanceID true = ({ r with instanceID := n }, none) ∧
          r.instanceID < r.lastAckInstanceID + learnerReceiverAckLead large) ∨
        r.onSendLearnValue large instanceID true =
          ({ r with instanceID := n, lastAckInstanceID := r.instanceID }, some r.instanceID)) := by
  simp only [onSendLearnValue, if_neg (Nat.not_lt.mpr hle), if_true]
  by_cases hlt : instanceID < r.instanceID
  · refine ⟨r.instanceID, le_rfl, hlt, ?_⟩
    rw [if_pos hlt]
    exact sendLearnValueAck_cases large r
  · refine ⟨r.instanceID + 1, Nat.le_succ _, by omega, ?_⟩
    rw [if_neg hlt]
    rcases sendLearnValueAck_cases large r with ⟨heq, hnear⟩ | heq
    · exact Or.inl ⟨by rw [heq], hnear⟩
    · exact Or.inr (by rw [heq])

end ValueReceiver

/-! ## The learner of a node -/

section Node

variable {P : Params} {self : Self} {large : Bool} {msg : PaxosMsg} {w : Proc}

/-- What a node acknowledges values by. -/
def Proc.valueReceiver (w : Proc) : ValueReceiver := ⟨w.me, w.node.instanceID, w.node.learner.lastAckInstanceID⟩

/-- The ack of a node for the instance `i`. -/
def Proc.learnValueAck (w : Proc) (sendNodeID : NodeID) (i : Nat) : Envelope :=
  ⟨{sendNodeID}, w.node.config.getGid, { msgType := .learnerSendLearnValueAck, instanceID := i, nodeID := w.me }⟩

/-- A node acknowledges as its receiver does. -/
theorem sendLearnValueAck_receiver {sendNodeID : NodeID} (hne : sendNodeID ≠ w.me)
    (hlead : P.learnerReceiverAckLead = learnerReceiverAckLead large)
    (hrange : w.node.learner.lastAckInstanceID + learnerReceiverAckLead large < 2 ^ 64) :
    (sendLearnValueAck P self sendNodeID w).valueReceiver = (w.valueReceiver.sendLearnValueAck large).1 ∧
      (sendLearnValueAck P self sendNodeID w).net =
        ((w.valueReceiver.sendLearnValueAck large).2.map (w.learnValueAck sendNodeID)).toList ++ w.net := by
  simp only [sendLearnValueAck, ValueReceiver.sendLearnValueAck, Proc.valueReceiver, addLead_eq hrange, hlead]
  split
  · exact ⟨rfl, rfl⟩
  · simp only [Proc.sendMessage]
    split
    case isTrue heq => exact absurd heq hne
    case isFalse => exact ⟨rfl, rfl⟩

end Node

/-! ## The window -/

/-- What holds of a sender that goes on at the instance `next`, by the point of its thread. -/
def PacedSender.At (lead next : Nat) (s : PacedSender) : Prop :=
  match s.point with
  | .waitToSend => s.ackLead = lead ∧ next = s.beginInstanceID ∧ next ≤ s.ackInstanceID
  | .loop => s.ackLead = lead ∧ next = s.sendInstanceID ∧ next ≤ s.ackInstanceID + lead + 1
  | .checkAck | .waitTime => s.ackLead = lead ∧ next = s.sendInstanceID + 1
  | .ended how => how = .sendDone ∨ how = .alreadyCatchUp ∧ s.sendInstanceID < s.ackInstanceID

/-- What holds of a sender by its point still does when it knows more. -/
theorem PacedSender.At.known_le {lead next known t : Nat} {s : PacedSender} (h : s.At lead next) (hle : s.ackInstanceID ≤ known) :
    PacedSender.At lead next { s with ackInstanceID := known, absLastAckTime := t } := by
  unfold PacedSender.At at h ⊢
  cases hpoint : s.point with
  | waitToSend =>
    simp only [hpoint] at h ⊢
    exact ⟨h.1, h.2.1, h.2.2.trans hle⟩
  | loop =>
    simp only [hpoint] at h ⊢
    exact ⟨h.1, h.2.1, by omega⟩
  | checkAck => simpa only [hpoint] using h
  | waitTime => simpa only [hpoint] using h
  | ended how =>
    simp only [hpoint] at h ⊢
    exact h.imp_right fun hlt => ⟨hlt.1, hlt.2.trans_le hle⟩

namespace ValueStream

/-- A stream from `b` with the ack lead `lead` refines a window. -/
structure Refines (m : BufferModes) (lead b : Nat) (s : ValueStream) (w : Window) : Prop where
  begin_eq : s.sender.beginInstanceID = b
  isIMSending : s.sender.isIMSending = true
  toReceiver : s.sender.sendToNodeID = s.receiver.nodeID
  known : s.sender.ackInstanceID = w.known
  lead_le : lead ≤ s.sender.ackLead
  le_lead : s.sender.ackLead ≤ learnerSenderAckLead m.sender
  told : w.told = max b s.receiver.lastAckInstanceID
  told_le : w.told ≤ s.receiver.instanceID
  begun : b ≤ w.done
  behind : w.done ≤ s.receiver.instanceID
  values : s.values = List.range' w.done (w.next - w.done)
  acks : ∀ a ∈ s.acks, a ≤ w.told
  heard : w.told ≤ w.known ∨ w.told ∈ s.acks
  sent : ∀ i ∈ s.sent, i < w.next
  last : ∀ i, s.sent.head? = some i → i + 1 = w.next
  idle : s.sender.isComfirmed = false → s.sender.point = .waitToSend ∧ s.values = [] ∧ s.acks = []
  point : s.sender.At lead w.next

variable {m : BufferModes} {lead gap b : Nat} {s : ValueStream} {w : Window}

theorem refines_start {now instanceID : Nat} {receiver : ValueReceiver} (hlast : receiver.lastAckInstanceID ≤ b)
    (hbegin : b ≤ receiver.instanceID) (hlead : AckLead m.sender lead) :
    Refines m lead b (start m now instanceID b lead receiver) (.start b) where
  begin_eq := rfl
  isIMSending := rfl
  toReceiver := rfl
  known := rfl
  lead_le := le_rfl
  le_lead := hlead.bounds.2
  told := (max_eq_left hlast).symm
  told_le := hbegin
  begun := le_rfl
  behind := hbegin
  values := by simp [start, Window.start]
  acks := fun a ha => absurd ha List.not_mem_nil
  heard := Or.inl le_rfl
  sent := fun a ha => absurd ha List.not_mem_nil
  last := fun i hi => by cases hi
  idle := fun _ => ⟨rfl, rfl, rfl⟩
  point := ⟨rfl, rfl, le_rfl⟩

namespace Refines

theorem tick (h : s.Refines m lead b w) (ms : Nat) : (s.step m (.tick ms)).Refines m lead b w := { h with }

theorem newInstance (h : s.Refines m lead b w) : (s.step m .newInstance).Refines m lead b w := { h with }

theorem advance (h : s.Refines m lead b w) : (s.step m .advance).Refines m lead b w :=
  { h with
    told_le := h.told_le.trans (Nat.le_succ _)
    behind := h.behind.trans (Nat.le_succ _) }

theorem comfirm (h : s.Refines m lead b w) (instanceID : Nat) : (s.step m (.comfirm instanceID)).Refines m lead b w := by
  obtain ⟨c, hc, heq⟩ := PacedSender.comfirm_eq m.sender s.now s.sender instanceID s.receiver.nodeID
  simp only [step, heq]
  exact { h with idle := fun hnot => h.idle (Bool.eq_false_iff.mpr fun hcomfirmed => by simp [hc hcomfirmed] at hnot) }

theorem waitToSend (h : s.Refines m lead b w) : (s.step m .waitToSend).Refines m lead b w := by
  simp only [step]
  split
  case isFalse => exact h
  case isTrue hpoint =>
    simp only [PacedSender.waitToSend]
    split
    case isFalse => exact h
    case isTrue hcomfirmed =>
      have hat := h.point
      simp only [PacedSender.At, hpoint] at hat
      obtain ⟨hlead, hnext, hle⟩ := hat
      exact { h with
        idle := fun hnot => absurd hnot (by simp [hcomfirmed])
        point := ⟨hlead, hnext, by simp only; omega⟩ }

/-- The thread sends only after `Comfirm`. -/
theorem idle_of_point (h : s.Refines m lead b w) (hpoint : s.sender.point ≠ .waitToSend) {p : Prop}
    (hnot : s.sender.isComfirmed = false) : p :=
  absurd (h.idle hnot).1 hpoint

theorem sendOne (h : s.Refines m lead b w) (hinv : w.Inv lead gap) :
    ∃ w', Relation.ReflGen (Window.Step lead gap) w w' ∧ (s.step m (.sendOne true)).Refines m lead b w' := by
  simp only [step]
  split
  case isFalse => exact ⟨w, .refl, h⟩
  case isTrue hpoint =>
    have hne : s.sender.point ≠ .waitToSend := by simp [hpoint]
    have hat := h.point
    simp only [PacedSender.At, hpoint] at hat
    obtain ⟨hlead, hnext, hle⟩ := hat
    simp only [PacedSender.sendOne]
    split
    case isFalse =>
      refine ⟨w, .refl, ?_⟩
      simp only [Option.toList_none, List.append_nil, List.nil_append]
      exact { h with
        lead_le := h.lead_le.trans h.le_lead
        le_lead := le_rfl
        idle := h.idle_of_point hne
        point := Or.inl rfl }
    case isTrue =>
      refine ⟨_, .single (.send (h.known ▸ hle)), ?_⟩
      have hdone := hinv.done_le
      have hvalues : s.values ++ [s.sender.sendInstanceID] = List.range' w.done (w.next + 1 - w.done) := by
        rw [Nat.succ_sub hdone, List.range'_concat, h.values, Nat.one_mul, Nat.add_sub_cancel' hdone, hnext]
      simp only [if_true, Option.toList_some, List.singleton_append]
      exact { h with
        values := hvalues
        sent := fun i hi => by
          rcases List.mem_cons.mp hi with rfl | hi
          · exact hnext ▸ Nat.lt_succ_self _
          · exact (h.sent i hi).trans (Nat.lt_succ_self _)
        last := fun i hi => by
          cases hi
          exact congrArg (· + 1) hnext.symm
        idle := h.idle_of_point hne
        point := ⟨hlead, congrArg (· + 1) hnext⟩ }

/-- Where the receiver's instance is in range, the sender waits for what is beyond its lead. -/
theorem waits_iff (h : s.Refines m lead b w) (hinv : w.Inv lead gap)
    (hrange : s.receiver.instanceID + learnerSenderAckLead m.sender < 2 ^ 64) (i : Nat) :
    s.sender.waits i = true ↔ w.known + s.sender.ackLead < i := by
  have hknown := hinv.known_le.trans h.told_le
  have hle := h.le_lead
  rw [PacedSender.waits_iff (by rw [h.known]; omega), h.known]

/-- The sender knows of all values when nothing is under way. -/
theorem next_le_of_quiet (h : s.Refines m lead b w) (hreach : Window.Reaches lead gap b w) (hgap : gap ≤ lead + 1)
    (hquiet : s.Quiet) : w.next ≤ w.known + lead + 1 := by
  obtain ⟨hvalues, hacks⟩ := hquiet
  have hdone : w.done = w.next := by
    have hlength := congrArg List.length (h.values.symm.trans hvalues)
    have hle := hreach.inv.done_le
    simp only [List.length_range', List.length_nil] at hlength
    omega
  have htold : w.told ≤ w.known := h.heard.resolve_right (by simp [hacks])
  exact hreach.opens hgap hdone htold

/-- The loop of `CheckAck`: the ack timer has not run out where the sender waits. -/
theorem checkWait (h : s.Refines m lead b w) (hreach : Window.Reaches lead gap b w) (hgap : gap ≤ lead + 1)
    (hrange : s.receiver.instanceID + learnerSenderAckLead m.sender < 2 ^ 64)
    (hpoint : s.sender.point = .checkAck ∨ s.sender.point = .waitTime)
    (hquiet : s.sender.ackTimedOut m.sender s.now = true → s.Quiet) :
    Refines m lead b { s with sender := s.sender.checkWait m.sender s.now } w := by
  have hne : s.sender.point ≠ .waitToSend := by rcases hpoint with hp | hp <;> simp [hp]
  obtain ⟨hlead, hnext⟩ : s.sender.ackLead = lead ∧ w.next = s.sender.sendInstanceID + 1 := by
    have hat := h.point
    rcases hpoint with hp | hp <;> simpa only [PacedSender.At, hp] using hat
  have hwaits := h.waits_iff hreach.inv hrange s.sender.sendInstanceID
  simp only [PacedSender.checkWait]
  split
  case isTrue hwait =>
    have hlt := hwaits.mp hwait
    split
    case isTrue htime =>
      have hle := h.next_le_of_quiet hreach hgap (hquiet htime)
      omega
    case isFalse => exact { h with idle := h.idle_of_point hne, point := ⟨hlead, hnext⟩ }
  case isFalse hwait =>
    have hle := Nat.le_of_not_lt (mt hwaits.mpr hwait)
    have hknown := h.known
    exact { h with idle := h.idle_of_point hne, point := ⟨hlead, hnext, by simp only; omega⟩ }

theorem checkAck (h : s.Refines m lead b w) (hreach : Window.Reaches lead gap b w) (hgap : gap ≤ lead + 1)
    (hrange : s.receiver.instanceID + learnerSenderAckLead m.sender < 2 ^ 64)
    (hquiet : s.sender.ackTimedOut m.sender s.now = true → s.Quiet) : (s.step m .checkAck).Refines m lead b w := by
  simp only [step]
  split
  case isFalse => exact h
  case isTrue hpoint =>
    simp only [PacedSender.checkAck]
    split
    case isTrue hlt =>
      exact { h with
        lead_le := h.lead_le.trans h.le_lead
        le_lead := le_rfl
        idle := h.idle_of_point (by simp [hpoint])
        point := Or.inr ⟨rfl, hlt⟩ }
    case isFalse => exact h.checkWait hreach hgap hrange (Or.inl hpoint) hquiet

theorem waitTime (h : s.Refines m lead b w) (hreach : Window.Reaches lead gap b w) (hgap : gap ≤ lead + 1)
    (hrange : s.receiver.instanceID + learnerSenderAckLead m.sender < 2 ^ 64)
    (hquiet : s.sender.ackTimedOut m.sender s.now = true → s.Quiet) : (s.step m .waitTime).Refines m lead b w := by
  simp only [step]
  split
  case isFalse => exact h
  case isTrue hpoint => exact h.checkWait hreach hgap hrange (Or.inr hpoint) hquiet

/-- The receiver takes the first value under way, which is never ahead of it. -/
theorem receive (h : s.Refines m lead b w) :
    ∃ w', Relation.ReflGen (Window.Step lead (learnerReceiverAckLead m.receiver)) w w' ∧
      (s.step m (.receive true)).Refines m lead b w' := by
  simp only [step]
  cases hs : s.values with
  | nil => exact ⟨w, .refl, h⟩
  | cons i values =>
    obtain ⟨n, hn⟩ : ∃ n, w.next - w.done = n + 1 := by
      have hlength := congrArg List.length (hs.symm.trans h.values)
      simp only [List.length_cons, List.length_range'] at hlength
      exact ⟨values.length, hlength.symm⟩
    have hcons := hs.symm.trans h.values
    rw [hn, List.range'_succ, List.cons.injEq] at hcons
    obtain ⟨rfl, hrest⟩ := hcons
    have hvalues : values = List.range' (w.done + 1) (w.next - (w.done + 1)) := by
      rw [hrest, Nat.sub_add_eq, hn, Nat.add_sub_cancel]
    have hgap := (learnerReceiverAckLead_bounds m.receiver).1
    have hidle (hnot : s.sender.isComfirmed = false) {p : Prop} : p := by simp [(h.idle hnot).2.1] at hs
    have htold := h.told
    have hbehind := h.behind
    have hbegun := h.begun
    obtain ⟨instance', hle, hlt, ⟨heq, hnear⟩ | heq⟩ :=
      ValueReceiver.onSendLearnValue_cases m.receiver h.behind
    · refine ⟨_, .single (.take w.told (by omega) le_rfl (by omega)), ?_⟩
      simp only [heq, Option.toList_none, List.append_nil]
      exact { h with
        told_le := h.told_le.trans hle
        begun := by simp only; omega
        behind := hlt
        values := hvalues
        idle := fun hnot => hidle hnot }
    · refine ⟨_, .single (.take s.receiver.instanceID (by omega) h.told_le (by omega)), ?_⟩
      simp only [heq, Option.toList_some]
      exact { h with
        told := by simp only; omega
        told_le := hle
        begun := by simp only; omega
        behind := hlt
        values := hvalues
        acks := fun a ha => by
          rcases List.mem_append.mp ha with ha | ha
          · exact (h.acks a ha).trans h.told_le
          · exact (List.mem_singleton.mp ha).le
        heard := Or.inr (List.mem_append_right _ (List.mem_singleton_self _))
        idle := fun hnot => hidle hnot }

/-- The sender hears of the first ack under way, if it counts as sending. -/
theorem ack (h : s.Refines m lead b w) (hinv : w.Inv lead gap) (htime : s.sender.sendTimeout m.sender s.now = false) :
    ∃ w', Relation.ReflGen (Window.Step lead gap) w w' ∧ (s.step m .ack).Refines m lead b w' := by
  simp only [step]
  cases hs : s.acks with
  | nil => exact ⟨w, .refl, h⟩
  | cons a acks =>
    have hcomfirmed : s.sender.isComfirmed = true :=
      Bool.of_not_eq_false fun hnot => by simp [(h.idle hnot).2.2] at hs
    obtain ⟨t, heq⟩ := PacedSender.ack_eq a h.isIMSending htime hcomfirmed h.toReceiver
    have hmem : a ∈ s.acks := hs ▸ List.mem_cons_self
    refine ⟨_, .single (.hear (max w.known a) (le_max_left _ _) (max_le hinv.known_le (h.acks a hmem))), ?_⟩
    simp only [heq]
    exact { h with
      known := congrArg (max · a) h.known
      acks := fun a' ha' => h.acks a' (hs ▸ List.mem_cons_of_mem a ha')
      heard := by
        rcases h.heard with hle | hin
        · exact Or.inl (hle.trans (le_max_left _ _))
        · rcases List.mem_cons.mp (hs ▸ hin) with heq | hin
          · exact Or.inl (heq.le.trans (le_max_right _ _))
          · exact Or.inr hin
      idle := fun hnot => absurd hnot (by simp [hcomfirmed])
      point := h.point.known_le (le_max_left _ _) }

end Refines

/-- A stream keeps a window that was reached from its begin instance. -/
def Tracks (m : BufferModes) (lead b : Nat) (s : ValueStream) : Prop :=
  ∃ w, Window.Reaches lead (learnerReceiverAckLead m.receiver) b w ∧ s.Refines m lead b w

/-- **Every step keeps the window.** -/
theorem Tracks.step {a : Act} (h : s.Tracks m lead b) (hgap : learnerReceiverAckLead m.receiver ≤ lead + 1)
    (hdelivers : s.Delivers m a) (htime : s.InTime m a) : (s.step m a).Tracks m lead b := by
  obtain ⟨w, hreach, h⟩ := h
  obtain ⟨hsend, hreceive, hquiet⟩ := hdelivers
  obtain ⟨hack, hother, hrange⟩ := htime
  have hrange' : s.receiver.instanceID + learnerSenderAckLead m.sender < 2 ^ 64 := by omega
  have hstep {s' : ValueStream} (h' : ∃ w', Relation.ReflGen (Window.Step lead (learnerReceiverAckLead m.receiver)) w w' ∧
      s'.Refines m lead b w') : s'.Tracks m lead b := by
    obtain ⟨w', hw, h'⟩ := h'
    exact ⟨w', hreach.trans hw.to_reflTransGen, h'⟩
  cases a with
  | tick ms => exact ⟨w, hreach, h.tick ms⟩
  | newInstance => exact ⟨w, hreach, h.newInstance⟩
  | comfirm instanceID => exact ⟨w, hreach, h.comfirm instanceID⟩
  | waitToSend => exact ⟨w, hreach, h.waitToSend⟩
  | sendOne ok =>
    cases ok with
    | false => exact absurd rfl hsend
    | true => exact hstep (h.sendOne hreach.inv)
  | checkAck => exact ⟨w, hreach, h.checkAck hreach hgap hrange' (hquiet (Or.inl rfl))⟩
  | waitTime => exact ⟨w, hreach, h.waitTime hreach hgap hrange' (hquiet (Or.inr rfl))⟩
  | receive ok =>
    cases ok with
    | false => exact absurd rfl hreceive
    | true => exact hstep h.receive
  | ack => exact hstep (h.ack hreach.inv (hack rfl))
  | advance => exact ⟨w, hreach, h.advance⟩
  | ackOther => exact absurd rfl hother

/-- No step takes the receiver further than to the next instance. -/
theorem step_receiver_le (a : Act) : (s.step m a).receiver.instanceID ≤ s.receiver.instanceID + 1 := by
  have hack (r : ValueReceiver) : (r.sendLearnValueAck m.receiver).1.instanceID = r.instanceID := by
    rcases ValueReceiver.sendLearnValueAck_cases m.receiver r with ⟨heq, -⟩ | heq <;> rw [heq]
  cases a with
  | receive ok =>
    simp only [step]
    cases s.values with
    | nil => exact Nat.le_succ _
    | cons i values =>
      simp only [ValueReceiver.onSendLearnValue]
      split
      · exact Nat.le_succ _
      · split
        · exact (hack _).le.trans (Nat.le_succ _)
        · split
          · exact (congrArg Nat.succ (hack s.receiver)).le
          · exact Nat.le_succ _
  | ackOther => exact (hack s.receiver).le.trans (Nat.le_succ _)
  | advance => exact Nat.le_refl _
  | tick ms => exact Nat.le_succ _
  | newInstance => exact Nat.le_succ _
  | comfirm instanceID => exact Nat.le_succ _
  | waitToSend => simp only [step]; split <;> exact Nat.le_succ _
  | sendOne ok => simp only [step]; split <;> exact Nat.le_succ _
  | checkAck => simp only [step]; split <;> exact Nat.le_succ _
  | waitTime => simp only [step]; split <;> exact Nat.le_succ _
  | ack => simp only [step]; split <;> exact Nat.le_succ _

/-- What the pace of a sender should be: all it sent is within its lead and one of what was acknowledged, it does not wait
when nothing is under way, and it ends where its node is or where the receiver is ahead. -/
def Paced (s : ValueStream) : Prop :=
  (∀ i ∈ s.sent, i ≤ s.sender.ackInstanceID + s.sender.ackLead + 1) ∧
    (s.Quiet → ∀ i, s.sent.head? = some i → s.sender.waits i = false) ∧
    ∀ how, s.sender.point = .ended how →
      how = .sendDone ∨ how = .alreadyCatchUp ∧ s.sender.sendInstanceID < s.sender.ackInstanceID

theorem Tracks.keepsPace (h : s.Tracks m lead b) (hgap : learnerReceiverAckLead m.receiver ≤ lead + 1)
    (hrange : s.receiver.instanceID + learnerSenderAckLead m.sender < 2 ^ 64) : s.Paced := by
  obtain ⟨w, hreach, h⟩ := h
  have hlead := h.lead_le
  have hknown := h.known
  refine ⟨fun i hi => ?_, fun hquiet i hi => ?_, fun how hhow => ?_⟩
  · have hsent := h.sent i hi
    have hbound := hreach.bound
    omega
  · have hnext := h.next_le_of_quiet hreach hgap hquiet
    have hlast := h.last i hi
    refine Bool.eq_false_iff.mpr (mt (h.waits_iff hreach.inv hrange i).mp ?_)
    omega
  · have hat := h.point
    simp only [PacedSender.At, hhow] at hat
    exact hat

end ValueStream

/-! ## Runs -/

theorem learnerReceiverAckLead_le {large large' : Bool} {ackLead : Nat} (h : AckLead large ackLead) :
    learnerReceiverAckLead large' ≤ ackLead + 1 := by
  have hge := h.bounds.1
  have hle := (learnerReceiverAckLead_bounds large').2
  omega

open ValueStream in
theorem PaceRun.tracks {m : BufferModes} {s : ValueStream} (h : PaceRun m (fun a s => s.Delivers m a ∧ s.InTime m a) s) :
    ∃ lead b, AckLead m.sender lead ∧ s.Tracks m lead b := by
  induction h with
  | start hlast hbegin hlead => exact ⟨_, _, hlead, _, .refl, refines_start hlast hbegin hlead⟩
  | step _ hok ih =>
    obtain ⟨lead, b, hlead, htracks⟩ := ih
    exact ⟨lead, b, hlead, htracks.step (learnerReceiverAckLead_le hlead) hok.1 hok.2⟩

/-- **The sender of values keeps within its lead and never gets stuck**, in every run in which values and acks are delivered,
acks come while the sender counts as sending, and the receiver acknowledges no other sender. -/
theorem PaceRun.paced {m : BufferModes} {s : ValueStream} (h : PaceRun m (fun a s => s.Delivers m a ∧ s.InTime m a) s) :
    s.Paced := by
  have ⟨lead, b, hlead, htracks⟩ := h.tracks
  cases h with
  | start hlast hbegin hlead' =>
    refine ⟨fun i hi => absurd hi List.not_mem_nil, fun _ i hi => ?_, fun how hhow => ?_⟩
    · cases hi
    · cases hhow
  | @step a s _ hok =>
    have hrange : (s.step m a).receiver.instanceID + learnerSenderAckLead m.sender < 2 ^ 64 :=
      (Nat.add_le_add_right (ValueStream.step_receiver_le a) _).trans_lt hok.2.2.2
    exact htracks.keepsPace (learnerReceiverAckLead_le hlead) hrange

/-! ## A run to the end of the window -/

namespace SevenValues

open ValueStream

/-- Both processes are in the large buffer mode. -/
def modes : BufferModes := ⟨true, true⟩

/-- Node 2 asks at instance 0 and the sender is at instance 10, with the lead 5. -/
def start : ValueStream := .start modes 0 10 0 5 ⟨2, 0, 0⟩

/-- The values of the instances 0 to 6 are sent, which is one beyond the lead, and learned. -/
def learn : List Act :=
  [.comfirm 0, .waitToSend] ++ (List.replicate 7 [Act.sendOne true, .checkAck]).flatten ++ List.replicate 7 (.receive true)

theorem start_run (ok : Act → ValueStream → Prop) : PaceRun modes ok start :=
  .start le_rfl le_rfl .reset

end SevenValues

/-- When the acks come at once, the last one lets the sender go on. -/
theorem paced_sevenValues : (SevenValues.start.run SevenValues.modes (SevenValues.learn ++ [.ack, .ack, .ack])).Paced :=
  PaceRun.paced ((SevenValues.start_run _).run _ (by decide +kernel))

/-- **A late ack is ignored.** Where the acks come after the prepare timeout, nothing is under way and the sender still waits,
until the ack timeout ends the sending. -/
theorem late_ack_ignored : ∃ s, PaceRun SevenValues.modes (ValueStream.Delivers SevenValues.modes) s ∧ s.Quiet ∧
    s.sent.head? = some 6 ∧ s.sender.waits 6 = true ∧
      (s.run SevenValues.modes [.tick 54000, .waitTime]).sender.point = .ended .ackTimeout := by
  refine ⟨_, (SevenValues.start_run _).run (SevenValues.learn ++ [.tick 6000, .ack, .ack, .ack]) ?_, ?_⟩
  · decide +kernel
  · decide +kernel

end PhxPaxos
