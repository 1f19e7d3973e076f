import PhxPaxos.Model.Run
import PhxPaxos.Steps.Core
import PhxPaxos.Timers.Runs

/-!
# What a node asks for a checkpoint on

The nodes that told a node to ask for a checkpoint, and the time of the first of them, are kept over all episodes of a process
(`AskTrack.Matches`). Where what is left of earlier episodes does not count, a node enters the checkpoint mode on fresh evidence
only (`AskRun.fresh_evidence`); otherwise one answer can be enough (`stale_evidence`).
-/

namespace PhxPaxos

/-! ## The state of the checkpoint mode -/

/-- What `CheckpointMgr::PrepareForAskforCheckpoint` goes by. -/
structure Asking where
  setNeedAsk : Finset NodeID
  lastAskTime : Nat
  inAskMode : Bool

def Gear.asking (g : Gear) : Asking := ⟨g.setNeedAsk, g.lastAskTime, g.inAskMode⟩

/-- One more node tells to ask for a checkpoint. -/
def Asking.prepare (a : Asking) (now majorityCount : Nat) (sendNodeID : NodeID) : Asking :=
  let need := insert sendNodeID a.setNeedAsk
  let time := if a.lastAskTime = 0 then now else a.lastAskTime
  if now > time + 60000 ∨ need.card ≥ majorityCount then ⟨need, 0, true⟩ else ⟨need, time, a.inAskMode⟩

def CheckpointMgr.asking (c : CheckpointMgr) : Asking := ⟨c.setNeedAsk, c.lastAskforCheckpointTime, c.inAskforCheckpointMode⟩

theorem prepareForAskforCheckpoint_asking (c : CheckpointMgr) (now majorityCount : Nat) (sendNodeID : NodeID) :
    (c.prepareForAskforCheckpoint now majorityCount sendNodeID).1.asking = c.asking.prepare now majorityCount sendNodeID := by
  unfold CheckpointMgr.prepareForAskforCheckpoint Asking.prepare CheckpointMgr.asking
  by_cases h : c.lastAskforCheckpointTime = 0
  · simp only [if_pos h]
    split <;> rfl
  · simp only [if_neg h]
    split <;> rfl

/-- No answer is counted and no question is asked. -/
def Allow.quiet : Allow := ⟨False, True, True, False⟩

theorem Move.asking_eq {a : Allow} {g g' : Gear} (ha : ¬ a.ask) (h : Move a g g') : g'.asking = g.asking := by
  cases h with
  | noopTimeout _ hask => exact absurd hask ha
  | ask hask => exact absurd hask ha
  | proposerTimeout _ _ =>
    unfold Gear.onProposerTimeout
    split <;> rfl
  | startCommit _ _ =>
    unfold Gear.startCommit Gear.armCommitTimer
    split <;> rfl
  | _ => rfl

theorem Shift.asking_eq {w w' : Proc} (h : Shift Allow.quiet w w') : w'.gear.asking = w.gear.asking := by
  obtain ⟨new, -, hm⟩ := h
  exact hm.keeps (I := fun g => g.asking = w.gear.asking) (fun hg hmove => (hmove.asking_eq not_false).trans hg) rfl

/-- No answer waits in the retry queue. -/
def Gear.NoAnswerWaits (g : Gear) : Prop := ∀ msg ∈ g.retryQueue, msg.msgType ≠ .learnerSendNowInstanceID

theorem Move.noAnswerWaits {a : Allow} {g g' : Gear} (hg : g.NoAnswerWaits) (h : Move a g g') : g'.NoAnswerWaits := by
  cases h with
  | retry hqueue => exact fun msg hm => (hqueue msg hm).elim (hg msg) id
  | proposerTimeout _ _ =>
    unfold Gear.onProposerTimeout
    split <;> exact hg
  | startCommit _ _ =>
    unfold Gear.startCommit Gear.armCommitTimer
    split <;> exact hg
  | _ => exact hg

theorem Gear.Started.noAnswerWaits {g : Gear} (h : g.Started) : g.NoAnswerWaits := by
  obtain ⟨i, m, rfl | rfl⟩ := h
  · exact fun _ hm => absurd hm List.not_mem_nil
  · exact fun _ hm => absurd hm List.not_mem_nil

/-! ## Answers -/

variable {P : Params} {self : Self} {a : Allow}

/-- `Learner::OnSendNowInstanceID` calls `AskforCheckpoint`. -/
def needsCheckpoint (P : Params) (msg : PaxosMsg) (w : Proc) : Bool :=
  let w := noteSeen msg.nowInstanceID msg.nodeID w
  let (w, ret, change) := updateByCheckpoint P msg.systemVariables w
  !(decide (ret = 0 ∧ change)) && decide (msg.instanceID = w.node.instanceID) && decide (w.node.instanceID < msg.nowInstanceID) &&
    decide (w.node.instanceID < msg.minChosenInstanceID)

theorem noteSeen_config (i : Nat) (sender : NodeID) (w : Proc) :
    (noteSeen i sender w).node.config = w.node.config ∧ (noteSeen i sender w).env = w.env := by
  unfold noteSeen Learner.setSeenInstanceID
  by_cases h : i > w.node.learner.highestSeenInstanceID
  · rw [if_pos h]
    exact ⟨rfl, rfl⟩
  · rw [if_neg h]
    exact ⟨rfl, rfl⟩

/-- The members are what they were, unless the variables were taken over. -/
theorem updateByCheckpoint_config (buffer : Bytes) (w : Proc) :
    (updateByCheckpoint P buffer w).1.env.now = w.env.now ∧
      (((updateByCheckpoint P buffer w).2.1 = 0 ∧ (updateByCheckpoint P buffer w).2.2 = true) ∨
        (updateByCheckpoint P buffer w).1.node.config = w.node.config) := by
  unfold updateByCheckpoint updateSystemVariables
  split
  · exact ⟨rfl, Or.inr rfl⟩
  · split
    · exact ⟨rfl, Or.inr rfl⟩
    · simp only []
      split
      · exact ⟨rfl, Or.inr rfl⟩
      · split
        · exact ⟨rfl, Or.inr rfl⟩
        · split
          · exact ⟨rfl, Or.inr rfl⟩
          · cases hput : w.nextPut
            · exact ⟨rfl, Or.inr rfl⟩
            · exact ⟨rfl, Or.inl ⟨rfl, rfl⟩⟩

/-- Without a call of `AskforCheckpoint` nothing is counted. -/
theorem onSendNowInstanceID_plain (hself : Shifts a self) {msg : PaxosMsg} {w : Proc} (h : needsCheckpoint P msg w = false) :
    Shift a w (onSendNowInstanceID P self msg w) := by
  have hseen : Still w (noteSeen msg.nowInstanceID msg.nodeID w) := ⟨List.suffix_rfl, noteSeen_gear _ _ w⟩
  have hstill := hseen.trans (updateByCheckpoint_still (P := P) msg.systemVariables _)
  have hupdate : Shift a w _ := hstill.shift
  unfold needsCheckpoint at h
  unfold onSendNowInstanceID
  simp only [] at h ⊢
  split
  · exact hupdate
  · rename_i hchange
    split
    · exact hupdate
    · rename_i hid
      split
      · exact hupdate
      · rename_i hnow
        split
        · rename_i hmin
          simp [hchange, not_not.mp hid, Nat.not_le.mp hnow, Nat.lt_of_lt_of_le hmin le_rfl] at h
        · split
          · exact hupdate.trans (comfirmAskForLearn_shift hself _ _)
          · exact hupdate

theorem onSendNowInstanceID_asks (self : Self) {msg : PaxosMsg} {w : Proc} (h : needsCheckpoint P msg w = true) :
    ∃ w₁ : Proc, Still w w₁ ∧ w₁.env.now = w.env.now ∧ w₁.node.config = w.node.config ∧
      onSendNowInstanceID P self msg w = askforCheckpoint self msg.nodeID w₁ := by
  have hseen : Still w (noteSeen msg.nowInstanceID msg.nodeID w) := ⟨List.suffix_rfl, noteSeen_gear _ _ w⟩
  obtain ⟨hconfig, henv⟩ := noteSeen_config msg.nowInstanceID msg.nodeID w
  obtain ⟨hnow, hupdate⟩ := updateByCheckpoint_config (P := P) msg.systemVariables (noteSeen msg.nowInstanceID msg.nodeID w)
  refine ⟨_, hseen.trans (updateByCheckpoint_still (P := P) msg.systemVariables _), hnow.trans (congrArg Env.now henv), ?_, ?_⟩
  · refine Eq.trans (hupdate.resolve_left fun hc => ?_) hconfig
    unfold needsCheckpoint at h
    simp [hc] at h
  · unfold needsCheckpoint at h
    unfold onSendNowInstanceID
    simp only [Bool.and_eq_true, Bool.not_eq_true', decide_eq_true_eq, decide_eq_false_iff_not] at h
    obtain ⟨⟨⟨hchange, hid⟩, hnow⟩, hmin⟩ := h
    simp only []
    rw [if_neg hchange, if_neg (not_not.mpr hid), if_neg (Nat.not_le.mpr hnow), if_pos hmin]

theorem askforCheckpoint_asking (n : NodeID) (w : Proc) : (askforCheckpoint (toSelf P) n w).gear.asking =
    w.gear.asking.prepare w.env.now w.node.config.getMajorityCount n := by
  refine Eq.trans ?_ (prepareForAskforCheckpoint_asking w.node.checkpointMgr _ _ _)
  unfold askforCheckpoint
  simp only []
  split
  · rfl
  · refine Shift.asking_eq (sendMessage_shift toSelf_shift _ _ _ ?_)
    exact notAnswer nofun

/-- The answer that the event counts, with its time. -/
def answer (P : Params) (kind : EventKind) (w : Proc) : Option (NodeID × Nat) :=
  match kind with
  | .receive gid msg =>
    if w.node.stopped ∨ w.node.checkpointMgr.inAskforCheckpointMode ∨
        (w.node.config.getGid ≠ 0 ∧ gid ≠ 0 ∧ w.node.config.getGid ≠ gid) ∨ msg.msgType ≠ .learnerSendNowInstanceID then none
    else if (checksumLogic msg (leaveRetry w)).2 && needsCheckpoint P msg (checksumLogic msg (leaveRetry w)).1 then
      some (msg.nodeID, w.env.now)
    else none
  | _ => none

theorem handle_stopped {kind : EventKind} {w : Proc} (hkind : ∀ cp, kind ≠ .restart cp) (hs : w.node.stopped = true) :
    handle P kind w = w := by
  cases kind with
  | restart cp => exact absurd rfl (hkind cp)
  | _ => exact if_pos hs

/-- What `Instance::OnReceive` does with an answer that it takes. -/
theorem onReceive_answer {gid : Nat} {msg : PaxosMsg} {w : Proc} (hask : ¬ w.node.checkpointMgr.inAskforCheckpointMode = true)
    (hgid : ¬ (w.node.config.getGid ≠ 0 ∧ gid ≠ 0 ∧ w.node.config.getGid ≠ gid)) (htype : msg.msgType = .learnerSendNowInstanceID) :
    onReceive P gid msg w =
      if (checksumLogic msg w).2 then (instanceLearned P (onSendNowInstanceID P (toSelf P) msg (checksumLogic msg w).1)).1
      else (checksumLogic msg w).1 := by
  unfold onReceive onReceivePaxosMsgBody onReceiveLearnersMsg receiveMsgForLearner
  rw [if_neg hask, if_neg hgid]
  simp only [htype]
  split <;> rfl

/-- An answer that is not counted leaves the state as it is. -/
theorem receive_asking_none {gid : Nat} {msg : PaxosMsg} {w : Proc} (hs : ¬ w.node.stopped = true)
    (htype : msg.msgType = .learnerSendNowInstanceID) (hnone : answer P (.receive gid msg) w = none) :
    (onReceive P gid msg (leaveRetry w)).gear.asking = w.gear.asking := by
  by_cases hask : w.node.checkpointMgr.inAskforCheckpointMode = true
  · have hrefuse : onReceive P gid msg (leaveRetry w) = leaveRetry w := if_pos hask
    rw [hrefuse]
    rfl
  by_cases hgid : w.node.config.getGid ≠ 0 ∧ gid ≠ 0 ∧ w.node.config.getGid ≠ gid
  · have hrefuse : onReceive P gid msg (leaveRetry w) = leaveRetry w := (if_neg hask).trans (if_pos hgid)
    rw [hrefuse]
    rfl
  have hpass : ¬ (w.node.stopped ∨ w.node.checkpointMgr.inAskforCheckpointMode ∨
      (w.node.config.getGid ≠ 0 ∧ gid ≠ 0 ∧ w.node.config.getGid ≠ gid) ∨ msg.msgType ≠ .learnerSendNowInstanceID) := by
    rintro (h | h | h | h)
    · exact hs h
    · exact hask h
    · exact hgid h
    · exact h htype
  have hchecked := checksumLogic_still msg (leaveRetry w)
  unfold answer at hnone
  simp only [if_neg hpass] at hnone
  rw [onReceive_answer (w := leaveRetry w) hask hgid htype]
  split
  · rename_i hok
    have hplain : needsCheckpoint P msg (checksumLogic msg (leaveRetry w)).1 = false := by
      rw [hok, Bool.true_and] at hnone
      cases hneeds : needsCheckpoint P msg (checksumLogic msg (leaveRetry w)).1 with
      | false => rfl
      | true => simp [hneeds] at hnone
    have hshift : Shift Allow.quiet _ _ :=
      (onSendNowInstanceID_plain (toSelf_shift (P := P)) hplain).trans (instanceLearned_shift (P := P) _)
    exact hshift.asking_eq.trans (congrArg Gear.asking hchecked.gear)
  · exact congrArg Gear.asking hchecked.gear

/-- The timer of the learner fires: the node leaves the checkpoint mode. -/
theorem noopTimeout_asking {timerID : Nat} {w : Proc} (hnoop : w.node.ioLoop.timers.lookup timerID = some .learnerAskforlearnNoop) :
    (onTimeout P timerID w).gear.asking = { w.gear.asking with inAskMode := false } := by
  unfold onTimeout
  rw [hnoop]
  exact congrArg (fun g : Gear => ({ g.asking with inAskMode := false } : Asking))
    (resetAskforLearnNoop_gear { w with node.ioLoop := w.node.ioLoop.removeTimer timerID })

/-- **What an event without a counted answer does**: at most the node leaves the checkpoint mode. -/
theorem handle_asking_none {kind : EventKind} (hkind : ∀ cp, kind ≠ .restart cp) {w : Proc} (hwaits : w.gear.NoAnswerWaits)
    (hnone : answer P kind w = none) : (handle P kind w).gear.asking = w.gear.asking ∨
      (handle P kind w).gear.asking = { w.gear.asking with inAskMode := false } := by
  have hquiet (h : NoAnswer kind w) : (handle P kind w).gear.asking = w.gear.asking :=
    Shift.asking_eq (handle_shift hkind w (Or.inr h) (fun _ _ => trivial) fun _ _ _ => trivial)
  by_cases hs : w.node.stopped = true
  · rw [handle_stopped hkind hs]
    exact Or.inl rfl
  cases kind with
  | restart cp => exact absurd rfl (hkind cp)
  | receive gid msg =>
    refine Or.inl ?_
    by_cases htype : msg.msgType = .learnerSendNowInstanceID
    · have heq : handle P (.receive gid msg) w = onReceive P gid msg (leaveRetry w) := if_neg hs
      rw [heq]
      exact receive_asking_none hs htype hnone
    · refine hquiet ⟨hwaits, fun gid' msg' he => ?_, nofun⟩
      obtain ⟨-, rfl⟩ := EventKind.receive.inj he
      exact fun h => absurd h htype
  | timeout timerID =>
    by_cases hnoop : w.node.ioLoop.timers.lookup timerID = some .learnerAskforlearnNoop
    · have heq : handle P (.timeout timerID) w = onTimeout P timerID (leaveRetry w) := if_neg hs
      rw [heq]
      exact Or.inr (noopTimeout_asking (w := leaveRetry w) hnoop)
    · exact Or.inl (hquiet ⟨hwaits, nofun, fun id he => (EventKind.timeout.inj he) ▸ hnoop⟩)
  | _ => exact Or.inl (hquiet ⟨hwaits, nofun, nofun⟩)

/-- **What an event with a counted answer does.** -/
theorem handle_asking_some {kind : EventKind} {w : Proc} {n : NodeID} {now : Nat} (hsome : answer P kind w = some (n, now)) :
    now = w.env.now ∧ w.node.stopped = false ∧ w.gear.inAskMode = false ∧
      (handle P kind w).gear.asking = w.gear.asking.prepare now w.node.config.getMajorityCount n := by
  unfold answer at hsome
  split at hsome
  · rename_i gid msg
    split at hsome
    · exact absurd hsome nofun
    · rename_i hpass
      obtain ⟨hs, hask, hgid, htype⟩ : ¬ w.node.stopped = true ∧ ¬ w.node.checkpointMgr.inAskforCheckpointMode = true ∧
          ¬ (w.node.config.getGid ≠ 0 ∧ gid ≠ 0 ∧ w.node.config.getGid ≠ gid) ∧ ¬ msg.msgType ≠ .learnerSendNowInstanceID := by
        rw [not_or, not_or, not_or] at hpass
        exact hpass
      split at hsome
      · rename_i hneeds
        rw [Bool.and_eq_true] at hneeds
        obtain ⟨rfl, rfl⟩ := Prod.mk.inj (Option.some.inj hsome)
        refine ⟨rfl, Bool.eq_false_iff.mpr hs, Bool.eq_false_iff.mpr hask, ?_⟩
        have heq : handle P (.receive gid msg) w = onReceive P gid msg (leaveRetry w) := if_neg hs
        rw [heq, onReceive_answer (w := leaveRetry w) hask hgid (not_not.mp htype), if_pos hneeds.1]
        obtain ⟨w₁, hstill, hnow, hconfig, hasks⟩ := onSendNowInstanceID_asks (toSelf P) hneeds.2
        have hchecked := checksumLogic_still msg (leaveRetry w)
        have hlearned : Shift Allow.quiet _ _ := instanceLearned_shift (P := P)
          (onSendNowInstanceID P (toSelf P) msg (checksumLogic msg (leaveRetry w)).1)
        have hgear : w₁.gear = w.gear := hstill.gear.trans hchecked.gear
        rw [hlearned.asking_eq, hasks, askforCheckpoint_asking, hgear, hnow, hconfig]
        have hsame : (checksumLogic msg (leaveRetry w)).1.env = w.env ∧
            (checksumLogic msg (leaveRetry w)).1.node.config = w.node.config := by
          unfold checksumLogic
          split
          · exact ⟨rfl, rfl⟩
          · split
            · exact ⟨rfl, rfl⟩
            · split
              · exact ⟨rfl, rfl⟩
              · split <;> exact ⟨rfl, rfl⟩
        rw [hsame.1, hsame.2]
      · exact absurd hsome nofun
  · exact absurd hsome nofun

/-! ## Episodes -/

/-- The answers of the process that were counted, the latest first, and how many of them belong to the current episode and how
many came since the node last entered the mode. -/
structure AskTrack where
  counted : List (NodeID × Nat) := []
  episode : Nat := 0
  running : Nat := 0

/-- The node leaves the mode, or is able to learn: it learns an instance or was told that it can learn. -/
def endsEpisode (n n' : Node) : Bool :=
  (n.checkpointMgr.inAskforCheckpointMode && !n'.checkpointMgr.inAskforCheckpointMode) ||
    decide (n.instanceID ≠ n'.instanceID) || (!n.learner.isIMLearning && n'.learner.isIMLearning)

/-- The node enters the mode. -/
def enters (n n' : Node) : Bool :=
  !n.checkpointMgr.inAskforCheckpointMode && n'.checkpointMgr.inAskforCheckpointMode

namespace AskTrack

def count (t : AskTrack) : Option (NodeID × Nat) → AskTrack
  | none => t
  | some a => ⟨a :: t.counted, t.episode + 1, t.running + 1⟩

/-- The answers of the current episode. -/
def current (t : AskTrack) : List (NodeID × Nat) := t.counted.take t.episode

/-- What is left of earlier episodes. -/
def earlier (t : AskTrack) : List (NodeID × Nat) := t.counted.drop t.episode

/-- A process that is started again knows nothing of what was counted. -/
def after (P : Params) (kind : EventKind) (w : Proc) (t : AskTrack) : AskTrack :=
  match kind with
  | .restart _ => {}
  | kind =>
    let n := (handle P kind w).node
    let t := t.count (answer P kind w)
    { t with
      episode := if endsEpisode w.node n then 0 else t.episode
      running := if enters w.node n then 0 else t.running }

end AskTrack

/-- The time that `m_llLastAskforCheckpointTime` shows after these answers. -/
def clockOf : List (NodeID × Nat) → Nat
  | [] => 0
  | a :: l => if clockOf l = 0 then a.2 else clockOf l

/-- A majority of the members gave one of these answers, or 60 seconds passed since the first of them. -/
def Evidence (members : Finset NodeID) (now : Nat) (answers : List (NodeID × Nat)) : Prop :=
  members.card / 2 + 1 ≤ ((answers.map Prod.fst).toFinset ∩ members).card ∨ ∃ first ∈ answers.getLast?, first.2 + 60000 < now

instance (members : Finset NodeID) (now : Nat) (answers : List (NodeID × Nat)) : Decidable (Evidence members now answers) :=
  inferInstanceAs (Decidable (_ ∨ _))

abbrev AskTracks := NodeID → AskTrack

/-- The runs of a group with the counted answers of its nodes. -/
inductive AskRun (P : Params) (D : Deliver) (G : Group) : Sys → AskTracks → Prop
  | init : AskRun P D G (Sys.init P G) fun _ => {}
  | step {s : Sys} {t : AskTracks} (e : Event) : AskRun P D G s t → e.CanHappen D s →
      AskRun P D G (s.step P e) (Function.update t e.node ((t e.node).after P e.kind (s.proc e.node e.env)))

/-- Nothing of earlier episodes counts at the answer: whoever answered in them has answered in this one as well, and the clock was
started in this one. Those who answered are members. -/
def NoneLeft (P : Params) (kind : EventKind) (w : Proc) (t : AskTrack) : Prop :=
  answer P kind w ≠ none →
    (∀ a ∈ t.earlier, ∃ b ∈ (t.count (answer P kind w)).current, b.1 = a.1) ∧ t.running ≤ t.episode ∧
      ∀ b ∈ (t.count (answer P kind w)).current, b.1 ∈ w.node.config.systemVSM.setNodeID

/-! ## What the node keeps -/

/-- The first answer is no later than what the clock shows. -/
theorem le_clockOf {answers : List (NodeID × Nat)} {first : NodeID × Nat} (h : first ∈ answers.getLast?) :
    first.2 ≤ clockOf answers := by
  induction answers with
  | nil => exact nomatch h
  | cons a l ih =>
    unfold clockOf
    cases l with
    | nil =>
      obtain rfl : a = first := Option.some.inj h
      exact (if_pos rfl).ge
    | cons b l =>
      have hle := ih (List.getLast?_cons_cons ▸ h)
      split
      · exact (Nat.le_zero.mp (‹clockOf (b :: l) = 0› ▸ hle)) ▸ Nat.zero_le _
      · exact hle

/-- The nodes that are kept are those of all answers, and the clock is that of the answers since the mode was last entered. -/
structure AskTrack.Matches (t : AskTrack) (g : Gear) : Prop where
  waits : g.NoAnswerWaits
  need : g.setNeedAsk = (t.counted.map Prod.fst).toFinset
  clock : g.lastAskTime = clockOf (t.counted.take t.running)
  episode_le : g.inAskMode = false → t.episode ≤ t.running

theorem Gear.Started.matches {g : Gear} (h : g.Started) : AskTrack.Matches {} g := by
  have hwaits := h.noAnswerWaits
  obtain ⟨i, m, rfl | rfl⟩ := h
  · exact ⟨hwaits, rfl, rfl, fun _ => le_rfl⟩
  · exact ⟨hwaits, rfl, rfl, fun _ => le_rfl⟩

section Handle

variable {kind : EventKind} {w : Proc} {t : AskTrack}

theorem enters_iff {n n' : Node} : enters n n' = true ↔ n.gear.asking.inAskMode = false ∧ n'.gear.asking.inAskMode = true := by
  unfold enters
  rw [Bool.and_eq_true, Bool.not_eq_true']
  exact Iff.rfl

/-- Without a counted answer the mode is not entered. -/
theorem not_enters_of_none (hkind : ∀ cp, kind ≠ .restart cp) (hwaits : w.gear.NoAnswerWaits) (hnone : answer P kind w = none) :
    enters w.node (handle P kind w).node = false := by
  rw [Bool.eq_false_iff]
  intro h
  obtain ⟨hout, hin⟩ := enters_iff.mp h
  rcases handle_asking_none hkind hwaits hnone with heq | heq
  · exact Bool.false_ne_true (hout.symm.trans ((congrArg Asking.inAskMode heq).symm.trans hin))
  · exact Bool.false_ne_true ((congrArg Asking.inAskMode heq).symm.trans hin)

theorem AskTrack.after_eq (hkind : ∀ cp, kind ≠ .restart cp) : t.after P kind w =
    { t.count (answer P kind w) with
      episode := if endsEpisode w.node (handle P kind w).node then 0 else (t.count (answer P kind w)).episode
      running := if enters w.node (handle P kind w).node then 0 else (t.count (answer P kind w)).running } := by
  cases kind with
  | restart cp => exact absurd rfl (hkind cp)
  | _ => rfl

/-- The clock after one more answer. -/
theorem AskTrack.Matches.clock_cons (ht : t.Matches w.gear) (a : NodeID × Nat) :
    (if w.gear.asking.lastAskTime = 0 then a.2 else w.gear.asking.lastAskTime) = clockOf (a :: t.counted.take t.running) := by
  unfold clockOf
  rw [← ht.clock]
  rfl

/-- **What one event does to what the node keeps.** -/
theorem AskTrack.Matches.handle (ht : t.Matches w.gear) (hkind : ∀ cp, kind ≠ .restart cp) :
    (t.after P kind w).Matches (handle P kind w).gear := by
  have hwaits : (PhxPaxos.handle P kind w).gear.NoAnswerWaits := by
    obtain ⟨new, -, hm⟩ := handle_shift_all (P := P) hkind w
    exact hm.keeps (fun hg hmove => hmove.noAnswerWaits hg) ht.waits
  rw [AskTrack.after_eq hkind]
  cases hanswer : answer P kind w with
  | none =>
    have henters := not_enters_of_none hkind ht.waits hanswer
    rw [henters, if_neg Bool.false_ne_true]
    rcases handle_asking_none hkind ht.waits hanswer with heq | heq
    · refine ⟨hwaits, (congrArg Asking.setNeedAsk heq).trans ht.need, (congrArg Asking.lastAskTime heq).trans ht.clock, fun hout => ?_⟩
      have hbefore : w.gear.inAskMode = false := (congrArg Asking.inAskMode heq).symm.trans hout
      split
      · exact Nat.zero_le _
      · exact ht.episode_le hbefore
    · refine ⟨hwaits, (congrArg Asking.setNeedAsk heq).trans ht.need, (congrArg Asking.lastAskTime heq).trans ht.clock, fun hout => ?_⟩
      split
      · exact Nat.zero_le _
      · -- the node was not in the mode, else the episode would have ended
        rename_i hends
        refine ht.episode_le ?_
        unfold endsEpisode at hends
        rw [Bool.not_eq_true, Bool.or_eq_false_iff, Bool.or_eq_false_iff, Bool.and_eq_false_iff] at hends
        refine hends.1.1.resolve_right fun hin => ?_
        have hout' : (PhxPaxos.handle P kind w).node.checkpointMgr.inAskforCheckpointMode = false := hout
        rw [hout'] at hin
        exact Bool.false_ne_true hin.symm
  | some a =>
    obtain ⟨n, now⟩ := a
    obtain ⟨-, -, hout, heq⟩ := handle_asking_some hanswer
    have hclock := ht.clock_cons (n, now)
    have hneed : insert n w.gear.asking.setNeedAsk = (((n, now) :: t.counted).map Prod.fst).toFinset := by
      rw [List.map_cons, List.toFinset_cons, ← ht.need]
      rfl
    unfold Asking.prepare at heq
    simp only [hclock, hneed] at heq
    split at heq
    · -- the mode is entered
      have henters : enters w.node (PhxPaxos.handle P kind w).node = true :=
        enters_iff.mpr ⟨hout, congrArg Asking.inAskMode heq⟩
      rw [henters, if_pos rfl]
      refine ⟨hwaits, congrArg Asking.setNeedAsk heq, congrArg Asking.lastAskTime heq, fun h => ?_⟩
      exact absurd ((congrArg Asking.inAskMode heq).symm.trans h).symm Bool.false_ne_true
    · have henters : enters w.node (PhxPaxos.handle P kind w).node = false := by
        rw [Bool.eq_false_iff]
        intro h
        exact Bool.false_ne_true (hout.symm.trans ((congrArg Asking.inAskMode heq).symm.trans (enters_iff.mp h).2))
      rw [henters, if_neg Bool.false_ne_true]
      refine ⟨hwaits, congrArg Asking.setNeedAsk heq, congrArg Asking.lastAskTime heq, fun _ => ?_⟩
      split
      · exact Nat.zero_le _
      · exact Nat.succ_le_succ (ht.episode_le hout)

end Handle

/-- The process is started again, or could not be. -/
theorem restart_started (P : Params) (cp : Nat) (w : Proc) :
    (restart P cp w).gear.Started ∨ (restart P cp w).node.stopped = true := by
  have hstart := instanceInit_started (P := P) (w := { w.log (.restart w.me w.node.instanceID cp) with
    node := Node.new w.node.config w.node.storage, played := [] }) cp (Node.new_isNew _ _)
  unfold restart
  simp only []
  split
  · exact Or.inr rfl
  · exact Or.inl hstart

theorem AskRun.matches {D : Deliver} {G : Group} {s : Sys} {t : AskTracks} (h : AskRun P D G s t) (n : NodeID) :
    (s.node n).stopped = true ∨ (t n).Matches (s.node n).gear := by
  induction h with
  | init => exact Or.inr (instanceInit_started 0 (Node.new_isNew _ _)).matches
  | @step s t e _ _ ih =>
    by_cases hn : n = e.node
    · subst hn
      have hpost : (handle P e.kind (s.proc e.node e.env)).node.stopped = true ∨
          ((t e.node).after P e.kind (s.proc e.node e.env)).Matches (handle P e.kind (s.proc e.node e.env)).gear := by
        by_cases hkind : ∃ cp, e.kind = .restart cp
        · obtain ⟨cp, hcp⟩ := hkind
          rw [hcp]
          exact (restart_started P cp _).symm.imp_right Gear.Started.matches
        · have hkind' : ∀ cp, e.kind ≠ .restart cp := fun cp hcp => hkind ⟨cp, hcp⟩
          rcases ih with hs | hm
          · exact Or.inl ((handle_stopped (w := s.proc e.node e.env) hkind' hs).symm ▸ hs)
          · exact Or.inr (hm.handle hkind')
      unfold Sys.step
      simp only [Function.update_self]
      exact hpost
    · unfold Sys.step
      simp only [Function.update_of_ne hn]
      exact ih

/-! ## Fresh evidence -/

/-- One event enters the mode on fresh evidence, if nothing is left of earlier episodes. -/
theorem AskTrack.Matches.evidence {kind : EventKind} {w : Proc} {t : AskTrack} (ht : t.Matches w.gear)
    (hkind : ∀ cp, kind ≠ .restart cp) (hleft : NoneLeft P kind w t) (henters : enters w.node (PhxPaxos.handle P kind w).node = true) :
    Evidence w.node.config.systemVSM.setNodeID w.env.now (t.count (answer P kind w)).current := by
  cases hanswer : answer P kind w with
  | none => exact absurd henters (by rw [not_enters_of_none hkind ht.waits hanswer]; exact Bool.false_ne_true)
  | some a =>
    obtain ⟨n, now⟩ := a
    obtain ⟨hnow, -, hout, heq⟩ := handle_asking_some hanswer
    obtain ⟨hearlier, hrunning, hmembers⟩ := hleft (by rw [hanswer]; exact Option.some_ne_none _)
    rw [hanswer] at hearlier hmembers
    have hin := (congrArg Asking.inAskMode heq).symm.trans (enters_iff.mp henters).2
    have hclock := ht.clock_cons (n, now)
    have hcurrent : (t.count (some (n, now))).current = (n, now) :: t.counted.take t.episode := rfl
    unfold Asking.prepare at hin
    simp only [hclock] at hin
    split at hin
    · rename_i hcond
      rcases hcond with htime | hmajority
      · -- the clock is that of this episode
        refine Or.inr ?_
        obtain ⟨first, hfirst⟩ : ∃ first, first ∈ ((n, now) :: t.counted.take t.episode).getLast? :=
          ⟨_, List.getLast?_eq_getLast_of_ne_nil (List.cons_ne_nil _ _)⟩
        have hrun : t.running = t.episode := le_antisymm hrunning (ht.episode_le hout)
        rw [hrun] at htime
        rw [hcurrent, ← hnow]
        exact ⟨first, hfirst, (Nat.add_le_add_right (le_clockOf hfirst) _).trans_lt htime⟩
      · refine Or.inl ?_
        have hsub : insert n w.gear.asking.setNeedAsk ⊆
            ((t.count (some (n, now))).current.map Prod.fst).toFinset ∩ w.node.config.systemVSM.setNodeID := by
          intro m hm
          obtain ⟨b, hb, rfl⟩ : ∃ b ∈ (t.count (some (n, now))).current, b.1 = m := by
            rcases Finset.mem_insert.mp hm with rfl | hm
            · exact ⟨(m, now), List.mem_cons_self, rfl⟩
            · -- an answer of this episode, or of an earlier one and repeated in this one
              have hcounted : m ∈ (t.counted.map Prod.fst).toFinset := ht.need ▸ (show m ∈ w.gear.setNeedAsk from hm)
              obtain ⟨b, hb, rfl⟩ := List.mem_map.mp (List.mem_toFinset.mp hcounted)
              rw [← List.take_append_drop t.episode t.counted] at hb
              rcases List.mem_append.mp hb with hb | hb
              · exact ⟨b, List.mem_cons_of_mem _ hb, rfl⟩
              · exact hearlier b hb
          exact Finset.mem_inter.mpr ⟨List.mem_toFinset.mpr (List.mem_map_of_mem hb), hmembers b hb⟩
        exact hmajority.trans (Finset.card_le_card hsub)
    · exact absurd (hout.symm.trans hin) Bool.false_ne_true

/-- **A node asks for a checkpoint on fresh evidence**, where nothing of earlier episodes counts: when an event of any run makes a
node enter the mode, a majority of the members told it so in this episode, or 60 seconds passed since the first of them did. -/
theorem AskRun.fresh_evidence {D : Deliver} {G : Group} {s : Sys} {t : AskTracks} (h : AskRun P D G s t) {e : Event}
    (hleft : NoneLeft P e.kind (s.proc e.node e.env) (t e.node))
    (henters : enters (s.node e.node) ((s.step P e).node e.node) = true) :
    Evidence (s.node e.node).config.systemVSM.setNodeID e.env.now
      ((t e.node).count (answer P e.kind (s.proc e.node e.env))).current := by
  have henters' : enters (s.node e.node) (handle P e.kind (s.proc e.node e.env)).node = true := by
    unfold Sys.step at henters
    simpa only [Function.update_self] using henters
  obtain ⟨hout, hin⟩ := enters_iff.mp henters'
  have hsame {w : Proc} (hw : w.gear.inAskMode = (s.node e.node).gear.inAskMode) : w.gear.asking.inAskMode = true → False :=
    fun h => Bool.false_ne_true ((hout.symm.trans hw.symm).trans h)
  by_cases hkind : ∃ cp, e.kind = .restart cp
  · -- a process that starts is not in the mode
    obtain ⟨cp, hcp⟩ := hkind
    rw [hcp] at hin
    refine absurd hin ?_
    rcases restart_gear P cp (s.proc e.node e.env) with ⟨i, m, hg | hg⟩ | ⟨m, hg⟩
    · exact fun h => Bool.false_ne_true ((congrArg Gear.inAskMode hg).symm.trans h)
    · exact fun h => Bool.false_ne_true ((congrArg Gear.inAskMode hg).symm.trans h)
    · refine hsame (w := restart P cp (s.proc e.node e.env)) ?_
      rw [hg]
      rfl
  · have hkind' : ∀ cp, e.kind ≠ .restart cp := fun cp hcp => hkind ⟨cp, hcp⟩
    rcases h.matches e.node with hs | hm
    · refine absurd hin ?_
      rw [handle_stopped (w := s.proc e.node e.env) hkind' hs]
      exact hsame rfl
    · exact AskTrack.Matches.evidence (w := s.proc e.node e.env) hm hkind' hleft henters'

/-! ## Stale evidence -/

def AskTracks.run (P : Params) : List Event → Sys → AskTracks → AskTracks
  | [], _, t => t
  | e :: es, s, t =>
    run P es (s.step P e) (Function.update t e.node ((t e.node).after P e.kind (s.proc e.node e.env)))

/-- Where any message may arrive, every run reaches its end. -/
theorem AskRun.of_run {G : Group} {es : List Event} : ∀ {s : Sys} {t : AskTracks}, AskRun P anyMessage G s t →
    AskRun P anyMessage G (s.run P es) (AskTracks.run P es s t) := by
  induction es with
  | nil => exact id
  | cons e es ih => exact fun hs => ih (.step e hs fun _ _ _ => trivial)

/-- Node `n` tells node 1 that instance `i` is not available any more. -/
def tellCleaned (n : NodeID) (i : Nat) : Event :=
  deliver 1 { msgType := .learnerSendNowInstanceID, instanceID := i, nodeID := n, nowInstanceID := 10, minChosenInstanceID := 5 }

def tellCleanedAt (n : NodeID) (now : Nat) : Event := { tellCleaned n 0 with env := { now := now } }

/-- In a group of five, only node 2 tells node 1, which enters the mode after 60 seconds and leaves it with the next question;
then the nodes 2 and 3 tell it. -/
def twoEpisodesRun : List Event :=
  [tellCleanedAt 2 1000, tellCleanedAt 2 61001, ⟨1, .timeout 1, {}⟩, tellCleanedAt 2 70000, tellCleanedAt 3 70001]

/-- With node 4 a majority has told it in the second episode. -/
theorem fresh_evidence_twoEpisodes :
    let s := Sys.init .plain (.ofList [1, 2, 3, 4, 5])
    enters ((s.run .plain (twoEpisodesRun.take 1)).node 1) ((s.run .plain (twoEpisodesRun.take 2)).node 1) = true ∧
      ((s.run .plain twoEpisodesRun).node 1).checkpointMgr.inAskforCheckpointMode = false ∧
      Evidence {1, 2, 3, 4, 5} 70002 [(4, 70002), (3, 70001), (2, 70000)] := by
  refine ⟨by decide +kernel, by decide +kernel, ?_⟩
  have hr : AskRun .plain anyMessage (.ofList [1, 2, 3, 4, 5])
      (Sys.run .plain twoEpisodesRun (Sys.init .plain (.ofList [1, 2, 3, 4, 5])))
      (AskTracks.run .plain twoEpisodesRun (Sys.init .plain (.ofList [1, 2, 3, 4, 5])) fun _ => {}) := .of_run .init
  have hleft : NoneLeft .plain (tellCleanedAt 4 70002).kind
      ((Sys.run .plain twoEpisodesRun (Sys.init .plain (.ofList [1, 2, 3, 4, 5]))).proc 1 { now := 70002 })
      (AskTracks.run .plain twoEpisodesRun (Sys.init .plain (.ofList [1, 2, 3, 4, 5])) (fun _ => {}) 1) :=
    fun _ => by decide +kernel
  have hfresh := hr.fresh_evidence (e := tellCleanedAt 4 70002) hleft (by decide +kernel)
  exact hfresh

/-- Node 1 is told by node 2, and then learns the instance from node 3. -/
def toldOnceRun : List Event := [tellCleaned 2 0, deliver 1 (learnValueMsg 3 0 ⟨1, 3⟩ (packPaxosValue [7] 0) 0 0)]

/-- One answer is enough, since that of an earlier episode still counts. -/
theorem stale_evidence : ∃ s t, AskRun .plain anyMessage (.ofList [1, 2, 3]) s t ∧
    (s.node 1).instanceID = 1 ∧
    enters (s.node 1) ((s.step .plain (tellCleaned 3 1)).node 1) = true ∧
    ((t 1).count (answer .plain (tellCleaned 3 1).kind (s.proc 1 {}))).current = [(3, 0)] ∧
    ¬ Evidence (s.node 1).config.systemVSM.setNodeID 0 [(3, 0)] := by
  refine ⟨Sys.run .plain toldOnceRun (Sys.init .plain (.ofList [1, 2, 3])),
    AskTracks.run .plain toldOnceRun (Sys.init .plain (.ofList [1, 2, 3])) fun _ => {}, .of_run .init, ?_⟩
  decide +kernel

end PhxPaxos
