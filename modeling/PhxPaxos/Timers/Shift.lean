import PhxPaxos.Timers.Gear

/-!
# What a node handles moves the gear

Each handler is a sequence of moves (`handle_shift`). An answer to a question for values may change the state of the
checkpoint mode; what a node sends to itself is never such an answer (`NotAnswer`), because it lags behind.
-/

namespace PhxPaxos

/-- The message is not an answer about the instance the node is at. -/
def NotAnswer (msg : PaxosMsg) (w : Proc) : Prop :=
  msg.msgType = .learnerSendNowInstanceID → msg.instanceID ≠ w.node.instanceID

/-- A handler that moves the gear. -/
def Shifts (a : Allow) (self : Self) : Prop := ∀ msg w, a.ask ∨ NotAnswer msg w → Shift a w (self msg w).1

variable {P : Params} {self : Self} {a : Allow}

/-! ## Sending and timers -/

section Base

variable (hself : Shifts a self)
include hself

theorem sendMessage_shift (w : Proc) (dst : NodeID) (msg : PaxosMsg) (h : a.ask ∨ NotAnswer msg w) :
    Shift a w (w.sendMessage self dst msg) := by
  unfold Proc.sendMessage
  split
  · exact hself msg w h
  · exact Shift.of_eq List.suffix_rfl rfl

theorem broadcastMessage_shift (w : Proc) (runType : RunSelf) (msg : PaxosMsg) (h : a.ask ∨ NotAnswer msg w) :
    Shift a w (w.broadcastMessage self runType msg) := by
  unfold Proc.broadcastMessage
  cases runType with
  | first =>
    simp only []
    split
    · exact hself msg w h
    · exact (hself msg w h).trans (Shift.of_eq List.suffix_rfl rfl)
  | final => exact hself msg (w.emit w.others msg) h
  | none => exact Shift.of_eq List.suffix_rfl rfl

end Base

/-- Only one type of message is an answer. -/
theorem notAnswer {msg : PaxosMsg} {w : Proc} (h : msg.msgType ≠ .learnerSendNowInstanceID) : a.ask ∨ NotAnswer msg w :=
  Or.inr fun he => absurd he h

/-! ## The acceptor -/

theorem writeState_shift (i : Nat) (r : AcceptorStateData) (w : Proc) : Shift a w (w.writeState i r).1 := by
  unfold Proc.writeState
  simp only []
  split <;> exact Shift.of_eq List.suffix_rfl rfl

theorem persist_shift (w : Proc) : Shift a w (AcceptorState.persist P w).1 := by
  unfold AcceptorState.persist
  simp only []
  exact ((Shift.of_eq List.suffix_rfl rfl).trans (writeState_shift _ _ _)).log _

theorem onPrepare_shift (hself : Shifts a self) (msg : PaxosMsg) (w : Proc) : Shift a w (onPrepare P self msg w).1 := by
  unfold onPrepare
  simp only []
  split
  · have hpersist : Shift a w (AcceptorState.persist P { w with node.acceptor.promiseBallot := msg.ballot }).1 :=
      persist_shift { w with node.acceptor.promiseBallot := msg.ballot }
    split
    · exact hpersist
    · exact (hpersist.log _).trans (sendMessage_shift hself _ _ _ (notAnswer nofun))
  · exact sendMessage_shift hself w _ _ (notAnswer nofun)

theorem onAccept_shift (hself : Shifts a self) (msg : PaxosMsg) (w : Proc) : Shift a w (onAccept P self msg w) := by
  unfold onAccept
  simp only []
  split
  · have hpersist (w' : Proc) (hhist : w.hist <:+ w'.hist) (hgear : w'.gear = w.gear) :
        Shift a w (AcceptorState.persist P w').1 := (Shift.of_eq hhist hgear).trans (persist_shift w')
    split
    · exact hpersist _ (List.suffix_cons _ _) rfl
    · refine ((hpersist _ ?_ ?_).log _).trans (sendMessage_shift hself _ _ _ (notAnswer nofun))
      · exact List.suffix_cons _ _
      · rfl
  · exact sendMessage_shift hself w _ _ (notAnswer nofun)

/-! ## The proposer -/

theorem exitPrepare_gear (w : Proc) : (exitPrepare w).gear = w.gear.exitPrepare := by
  unfold exitPrepare Gear.exitPrepare Proc.gear Node.gear
  cases h : w.node.proposer.isPreparing <;> simp [h, IOLoop.removeTimer, Gear.removeTimer]

theorem exitAccept_gear (w : Proc) : (exitAccept w).gear = w.gear.exitAccept := by
  unfold exitAccept Gear.exitAccept Proc.gear Node.gear
  cases h : w.node.proposer.isAccepting <;> simp [h, IOLoop.removeTimer, Gear.removeTimer]

theorem exitPrepare_hist (w : Proc) : (exitPrepare w).hist = w.hist := by
  unfold exitPrepare
  split <;> rfl

theorem exitAccept_hist (w : Proc) : (exitAccept w).hist = w.hist := by
  unfold exitAccept
  split <;> rfl

theorem exitPrepare_shift (w : Proc) : Shift a w (exitPrepare w) :=
  Shift.move (exitPrepare_hist w ▸ List.suffix_rfl) (exitPrepare_gear w) .exitPrepare

theorem exitAccept_shift (w : Proc) : Shift a w (exitAccept w) :=
  Shift.move (exitAccept_hist w ▸ List.suffix_rfl) (exitAccept_gear w) .exitAccept

theorem addPrepareTimer_gear (wait : Bool) (w : Proc) : (addPrepareTimer wait w).gear =
    if wait then w.gear.addPrepareTimer else { w.gear.addPrepareTimer with timeoutInstanceID := w.node.instanceID } := by
  unfold addPrepareTimer Gear.addPrepareTimer Gear.dropTimer
  by_cases h : w.node.proposer.prepareTimerID > 0
  · rw [if_pos (show w.gear.prepareTimerID > 0 from h)]
    cases wait <;> simp only [if_pos h] <;> rfl
  · rw [if_neg (show ¬ w.gear.prepareTimerID > 0 from h)]
    cases wait <;> simp only [if_neg h] <;> rfl

theorem addAcceptTimer_gear (wait : Bool) (w : Proc) : (addAcceptTimer wait w).gear =
    if wait then w.gear.addAcceptTimer else { w.gear.addAcceptTimer with timeoutInstanceID := w.node.instanceID } := by
  unfold addAcceptTimer Gear.addAcceptTimer Gear.dropTimer
  by_cases h : w.node.proposer.acceptTimerID > 0
  · rw [if_pos (show w.gear.acceptTimerID > 0 from h)]
    cases wait <;> simp only [if_pos h] <;> rfl
  · rw [if_neg (show ¬ w.gear.acceptTimerID > 0 from h)]
    cases wait <;> simp only [if_neg h] <;> rfl

theorem addPrepareTimer_hist (wait : Bool) (w : Proc) : (addPrepareTimer wait w).hist = w.hist := by
  unfold addPrepareTimer
  cases wait <;> rfl

theorem addAcceptTimer_hist (wait : Bool) (w : Proc) : (addAcceptTimer wait w).hist = w.hist := by
  unfold addAcceptTimer
  cases wait <;> rfl

/-- What `accept` comes to before it sends. -/
theorem accept_spec (self : Self) (w : Proc) : ∃ (w₁ : Proc) (msg : PaxosMsg),
    accept self w = w₁.broadcastMessage self .final msg ∧ msg.msgType = .paxosAccept ∧ w₁.gear = w.gear.exitPrepare.accept ∧ w.hist <:+ w₁.hist := by
  refine ⟨_, _, rfl, rfl, ?_, ?_⟩
  · refine (addAcceptTimer_gear false _).trans ?_
    rw [← exitPrepare_gear]
    rfl
  · refine List.suffix_cons_iff.mpr (Or.inr ?_)
    exact (addAcceptTimer_hist false _).trans (exitPrepare_hist w) ▸ List.suffix_rfl

/-- What `prepare` comes to before it sends. -/
theorem prepare_spec (self : Self) (b : Bool) (w : Proc) : ∃ (w₁ : Proc) (msg : PaxosMsg),
    prepare self b w = w₁.broadcastMessage self .first msg ∧ msg.msgType = .paxosPrepare ∧ w₁.gear = w.gear.exitAccept.prepare ∧ w.hist <:+ w₁.hist := by
  refine ⟨_, _, rfl, rfl, ?_, ?_⟩
  · refine (addPrepareTimer_gear false _).trans ?_
    rw [← exitAccept_gear]
    rfl
  · refine List.suffix_cons_iff.mpr (Or.inr ?_)
    exact (addPrepareTimer_hist false _).trans (exitAccept_hist w) ▸ List.suffix_rfl

theorem accept_shift (hself : Shifts a self) (w : Proc) : Shift a w (accept self w) := by
  obtain ⟨w₁, msg, heq, htype, hgear, hhist⟩ := accept_spec self w
  have hstart : Shift a w w₁ := by
    refine (exitPrepare_shift w).trans (Shift.move ?_ (exitPrepare_gear w ▸ hgear) (.accept ?_))
    · exact exitPrepare_hist w ▸ hhist
    · rw [exitPrepare_gear]
      rfl
  rw [heq]
  exact hstart.trans (broadcastMessage_shift hself w₁ _ msg (notAnswer (htype ▸ nofun)))

theorem prepare_shift (hself : Shifts a self) (b : Bool) (w : Proc) : Shift a w (prepare self b w) := by
  obtain ⟨w₁, msg, heq, htype, hgear, hhist⟩ := prepare_spec self b w
  have hstart : Shift a w w₁ := by
    refine (exitAccept_shift w).trans (Shift.move ?_ (exitAccept_gear w ▸ hgear) (.prepare ?_))
    · exact exitAccept_hist w ▸ hhist
    · rw [exitAccept_gear]
      rfl
  rw [heq]
  exact hstart.trans (broadcastMessage_shift hself w₁ _ msg (notAnswer (htype ▸ nofun)))

theorem addPrepareTimer_shift {w : Proc} (h : w.node.proposer.isPreparing = true) :
    Shift a w (addPrepareTimer true w) :=
  Shift.move (addPrepareTimer_hist true w ▸ List.suffix_rfl) (addPrepareTimer_gear true w) (.waitPrepare h)

theorem addAcceptTimer_shift {w : Proc} (h : w.node.proposer.isAccepting = true) :
    Shift a w (addAcceptTimer true w) :=
  Shift.move (addAcceptTimer_hist true w ▸ List.suffix_rfl) (addAcceptTimer_gear true w) (.waitAccept h)

theorem checkAcceptRound_shift (hself : Shifts a self) {w : Proc} (h : w.node.proposer.isAccepting = true) :
    Shift a w (checkAcceptRound self w) := by
  unfold checkAcceptRound proposerSendSuccess
  simp only []
  split
  · exact ((exitAccept_shift w).log _).trans (broadcastMessage_shift hself _ _ _ (notAnswer nofun))
  · split
    · exact addAcceptTimer_shift h
    · exact Shift.refl

theorem onAcceptReply_shift (hself : Shifts a self) (msg : PaxosMsg) (w : Proc) :
    Shift a w (onAcceptReply self msg w) := by
  unfold onAcceptReply
  simp only []
  split
  · exact Shift.refl
  · rename_i hacc
    rw [Bool.not_eq_true', Bool.not_eq_false] at hacc
    split
    · exact Shift.refl
    · split
      · refine Shift.after (checkAcceptRound_shift hself ?_) List.suffix_rfl rfl
        exact hacc
      · refine Shift.after (checkAcceptRound_shift hself ?_) List.suffix_rfl rfl
        exact hacc

theorem onExpiredReply_shift (msg : PaxosMsg) (w : Proc) : Shift a w (onExpiredReply msg w) := by
  unfold onExpiredReply
  split
  · exact Shift.of_eq List.suffix_rfl rfl
  · exact Shift.refl

theorem checkPrepareRound_shift (hself : Shifts a self) {w : Proc} (h : w.node.proposer.isPreparing = true) :
    Shift a w (checkPrepareRound self w) := by
  unfold checkPrepareRound
  split
  · exact Shift.after (accept_shift hself _) List.suffix_rfl rfl
  · split
    · exact addPrepareTimer_shift h
    · exact Shift.refl

theorem onPrepareReply_shift (hself : Shifts a self) (msg : PaxosMsg) (w : Proc) :
    Shift a w (onPrepareReply self msg w) := by
  unfold onPrepareReply
  simp only []
  split
  · exact Shift.refl
  · rename_i hprep
    rw [Bool.not_eq_true', Bool.not_eq_false] at hprep
    split
    · exact Shift.refl
    · split
      · refine Shift.after (checkPrepareRound_shift hself ?_) (List.suffix_cons _ _) rfl
        exact hprep
      · refine Shift.after (checkPrepareRound_shift hself ?_) List.suffix_rfl rfl
        exact hprep

theorem newValue_shift (hself : Shifts a self) (value : Bytes) (w : Proc) : Shift a w (newValue self value w) := by
  unfold newValue
  simp only []
  split
  · exact Shift.after (accept_shift hself _) (List.suffix_cons _ _) rfl
  · exact Shift.after (prepare_shift hself _ _) (List.suffix_cons _ _) rfl

/-- A timer of the proposer fires. -/
theorem onProposerTimeout_shift (hself : Shifts a self) {timerID : Nat} {type : TimerType} {w : Proc}
    (h : w.node.ioLoop.timers.lookup timerID = some type)
    (htype : type = .proposerPrepareTimeout ∨ type = .proposerAcceptTimeout) :
    Shift a w (onProposerTimeout self { w with node.ioLoop := w.node.ioLoop.removeTimer timerID }) := by
  have hmove : Move (a.failing False) w.gear (w.gear.removeTimer timerID).onProposerTimeout := .proposerTimeout h htype
  unfold onProposerTimeout
  unfold Gear.onProposerTimeout at hmove
  by_cases hne : w.node.instanceID ≠ w.node.proposer.timeoutInstanceID
  · rw [if_pos (show (w.gear.removeTimer timerID).instanceID ≠ (w.gear.removeTimer timerID).timeoutInstanceID from hne)] at hmove
    rw [if_pos hne]
    exact Shift.move List.suffix_rfl rfl hmove
  · rw [if_neg (show ¬ (w.gear.removeTimer timerID).instanceID ≠ (w.gear.removeTimer timerID).timeoutInstanceID from hne)] at hmove
    rw [if_neg hne]
    obtain ⟨w₁, msg, heq, htype, hgear, hhist⟩ :=
      prepare_spec self w.node.proposer.wasRejectBySomeone { w with node.ioLoop := w.node.ioLoop.removeTimer timerID }
    refine Shift.trans (Shift.move hhist hgear hmove) ?_
    have hsend := broadcastMessage_shift hself w₁ .first msg (notAnswer (htype ▸ nofun))
    rw [← heq] at hsend
    exact hsend

/-! ## The learner -/

theorem learnValue_shift (i : Nat) (b : BallotNumber) (v : Bytes) (w : Proc) :
    Shift a w (LearnerState.learnValue P i b v w).1 := by
  unfold LearnerState.learnValue
  simp only []
  generalize (if i > 0 ∧ w.node.lastChecksum = 0 then 0 else if v.length > 0 then P.crc32 w.node.lastChecksum v
    else w.node.learner.state.newChecksum) = checksum
  have hwrite (r : AcceptorStateData) :
      Shift a w (({ w with node.learner.state.newChecksum := checksum } : Proc).writeState i r).1 :=
    (Shift.of_eq List.suffix_rfl rfl).trans (writeState_shift i r _)
  split
  · exact hwrite _
  · exact (hwrite _).trans (Shift.of_eq List.suffix_rfl rfl)

theorem resetAskforLearnNoop_gear (w : Proc) : (resetAskforLearnNoop w).gear = w.gear.resetNoop := by
  unfold resetAskforLearnNoop Gear.resetNoop Gear.dropTimer
  by_cases h : w.node.learner.askforlearnNoopTimerID > 0
  · rw [if_pos (show w.gear.noopTimerID > 0 from h)]
    simp only [if_pos h]
    rfl
  · rw [if_neg (show ¬ w.gear.noopTimerID > 0 from h)]
    simp only [if_neg h]
    rfl

theorem resetAskforLearnNoop_shift (w : Proc) : Shift a w (resetAskforLearnNoop w) :=
  Shift.move List.suffix_rfl (resetAskforLearnNoop_gear w) .resetNoop

/-- The timer of the learner fires: the node leaves the checkpoint mode. -/
theorem askforLearnNoop_shift (ha : a.ask) {timerID : Nat} {w : Proc}
    (h : w.node.ioLoop.timers.lookup timerID = some .learnerAskforlearnNoop) :
    Shift a w (askforLearnNoop self { w with node.ioLoop := w.node.ioLoop.removeTimer timerID }) := by
  have hgear := resetAskforLearnNoop_gear { w with node.ioLoop := w.node.ioLoop.removeTimer timerID }
  have hmove : Move (a.failing False) w.gear { (w.gear.removeTimer timerID).resetNoop with inAskMode := false } :=
    .noopTimeout h ha
  refine Shift.move List.suffix_rfl ?_ hmove
  exact congrArg (fun g : Gear => { g with inAskMode := false }) hgear

theorem noteSeen_gear (i : Nat) (sender : NodeID) (w : Proc) : (noteSeen i sender w).gear = w.gear := by
  unfold noteSeen Learner.setSeenInstanceID
  by_cases h : i > w.node.learner.highestSeenInstanceID
  · rw [if_pos h]
    rfl
  · rw [if_neg h]

theorem noteFollower_shift (msg : PaxosMsg) (w : Proc) : Shift a w (noteFollower msg w) := by
  unfold noteFollower
  split
  · exact Shift.of_eq List.suffix_rfl rfl
  · exact Shift.refl

theorem onAskforLearn_shift (hself : Shifts a self) (msg : PaxosMsg) (w : Proc) :
    Shift a w (onAskforLearn P self msg w) := by
  have hnote : Shift a w (noteFollower msg (noteSeen msg.instanceID msg.nodeID w)) :=
    Shift.after (noteFollower_shift msg _) List.suffix_rfl (noteSeen_gear _ _ w)
  unfold onAskforLearn sendNowInstanceID sendLearnValue
  simp only []
  generalize noteFollower msg (noteSeen msg.instanceID msg.nodeID w) = w₁ at hnote ⊢
  split
  · exact hnote
  · rename_i hlag
    -- the answer is about the instance that was asked for, which is an older one
    have hanswer (w₂ : Proc) (m : PaxosMsg) (hi : w₂.node.instanceID = w₁.node.instanceID)
        (hm : m.instanceID = msg.instanceID) : a.ask ∨ NotAnswer m w₂ := Or.inr fun _ => by omega
    split
    · split
      · exact (hnote.trans (Shift.of_eq List.suffix_rfl rfl)).trans
          (sendMessage_shift hself _ _ _ (hanswer _ _ rfl rfl))
      · split
        · split
          · exact (hnote.trans (Shift.of_eq List.suffix_rfl rfl)).trans (sendMessage_shift hself _ _ _ (notAnswer nofun))
          · exact hnote.trans (Shift.of_eq List.suffix_rfl rfl)
        · exact hnote.trans (Shift.of_eq List.suffix_rfl rfl)
    · exact hnote.trans (sendMessage_shift hself _ _ _ (hanswer _ _ rfl rfl))

theorem updateSystemVariables_still (v : SystemVariables) (w : Proc) : Still w (updateSystemVariables v w).1 := by
  unfold updateSystemVariables
  simp only []
  split
  · exact ⟨List.suffix_cons _ _, rfl⟩
  · exact ⟨List.suffix_rfl, rfl⟩

theorem updateByCheckpoint_still (buffer : Bytes) (w : Proc) : Still w (updateByCheckpoint P buffer w).1 := by
  unfold updateByCheckpoint
  split
  · exact .refl
  · split
    · exact .refl
    · simp only []
      split
      · exact .refl
      · split
        · exact .refl
        · split
          · exact .refl
          · split <;> exact updateSystemVariables_still _ w

theorem comfirmAskForLearn_shift (hself : Shifts a self) (dst : NodeID) (w : Proc) :
    Shift a w (comfirmAskForLearn self dst w) := by
  unfold comfirmAskForLearn
  simp only []
  refine Shift.trans (sendMessage_shift hself w dst _ ?_) (Shift.of_eq List.suffix_rfl rfl)
  exact notAnswer nofun

theorem askforCheckpoint_shift (hself : Shifts a self) (ha : a.ask) (dst : NodeID) (w : Proc) :
    Shift a w (askforCheckpoint self dst w) := by
  have hset (c : CheckpointMgr) (hmin : c.minChosenInstanceID = w.node.checkpointMgr.minChosenInstanceID) :
      Shift a w { w with node.checkpointMgr := c } := by
    have hmove : Move (a.failing False) w.gear { w.gear with
        setNeedAsk := c.setNeedAsk
        lastAskTime := c.lastAskforCheckpointTime
        inAskMode := c.inAskforCheckpointMode } := .ask ha
    refine Shift.move List.suffix_rfl ?_ hmove
    unfold Proc.gear Node.gear
    simp only [hmin]
  have hmin : (w.node.checkpointMgr.prepareForAskforCheckpoint w.env.now w.node.config.getMajorityCount
      dst).1.minChosenInstanceID = w.node.checkpointMgr.minChosenInstanceID := by
    unfold CheckpointMgr.prepareForAskforCheckpoint
    simp only []
    split <;> split <;> rfl
  replace hset := hset _ hmin
  unfold askforCheckpoint
  simp only []
  split
  · exact hset
  · exact hset.trans (sendMessage_shift hself _ _ _ (notAnswer nofun))

theorem onSendNowInstanceID_shift (hself : Shifts a self) (msg : PaxosMsg) (w : Proc)
    (h : a.ask ∨ msg.instanceID ≠ w.node.instanceID) : Shift a w (onSendNowInstanceID P self msg w) := by
  have hseen : Still w (noteSeen msg.nowInstanceID msg.nodeID w) := ⟨List.suffix_rfl, noteSeen_gear _ _ w⟩
  have hstill := hseen.trans (updateByCheckpoint_still (P := P) msg.systemVariables _)
  have hid := hstill.instanceID_eq
  have hupdate : Shift a w _ := hstill.shift
  unfold onSendNowInstanceID
  simp only []
  split
  · exact hupdate
  · split
    · exact hupdate
    · rename_i hi
      have ha : a.ask := h.resolve_right fun hne => hi (hid ▸ hne)
      split
      · exact hupdate
      · split
        · exact hupdate.trans (askforCheckpoint_shift hself ha _ _)
        · split
          · exact hupdate.trans (comfirmAskForLearn_shift hself _ _)
          · exact hupdate

theorem ackIfNeeded_shift (hself : Shifts a self) (msg : PaxosMsg) (w : Proc) :
    Shift a w (ackIfNeeded P self msg w) := by
  unfold ackIfNeeded sendLearnValueAck
  simp only []
  split
  · split
    · exact resetAskforLearnNoop_shift w
    · refine (resetAskforLearnNoop_shift w).trans (Shift.after ?_ List.suffix_rfl rfl)
      exact sendMessage_shift hself _ _ _ (notAnswer nofun)
  · exact Shift.refl

theorem onSendLearnValue_shift (hself : Shifts a self) (msg : PaxosMsg) (w : Proc) :
    Shift a w (onSendLearnValue P self msg w) := by
  unfold onSendLearnValue
  simp only []
  split
  · exact Shift.refl
  · split
    · exact ackIfNeeded_shift hself msg w
    · split
      · exact learnValue_shift _ _ _ w
      · exact ((learnValue_shift _ _ _ w).log _).trans (ackIfNeeded_shift hself msg _)

theorem onProposerSendSuccess_shift (msg : PaxosMsg) (w : Proc) : Shift a w (onProposerSendSuccess msg w) := by
  unfold onProposerSendSuccess transmitToFollower
  simp only []
  split
  · exact Shift.refl
  · split
    · exact Shift.refl
    · split
      · exact Shift.refl
      · split <;> exact Shift.of_eq (List.suffix_cons _ _) rfl

/-! ## Executing a value -/

theorem callExecute_still (i : Nat) (v : Bytes) (smid : Nat) (w : Proc) : Still w (callExecute P i v smid w).1 := by
  unfold callExecute SystemVSM.execute
  split
  · split
    · exact .refl
    · simp only []
      split
      · exact .refl
      · split
        · exact .refl
        · exact updateSystemVariables_still _ w
  · split <;> exact ⟨List.suffix_rfl, rfl⟩

theorem doExecute_still (i index : Nat) (v : Bytes) (smid : Nat) (w : Proc) :
    Still w (doExecute P i index v smid w).1 := by
  unfold doExecute
  split
  · exact .refl
  · exact (callExecute_still i v smid w).trans ⟨List.suffix_rfl, rfl⟩

theorem batchExecute_still (i : Nat) (vs : List PaxosValue) : ∀ (index : Nat) (w : Proc),
    Still w (batchExecute P i index vs w).1 := by
  induction vs with
  | nil => exact fun _ _ => .refl
  | cons v vs ih =>
    intro index w
    unfold batchExecute
    simp only []
    split
    · exact (doExecute_still i index _ _ w).trans (ih _ _)
    · exact doExecute_still i index _ _ w

theorem smExecute_still (i : Nat) (v : Bytes) (w : Proc) : Still w (smExecute P i v w).1 := by
  unfold smExecute
  split
  · exact .refl
  · split
    · exact .refl
    · split
      · split
        · exact .refl
        · exact batchExecute_still i _ 0 w
      · exact doExecute_still i 0 _ _ w

theorem newInstance_gear (w : Proc) : (newInstance w).gear = w.gear.newInstance := by
  unfold newInstance Proposer.initForNewPaxosInstance Gear.newInstance
  simp only []
  rw [exitAccept_gear, exitPrepare_gear]
  rfl

theorem newInstance_hist (w : Proc) : w.hist <:+ (newInstance w).hist := by
  unfold newInstance Proposer.initForNewPaxosInstance
  simp only []
  rw [exitAccept_hist, exitPrepare_hist]
  exact List.suffix_cons _ _

theorem dropCommitTimer_gear (w : Proc) : (if w.node.commitTimerID > 0 then
      { w with node.ioLoop := w.node.ioLoop.removeTimer w.node.commitTimerID, node.commitTimerID := 0 }
    else w : Proc).gear = w.gear.dropCommitTimer := by
  unfold Gear.dropCommitTimer Gear.dropTimer Proc.gear Node.gear
  by_cases h : w.node.commitTimerID > 0
  · simp [h, IOLoop.removeTimer, Gear.removeTimer]
  · simp [Nat.eq_zero_of_not_pos h]

theorem instanceLearned_shift (w : Proc) : Shift a w (instanceLearned P w).1 := by
  have hstill : Still w (smExecute P w.node.instanceID w.node.learner.state.learnedValue { w with smCalls := [] }).1 :=
    (smExecute_still _ _ _).of_same rfl rfl
  unfold instanceLearned cancelSkipPrepare
  simp only []
  split
  · exact Shift.refl
  · generalize smExecute P w.node.instanceID w.node.learner.state.learnedValue { w with smCalls := [] } = r at hstill ⊢
    obtain ⟨w₁, ok⟩ := r
    have hid : w₁.gear.instanceID = w.node.instanceID := hstill.instanceID_eq
    dsimp only at hstill ⊢
    split
    · rename_i hok
      rw [Bool.not_eq_true'] at hok
      subst hok
      refine hstill.shift.trans ⟨[_], rfl, .single ?_⟩
      have hfail : Move (a.failing (Fails [.execute w₁.me w.node.instanceID w.node.learner.state.learnedValue false w₁.smCalls]))
          w₁.gear (w₁.gear.setResult .executeFail w.node.learner.state.learnedValue) :=
        .executeFail ⟨_, _, _, _, List.mem_cons_self⟩
      unfold Gear.setResult at hfail
      rw [hid] at hfail
      refine cast (congrArg _ ?_) hfail
      rw [← hid]
      rfl
    · refine hstill.shift.trans (Shift.trans (Shift.move ?_ ?_ (@Move.learned _ _ w.node.learner.state.learnedValue))
        (Shift.of_eq List.suffix_rfl rfl))
      · refine List.IsSuffix.trans ?_ (newInstance_hist _)
        split <;> exact List.suffix_cons _ _
      · refine (newInstance_gear _).trans (congrArg Gear.newInstance ?_)
        let w₂ := w₁.log (.execute w₁.me w.node.instanceID w.node.learner.state.learnedValue ok w₁.smCalls)
        have hdrop := dropCommitTimer_gear { w₂ with
          node.commitCtx := w₁.node.commitCtx.setResult .ok (some w.node.instanceID) w.node.learner.state.learnedValue }
        refine Eq.trans hdrop (congrArg Gear.dropCommitTimer ?_)
        unfold Gear.setResult
        rw [← hid]
        rfl

/-! ## Receiving a message -/

theorem receiveMsgForLearner_shift (hself : Shifts a self) (msg : PaxosMsg) (w : Proc) (h : a.ask ∨ NotAnswer msg w) :
    Shift a w (receiveMsgForLearner P self msg w).1 := by
  unfold receiveMsgForLearner
  refine Shift.trans ?_ (instanceLearned_shift _)
  unfold NotAnswer at h
  cases hm : msg.msgType with
  | learnerAskforLearn => exact onAskforLearn_shift hself msg w
  | learnerSendLearnValue => exact onSendLearnValue_shift hself msg w
  | learnerProposerSendSuccess => exact onProposerSendSuccess_shift msg w
  | learnerSendNowInstanceID => exact onSendNowInstanceID_shift hself msg w (h.imp_right fun h => h hm)
  | learnerComfirmAskforLearn => exact Shift.of_eq List.suffix_rfl rfl
  | learnerSendLearnValueAck => exact Shift.of_eq List.suffix_rfl rfl
  | _ => exact Shift.refl

theorem receiveMsgForProposer_shift (hself : Shifts a self) (msg : PaxosMsg) (w : Proc) :
    Shift a w (receiveMsgForProposer self msg w) := by
  unfold receiveMsgForProposer
  split
  · exact Shift.refl
  · split
    · split
      · exact onExpiredReply_shift msg w
      · exact Shift.refl
    · split
      · exact onPrepareReply_shift hself msg w
      · exact onAcceptReply_shift hself msg w
      · exact Shift.refl

theorem addRetryPaxosMsg_shift (msg : PaxosMsg) (w : Proc) (h : msg.msgType ≠ .learnerSendNowInstanceID) :
    Shift a w { w with node.ioLoop := w.node.ioLoop.addRetryPaxosMsg msg } := by
  refine Shift.move List.suffix_rfl rfl (.retry fun m hm => ?_)
  rcases List.mem_append.mp hm with hm | hm
  · refine Or.inl ?_
    split at hm
    · exact List.mem_of_mem_tail hm
    · exact hm
  · exact Or.inr (List.mem_singleton.mp hm ▸ h)

theorem acceptorOrRetry_shift (hself : Shifts a self) (msg : PaxosMsg) (isRetry : Bool) (w : Proc)
    (h : msg.msgType ≠ .learnerSendNowInstanceID) : Shift a w (acceptorOrRetry P self msg isRetry w).1 := by
  unfold acceptorOrRetry
  split
  · split
    · exact onPrepare_shift hself msg w
    · exact onAccept_shift hself msg w
    · exact Shift.refl
  · split
    · split
      · exact addRetryPaxosMsg_shift msg w h
      · exact Shift.move List.suffix_rfl rfl (.retry nofun)
    · exact Shift.refl

theorem receiveMsgForAcceptor_shift (hself : Shifts a self) (msg : PaxosMsg) (isRetry : Bool) (w : Proc)
    (h : msg.msgType ≠ .learnerSendNowInstanceID) : Shift a w (receiveMsgForAcceptor P self msg isRetry w).1 := by
  unfold receiveMsgForAcceptor
  simp only []
  split
  · exact Shift.refl
  · refine Shift.trans ?_ (acceptorOrRetry_shift hself msg isRetry _ h)
    split
    · exact Shift.after (receiveMsgForLearner_shift hself _ _ (notAnswer nofun)) (List.suffix_cons _ _) rfl
    · exact Shift.refl

theorem checksumLogic_still (msg : PaxosMsg) (w : Proc) : Still w (checksumLogic msg w).1 := by
  unfold checksumLogic
  split
  · exact .refl
  · split
    · exact .refl
    · split
      · exact ⟨List.suffix_rfl, rfl⟩
      · split
        · exact ⟨List.suffix_cons _ _, rfl⟩
        · exact .refl

theorem onReceiveLearnersMsg_shift (hself : Shifts a self) (msg : PaxosMsg) (w : Proc) (h : a.ask ∨ NotAnswer msg w) :
    Shift a w (onReceiveLearnersMsg P self msg w).1 := by
  have hstill := checksumLogic_still msg w
  unfold onReceiveLearnersMsg
  simp only []
  split
  · refine hstill.shift.trans (receiveMsgForLearner_shift hself msg _ (h.imp_right fun h hm => ?_))
    rw [hstill.instanceID_eq]
    exact h hm
  · exact hstill.shift

theorem onReceiveProposersMsg_shift (hself : Shifts a self) (msg : PaxosMsg) (isRetry : Bool) (w : Proc)
    (h : msg.msgType ≠ .learnerSendNowInstanceID) : Shift a w (onReceiveProposersMsg P self msg isRetry w).1 := by
  have htmp : Still w (if w.node.config.getGid = 0 then
      { w with node.config := w.node.config.addTmpNodeOnlyForLearn msg.nodeID } else w : Proc) := by
    split
    · exact ⟨List.suffix_rfl, rfl⟩
    · exact .refl
  unfold onReceiveProposersMsg
  simp only []
  generalize (if w.node.config.getGid = 0 then
    { w with node.config := w.node.config.addTmpNodeOnlyForLearn msg.nodeID } else w : Proc) = w₁ at htmp ⊢
  have hstill := htmp.trans (checksumLogic_still msg w₁)
  split
  · exact (htmp.trans ⟨List.suffix_rfl, rfl⟩).shift
  · split
    · exact hstill.shift.trans (receiveMsgForAcceptor_shift hself msg isRetry _ h)
    · exact hstill.shift

theorem onReceivePaxosMsgBody_shift (hself : Shifts a self) (msg : PaxosMsg) (isRetry : Bool) (w : Proc)
    (h : a.ask ∨ NotAnswer msg w) : Shift a w (onReceivePaxosMsgBody P self msg isRetry w).1 := by
  have hlearners : Shift a w (onReceiveLearnersMsg P self msg w).1 := onReceiveLearnersMsg_shift hself msg w h
  have hreply : Shift a w (if !w.node.config.isValidNodeID msg.nodeID then (w, 0)
      else (receiveMsgForProposer self msg w, 0) : Proc × Int).1 := by
    split
    · exact Shift.refl
    · exact receiveMsgForProposer_shift hself msg w
  unfold onReceivePaxosMsgBody
  cases hm : msg.msgType with
  | paxosPrepareReply | paxosAcceptReply | proposalSendNewValue => exact hreply
  | paxosPrepare | paxosAccept => exact onReceiveProposersMsg_shift hself msg isRetry w (hm ▸ nofun)
  | learnerOnAskforCheckpoint => exact Shift.refl
  | _ => exact hlearners

/-- The messages that a node sends to itself move the gear, too. -/
theorem onReceivePaxosMsg_shift (depth : Nat) : ∀ (msg : PaxosMsg) (isRetry : Bool) (w : Proc),
    a.ask ∨ NotAnswer msg w → Shift a w (onReceivePaxosMsg P depth msg isRetry w).1 := by
  induction depth with
  | zero => exact fun _ _ _ _ => Shift.refl
  | succ depth ih => exact fun msg isRetry w h => onReceivePaxosMsgBody_shift (fun msg w => ih msg false w) msg isRetry w h

theorem toSelf_shift : Shifts a (toSelf P) := fun msg w h => onReceivePaxosMsg_shift selfDepth msg false w h

theorem onReceive_shift (gid : Nat) (msg : PaxosMsg) (w : Proc) (h : a.ask ∨ NotAnswer msg w) :
    Shift a w (onReceive P gid msg w) := by
  unfold onReceive
  split
  · exact Shift.refl
  · split
    · exact Shift.refl
    · exact onReceivePaxosMsgBody_shift toSelf_shift msg false w h

/-! ## Timeouts, the retry queue and new values -/

/-- The messages of the retry queue are not answers. -/
def RetryQueue (w : Proc) : Prop := ∀ msg ∈ w.node.ioLoop.retryQueue, msg.msgType ≠ .learnerSendNowInstanceID

theorem dealWithRetry_shift (w : Proc) (h : a.ask ∨ RetryQueue w) : Shift a w (dealWithRetry P w) := by
  unfold dealWithRetry
  split
  · exact Shift.of_eq List.suffix_rfl rfl
  · rename_i msg rest hq
    have hpop (w' : Proc) (b : Bool) : Shift a w' { w' with node.ioLoop :=
        { w'.node.ioLoop with retryQueue := w'.node.ioLoop.retryQueue.tail, haveRetryOne := b } } :=
      Shift.move List.suffix_rfl rfl (.retry fun m hm => Or.inl (List.mem_of_mem_tail hm))
    have hmsg : a.ask ∨ NotAnswer msg w := h.imp_right fun h hm => absurd hm (h msg (hq ▸ List.mem_cons_self))
    simp only []
    split
    · exact Shift.of_eq List.suffix_rfl rfl
    · split
      · split
        · exact (onReceivePaxosMsgBody_shift toSelf_shift msg true w hmsg).trans (hpop _ _)
        · exact Shift.of_eq List.suffix_rfl rfl
      · split
        · exact (onReceivePaxosMsgBody_shift toSelf_shift msg false w hmsg).trans (hpop _ _)
        · exact hpop w _

theorem onNewValueCommitTimeout_shift {timerID : Nat} {w : Proc}
    (h : w.node.ioLoop.timers.lookup timerID = some .instanceCommitTimeout) :
    Shift a w (onNewValueCommitTimeout { w with node.ioLoop := w.node.ioLoop.removeTimer timerID }) := by
  have hhist (w' : Proc) : (exitAccept (exitPrepare w')).hist = w'.hist := (exitAccept_hist _).trans (exitPrepare_hist w')
  have hgear (w' : Proc) : (exitAccept (exitPrepare w')).gear = w'.gear.exitPrepare.exitAccept := by
    rw [exitAccept_gear, exitPrepare_gear]
  unfold onNewValueCommitTimeout
  refine Shift.move ?_ ?_ (.commitTimeout h)
  · show w.hist <:+ (exitAccept (exitPrepare _)).hist
    rw [hhist]
  · exact congrArg (fun g : Gear => g.setResult .timeout []) (hgear _)

theorem onTimeout_shift (timerID : Nat) (w : Proc) (h : a.ask ∨ w.node.ioLoop.timers.lookup timerID ≠ some .learnerAskforlearnNoop) :
    Shift a w (onTimeout P timerID w) := by
  unfold onTimeout
  split
  · exact Shift.refl
  · rename_i type htype
    cases type with
    | proposerPrepareTimeout => exact onProposerTimeout_shift toSelf_shift htype (Or.inl rfl)
    | proposerAcceptTimeout => exact onProposerTimeout_shift toSelf_shift htype (Or.inr rfl)
    | learnerAskforlearnNoop => exact askforLearnNoop_shift (h.resolve_right fun hne => hne htype) htype
    | instanceCommitTimeout => exact onNewValueCommitTimeout_shift htype

theorem beforeProposeCall_still (smid : Nat) (body : Bytes) (w : Proc) :
    Still w (beforeProposeCall P smid body w).1 := by
  unfold beforeProposeCall
  split
  · exact .refl
  · split <;> exact ⟨List.suffix_rfl, rfl⟩

theorem beforeBatchPropose_still (vs : List PaxosValue) : ∀ (called : List Nat) (w : Proc),
    Still w (beforeBatchPropose P called vs w).1 := by
  induction vs with
  | nil => exact fun _ _ => .refl
  | cons v vs ih =>
    intro called w
    unfold beforeBatchPropose
    split
    · exact ih called w
    · exact (beforeProposeCall_still v.smid v.value w).trans (ih _ _)

theorem beforePropose_still (value : Bytes) (w : Proc) : Still w (beforePropose P value w).1 := by
  unfold beforePropose
  split
  · exact .refl
  · split
    · split
      · exact .refl
      · exact beforeBatchPropose_still _ [] w
    · exact beforeProposeCall_still _ _ w

/-- The commit has begun: the value is proposed. -/
theorem proposeValue_shift (value : Bytes) (w : Proc) (h : w.node.commitCtx.value.isSome = true) :
    Shift a w (if w.node.config.isUseMembership ∧ (w.node.instanceID = 0 ∨ w.node.config.getGid = 0) then
        newValue (toSelf P) (initSystemVariablesValue P w)
          (w.log (.initSystemVariables w.me w.node.instanceID (initSystemVariablesValue P w)))
      else if P.openChangeValueBeforePropose then
        newValue (toSelf P) (beforePropose P value w).2
          { (beforePropose P value w).1 with node.commitCtx.value := some (beforePropose P value w).2 }
      else newValue (toSelf P) value w) := by
  split
  · exact Shift.after (newValue_shift toSelf_shift _ _) (List.suffix_cons _ _) rfl
  · split
    · have hstill := beforePropose_still (P := P) value w
      generalize beforePropose P value w = r at hstill ⊢
      obtain ⟨w₁, v⟩ := r
      dsimp only at hstill ⊢
      have hvalue : w₁.gear.commitCtx.value.isSome = true := by
        rw [hstill.gear]
        exact h
      have hchange : Shift a w₁ { w₁ with node.commitCtx.value := some v } :=
        Shift.move List.suffix_rfl rfl (.changeValue hvalue)
      exact (hstill.shift.trans hchange).trans (newValue_shift toSelf_shift _ _)
    · exact newValue_shift toSelf_shift _ _

theorem armCommitTimer_gear (w : Proc) : (if w.node.commitCtx.timeoutMs ≠ -1 then
      { w with node.ioLoop := w.node.ioLoop.addTimer .instanceCommitTimeout, node.commitTimerID := w.node.ioLoop.nowTimerID }
    else w : Proc).gear = w.gear.armCommitTimer := by
  unfold Gear.armCommitTimer
  by_cases h : w.node.commitCtx.timeoutMs ≠ -1
  · rw [if_pos h, if_pos (show w.gear.commitCtx.timeoutMs ≠ -1 from h)]
    rfl
  · rw [if_neg h, if_neg (show ¬ w.gear.commitCtx.timeoutMs ≠ -1 from h)]

theorem checkNewValue_shift (w : Proc) (h : w.node.commitCtx.timeoutMs ≠ -1 → a.arm) : Shift a w (checkNewValue P w) := by
  unfold checkNewValue
  split
  · exact Shift.refl
  · rename_i value hvalue
    split
    · exact Shift.refl
    · rename_i hnew
      rw [Bool.not_eq_true', Bool.not_eq_false] at hnew
      have hrefuse (ret : PaxosTryCommitRet) :
          Shift a w { w with node.commitCtx := w.node.commitCtx.setResultOnlyRet ret } :=
        Shift.move List.suffix_rfl rfl (.refuse hnew)
      split
      · exact Shift.refl
      · split
        · exact hrefuse _
        · split
          · exact hrefuse _
          · split
            · exact hrefuse _
            · refine Shift.trans (Shift.move ?_ ?_ (.startCommit hnew h)) (proposeValue_shift value _ ?_)
              · split <;> exact List.suffix_rfl
              · exact armCommitTimer_gear { w with node.commitCtx := w.node.commitCtx.startCommit w.node.instanceID }
              · split <;> exact Option.isSome_of_eq_some hvalue

/-! ## Checkpoints -/

theorem clearAllLog_shift (ha : a.clear) (w : Proc) : Shift a w (clearAllLog w) := by
  unfold clearAllLog
  split
  · exact Shift.move (List.suffix_cons _ _) rfl (.clear ha)
  · exact Shift.of_eq List.suffix_rfl rfl
  · exact Shift.move (List.suffix_cons _ _) rfl (.clear ha)

theorem setMinChosenInstanceID_shift (ha : a.clear) (minChosenInstanceID : Nat) (w : Proc) :
    Shift a w (setMinChosenInstanceID minChosenInstanceID w).1 := by
  unfold setMinChosenInstanceID
  simp only []
  split
  · exact Shift.move List.suffix_rfl rfl (.clear ha)
  · exact Shift.of_eq List.suffix_rfl rfl

theorem onSendCheckpointBegin_shift (ha : a.clear) (msg : CheckpointMsg) (w : Proc) :
    Shift a w (onSendCheckpointBegin msg w).1 := by
  have hreceiver : Shift a w (newReceiver msg.nodeID msg.uuid w).1 := by
    unfold newReceiver
    split
    · exact Shift.refl
    · exact (clearAllLog_shift ha w).trans (Shift.of_eq List.suffix_rfl rfl)
  unfold onSendCheckpointBegin
  simp only []
  split
  · exact hreceiver
  · exact hreceiver.trans (setMinChosenInstanceID_shift ha _ _)

theorem receiveCheckpoint_still (msg : CheckpointMsg) (w : Proc) : Still w (receiveCheckpoint msg w).1 := by
  unfold receiveCheckpoint
  simp only []
  split
  · exact .refl
  · split
    · exact .refl
    · split
      · exact .refl
      · split
        · exact .refl
        · exact ⟨List.suffix_rfl, rfl⟩

theorem onSendCheckpointEnd_still (msg : CheckpointMsg) (w : Proc) : Still w (onSendCheckpointEnd msg w).1 := by
  unfold onSendCheckpointEnd
  split
  · exact .refl
  · split
    · exact .refl
    · exact ⟨List.suffix_rfl, rfl⟩

theorem onSendCheckpoint_shift (ha : a.clear) (msg : CheckpointMsg) (w : Proc) : Shift a w (onSendCheckpoint msg w) := by
  have hflag : Shift a w (onSendCheckpointFlag msg w).1 := by
    unfold onSendCheckpointFlag
    split
    · exact onSendCheckpointBegin_shift ha msg w
    · exact (receiveCheckpoint_still msg w).shift
    · exact (onSendCheckpointEnd_still msg w).shift
  unfold onSendCheckpoint
  simp only []
  split
  · exact Shift.refl
  · split
    · exact hflag
    · split
      · exact hflag.trans (Shift.after (resetAskforLearnNoop_shift _) List.suffix_rfl rfl)
      · exact hflag.trans (resetAskforLearnNoop_shift _)

/-! ## Commits and the sending thread -/

theorem afterTry_callID (c : Call) (ret : PaxosTryCommitRet) (i : Nat) : (c.afterTry ret i).callID = c.callID := by
  unfold Call.afterTry
  split <;> rfl

theorem findCall_eq_some {callID : Nat} {c : Call} {w : Proc} (h : findCall callID w = some c) : c ∈ w.gear.calls :=
  List.mem_of_find?_eq_some h

theorem newValueGetID_shift (callID : Nat) (value : Bytes) (smid : Nat) (w : Proc) :
    Shift a w (newValueGetID callID value smid w) := by
  unfold newValueGetID
  split
  · exact Shift.refl
  · rename_i h
    refine Shift.move List.suffix_rfl rfl (.newCall ?_ rfl)
    intro d hd hid
    have hne := List.find?_eq_none.mp (Option.not_isSome_iff_eq_none.mp h) d hd
    exact hne (decide_eq_true hid)

theorem lock_shift (callID : Nat) (w : Proc) : Shift a w (lock callID w) := by
  unfold lock
  split
  · exact Shift.refl
  · rename_i c hc
    split
    · exact Shift.refl
    · rename_i h
      simp only [ne_eq, not_or, not_not, Bool.not_eq_true, List.any_eq_false, beq_iff_eq] at h
      exact Shift.move List.suffix_rfl rfl (.lock (findCall_eq_some hc) h.1 h.2)

theorem lockFail_shift (callID : Nat) (tooMany : Bool) (w : Proc) : Shift a w (lockFail callID tooMany w) := by
  unfold lockFail
  split
  · exact Shift.refl
  · rename_i c hc
    split
    · exact Shift.refl
    · rename_i h
      exact Shift.move List.suffix_rfl rfl (.lockFail (findCall_eq_some hc) (not_not.mp h) (afterTry_callID c _ _))

theorem getResult_shift (callID : Nat) (w : Proc) : Shift a w (getResult callID w) := by
  unfold getResult
  split
  · exact Shift.refl
  · rename_i c hc
    split
    · exact Shift.refl
    · rename_i h
      simp only [ne_eq, not_or, not_not, Bool.not_eq_true, Bool.not_eq_false'] at h
      exact Shift.move List.suffix_rfl rfl (.getResult (findCall_eq_some hc) h.1 h.2 (afterTry_callID c _ _))

theorem sendLearnedValue_shift (w : Proc) : Shift a w (LearnerSender.sendLearnedValue w) := by
  unfold LearnerSender.sendLearnedValue
  simp only []
  split
  · exact Shift.of_eq List.suffix_rfl rfl
  · exact Shift.refl

theorem sendOne_shift (hself : Shifts a self) (w : Proc) : Shift a w (LearnerSender.sendOne self w) := by
  unfold LearnerSender.sendOne sendLearnValue
  simp only []
  split
  · split
    · exact Shift.after (sendMessage_shift hself _ _ _ (notAnswer nofun)) List.suffix_rfl rfl
    · exact Shift.refl
  · exact Shift.refl

/-! ## Every event -/

/-- Neither an answer to a question for values nor a question. -/
def NoAnswer (kind : EventKind) (w : Proc) : Prop :=
  RetryQueue w ∧ (∀ gid msg, kind = .receive gid msg → NotAnswer msg w) ∧
    ∀ timerID, kind = .timeout timerID → w.node.ioLoop.timers.lookup timerID ≠ some .learnerAskforlearnNoop

/-- **What a node handles moves the gear**, as far as the event allows. -/
theorem handle_shift {kind : EventKind} (hkind : ∀ cp, kind ≠ .restart cp) (w : Proc) (hask : a.ask ∨ NoAnswer kind w)
    (harm : kind = .checkNewValue → w.node.commitCtx.timeoutMs ≠ -1 → a.arm)
    (hclear : ∀ gid msg, kind = .receiveCheckpoint gid msg → a.clear) : Shift a w (handle P kind w) := by
  by_cases hs : w.node.stopped = true
  · have hsame : handle P kind w = w := by
      cases kind with
      | restart cp => exact absurd rfl (hkind cp)
      | _ => exact if_pos hs
    rw [hsame]
    exact Shift.refl
  · have hrun {kind : EventKind} {w' : Proc} (h : handle P kind w = w') (hw' : Shift a w w') : Shift a w (handle P kind w) :=
      h.symm ▸ hw'
    have hleave {w' : Proc} (h : Shift a (leaveRetry w) w') : Shift a w w' := Shift.after h List.suffix_rfl rfl
    cases kind with
    | restart cp => exact absurd rfl (hkind cp)
    | newValueGetID callID value smid => exact hrun (if_neg hs) (newValueGetID_shift callID value smid w)
    | lock callID => exact hrun (if_neg hs) (lock_shift callID w)
    | lockFail callID tooMany => exact hrun (if_neg hs) (lockFail_shift callID tooMany w)
    | getResult callID => exact hrun (if_neg hs) (getResult_shift callID w)
    | checkNewValue => exact hrun (if_neg hs) (hleave (checkNewValue_shift (leaveRetry w) (harm rfl)))
    | receive gid msg =>
      exact hrun (if_neg hs) (hleave (onReceive_shift gid msg (leaveRetry w) (hask.imp_right fun h => h.2.1 gid msg rfl)))
    | receiveCheckpoint gid msg =>
      have heq : handle P (.receiveCheckpoint gid msg) w =
          if w.node.config.getGid ≠ 0 ∧ gid ≠ 0 ∧ w.node.config.getGid ≠ gid then w
          else onSendCheckpoint msg (leaveRetry w) := if_neg hs
      rw [heq]
      split
      · exact Shift.refl
      · exact hleave (onSendCheckpoint_shift (hclear gid msg rfl) msg (leaveRetry w))
    | dealWithRetry => exact hrun (if_neg hs) (dealWithRetry_shift w (hask.imp_right And.left))
    | timeout timerID =>
      exact hrun (if_neg hs) (hleave (onTimeout_shift timerID (leaveRetry w) (hask.imp_right fun h => h.2.2 timerID rfl)))
    | sendLearnedValue => exact hrun (if_neg hs) (sendLearnedValue_shift w)
    | sendOne => exact hrun (if_neg hs) (sendOne_shift toSelf_shift w)
    | sendDone => exact hrun (if_neg hs) (Shift.of_eq List.suffix_rfl rfl)

end PhxPaxos
