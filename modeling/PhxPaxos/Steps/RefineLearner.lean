import PhxPaxos.Steps.RefineAcceptor

/-!
# Handlers as chains of steps: the learner

Timers, the messages of the learner (`onAskforLearn_chain`, `onSendLearnValue_chain`, `onProposerSendSuccess_chain` and so
on), and the end of an instance (`instanceLearned_chain`).
-/

namespace PhxPaxos

variable {P : Params} {can : PaxosMsg → Prop} {n : NodeID}

/-! ## Timers -/

theorem armed_removeTimer {l : IOLoop} {id : Nat} (h : armedIn (l.removeTimer id).timers = true) : l.armed = true := by
  simp only [IOLoop.armed, armedIn, IOLoop.removeTimer, List.any_eq_true, List.mem_filter] at h ⊢
  obtain ⟨t, ⟨ht, -⟩, h⟩ := h
  exact ⟨t, ht, h⟩

theorem armed_addTimer_other (l : IOLoop) (type : TimerType) (h₁ : type ≠ .proposerPrepareTimeout)
    (h₂ : type ≠ .proposerAcceptTimeout) : (l.addTimer type).armed = l.armed := by
  simp [IOLoop.armed, armedIn, IOLoop.addTimer, h₁, h₂]

theorem armed_addTimer_proposer {l : IOLoop} {type : TimerType}
    (h : type = .proposerPrepareTimeout ∨ type = .proposerAcceptTimeout) : armedIn (l.addTimer type).timers = true := by
  rcases h with rfl | rfl <;> simp [armedIn, IOLoop.addTimer]

theorem ite_removeTimer (c : Prop) [Decidable c] (l : IOLoop) (id : Nat) : ∃ timers,
    (armedIn timers = true → l.armed = true) ∧ (if c then l.removeTimer id else l) = { l with timers := timers } := by
  split
  · exact ⟨_, armed_removeTimer, rfl⟩
  · exact ⟨l.timers, fun h => h, rfl⟩

/-- Only the timers change, and no proposer timer is added. -/
theorem timers_chain {w : Proc} {s : Option PaxosMsg} {timers : List (Nat × TimerType)} (now : Nat)
    (h : armedIn timers = true → w.node.ioLoop.armed = true) :
    Chain P can n (w.loc s)
      ({ w with node.ioLoop.timers := timers, node.ioLoop.nowTimerID := now }.loc s) :=
  .single (@Act.disarm P can n (w.loc s) (armedIn timers) h) rfl

/-- `Proposer::ExitPrepare` ends the prepare phase and adds no timer. -/
theorem exitPrepare_eq (w : Proc) : ∃ timers k, (armedIn timers = true → w.node.ioLoop.armed = true) ∧
    exitPrepare w =
      { w with
        node.ioLoop.timers := timers, node.proposer.isPreparing := false, node.proposer.prepareTimerID := k } := by
  unfold exitPrepare
  split
  · exact ⟨_, _, armed_removeTimer, rfl⟩
  · rename_i h
    rw [Bool.not_eq_true] at h
    exact ⟨w.node.ioLoop.timers, w.node.proposer.prepareTimerID, id, by rw [← h]⟩

/-- `Proposer::ExitAccept` ends the accept phase and adds no timer. -/
theorem exitAccept_eq (w : Proc) : ∃ timers k, (armedIn timers = true → w.node.ioLoop.armed = true) ∧
    exitAccept w =
      { w with
        node.ioLoop.timers := timers, node.proposer.isAccepting := false, node.proposer.acceptTimerID := k } := by
  unfold exitAccept
  split
  · exact ⟨_, _, armed_removeTimer, rfl⟩
  · rename_i h
    rw [Bool.not_eq_true] at h
    exact ⟨w.node.ioLoop.timers, w.node.proposer.acceptTimerID, id, by rw [← h]⟩

/-- Both phases end, as at the end of an instance and at a commit timeout. -/
theorem exit_eq (w : Proc) : ∃ timers k k', (armedIn timers = true → w.node.ioLoop.armed = true) ∧
    exitAccept (exitPrepare w) =
      { w with
        node.ioLoop.timers := timers
        node.proposer.isPreparing := false
        node.proposer.isAccepting := false
        node.proposer.prepareTimerID := k
        node.proposer.acceptTimerID := k' } := by
  obtain ⟨ts, k, hts, he⟩ := exitPrepare_eq w
  obtain ⟨ts', k', hts', he'⟩ := exitAccept_eq (exitPrepare w)
  rw [he] at hts' he'
  exact ⟨ts', k, k', fun h => hts (hts' h), by rw [he, he']⟩

/-- `Proposer::AddPrepareTimer` arms a timer. -/
theorem addPrepareTimer_eq (wait : Bool) (w : Proc) : ∃ timers now k, armedIn timers = true ∧
    addPrepareTimer wait w =
      { w with
        node.ioLoop.timers := timers
        node.ioLoop.nowTimerID := now
        node.proposer.prepareTimerID := k
        node.proposer.timeoutInstanceID := if wait then w.node.proposer.timeoutInstanceID else w.node.instanceID } := by
  obtain ⟨timers, -, he⟩ := ite_removeTimer (w.node.proposer.prepareTimerID > 0) w.node.ioLoop
    w.node.proposer.prepareTimerID
  unfold addPrepareTimer
  simp only [he]
  cases wait <;> exact ⟨_, _, _, armed_addTimer_proposer (Or.inl rfl), rfl⟩

/-- `Proposer::AddAcceptTimer` arms a timer. -/
theorem addAcceptTimer_eq (wait : Bool) (w : Proc) : ∃ timers now k, armedIn timers = true ∧
    addAcceptTimer wait w =
      { w with
        node.ioLoop.timers := timers
        node.ioLoop.nowTimerID := now
        node.proposer.acceptTimerID := k
        node.proposer.timeoutInstanceID := if wait then w.node.proposer.timeoutInstanceID else w.node.instanceID } := by
  obtain ⟨timers, -, he⟩ := ite_removeTimer (w.node.proposer.acceptTimerID > 0) w.node.ioLoop
    w.node.proposer.acceptTimerID
  unfold addAcceptTimer
  simp only [he]
  cases wait <;> exact ⟨_, _, _, armed_addTimer_proposer (Or.inr rfl), rfl⟩

/-- `Learner::Reset_AskforLearn_Noop` adds no proposer timer. -/
theorem resetAskforLearnNoop_eq (w : Proc) : ∃ timers now k, (armedIn timers = true → w.node.ioLoop.armed = true) ∧
    resetAskforLearnNoop w =
      { w with
        node.ioLoop.timers := timers
        node.ioLoop.nowTimerID := now
        node.learner.askforlearnNoopTimerID := k } := by
  obtain ⟨timers, h, he⟩ := ite_removeTimer (w.node.learner.askforlearnNoopTimerID > 0) w.node.ioLoop
    w.node.learner.askforlearnNoopTimerID
  unfold resetAskforLearnNoop
  simp only [he]
  refine ⟨_, _, _, ?_, rfl⟩
  intro ha
  have ha' := armed_addTimer_other { w.node.ioLoop with timers := timers } .learnerAskforlearnNoop (by decide) (by decide)
  exact h (ha'.symm.trans ha)

/-! ## The learner -/

section Learner

variable {d : Nat} {self : Self} {w : Proc} {s : Option PaxosMsg} {msg : PaxosMsg}

theorem resetAskforLearnNoop_chain : Chain P can n (w.loc s) ((resetAskforLearnNoop w).loc s) := by
  obtain ⟨timers, now, k, h, he⟩ := resetAskforLearnNoop_eq w
  rw [he]
  exact timers_chain now h

@[simp] theorem resetAskforLearnNoop_me : (resetAskforLearnNoop w).me = w.me := rfl

/-- A message without promise, vote or value goes to the network. -/
theorem plain_emit {l : Loc} (hl : l = w.loc none) (ht : msg.msgType.Plain) (hc : msg.lastChecksum = 0)
    (hn : msg.nodeID = n) (hi : msg.instanceID ≤ w.node.instanceID) {dst : Finset NodeID} (hdst : n ∉ dst) :
    Chain P can n l ((w.emit dst msg).loc none) := by
  subst hl
  exact .single (Act.emit (l := w.loc none) (.plain ht hc hn hi hdst)) rfl

theorem MsgType.Plain.rank {t : MsgType} (h : t.Plain) : t.rank = 0 := by
  obtain ⟨h₁, h₂, h₃, h₄, -, h₆⟩ := h
  cases t <;> first | rfl | contradiction

/-- A message without promise, vote or value is sent. -/
theorem plain_send {l : Loc} (hl : l = w.loc none) (hself : SelfOk P can n d self) (hw : w.me = n)
    (ht : msg.msgType.Plain) (hc : msg.lastChecksum = 0) (hn : msg.nodeID = n)
    (hi : msg.instanceID ≤ w.node.instanceID) {dst : NodeID} :
    Chain P can n l ((w.sendMessage self dst msg).loc none) := by
  subst hl
  refine .head (@Act.sendTo P can n (w.loc none) dst msg rfl ?_ ?_) rfl (send_chain hself rfl hw ?_)
  · intro hne
    exact .plain ht hc hn hi (by simpa using Ne.symm hne)
  · intro _
    exact ⟨ht.1, ht.2.2.1, hi, hn, ∅, .plain ht hc hn hi (by simp)⟩
  · intro _
    exact .of_ne (by simp [ht.rank]) hi ht.1 ht.2.2.1

/-- The record of an earlier instance is sent. -/
theorem record_send {l : Loc} (hl : l = w.loc none) (hself : SelfOk P can n d self) (hw : w.me = n) {i : Nat}
    {r : AcceptorStateData} (hr : w.readState i = some r) (hi : i < w.node.instanceID) {needAck : Bool} {dst : NodeID} :
    Chain P can n l ((sendLearnValue self dst i r.acceptedBallot r.acceptedValue 0 needAck w).loc none) := by
  subst hl hw
  refine .head (@Act.sendTo P can w.me (w.loc none) dst
    (learnValueMsg w.me i r.acceptedBallot r.acceptedValue 0 (if needAck then sendLearnValueNeedAck else 0))
    rfl ?_ ?_) rfl (send_chain hself rfl rfl ?_)
  · intro hne
    exact .record hr hi (by simpa using Ne.symm hne)
  · intro _
    exact ⟨nofun, nofun, hi.le, rfl, ∅, .record hr hi (by simp)⟩
  · intro _
    exact .of_ne (Nat.zero_le _) hi.le nofun nofun

theorem askforLearn_chain {l : Loc} (hl : l = w.loc none) (hw : w.me = n) :
    Chain P can n l ((askforLearn self w).loc none) := by
  subst hw
  have ht : MsgType.learnerAskforLearn.Plain := by simp [MsgType.Plain]
  unfold askforLearn
  simp only [Proc.broadcastMessage]
  refine (plain_emit hl ht (by rfl) (by rfl) le_rfl (Finset.notMem_erase _ _)).trans
    (plain_emit rfl ht (by rfl) (by rfl) le_rfl ?_)
  exact Finset.notMem_erase _ _

theorem askforLearnNoop_chain (hw : w.me = n) : Chain P can n (w.loc none) ((askforLearnNoop self w).loc none) := by
  unfold askforLearnNoop
  simp only []
  exact .trans resetAskforLearnNoop_chain (askforLearn_chain rfl (by exact hw))

@[simp] theorem noteSeen_loc {i : Nat} {m : NodeID} : (noteSeen i m w).loc s = w.loc s := by
  unfold noteSeen Learner.setSeenInstanceID
  split <;> rfl

@[simp] theorem noteSeen_me {i : Nat} {m : NodeID} : (noteSeen i m w).me = w.me := rfl

@[simp] theorem noteFollower_loc : (noteFollower msg w).loc s = w.loc s := by
  unfold noteFollower
  split <;> rfl

@[simp] theorem noteFollower_me : (noteFollower msg w).me = w.me := by
  unfold noteFollower
  split <;> rfl

theorem sendNowInstanceID_chain (hself : SelfOk P can n d self) {l : Loc} (hl : l = w.loc none) (hw : w.me = n)
    {i : Nat} (hi : i ≤ w.node.instanceID) {dst : NodeID} :
    Chain P can n l ((sendNowInstanceID P self i dst w).loc none) := by
  unfold sendNowInstanceID
  exact plain_send hl hself hw (by simp [MsgType.Plain]) (by rfl) (by exact hw) hi

/-- `Learner::OnAskforLearn` -/
theorem onAskforLearn_chain (hself : SelfOk P can n d self) (hw : w.me = n) :
    Chain P can n (w.loc none) ((onAskforLearn P self msg w).loc none) := by
  unfold onAskforLearn
  have hl : w.loc none = (noteFollower msg (noteSeen msg.instanceID msg.nodeID w)).loc none := by simp
  replace hw : (noteFollower msg (noteSeen msg.instanceID msg.nodeID w)).me = n := by simpa using hw
  rw [hl]
  generalize noteFollower msg (noteSeen msg.instanceID msg.nodeID w) = w at hw
  simp only []
  split
  · exact .refl
  · rename_i hge
    have hlt : msg.instanceID < w.node.instanceID := not_le.mp hge
    split
    · cases hprep : w.node.learner.sender.prepare w.env.sendTimeout msg.instanceID msg.nodeID with
      | mk sender ok =>
        have hs : sender.sendInstanceID = w.node.learner.sender.sendInstanceID ∧
            sender.lastChecksum = w.node.learner.sender.lastChecksum := by
          unfold LearnerSender.prepare at hprep
          split at hprep <;> (cases hprep; simp)
        have hw' : w.loc none = { w with node.learner.sender := sender }.loc none := by
          simp [Proc.loc, Node.core, hs]
        simp only []
        split
        · exact sendNowInstanceID_chain hself hw' hw hlt.le
        · split
          · split
            · rename_i hr
              exact record_send hw' hself hw hr hlt
            · rw [hw']
          · rw [hw']
    · exact sendNowInstanceID_chain hself rfl hw hlt.le

/-- `SystemVSM::UpdateSystemVariables` -/
theorem updateSystemVariables_chain (hw : w.me = n) (v : SystemVariables) :
    Chain P can n (w.loc none) ((updateSystemVariables v w).1.loc none) := by
  subst hw
  unfold updateSystemVariables
  simp only []
  split
  · exact .single (Act.updateSystemVariables (l := w.loc none) (v := v) rfl) rfl
  · exact .refl

/-- `SystemVSM::UpdateByCheckpoint` -/
theorem updateByCheckpoint_chain (hw : w.me = n) (buffer : Bytes) :
    Chain P can n (w.loc none) ((updateByCheckpoint P buffer w).1.loc none) := by
  unfold updateByCheckpoint
  split
  · exact .refl
  · split
    · exact .refl
    · rename_i v _
      simp only []
      split
      · exact .refl
      · split
        · exact .refl
        · split
          · exact .refl
          · split <;> exact updateSystemVariables_chain hw v

theorem prepareForAskforCheckpoint_max (c : CheckpointMgr) (now majority : Nat) (dst : NodeID) :
    (c.prepareForAskforCheckpoint now majority dst).1.maxChosenInstanceID = c.maxChosenInstanceID := by
  unfold CheckpointMgr.prepareForAskforCheckpoint
  by_cases h : c.lastAskforCheckpointTime = 0
  · simp only [h, if_true]
    split <;> rfl
  · simp only [h, if_false]
    split <;> rfl

theorem askforCheckpoint_chain (hself : SelfOk P can n d self) (hw : w.me = n) {dst : NodeID} :
    Chain P can n (w.loc none) ((askforCheckpoint self dst w).loc none) := by
  have hmax := prepareForAskforCheckpoint_max w.node.checkpointMgr w.env.now w.node.config.getMajorityCount dst
  -- unfolded before it is applied: the kernel would evaluate the test of `PrepareForAskforCheckpoint`
  suffices h : ∀ f, f = @askforCheckpoint → Chain P can n (w.loc none) ((f self dst w).loc none) from h _ rfl
  intro f hf
  delta askforCheckpoint at hf
  subst hf
  beta_reduce
  rcases hr : w.node.checkpointMgr.prepareForAskforCheckpoint w.env.now w.node.config.getMajorityCount dst with ⟨mgr, ret⟩
  rw [hr] at hmax
  simp only at hmax ⊢
  have hloc : ({ w with node.checkpointMgr := mgr } : Proc).loc none = w.loc none := by
    show (⟨{ w.node.core none with maxChosenInstanceID := mgr.maxChosenInstanceID }, w.net, w.hist⟩ : Loc) = _
    rw [hmax]
    rfl
  have hme : ({ w with node.checkpointMgr := mgr } : Proc).me = w.me := rfl
  have hi : ({ w with node.checkpointMgr := mgr } : Proc).node.instanceID = w.node.instanceID := rfl
  generalize ({ w with node.checkpointMgr := mgr } : Proc) = w' at hloc hme hi ⊢
  split
  · exact .of_eq hloc.symm
  · exact plain_send hloc.symm hself (hme.trans hw) (by simp [MsgType.Plain]) rfl (hme.trans hw) hi.ge

theorem comfirmAskForLearn_chain (hself : SelfOk P can n d self) (hw : w.me = n) {dst : NodeID} :
    Chain P can n (w.loc none) ((comfirmAskForLearn self dst w).loc none) :=
  plain_send (w := w) rfl hself hw (by simp [MsgType.Plain]) (by rfl) (by exact hw) le_rfl

/-- `Learner::OnSendNowInstanceID` -/
theorem onSendNowInstanceID_chain (hself : SelfOk P can n d self) (hw : w.me = n) :
    Chain P can n (w.loc none) ((onSendNowInstanceID P self msg w).loc none) := by
  unfold onSendNowInstanceID
  simp only []
  have h : Chain P can n ((noteSeen msg.nowInstanceID msg.nodeID w).loc none) _ :=
    updateByCheckpoint_chain (by simpa using hw) msg.systemVariables
  rw [noteSeen_loc] at h
  have hw' := h.me_eq hw
  generalize updateByCheckpoint P msg.systemVariables (noteSeen msg.nowInstanceID msg.nodeID w) = r at h hw'
  refine h.trans ?_
  split
  · exact .refl
  · split
    · exact .refl
    · split
      · exact .refl
      · split
        · exact askforCheckpoint_chain hself hw'
        · split
          · exact comfirmAskForLearn_chain hself hw'
          · exact .refl

theorem onComfirmAskForLearn_loc : (onComfirmAskForLearn msg w).loc s = w.loc s := by
  unfold onComfirmAskForLearn LearnerSender.comfirm
  split <;> rfl

theorem onSendLearnValueAck_loc : (onSendLearnValueAck msg w).loc s = w.loc s := by
  unfold onSendLearnValueAck LearnerSender.ack
  split <;> rfl

theorem ackIfNeeded_chain (hself : SelfOk P can n d self) (hw : w.me = n) :
    Chain P can n (w.loc none) ((ackIfNeeded P self msg w).loc none) := by
  unfold ackIfNeeded
  split
  · unfold sendLearnValueAck
    refine resetAskforLearnNoop_chain.trans ?_
    split
    · exact .refl
    · exact plain_send (by rfl) hself (by exact hw) (by simp [MsgType.Plain]) (by rfl) (by exact hw) le_rfl
  · exact .refl

/-- `LearnerState::LearnValue` when the write succeeds. -/
theorem learnValue_true (hp : w.nextPut = true) (b : BallotNumber) (v : Bytes) (i : Nat) (hi : i = w.node.instanceID) :
    LearnerState.learnValue P i b v w =
      let checksum := (w.node.core none).learnChecksum P v
      ({ w with
          node.learner.state := LearnerState.learnValueWithoutWrite v checksum
          node.storage := w.node.storage.put i (learnedRecord i b v checksum)
          env.puts := w.env.puts.tail }, 0) := by
  subst hi
  unfold LearnerState.learnValue
  simp only []
  rw [writeState_true (by exact hp)]
  rfl

/-- `LearnerState::LearnValue` when the write fails. -/
theorem learnValue_false (hp : w.nextPut = false) (b : BallotNumber) (v : Bytes) (i : Nat)
    (hi : i = w.node.instanceID) :
    LearnerState.learnValue P i b v w =
      ({ w with
          node.learner.state.newChecksum := (w.node.core none).learnChecksum P v
          env.puts := w.env.puts.tail }, -1) := by
  subst hi
  unfold LearnerState.learnValue
  simp only []
  rw [writeState_false (by exact hp)]
  rfl

/-- `Learner::OnSendLearnValue` -/
theorem onSendLearnValue_chain (hself : SelfOk P can n d self) (hw : w.me = n) (h : AtHand can (d + 1) s w msg)
    (ht : msg.msgType = .learnerSendLearnValue) :
    Chain P can n (w.loc s) ((onSendLearnValue P self msg w).loc none) := by
  have hdrop : Chain P can n (w.loc s) (w.loc none) := h.drop_of_ne (by simp [ht]) (by simp [ht])
  unfold onSendLearnValue
  split
  · exact hdrop
  · split
    · exact hdrop.trans (ackIfNeeded_chain hself hw)
    · have hi : msg.instanceID = w.node.instanceID := by omega
      cases hp : w.nextPut with
      | true =>
        rw [learnValue_true (by exact hp) _ _ _ hi]
        simp only [ne_eq, not_true_eq_false, if_false]
        refine .head (Act.learnValue h.src ht hi) rfl ?_
        subst hw
        have := @ackIfNeeded_chain P can w.me d self
          { w with
            node.learner.state := LearnerState.learnValueWithoutWrite msg.value
              ((w.node.core none).learnChecksum P msg.value)
            node.storage := w.node.storage.put msg.instanceID
              (learnedRecord msg.instanceID msg.learnedBallot msg.value ((w.node.core none).learnChecksum P msg.value))
            env.puts := w.env.puts.tail
            hist := .learn w.me msg.instanceID msg.value
              (.value msg.learnedBallot w.node.acceptor.promiseBallot) :: w.hist } msg hself rfl
        rw [hi] at this ⊢
        exact this
      | false =>
        rw [learnValue_false (by exact hp) _ _ _ hi]
        simp only [ne_eq, reduceCtorEq, not_false_eq_true, if_true]
        exact .single (Act.learnValueFail h.src ht hi) rfl

/-- `Learner::TransmitToFollower` -/
theorem transmitToFollower_chain {l : Loc} (hl : l = w.loc none) (hw : w.me = n)
    (h : w.node.learner.state.isLearned = true)
    (hv : w.node.learner.state.learnedValue = w.node.acceptor.acceptedValue) :
    Chain P can n l ((transmitToFollower w).loc none) := by
  subst hl hw
  unfold transmitToFollower
  split
  · exact .refl
  · exact .single (Act.emit (l := w.loc none) (.transmit h hv (Finset.notMem_erase _ _))) rfl

/-- The learner takes a success message, a real one or a fabricated one. -/
theorem onProposerSendSuccess_chain (hw : w.me = n) {m : PaxosMsg} (h : Src can (w.loc s) m)
    (hb : m.ballot = msg.ballot)
    (hm : msg.instanceID = w.node.instanceID →
      m.msgType = .learnerProposerSendSuccess ∧ m.instanceID = w.node.instanceID ∨
      (m.msgType = .paxosPrepare ∨ m.msgType = .paxosAccept) ∧ m.instanceID = w.node.instanceID + 1 ∧
        .nextInstanceMsg n w.node.instanceID m.ballot w.node.acceptor.acceptedBallot ∈ w.hist)
    (hdrop : Chain P can n (w.loc s) (w.loc none)) :
    Chain P can n (w.loc s) ((onProposerSendSuccess msg w).loc none) := by
  unfold onProposerSendSuccess
  simp only []
  split
  · exact hdrop
  · split
    · exact hdrop
    · split
      · exact hdrop
      · rename_i hi hnull hacc
        have hi : msg.instanceID = w.node.instanceID := by simpa using hi
        have hacc : w.node.acceptor.acceptedBallot = msg.ballot := by simpa using hacc
        rw [BallotNumber.isnull_iff] at hnull
        refine .head (Act.learnBySuccess h hnull (hacc.trans hb.symm) (hm hi)) rfl ?_
        subst hw
        refine transmitToFollower_chain ?_ rfl rfl rfl
        rw [hi, hb]
        rfl

end Learner

/-! ## The end of an instance -/

section InstanceLearned

variable {w : Proc} {s : Option PaxosMsg}

/-- From `w` to `w'` only the system variables and the outcomes to come change. -/
def OnlySystemVariables (w w' : Proc) : Prop :=
  ∃ vsm stored, w'.node = { w.node with config.systemVSM := vsm, storage.systemVariables := stored } ∧ w'.net = w.net

theorem OnlySystemVariables.refl (w : Proc) : OnlySystemVariables w w := ⟨_, _, rfl, rfl⟩

theorem OnlySystemVariables.trans {w w' w'' : Proc} (h : OnlySystemVariables w w') (h' : OnlySystemVariables w' w'') :
    OnlySystemVariables w w'' := by
  obtain ⟨vsm, stored, hn, hnet⟩ := h
  obtain ⟨vsm', stored', hn', hnet'⟩ := h'
  exact ⟨vsm', stored', by rw [hn', hn], hnet'.trans hnet⟩

/-- A change of the system variables of node `n`. -/
def Obs.IsUpdate (n : NodeID) (o : Obs) : Prop := ∃ i S, o = .updateSystemVariables n i S

/-- The state machines change the system variables at most, by steps that any node with these variables can take. -/
structure Executes (P : Params) (can : PaxosMsg → Prop) (n : NodeID) (w w' : Proc) : Prop where
  only : OnlySystemVariables w w'
  hist : ∃ obs, w'.hist = obs ++ w.hist ∧ ∀ o ∈ obs, o.IsUpdate n
  chain : ∀ l : Loc, l.core.toSelf = none → l.core.systemVSM = w.node.config.systemVSM →
    l.core.storedSystemVariables = w.node.storage.systemVariables → l.core.instanceID = w.node.instanceID →
    l.hist = w.hist →
    Chain P can n l
      { core := { l.core with
          systemVSM := w'.node.config.systemVSM, storedSystemVariables := w'.node.storage.systemVariables }
        net := l.net
        hist := w'.hist }

/-- Nothing but the outcomes to come changes. -/
theorem Executes.refl {w w' : Proc} (hn : w'.node = w.node) (hnet : w'.net = w.net) (hh : w'.hist = w.hist) :
    Executes P can n w w' where
  only := ⟨_, _, hn, hnet⟩
  hist := ⟨[], hh, by simp⟩
  chain := by
    rintro ⟨c, net, hist⟩ - h₁ h₂ - h₄
    simp only at h₁ h₂ h₄
    rw [hn, hh, ← h₁, ← h₂, ← h₄]

theorem Executes.trans {w w' w'' : Proc} (h : Executes P can n w w') (h' : Executes P can n w' w'') :
    Executes P can n w w'' where
  only := h.only.trans h'.only
  hist := by
    obtain ⟨obs, he, hobs⟩ := h.hist
    obtain ⟨obs', he', hobs'⟩ := h'.hist
    refine ⟨obs' ++ obs, by rw [he', he, List.append_assoc], ?_⟩
    intro o ho
    exact (List.mem_append.mp ho).elim (hobs' o) (hobs o)
  chain := by
    intro l h₀ h₁ h₂ h₃ h₄
    obtain ⟨vsm, stored, hn, -⟩ := h.only
    refine (h.chain l h₀ h₁ h₂ h₃ h₄).trans (h'.chain _ h₀ rfl rfl ?_ rfl)
    rw [hn]
    exact h₃

/-- The steps of the node itself. -/
theorem Executes.loc_chain {w w' : Proc} (h : Executes P can n w w') :
    Chain P can n (w.loc none) (w'.loc none) := by
  have hc := h.chain (w.loc none) rfl rfl rfl rfl rfl
  obtain ⟨vsm, stored, hn, hnet⟩ := h.only
  have : w'.loc none =
      { core := { (w.loc none).core with
          systemVSM := w'.node.config.systemVSM, storedSystemVariables := w'.node.storage.systemVariables }
        net := (w.loc none).net
        hist := w'.hist } := by
    unfold Proc.loc
    rw [hn, hnet]
    rfl
  rw [this]
  exact hc

theorem Executes.me_eq {w w' : Proc} (h : Executes P can n w w') (hw : w.me = n) : w'.me = n :=
  h.loc_chain.me_eq hw

theorem updateSystemVariables_executes (hw : w.me = n) (v : SystemVariables) :
    Executes P can n w (updateSystemVariables v w).1 := by
  subst hw
  unfold updateSystemVariables
  simp only []
  split
  · refine ⟨⟨_, _, rfl, rfl⟩, ⟨[_], rfl, by simp [Obs.IsUpdate]⟩, ?_⟩
    rintro ⟨c, net, hist⟩ h₀ h₁ h₂ h₃ h₄
    simp only at h₁ h₂ h₃ h₄
    have := @Act.updateSystemVariables P can w.me ⟨c, net, hist⟩ v h₀
    subst h₄
    rw [h₃] at this
    exact .single this rfl
  · exact .refl rfl rfl rfl

theorem systemVSM_execute_executes (hw : w.me = n) (i : Nat) (v : Bytes) :
    Executes P can n w (SystemVSM.execute P i v w).1 := by
  unfold SystemVSM.execute
  split
  · exact .refl rfl rfl rfl
  · rename_i v _
    simp only []
    split
    · exact .refl rfl rfl rfl
    · split
      · exact .refl rfl rfl rfl
      · exact updateSystemVariables_executes hw _

theorem callExecute_executes (hw : w.me = n) (i : Nat) (v : Bytes) (smid : Nat) :
    Executes P can n w (callExecute P i v smid w).1 := by
  unfold callExecute
  split
  · exact systemVSM_execute_executes hw i v
  · split
    · exact .refl rfl rfl rfl
    · exact .refl rfl rfl rfl

theorem doExecute_executes (hw : w.me = n) (i index : Nat) (v : Bytes) (smid : Nat) :
    Executes P can n w (doExecute P i index v smid w).1 := by
  unfold doExecute
  split
  · exact .refl rfl rfl rfl
  · exact (callExecute_executes hw i v smid).trans (.refl rfl rfl rfl)

theorem batchExecute_executes (i : Nat) (vs : List PaxosValue) :
    ∀ {index : Nat} {w : Proc}, w.me = n → Executes P can n w (batchExecute P i index vs w).1 := by
  induction vs with
  | nil => exact fun _ => .refl rfl rfl rfl
  | cons v vs ih =>
    intro index w hw
    have h : Executes P can n w _ := doExecute_executes hw i index v.value v.smid
    unfold batchExecute
    simp only []
    split
    · exact h.trans (ih (h.me_eq hw))
    · exact h

/-- `SMFac::Execute` -/
theorem smExecute_executes (hw : w.me = n) (i : Nat) (v : Bytes) : Executes P can n w (smExecute P i v w).1 := by
  unfold smExecute
  split
  · exact .refl rfl rfl rfl
  · split
    · exact .refl rfl rfl rfl
    · split
      · split
        · exact .refl rfl rfl rfl
        · exact batchExecute_executes i _ hw
      · exact doExecute_executes hw i 0 _ _

/-- `SMFac` called state machines for the sub-values from `lo` on, below `hi`, in order. -/
structure CallsWithin (lo hi : Nat) (w : Proc) (r : Proc × Bool) : Prop where
  calls : ∃ calls, r.1.smCalls = w.smCalls ++ calls ∧ calls.Pairwise (fun c d => c.index < d.index) ∧
    (∀ c ∈ calls, lo ≤ c.index ∧ c.index < hi) ∧ (r.2 = true → ∀ c ∈ calls, c.ok = true)
  played : r.1.played = w.played

theorem CallsWithin.none {lo hi : Nat} {w w' : Proc} {ok : Bool} (hc : w'.smCalls = w.smCalls)
    (hp : w'.played = w.played) : CallsWithin lo hi w (w', ok) :=
  ⟨⟨[], by rw [hc, List.append_nil], List.Pairwise.nil, by simp, by simp⟩, hp⟩

theorem CallsWithin.append {lo mid hi : Nat} {w : Proc} {r r' : Proc × Bool} (h : CallsWithin lo mid w r) (hok : r.2 = true)
    (h' : CallsWithin mid hi r.1 r') (hlo : lo ≤ mid) (hhi : mid ≤ hi) : CallsWithin lo hi w r' := by
  obtain ⟨⟨calls, hc, hpair, hin, hall⟩, hp⟩ := h
  obtain ⟨⟨calls', hc', hpair', hin', hall'⟩, hp'⟩ := h'
  refine ⟨⟨calls ++ calls', by rw [hc', hc, List.append_assoc], ?_, ?_, ?_⟩, hp'.trans hp⟩
  · refine List.pairwise_append.mpr ⟨hpair, hpair', fun c hc d hd => ?_⟩
    exact (hin c hc).2.trans_le (hin' d hd).1
  · intro c hc
    rcases List.mem_append.mp hc with hc | hc
    · exact ⟨(hin c hc).1, (hin c hc).2.trans_le hhi⟩
    · exact ⟨hlo.trans (hin' c hc).1, (hin' c hc).2⟩
  · intro hok' c hc
    exact (List.mem_append.mp hc).elim (hall hok c) (hall' hok' c)

theorem CallsWithin.widen {lo mid hi : Nat} {w : Proc} {r : Proc × Bool} (h : CallsWithin lo mid w r) (hhi : mid ≤ hi) :
    CallsWithin lo hi w r := by
  obtain ⟨⟨calls, hc, hpair, hin, hall⟩, hp⟩ := h
  exact ⟨⟨calls, hc, hpair, fun c hc => ⟨(hin c hc).1, (hin c hc).2.trans_le hhi⟩, hall⟩, hp⟩

/-- A state machine writes no history of calls itself. -/
theorem callExecute_ghost (i : Nat) (v : Bytes) (smid : Nat) (w : Proc) :
    (callExecute P i v smid w).1.smCalls = w.smCalls ∧ (callExecute P i v smid w).1.played = w.played := by
  have hupdate (v : SystemVariables) : (updateSystemVariables v w).1.smCalls = w.smCalls ∧
      (updateSystemVariables v w).1.played = w.played := by
    unfold updateSystemVariables
    simp only []
    split <;> exact ⟨rfl, rfl⟩
  unfold callExecute SystemVSM.execute
  split
  · split
    · exact ⟨rfl, rfl⟩
    · simp only []
      split
      · exact ⟨rfl, rfl⟩
      · split
        · exact ⟨rfl, rfl⟩
        · exact hupdate _
  · split <;> exact ⟨rfl, rfl⟩

theorem doExecute_calls (i index : Nat) (v : Bytes) (smid : Nat) (w : Proc) :
    CallsWithin index (index + 1) w (doExecute P i index v smid w) := by
  unfold doExecute
  split
  · exact .none rfl rfl
  · obtain ⟨hc, hp⟩ := callExecute_ghost (P := P) i v smid w
    refine ⟨⟨[_], congrArg (· ++ _) hc, List.pairwise_singleton _ _, ?_, ?_⟩, hp⟩
    · simp
    · simp

theorem batchExecute_calls (i : Nat) (vs : List PaxosValue) :
    ∀ (index : Nat) (w : Proc), CallsWithin index (index + vs.length) w (batchExecute P i index vs w) := by
  induction vs with
  | nil => exact fun _ _ => .none rfl rfl
  | cons v vs ih =>
    intro index w
    have h := doExecute_calls (P := P) i index v.value v.smid w
    have hlen : index + (v :: vs).length = index + 1 + vs.length := by
      rw [List.length_cons]
      omega
    rw [hlen]
    unfold batchExecute
    simp only []
    split
    · rename_i hok
      exact h.append hok (ih (index + 1) _) (Nat.le_succ _) (Nat.le_add_right _ _)
    · rename_i hok
      obtain ⟨⟨calls, hc, hpair, hin, -⟩, hp⟩ := h.widen (Nat.le_add_right (index + 1) vs.length)
      exact ⟨⟨calls, hc, hpair, hin, by simp⟩, hp⟩

/-- `SMFac::Execute` calls the state machines of the sub-values in order, each once. -/
theorem smExecute_calls (i : Nat) (v : Bytes) (w : Proc) :
    Execution.Orderly ⟨i, (smExecute P i v { w with smCalls := [] }).2, (smExecute P i v { w with smCalls := [] }).1.smCalls⟩ ∧
      (smExecute P i v { w with smCalls := [] }).1.played = w.played := by
  obtain ⟨hi, ⟨calls, hc, hpair, -, hall⟩, hp⟩ :
      ∃ hi, CallsWithin 0 hi { w with smCalls := [] } (smExecute P i v { w with smCalls := [] }) := by
    unfold smExecute
    split
    · exact ⟨0, .none rfl rfl⟩
    · split
      · exact ⟨0, .none rfl rfl⟩
      · split
        · split
          · exact ⟨0, .none rfl rfl⟩
          · exact ⟨_, batchExecute_calls i _ 0 _⟩
        · exact ⟨_, doExecute_calls i 0 _ _ _⟩
  rw [List.nil_append] at hc
  rw [hc]
  exact ⟨⟨hpair, hall⟩, hp⟩

/-- `Instance::NewInstance`, and `SetMaxChosenInstanceID` after it. -/
theorem newInstance_loc (w : Proc) : ∃ armed : Bool, (armed = true → w.node.ioLoop.armed = true) ∧
    { newInstance w with node.checkpointMgr.maxChosenInstanceID := (newInstance w).node.instanceID }.loc s =
      { core := { w.node.core s with
          instanceID := w.node.instanceID + 1
          maxChosenInstanceID := w.node.instanceID + 1
          acceptor := w.node.acceptor.init
          learner := {}
          counted := ∅
          proposer := w.node.proposer.state.init
          isPreparing := false
          isAccepting := false
          armed := armed }
        net := w.net
        hist := .newInstance w.me w.node.instanceID w.node.learner.state.learnedValue :: w.hist } := by
  unfold newInstance Proposer.initForNewPaxosInstance
  simp only []
  obtain ⟨timers, k, k', ha, he⟩ := exit_eq { w.log (.newInstance w.me w.node.instanceID w.node.learner.state.learnedValue)
    with
      node.instanceID := w.node.instanceID + 1
      node.acceptor := w.node.acceptor.init
      node.learner.state := {}
      node.proposer.msgCounter := {}
      node.proposer.state := w.node.proposer.state.init }
  exact ⟨armedIn timers, ha, by erw [he]; rfl⟩

/-- The instance was executed, and the next one starts. -/
theorem advance_chain {w w' : Proc} (timers : List (Nat × TimerType)) (timerID : Nat)
    (hl : w.node.learner.state.isLearned = true) (hcalls : Execution.Orderly ⟨w.node.instanceID, true, w.smCalls⟩)
    (harmed : armedIn timers = true → w.node.ioLoop.armed = true)
    (hw' : w' = newInstance { w with
      node.commitCtx := w.node.commitCtx.setResult .ok (some w.node.instanceID) w.node.learner.state.learnedValue
      node.ioLoop.timers := timers
      node.commitTimerID := timerID
      node.lastChecksum := w.node.learner.state.newChecksum
      hist := .execute w.me w.node.instanceID w.node.learner.state.learnedValue true w.smCalls :: w.hist }) :
    Chain P can w.me (w.loc none)
      ({ w' with node.checkpointMgr.maxChosenInstanceID := w'.node.instanceID }.loc none) := by
  obtain ⟨armed, ha, h⟩ := newInstance_loc (s := none) { w with
    node.commitCtx := w.node.commitCtx.setResult .ok (some w.node.instanceID) w.node.learner.state.learnedValue
    node.ioLoop.timers := timers
    node.commitTimerID := timerID
    node.lastChecksum := w.node.learner.state.newChecksum
    hist := .execute w.me w.node.instanceID w.node.learner.state.learnedValue true w.smCalls :: w.hist }
  rw [← hw'] at h
  refine .trans (.single ?_ ?_) (.of_eq h.symm)
  · exact Act.advance (l := w.loc none) hl (fun h => harmed (ha h)) hcalls
  · rfl

/-- The execution failed: the instance stays. -/
theorem instanceLearned_fail {w w' : Proc} (hl : w.node.learner.state.isLearned = true)
    (hr : smExecute P w.node.instanceID w.node.learner.state.learnedValue { w with smCalls := [] } = (w', false)) :
    (instanceLearned P w).1 = cancelSkipPrepare { w' with
      node.commitCtx :=
        w'.node.commitCtx.setResult .executeFail (some w.node.instanceID) w.node.learner.state.learnedValue
      hist := .execute w'.me w.node.instanceID w.node.learner.state.learnedValue false w'.smCalls :: w'.hist } := by
  unfold instanceLearned
  rw [if_neg (by rw [hl]; exact Bool.false_ne_true)]
  simp only [hr]
  rfl

/-- The execution succeeded: the commit timer may go, and the next instance starts. -/
theorem instanceLearned_done {w w' : Proc} (hl : w.node.learner.state.isLearned = true)
    (hr : smExecute P w.node.instanceID w.node.learner.state.learnedValue { w with smCalls := [] } = (w', true)) :
    ∃ timers timerID w'', (armedIn timers = true → w'.node.ioLoop.armed = true) ∧ w'' = newInstance { w' with
      node.commitCtx := w'.node.commitCtx.setResult .ok (some w.node.instanceID) w.node.learner.state.learnedValue
      node.ioLoop.timers := timers
      node.commitTimerID := timerID
      node.lastChecksum := w'.node.learner.state.newChecksum
      hist := .execute w'.me w.node.instanceID w.node.learner.state.learnedValue true w'.smCalls :: w'.hist } ∧
      (instanceLearned P w).1 = { w'' with node.checkpointMgr.maxChosenInstanceID := w''.node.instanceID } := by
  by_cases ht : w'.node.commitTimerID > 0
  · refine ⟨(w'.node.ioLoop.removeTimer w'.node.commitTimerID).timers, 0, _, armed_removeTimer, rfl, ?_⟩
    unfold instanceLearned
    rw [if_neg (by rw [hl]; exact Bool.false_ne_true)]
    simp only [hr, Bool.not_true, Bool.false_eq_true, if_false]
    erw [if_pos ht]
    rfl
  · refine ⟨w'.node.ioLoop.timers, w'.node.commitTimerID, _, id, rfl, ?_⟩
    unfold instanceLearned
    rw [if_neg (by rw [hl]; exact Bool.false_ne_true)]
    simp only [hr, Bool.not_true, Bool.false_eq_true, if_false]
    erw [if_neg ht]
    rfl

/-- The end of `Instance::ReceiveMsgForLearner`. -/
theorem instanceLearned_chain (hw : w.me = n) : Chain P can n (w.loc none) ((instanceLearned P w).1.loc none) := by
  cases hl : w.node.learner.state.isLearned with
  | false =>
    unfold instanceLearned
    rw [if_pos (by rw [hl]; rfl)]
  | true =>
    rcases hr : smExecute P w.node.instanceID w.node.learner.state.learnedValue { w with smCalls := [] }
      with ⟨w', ok⟩
    have hex : Executes P can n { w with smCalls := [] } w' := by
      have h : Executes P can n { w with smCalls := [] } _ :=
        smExecute_executes (w := { w with smCalls := [] }) hw w.node.instanceID w.node.learner.state.learnedValue
      rwa [hr] at h
    have hcalls := (smExecute_calls (P := P) w.node.instanceID w.node.learner.state.learnedValue w).1
    rw [hr] at hcalls
    obtain ⟨vsm, stored, hn, -⟩ := hex.only
    have hme : w'.me = n := hex.me_eq hw
    have hl' : w'.node.learner.state = w.node.learner.state := by rw [hn]
    have hi' : w'.node.instanceID = w.node.instanceID := by rw [hn]
    refine Chain.trans hex.loc_chain ?_
    subst hme
    cases ok with
    | false =>
      rw [instanceLearned_fail hl hr]
      rw [← hl', ← hi']
      rw [← hl'] at hl
      rw [← hi'] at hcalls
      exact .single (Act.executeFail (l := w'.loc none) hl hcalls) rfl
    | true =>
      obtain ⟨timers, timerID, w'', harmed, hw'', heq⟩ := instanceLearned_done hl hr
      rw [heq]
      rw [← hl', ← hi'] at hw''
      rw [← hl'] at hl
      rw [← hi'] at hcalls
      exact advance_chain timers timerID hl hcalls harmed hw''

/-- `Instance::ReceiveMsgForLearner` -/
theorem receiveMsgForLearner_chain {d : Nat} {self : Self} {msg : PaxosMsg} (hself : SelfOk P can n d self)
    (hw : w.me = n) (h : AtHand can (d + 1) s w msg) (h₁ : msg.msgType ≠ .paxosPrepare)
    (h₂ : msg.msgType ≠ .paxosAccept) :
    Chain P can n (w.loc s) ((receiveMsgForLearner P self msg w).1.loc none) := by
  have hdrop : Chain P can n (w.loc s) (w.loc none) := h.drop_of_ne h₁ h₂
  have hend {w' : Proc} (h' : Chain P can n (w.loc s) (w'.loc none)) :
      Chain P can n (w.loc s) ((instanceLearned P w').1.loc none) :=
    h'.trans (instanceLearned_chain (h'.me_eq hw))
  unfold receiveMsgForLearner
  cases ht : msg.msgType with
  | learnerAskforLearn => exact hend (hdrop.trans (onAskforLearn_chain hself hw))
  | learnerSendLearnValue => exact hend (onSendLearnValue_chain hself hw h ht)
  | learnerProposerSendSuccess =>
    exact hend (onProposerSendSuccess_chain hw h.src rfl (fun hi => Or.inl ⟨ht, hi⟩) hdrop)
  | learnerSendNowInstanceID => exact hend (hdrop.trans (onSendNowInstanceID_chain hself hw))
  | learnerComfirmAskforLearn => exact hend (by rw [onComfirmAskForLearn_loc]; exact hdrop)
  | learnerSendLearnValueAck => exact hend (by rw [onSendLearnValueAck_loc]; exact hdrop)
  | _ => exact hend hdrop

/-- The success message that `Instance::ReceiveMsgForAcceptor` makes up from a message of the next instance. -/
theorem fabricated_chain {self : Self} {msg : PaxosMsg} (hw : w.me = n) (hcan : can msg)
    (ht : msg.msgType = .paxosPrepare ∨ msg.msgType = .paxosAccept) (hi : msg.instanceID = w.node.instanceID + 1) :
    Chain P can n (w.loc none) ((receiveMsgForLearner P self
      { msg with instanceID := w.node.instanceID, msgType := .learnerProposerSendSuccess }
      (w.log (.nextInstanceMsg w.me w.node.instanceID msg.ballot w.node.acceptor.acceptedBallot))).1.loc none) := by
  subst hw
  have h₁ : Chain P can w.me (w.loc none)
      ((w.log (.nextInstanceMsg w.me w.node.instanceID msg.ballot w.node.acceptor.acceptedBallot)).loc none) :=
    .single (Act.nextInstanceMsg (l := w.loc none) hcan ht hi) rfl
  have h₂ := @onProposerSendSuccess_chain P can w.me
    (w.log (.nextInstanceMsg w.me w.node.instanceID msg.ballot w.node.acceptor.acceptedBallot)) none
    { msg with instanceID := w.node.instanceID, msgType := .learnerProposerSendSuccess } rfl msg (Or.inl ⟨rfl, hcan⟩) rfl (fun _ => Or.inr ⟨ht, hi, List.mem_cons_self⟩) .refl
  exact (h₁.trans h₂).trans (instanceLearned_chain (h₂.me_eq rfl))

end InstanceLearned

end PhxPaxos
