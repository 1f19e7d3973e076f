import PhxPaxos.Safety.Agreement
import PhxPaxos.Safety.Checksum
import PhxPaxos.Timers.Shift

/-!
# A learned value is executed at once

Between learning a value and executing it a node handles nothing but its own acknowledgement of the value. So while all
executions succeed, nothing is pending when an event ends (`Calm`), and the acceptor never writes over a learned value
(`keepsLearned_of_executes`).
-/

namespace PhxPaxos

variable {P : Params} {G : Group} {D : Deliver} {n : NodeID} {self : Self} {w w' : Proc}

/-- All executions of learned values succeeded. -/
def ExecutesSucceed (h : List Obs) : Prop := ∀ n i v calls, .execute n i v false calls ∉ h

theorem ExecutesSucceed.suffix {h h' : List Obs} (hsuf : h <:+ h') (he : ExecutesSucceed h') : ExecutesSucceed h :=
  fun n i v calls hm => he n i v calls (hsuf.subset hm)

theorem ExecutesSucceed.of_all {h : List Obs} (hall : h.all (fun
    | .execute _ _ _ false _ => false
    | _ => true) = true) : ExecutesSucceed h :=
  fun _ _ _ _ hm => absurd (List.all_eq_true.mp hall _ hm) (by simp)

/-- Node `n` has no learned value left to execute. -/
structure Calm (n : NodeID) (w : Proc) : Prop where
  me : w.me = n
  keeps : ExecutesSucceed w.hist → KeepsLearned w.hist ∧ pendingValue n w.hist = none

/-- Node `n` has none, or is going to execute it. -/
structure Due (n : NodeID) (w : Proc) : Prop where
  me : w.me = n
  keeps : ExecutesSucceed w.hist → KeepsLearned w.hist ∧
    (w.node.learner.state.isLearned = false → pendingValue n w.hist = none)

theorem Calm.due (h : Calm n w) : Due n w := ⟨h.me, fun he => ⟨(h.keeps he).1, fun _ => (h.keeps he).2⟩⟩

theorem Calm.of_eq (h : Calm n w) (hme : w'.me = w.me) (hh : w'.hist = w.hist) : Calm n w' :=
  ⟨hme.trans h.me, hh ▸ h.keeps⟩

theorem Due.of_eq (h : Due n w) (hme : w'.me = w.me) (hh : w'.hist = w.hist)
    (hl : w'.node.learner.state.isLearned = w.node.learner.state.isLearned) : Due n w' :=
  ⟨hme.trans h.me, by rw [hh, hl]; exact h.keeps⟩

/-- Nothing else makes a value pending. -/
theorem Obs.pending_none {o : Obs} (ho : ∀ i v how, o ≠ .learn n i v how) : o.pending n none = none := by
  cases o with
  | learn m i v how =>
    refine if_neg fun heq => ?_
    exact ho i v how (by rw [heq])
  | newInstance => exact ite_self _
  | playLog m played ok =>
    cases ok with
    | true => exact ite_self _
    | false => rfl
  | _ => rfl

/-- Observations of the node, none of which makes a value pending. -/
theorem Calm.of_obs (h : Calm n w) (hme : w'.me = w.me) (obs : List Obs) (hh : w'.hist = obs ++ w.hist)
    (hobs : ∀ o ∈ obs, o.node = n ∧ ∀ i v how, o ≠ .learn n i v how) : Calm n w' := by
  refine ⟨hme.trans h.me, ?_⟩
  rw [hh]
  clear hh
  induction obs with
  | nil => exact h.keeps
  | cons o obs ih =>
    intro he
    obtain ⟨hkeeps, hpending⟩ := ih (fun o ho => hobs o (List.mem_cons_of_mem _ ho)) (he.suffix (List.suffix_cons _ _))
    obtain ⟨hnode, hlearn⟩ := hobs o List.mem_cons_self
    constructor
    · intro m i v u older hp hsome
      rcases Past.cons_iff.mp hp with ⟨rfl, rfl⟩ | hp
      · obtain rfl : m = n := hnode
        cases hpending.symm.trans hsome
      · exact hkeeps hp hsome
    · change o.pending n (pendingValue n (obs ++ w.hist)) = none
      rw [hpending]
      exact Obs.pending_none hlearn

theorem Calm.log (h : Calm n w) {o : Obs} (hnode : o.node = w.me) (ho : ∀ i v how, o ≠ .learn n i v how) : Calm n (w.log o) := by
  refine Calm.of_obs h ?_ [o] ?_ ?_
  · rfl
  · rfl
  intro o' ho'
  obtain rfl := List.mem_singleton.mp ho'
  exact ⟨hnode.trans h.me, ho⟩

theorem KeepsLearned.append {obs h : List Obs} (hk : KeepsLearned h) (hobs : ∀ o ∈ obs, ∀ m i v ok, o ≠ .persist m i v ok) :
    KeepsLearned (obs ++ h) := by
  intro m i v u older hp hsome
  refine hk ((Past.append_iff (p := fun o => ∃ m i v ok, o = .persist m i v ok) (fun o ho => ?_) ⟨m, i, v, true, rfl⟩).mp hp) hsome
  rintro ⟨m, i, v, ok, rfl⟩
  exact hobs _ ho m i v ok rfl

/-- The state machines change the system variables at most. -/
theorem Due.executes (h : Due n w) (he : Executes P (fun _ => True) n w w') : Due n w' := by
  obtain ⟨obs, hh, hobs⟩ := he.hist
  obtain ⟨vsm, stored, hn, -⟩ := he.only
  have haside : ∀ o ∈ obs, o.Aside n := by
    intro o ho
    obtain ⟨i, S, rfl⟩ := hobs o ho
    exact ⟨fun _ => rfl, fun _ => rfl⟩
  refine ⟨he.me_eq h.me, fun hx => ?_⟩
  rw [hh] at hx ⊢
  obtain ⟨hkeeps, hpending⟩ := h.keeps (hx.suffix (List.suffix_append _ _))
  constructor
  · apply hkeeps.append
    intro o ho m i v ok heq
    obtain ⟨j, S, rfl⟩ := hobs o ho
    cases heq
  · rw [(aside_append haside _).1, hn]
    exact hpending

theorem Calm.executes (h : Calm n w) (he : Executes P (fun _ => True) n w w') : Calm n w' := by
  obtain ⟨obs, hh, hobs⟩ := he.hist
  refine h.of_obs ((he.me_eq h.me).trans h.me.symm) obs hh fun o ho => ?_
  obtain ⟨i, S, rfl⟩ := hobs o ho
  exact ⟨rfl, by simp⟩

/-- A value was learned: it is going to be executed. -/
theorem Calm.learn (h : Calm n w) (i : Nat) (v : Bytes) (how : LearnBy) (hl : w.node.learner.state.isLearned = true) :
    Due n (w.log (.learn w.me i v how)) := by
  refine ⟨h.me, fun he => ⟨?_, fun hnot => ?_⟩⟩
  · intro m j u u' older hp hsome
    rcases Past.cons_iff.mp hp with ⟨heq, -⟩ | hp
    · cases heq
    · exact (h.keeps (he.suffix (List.suffix_cons _ _))).1 hp hsome
  · exact absurd (hl.symm.trans hnot) Bool.true_eq_false_eq_False

/-- What a node sends to itself leaves it calm; its own acknowledgement may have the value executed. -/
structure SelfCalm (n : NodeID) (f : Self) : Prop where
  calm : ∀ {msg w}, Calm n w → Calm n (f msg w).1
  ack : ∀ {msg w}, msg.msgType = .learnerSendLearnValueAck → msg.lastChecksum = 0 → Due n w → Due n (f msg w).1

/-! ## Sending and the acceptor -/

section Base

variable (hself : SelfCalm n self)
include hself

theorem sendMessage_calm (h : Calm n w) (dst : NodeID) (msg : PaxosMsg) : Calm n (w.sendMessage self dst msg) := by
  unfold Proc.sendMessage
  split
  · exact hself.calm h
  · exact h.of_eq rfl rfl

theorem broadcastMessage_calm (h : Calm n w) (runType : RunSelf) (msg : PaxosMsg) :
    Calm n (w.broadcastMessage self runType msg) := by
  unfold Proc.broadcastMessage
  cases runType with
  | first =>
    simp only []
    split
    · exact hself.calm h
    · exact (hself.calm h).of_eq rfl rfl
  | final => exact hself.calm (h.of_eq rfl rfl)
  | none => exact h.of_eq rfl rfl

end Base

theorem writeState_frame (i : Nat) (r : AcceptorStateData) (w : Proc) :
    (w.writeState i r).1.me = w.me ∧ (w.writeState i r).1.hist = w.hist := by
  unfold Proc.writeState
  simp only []
  split <;> exact ⟨rfl, rfl⟩

theorem persist_calm (h : Calm n w) : Calm n (AcceptorState.persist P w).1 := by
  unfold AcceptorState.persist
  simp only []
  apply Calm.log
  · obtain ⟨hme, hh⟩ := writeState_frame w.node.instanceID _ _
    exact h.of_eq hme hh
  · rfl
  · simp

theorem onPrepare_calm (hself : SelfCalm n self) (h : Calm n w) (msg : PaxosMsg) : Calm n (onPrepare P self msg w).1 := by
  unfold onPrepare
  simp only []
  split
  · have hpersist : Calm n (AcceptorState.persist P { w with node.acceptor.promiseBallot := msg.ballot }).1 :=
      persist_calm (h.of_eq rfl rfl)
    split
    · exact hpersist
    · exact sendMessage_calm hself (hpersist.log rfl (by simp)) _ _
  · exact sendMessage_calm hself h _ _

theorem onAccept_calm (hself : SelfCalm n self) (h : Calm n w) (msg : PaxosMsg) : Calm n (onAccept P self msg w) := by
  unfold onAccept
  simp only []
  split
  · have hset : Calm n (({ w with
        node.acceptor.promiseBallot := msg.ballot
        node.acceptor.acceptedBallot := msg.ballot
        node.acceptor.acceptedValue := msg.value } : Proc).log (.setAccepted w.me w.node.instanceID msg.ballot msg.value)) := by
      apply Calm.log
      · exact h.of_eq rfl rfl
      · rfl
      · simp
    split
    · exact persist_calm hset
    · exact sendMessage_calm hself ((persist_calm hset).log rfl (by simp)) _ _
  · exact sendMessage_calm hself h _ _

/-! ## The proposer -/

theorem exitPrepare_calm (h : Calm n w) : Calm n (exitPrepare w) := by
  unfold exitPrepare
  split
  · exact h.of_eq rfl rfl
  · exact h

theorem exitAccept_calm (h : Calm n w) : Calm n (exitAccept w) := by
  unfold exitAccept
  split
  · exact h.of_eq rfl rfl
  · exact h

theorem addPrepareTimer_calm (h : Calm n w) (wait : Bool) : Calm n (addPrepareTimer wait w) := by
  unfold addPrepareTimer
  cases wait <;> exact h.of_eq rfl rfl

theorem addAcceptTimer_calm (h : Calm n w) (wait : Bool) : Calm n (addAcceptTimer wait w) := by
  unfold addAcceptTimer
  cases wait <;> exact h.of_eq rfl rfl

theorem accept_calm (hself : SelfCalm n self) (h : Calm n w) : Calm n (accept self w) := by
  unfold accept
  simp only []
  apply broadcastMessage_calm hself
  apply Calm.log
  · refine addAcceptTimer_calm ?_ false
    exact (exitPrepare_calm h).of_eq rfl rfl
  · rfl
  · simp

theorem prepare_calm (hself : SelfCalm n self) (h : Calm n w) (needNewBallot : Bool) : Calm n (prepare self needNewBallot w) := by
  unfold prepare
  simp only []
  apply broadcastMessage_calm hself
  apply Calm.log
  · refine addPrepareTimer_calm ?_ false
    exact (exitAccept_calm h).of_eq rfl rfl
  · rfl
  · simp

theorem checkAcceptRound_calm (hself : SelfCalm n self) (h : Calm n w) : Calm n (checkAcceptRound self w) := by
  unfold checkAcceptRound proposerSendSuccess
  simp only []
  split
  · exact broadcastMessage_calm hself ((exitAccept_calm h).log rfl (by simp)) _ _
  · split
    · exact addAcceptTimer_calm h true
    · exact h

theorem onAcceptReply_calm (hself : SelfCalm n self) (h : Calm n w) (msg : PaxosMsg) : Calm n (onAcceptReply self msg w) := by
  unfold onAcceptReply
  simp only []
  split
  · exact h
  · split
    · exact h
    · split <;> exact checkAcceptRound_calm hself (h.of_eq rfl rfl)

theorem onExpiredReply_calm (h : Calm n w) (msg : PaxosMsg) : Calm n (onExpiredReply msg w) := by
  unfold onExpiredReply
  split
  · exact h.of_eq rfl rfl
  · exact h

theorem checkPrepareRound_calm (hself : SelfCalm n self) (h : Calm n w) : Calm n (checkPrepareRound self w) := by
  unfold checkPrepareRound
  split
  · exact accept_calm hself (h.of_eq rfl rfl)
  · split
    · exact addPrepareTimer_calm h true
    · exact h

theorem onPrepareReply_calm (hself : SelfCalm n self) (h : Calm n w) (msg : PaxosMsg) : Calm n (onPrepareReply self msg w) := by
  unfold onPrepareReply
  simp only []
  split
  · exact h
  · split
    · exact h
    · split
      · apply checkPrepareRound_calm hself
        apply Calm.log
        · exact h.of_eq rfl rfl
        · rfl
        · simp
      · exact checkPrepareRound_calm hself (h.of_eq rfl rfl)

theorem newValue_calm (hself : SelfCalm n self) (h : Calm n w) (value : Bytes) : Calm n (newValue self value w) := by
  have hlog : Calm n (w.log (.newValue w.me w.node.instanceID value)) := h.log rfl (by simp)
  unfold newValue
  simp only []
  split
  · refine accept_calm hself ?_
    exact hlog.of_eq rfl rfl
  · refine prepare_calm hself ?_ _
    exact hlog.of_eq rfl rfl

theorem onProposerTimeout_calm (hself : SelfCalm n self) (h : Calm n w) : Calm n (onProposerTimeout self w) := by
  unfold onProposerTimeout
  split
  · exact h
  · exact prepare_calm hself h _

/-! ## The learner -/

theorem learnValue_frame (i : Nat) (b : BallotNumber) (v : Bytes) (w : Proc) :
    (LearnerState.learnValue P i b v w).1.me = w.me ∧ (LearnerState.learnValue P i b v w).1.hist = w.hist ∧
      ((LearnerState.learnValue P i b v w).2 = 0 →
        (LearnerState.learnValue P i b v w).1.node.learner.state.isLearned = true) := by
  unfold LearnerState.learnValue
  simp only []
  generalize (if i > 0 ∧ w.node.lastChecksum = 0 then 0 else if v.length > 0 then P.crc32 w.node.lastChecksum v
    else w.node.learner.state.newChecksum) = checksum
  have hwrite (r : AcceptorStateData) := writeState_frame i r { w with node.learner.state.newChecksum := checksum }
  split
  case isTrue hret => exact ⟨(hwrite _).1, (hwrite _).2, fun hzero => absurd hzero hret⟩
  case isFalse => exact ⟨(hwrite _).1, (hwrite _).2, fun _ => rfl⟩

theorem noteFollower_calm (h : Calm n w) (msg : PaxosMsg) : Calm n (noteFollower msg w) := by
  unfold noteFollower
  split
  · exact h.of_eq rfl rfl
  · exact h

theorem sendNowInstanceID_calm (hself : SelfCalm n self) (h : Calm n w) (i : Nat) (dst : NodeID) :
    Calm n (sendNowInstanceID P self i dst w) := sendMessage_calm hself h _ _

theorem onAskforLearn_calm (hself : SelfCalm n self) (h : Calm n w) (msg : PaxosMsg) : Calm n (onAskforLearn P self msg w) := by
  have hnote : Calm n (noteFollower msg (noteSeen msg.instanceID msg.nodeID w)) := by
    apply noteFollower_calm
    exact h.of_eq rfl rfl
  unfold onAskforLearn
  simp only []
  split
  · exact hnote
  · split
    · split
      · apply sendNowInstanceID_calm hself
        exact hnote.of_eq rfl rfl
      · split
        · split
          · apply sendMessage_calm hself
            exact hnote.of_eq rfl rfl
          · exact hnote.of_eq rfl rfl
        · exact hnote.of_eq rfl rfl
    · exact sendNowInstanceID_calm hself hnote _ _

theorem updateByCheckpoint_calm (h : Calm n w) (buffer : Bytes) : Calm n (updateByCheckpoint P buffer w).1 := by
  unfold updateByCheckpoint
  split
  · exact h
  · split
    · exact h
    · simp only []
      split
      · exact h
      · split
        · exact h
        · split
          · exact h
          · split <;> exact h.executes (updateSystemVariables_executes (P := P) h.me _)

theorem askforCheckpoint_calm (hself : SelfCalm n self) (h : Calm n w) (dst : NodeID) :
    Calm n (askforCheckpoint self dst w) := by
  unfold askforCheckpoint
  simp only []
  split
  · exact h.of_eq rfl rfl
  · apply sendMessage_calm hself
    exact h.of_eq rfl rfl

theorem comfirmAskForLearn_calm (hself : SelfCalm n self) (h : Calm n w) (dst : NodeID) :
    Calm n (comfirmAskForLearn self dst w) := by
  unfold comfirmAskForLearn
  exact (sendMessage_calm hself h _ _).of_eq rfl rfl

theorem onSendNowInstanceID_calm (hself : SelfCalm n self) (h : Calm n w) (msg : PaxosMsg) :
    Calm n (onSendNowInstanceID P self msg w) := by
  have hupdate : Calm n (updateByCheckpoint P msg.systemVariables (noteSeen msg.nowInstanceID msg.nodeID w)).1 := by
    apply updateByCheckpoint_calm
    exact h.of_eq rfl rfl
  unfold onSendNowInstanceID
  simp only []
  split
  · exact hupdate
  · split
    · exact hupdate
    · split
      · exact hupdate
      · split
        · exact askforCheckpoint_calm hself hupdate _
        · split
          · exact comfirmAskForLearn_calm hself hupdate _
          · exact hupdate

/-- The acknowledgement of a value that is going to be executed. -/
theorem ackIfNeeded_due (hself : SelfCalm n self) (h : Due n w) (msg : PaxosMsg) : Due n (ackIfNeeded P self msg w) := by
  unfold ackIfNeeded sendLearnValueAck
  simp only []
  split
  · split
    · exact h.of_eq rfl rfl rfl
    · unfold Proc.sendMessage
      split
      · apply hself.ack rfl rfl
        exact h.of_eq rfl rfl rfl
      · exact h.of_eq rfl rfl rfl
  · exact h

theorem onSendLearnValue_due (hself : SelfCalm n self) (h : Calm n w) (msg : PaxosMsg) :
    Due n (onSendLearnValue P self msg w) := by
  obtain ⟨hme, hh, hlearned⟩ := learnValue_frame (P := P) msg.instanceID msg.learnedBallot msg.value w
  unfold onSendLearnValue
  simp only []
  split
  · exact h.due
  · split
    · exact ackIfNeeded_due hself h.due msg
    · split
      case isTrue => exact (h.of_eq hme hh).due
      case isFalse hret =>
        apply ackIfNeeded_due hself
        exact (h.of_eq hme hh).learn _ _ _ (hlearned (not_not.mp hret))

theorem onProposerSendSuccess_due (h : Calm n w) (msg : PaxosMsg) : Due n (onProposerSendSuccess msg w) := by
  unfold onProposerSendSuccess
  simp only []
  split
  · exact h.due
  · split
    · exact h.due
    · split
      · exact h.due
      · have hlearn : Due n (({ w with node.learner.state :=
            LearnerState.learnValueWithoutWrite w.node.acceptor.acceptedValue w.node.acceptor.checksum } : Proc).log
              (.learn w.me msg.instanceID w.node.acceptor.acceptedValue (.success msg.ballot))) := by
          apply Calm.learn
          · exact h.of_eq rfl rfl
          · rfl
        unfold transmitToFollower
        split
        · exact hlearn
        · exact hlearn.of_eq rfl rfl rfl

/-! ## Executing a value -/

theorem newInstance_calm (h : Due n w) : Calm n (newInstance w) := by
  have hlog : Calm n (w.log (.newInstance w.me w.node.instanceID w.node.learner.state.learnedValue)) := by
    refine ⟨h.me, fun he => ⟨?_, if_pos h.me⟩⟩
    intro m i v u older hp hsome
    rcases Past.cons_iff.mp hp with ⟨heq, -⟩ | hp
    · cases heq
    · exact (h.keeps (he.suffix (List.suffix_cons _ _))).1 hp hsome
  unfold newInstance Proposer.initForNewPaxosInstance
  simp only []
  apply exitAccept_calm
  apply exitPrepare_calm
  exact hlog.of_eq rfl rfl

theorem Due.execute (h : Due n w) (i : Nat) (v : Bytes) (ok : Bool) (calls : List SMCall) :
    Due n (w.log (.execute w.me i v ok calls)) := by
  refine ⟨h.me, fun he => ?_⟩
  obtain ⟨hkeeps, hpending⟩ := h.keeps (he.suffix (List.suffix_cons _ _))
  refine ⟨fun hp hsome => ?_, hpending⟩
  rcases Past.cons_iff.mp hp with ⟨heq, -⟩ | hp
  · cases heq
  · exact hkeeps hp hsome

/-- A value that is going to be executed is executed. -/
theorem instanceLearned_calm (h : Due n w) : Calm n (instanceLearned P w).1 := by
  unfold instanceLearned
  split
  case isTrue hnot =>
    rw [Bool.not_eq_true'] at hnot
    exact ⟨h.me, fun he => ⟨(h.keeps he).1, (h.keeps he).2 hnot⟩⟩
  case isFalse =>
    have hstart : Due n { w with smCalls := [] } := h.of_eq rfl rfl rfl
    have hexecuted := hstart.executes (smExecute_executes (P := P) hstart.me w.node.instanceID w.node.learner.state.learnedValue)
    simp only []
    generalize smExecute P w.node.instanceID w.node.learner.state.learnedValue { w with smCalls := [] } = r at hexecuted ⊢
    obtain ⟨w₁, ok⟩ := r
    have hlog := hexecuted.execute w.node.instanceID w.node.learner.state.learnedValue ok w₁.smCalls
    simp only at hlog ⊢
    have hcalm {w' : Proc} (hw' : Due n w') (mgr : CheckpointMgr) :
        Calm n { newInstance w' with node.checkpointMgr := mgr } := (newInstance_calm hw').of_eq rfl rfl
    cases ok with
    | false =>
      -- the execution failed
      refine ⟨hlog.me, fun he => ?_⟩
      exact absurd List.mem_cons_self (he _ _ _ _)
    | true =>
      simp only [Bool.not_true, Bool.false_eq_true, if_false]
      split
      · apply hcalm
        exact hlog.of_eq rfl rfl rfl
      · apply hcalm
        exact hlog.of_eq rfl rfl rfl

theorem receiveMsgForLearner_calm (hself : SelfCalm n self) (h : Calm n w) (msg : PaxosMsg) :
    Calm n (receiveMsgForLearner P self msg w).1 := by
  unfold receiveMsgForLearner
  apply instanceLearned_calm
  split
  · exact (onAskforLearn_calm hself h msg).due
  · exact onSendLearnValue_due hself h msg
  · exact onProposerSendSuccess_due h msg
  · exact (onSendNowInstanceID_calm hself h msg).due
  · exact h.due.of_eq rfl rfl rfl
  · exact h.due.of_eq rfl rfl rfl
  · exact h.due

/-! ## Receiving a message -/

theorem receiveMsgForProposer_calm (hself : SelfCalm n self) (h : Calm n w) (msg : PaxosMsg) :
    Calm n (receiveMsgForProposer self msg w) := by
  unfold receiveMsgForProposer
  split
  · exact h
  · split
    · split
      · exact onExpiredReply_calm h msg
      · exact h
    · split
      · exact onPrepareReply_calm hself h msg
      · exact onAcceptReply_calm hself h msg
      · exact h

theorem acceptorOrRetry_calm (hself : SelfCalm n self) (h : Calm n w) (msg : PaxosMsg) (isRetry : Bool) :
    Calm n (acceptorOrRetry P self msg isRetry w).1 := by
  unfold acceptorOrRetry
  split
  · split
    · exact onPrepare_calm hself h msg
    · exact onAccept_calm hself h msg
    · exact h
  · split
    · split <;> exact h.of_eq rfl rfl
    · exact h

theorem receiveMsgForAcceptor_calm (hself : SelfCalm n self) (h : Calm n w) (msg : PaxosMsg) (isRetry : Bool) :
    Calm n (receiveMsgForAcceptor P self msg isRetry w).1 := by
  unfold receiveMsgForAcceptor
  split
  · exact h
  · simp only []
    apply acceptorOrRetry_calm hself
    split
    · apply receiveMsgForLearner_calm hself
      exact h.log rfl (by simp)
    · exact h

theorem checksumLogic_calm (h : Calm n w) (msg : PaxosMsg) : Calm n (checksumLogic msg w).1 := by
  unfold checksumLogic
  split
  · exact h
  · split
    · exact h
    · split
      · exact h.of_eq rfl rfl
      · split
        · apply Calm.log
          · exact h.of_eq rfl rfl
          · rfl
          · simp
        · exact h

theorem onReceiveLearnersMsg_calm (hself : SelfCalm n self) (h : Calm n w) (msg : PaxosMsg) :
    Calm n (onReceiveLearnersMsg P self msg w).1 := by
  unfold onReceiveLearnersMsg
  simp only []
  split
  · exact receiveMsgForLearner_calm hself (checksumLogic_calm h msg) msg
  · exact checksumLogic_calm h msg

theorem addTmpNodeOnlyForLearn_calm (h : Calm n w) (m : NodeID) :
    Calm n { w with node.config := w.node.config.addTmpNodeOnlyForLearn m } := by
  obtain ⟨t, ht⟩ := addTmpNodeOnlyForLearn_eq w.node.config m
  refine h.of_eq ?_ rfl
  unfold Proc.me
  simp only [ht]

theorem onReceiveProposersMsg_calm (hself : SelfCalm n self) (h : Calm n w) (msg : PaxosMsg) (isRetry : Bool) :
    Calm n (onReceiveProposersMsg P self msg isRetry w).1 := by
  have hadd : Calm n (if w.node.config.getGid = 0 then
      { w with node.config := w.node.config.addTmpNodeOnlyForLearn msg.nodeID } else w) := by
    split
    · exact addTmpNodeOnlyForLearn_calm h _
    · exact h
  unfold onReceiveProposersMsg
  simp only []
  generalize (if w.node.config.getGid = 0 then
      { w with node.config := w.node.config.addTmpNodeOnlyForLearn msg.nodeID } else w : Proc) = w₁ at hadd ⊢
  split
  · exact addTmpNodeOnlyForLearn_calm hadd _
  · split
    · exact receiveMsgForAcceptor_calm hself (checksumLogic_calm hadd msg) msg isRetry
    · exact checksumLogic_calm hadd msg

theorem onReceivePaxosMsgBody_calm (hself : SelfCalm n self) (h : Calm n w) (msg : PaxosMsg) (isRetry : Bool) :
    Calm n (onReceivePaxosMsgBody P self msg isRetry w).1 := by
  unfold onReceivePaxosMsgBody
  split
  · split
    · exact h
    · exact receiveMsgForProposer_calm hself h msg
  · split
    · exact h
    · exact receiveMsgForProposer_calm hself h msg
  · split
    · exact h
    · exact receiveMsgForProposer_calm hself h msg
  · exact onReceiveProposersMsg_calm hself h msg isRetry
  · exact onReceiveProposersMsg_calm hself h msg isRetry
  · exact h
  · exact onReceiveLearnersMsg_calm hself h msg

/-- The acknowledgement of a value arrives: the value is executed. -/
theorem onReceivePaxosMsgBody_ack (h : Due n w) {msg : PaxosMsg} (ht : msg.msgType = .learnerSendLearnValueAck)
    (hzero : msg.lastChecksum = 0) (isRetry : Bool) : Calm n (onReceivePaxosMsgBody P self msg isRetry w).1 := by
  have heq : onReceivePaxosMsgBody P self msg isRetry w = instanceLearned P (onSendLearnValueAck msg w) := by
    simp [onReceivePaxosMsgBody, onReceiveLearnersMsg, receiveMsgForLearner, checksumLogic, ht, hzero]
  rw [heq]
  apply instanceLearned_calm
  exact h.of_eq rfl rfl rfl

theorem onReceivePaxosMsg_calm (depth : Nat) : SelfCalm n fun msg w => onReceivePaxosMsg P depth msg false w := by
  induction depth with
  | zero => exact ⟨fun h => h, fun _ _ h => h⟩
  | succ depth ih =>
    constructor
    · exact fun h => onReceivePaxosMsgBody_calm ih h _ _
    · exact fun ht hzero h => (onReceivePaxosMsgBody_ack h ht hzero _).due

theorem toSelf_calm : SelfCalm n (toSelf P) := onReceivePaxosMsg_calm selfDepth

theorem onReceive_calm (h : Calm n w) (gid : Nat) (msg : PaxosMsg) : Calm n (onReceive P gid msg w) := by
  unfold onReceive
  split
  · exact h
  · split
    · exact h
    · exact onReceivePaxosMsgBody_calm toSelf_calm h msg false

/-! ## The other events -/

theorem dealWithRetry_calm (h : Calm n w) : Calm n (dealWithRetry P w) := by
  unfold dealWithRetry
  split
  · exact h.of_eq rfl rfl
  · rename_i msg _ _
    have hbody (isRetry : Bool) := onReceivePaxosMsgBody_calm (P := P) (toSelf_calm (P := P)) h msg isRetry
    simp only []
    split
    · exact h.of_eq rfl rfl
    · split
      · split
        · exact (hbody true).of_eq rfl rfl
        · exact h.of_eq rfl rfl
      · split
        · exact (hbody false).of_eq rfl rfl
        · exact h.of_eq rfl rfl

theorem onNewValueCommitTimeout_calm (h : Calm n w) : Calm n (onNewValueCommitTimeout w) := by
  unfold onNewValueCommitTimeout
  exact (exitAccept_calm (exitPrepare_calm h)).of_eq rfl rfl

theorem askforLearnNoop_calm (h : Calm n w) : Calm n (askforLearnNoop self w) := by
  unfold askforLearnNoop askforLearn Proc.broadcastMessage
  exact h.of_eq rfl rfl

theorem onTimeout_calm (h : Calm n w) (timerID : Nat) : Calm n (onTimeout P timerID w) := by
  unfold onTimeout
  split
  · exact h
  · simp only []
    split
    · apply onProposerTimeout_calm toSelf_calm
      exact h.of_eq rfl rfl
    · apply onProposerTimeout_calm toSelf_calm
      exact h.of_eq rfl rfl
    · apply askforLearnNoop_calm
      exact h.of_eq rfl rfl
    · apply onNewValueCommitTimeout_calm
      exact h.of_eq rfl rfl

theorem checkNewValue_calm (h : Calm n w) : Calm n (checkNewValue P w) := by
  have hself : SelfCalm n (toSelf P) := toSelf_calm
  have hpropose {w : Proc} (h : Calm n w) (value : Bytes) : Calm n (if P.openChangeValueBeforePropose = true then
      newValue (toSelf P) (beforePropose P value w).2
        { (beforePropose P value w).1 with node.commitCtx.value := some (beforePropose P value w).2 }
      else newValue (toSelf P) value w) := by
    split
    · apply newValue_calm hself
      obtain ⟨env, henv⟩ := beforePropose_eq (P := P) value w
      rw [henv]
      exact h.of_eq rfl rfl
    · exact newValue_calm hself h value
  unfold checkNewValue
  split
  · exact h
  · split
    · exact h
    · split
      · exact h
      · split
        · exact h.of_eq rfl rfl
        · split
          · exact h.of_eq rfl rfl
          · split
            · exact h.of_eq rfl rfl
            · have hstart : Calm n { w with node.commitCtx := w.node.commitCtx.startCommit w.node.instanceID } :=
                h.of_eq rfl rfl
              have htimer : Calm n { w with
                  node.commitCtx := w.node.commitCtx.startCommit w.node.instanceID
                  node.ioLoop := w.node.ioLoop.addTimer .instanceCommitTimeout
                  node.commitTimerID := w.node.ioLoop.nowTimerID } := h.of_eq rfl rfl
              simp only []
              split
              · split
                · exact newValue_calm hself (htimer.log rfl (by simp)) _
                · exact hpropose htimer _
              · split
                · exact newValue_calm hself (hstart.log rfl (by simp)) _
                · exact hpropose hstart _

theorem clearAllLog_calm (h : Calm n w) : Calm n (clearAllLog w) := by
  have hlog : Calm n (w.log (.clearAllLog w.me)) := h.log rfl (by simp)
  unfold clearAllLog
  split
  · exact hlog.of_eq rfl rfl
  · exact h.of_eq rfl rfl
  · exact hlog.of_eq rfl rfl

theorem onSendCheckpointFlag_calm (h : Calm n w) (msg : CheckpointMsg) : Calm n (onSendCheckpointFlag msg w).1 := by
  have hnew : Calm n (newReceiver msg.nodeID msg.uuid w).1 := by
    unfold newReceiver
    split
    · exact h
    · exact (clearAllLog_calm h).of_eq rfl rfl
  have hloc {w' : Proc} (heq : w'.loc none = w.loc none) : Calm n w' :=
    h.of_eq (congrArg (fun l => l.core.me) heq) (congrArg Loc.hist heq)
  unfold onSendCheckpointFlag
  split
  · unfold onSendCheckpointBegin setMinChosenInstanceID
    simp only []
    split
    · exact hnew
    · split <;> exact hnew.of_eq rfl rfl
  · exact hloc receiveCheckpoint_loc
  · exact hloc onSendCheckpointEnd_loc

theorem onSendCheckpoint_calm (h : Calm n w) (msg : CheckpointMsg) : Calm n (onSendCheckpoint msg w) := by
  have hflag := onSendCheckpointFlag_calm h msg
  unfold onSendCheckpoint
  split
  · exact h
  · simp only []
    split
    · exact hflag
    · split <;> exact hflag.of_eq rfl rfl

theorem sendOne_calm (h : Calm n w) : Calm n (LearnerSender.sendOne (toSelf P) w) := by
  unfold LearnerSender.sendOne
  simp only []
  split
  · split
    · apply sendMessage_calm toSelf_calm
      exact h.of_eq rfl rfl
    · exact h
  · exact h

theorem calls_calm (h : Calm n w) (callID : Nat) (v : Bytes) (smid : Nat) (tooMany : Bool) :
    Calm n (newValueGetID callID v smid w) ∧ Calm n (lock callID w) ∧ Calm n (lockFail callID tooMany w) ∧
      Calm n (getResult callID w) := by
  unfold newValueGetID lock lockFail getResult
  simp only []
  refine ⟨?_, ?_, ?_, ?_⟩
  · split
    · exact h
    · exact h.of_eq rfl rfl
  all_goals
    split
    · exact h
    · split
      · exact h
      · exact h.of_eq rfl rfl

theorem starts_calm (h : Calm n w) {cp : Nat} (hs : Starts n cp w w') : Calm n w' := by
  obtain ⟨obs, hh, hobs⟩ := hs.hist
  refine h.of_obs hs.me_eq obs hh fun o ho => ?_
  obtain ⟨i, S, rfl⟩ := hobs o ho
  exact ⟨rfl, by simp⟩

theorem instanceInit_calm (h : Calm n w) (cp : Nat) : Calm n (instanceInit P cp w).1 := by
  obtain ⟨mgr, minChosen, env, hmgr⟩ := checkpointMgr_init_eq cp
    { w with node.instanceID := (Acceptor.init w.node.storage).1, node.acceptor := (Acceptor.init w.node.storage).2 }
  unfold instanceInit
  simp only []
  generalize CheckpointMgr.init cp _ = r at hmgr ⊢
  obtain ⟨w₁, ret₁⟩ := r
  simp only at hmgr ⊢
  have h₁ : Calm n w₁ := by
    rw [hmgr]
    exact h.of_eq rfl rfl
  have hnow : Calm n (initNowInstanceID P cp w₁).1 := starts_calm h₁ (initNowInstanceID_starts (P := P) h₁.me cp)
  split
  · exact h₁
  · split
    · exact hnow
    · obtain ⟨checksum, hchecksum, -⟩ := initLastCheckSum_eq { (initNowInstanceID P cp w₁).1 with
        node.proposer.state.proposalID := (initNowInstanceID P cp w₁).1.node.acceptor.promiseBallot.proposalID + 1
        node.checkpointMgr.maxChosenInstanceID := (initNowInstanceID P cp w₁).1.node.instanceID }
      rw [hchecksum]
      exact hnow.of_eq rfl rfl

theorem restart_calm (h : Calm n w) (cp : Nat) : Calm n (restart P cp w) := by
  have hnew : Calm n (instanceInit P cp { w.log (.restart w.me w.node.instanceID cp) with
      node := Node.new w.node.config w.node.storage, played := [] }).1 := by
    apply instanceInit_calm
    exact (h.log (o := .restart w.me w.node.instanceID cp) rfl (by simp)).of_eq rfl rfl
  unfold restart
  simp only []
  generalize instanceInit P cp _ = r at hnew ⊢
  obtain ⟨new, ret⟩ := r
  have hme : w.me = new.me := h.me.trans hnew.me.symm
  simp only at hnew ⊢
  split
  · exact (hnew.log (o := .playLog w.me new.played false) hme (by simp)).of_eq hme rfl
  · exact hnew.log hme (by simp)

theorem handle_calm (h : Calm n w) (kind : EventKind) : Calm n (handle P kind w) := by
  have hleave : Calm n (leaveRetry w) := h.of_eq rfl rfl
  unfold handle
  split
  · exact restart_calm h _
  · split
    · exact h
    · cases kind with
      | newValueGetID callID v smid => exact (calls_calm h callID v smid false).1
      | lock callID => exact (calls_calm h callID [] 0 false).2.1
      | lockFail callID tooMany => exact (calls_calm h callID [] 0 tooMany).2.2.1
      | getResult callID => exact (calls_calm h callID [] 0 false).2.2.2
      | checkNewValue => exact checkNewValue_calm hleave
      | receive gid msg => exact onReceive_calm hleave gid msg
      | receiveCheckpoint gid msg =>
        simp only []
        split
        · exact h
        · exact onSendCheckpoint_calm hleave msg
      | dealWithRetry => exact dealWithRetry_calm h
      | timeout timerID => exact onTimeout_calm hleave timerID
      | sendLearnedValue =>
        simp only [LearnerSender.sendLearnedValue]
        split
        · exact h.of_eq rfl rfl
        · exact h
      | sendOne => exact sendOne_calm h
      | sendDone => exact h.of_eq rfl rfl
      | restart => exact h

/-! ## Runs -/

theorem acts_obs {can : PaxosMsg → Prop} {l l' : Loc} (h : Relation.ReflTransGen (Act P can n) l l') :
    ∃ obs, l'.hist = obs ++ l.hist ∧ ∀ o ∈ obs, o.node = n := by
  induction h with
  | refl => exact ⟨[], rfl, by simp⟩
  | tail _ hact ih =>
    obtain ⟨obs, hh, hobs⟩ := ih
    obtain ⟨obs', hh', hobs'⟩ := hact.obs
    refine ⟨obs' ++ obs, by rw [hh', hh, List.append_assoc], fun o ho => ?_⟩
    exact (List.mem_append.mp ho).elim (hobs' o) (hobs o)

/-- **Nothing is pending between events**, while all executions succeed. -/
theorem Reachable.calm {s : Sys} (hs : Reachable P D G s) (n : NodeID) : Calm n (s.proc n {}) := by
  induction hs generalizing n with
  | init =>
    have hh : (Sys.init P G).hist = [] := rfl
    refine ⟨(Reachable.init (P := P) (D := D) (G := G)).stepping.ready n |>.me, fun _ => ?_⟩
    refine ⟨fun hp => ?_, rfl⟩
    exact absurd hp Past.nil_iff
  | @step s e hs hcan ih =>
    have hready := hs.stepping.ready e.node
    have hme : ((s.step P e).proc n {}).me = n := ((hs.step e hcan).stepping.ready n).me
    have hproc : Calm e.node (s.proc e.node e.env) := (ih e.node).of_eq rfl rfl
    have hown : Calm e.node (handle P e.kind (s.proc e.node e.env)) := handle_calm hproc e.kind
    by_cases hn : n = e.node
    · subst hn
      refine hown.of_eq ?_ rfl
      exact hme.trans hown.me.symm
    · have hacts : Relation.ReflTransGen (Act P (D.Can s.net e.node) e.node) ((s.proc e.node e.env).loc none)
          ((handle P e.kind (s.proc e.node e.env)).loc none) :=
        handle_acts (w := s.proc e.node e.env) hready.me (fun gid msg hk => ⟨gid, hcan gid msg hk⟩) hready.retryQueue hready.commit
      obtain ⟨obs, hh, hobs⟩ := acts_obs hacts
      have hhist : (s.step P e).hist = obs ++ s.hist := hh
      refine ⟨hme, fun he => ⟨(hown.keeps he).1, ?_⟩⟩
      have hold : ExecutesSucceed s.hist := he.suffix ⟨obs, hhist.symm⟩
      change pendingValue n (s.step P e).hist = none
      rw [hhist, (aside_append (fun o ho => Obs.aside_of_ne ((hobs o ho).trans_ne (Ne.symm hn))) _).1]
      exact ((ih n).keeps hold).2

/-- **The acceptor never writes over a learned value** before it is executed, while all executions succeed. -/
theorem keepsLearned_of_executes {s : Sys} (hs : Reachable P D G s) (he : ExecutesSucceed s.hist) : KeepsLearned s.hist :=
  ((hs.calm 0).keeps he).1

/-! ## The group -/

variable {values : Nat → Bytes} {s : Sys}

/-- All checksums of the group are the right ones for `values`, and its logs hold these values. -/
structure Sys.Fitting (P : Params) (values : Nat → Bytes) (s : Sys) : Prop where
  /-- The assertion of `ChecksumLogic` never failed. -/
  agrees : ∀ n i, .checksumLogicFail n i ∉ s.hist
  last : ∀ n, ChecksumOk (checksumAt P values (s.node n).instanceID) (s.node n).lastChecksum
  net : ∀ x ∈ s.net, ∀ d ∈ x.dst, x.msg.Fits P values
  log : ∀ n i r, i < (s.node n).instanceID → (s.node n).storage.get i = some r → r.Holds P values i

theorem Reachable.fitting (hs : Reachable P inNetwork G s) (hc : Consistent values s.hist) : s.Fitting P values := by
  have hchained := hs.stepping.chained hc
  constructor
  · exact fun n => (hchained n).2.agrees
  · exact fun n => (hchained n).2.last
  · exact (hchained 0).1.net
  · exact fun n i r hi hr => (hchained n).2.log hi hr

/-- **The checksums never raise a false alarm**: when no write of the acceptor and no execution fails, and all nodes learn
the same values, none of which is empty, then every checksum of a node, of a message and of a record of a past instance is
`0` or the right one, through restarts and cleared logs, and these records hold the values that were learned. -/
theorem checksums_fit (hs : Reachable P inNetwork G s) (hputs : PutsSucceed s.hist) (hexecutes : ExecutesSucceed s.hist)
    (hlearned : ∀ {n i v how}, .learn n i v how ∈ s.hist → v = values i ∧ v ≠ []) (hcleared : LoadsCleared s.hist) :
    s.Fitting P values := by
  apply hs.fitting
  constructor
  · exact hputs
  · exact hlearned
  · exact keepsLearned_of_executes hs hexecutes
  · exact hcleared

/-- The check of the conditions for one observation. -/
def Obs.isConsistent (values : Nat → Bytes) (o : Obs) (older : List Obs) : Bool :=
  match o with
  | .persist _ _ _ false => false
  | .execute _ _ _ false _ => false
  | .learn _ i v _ => decide (v = values i) && !v.isEmpty
  | .restart n i cp => !decide (i < cp) || !hasWritten n older
  | _ => true

theorem conditions_of_pastAll (values : Nat → Bytes) {h : List Obs} (hall : pastAll (Obs.isConsistent values) h = true) :
    PutsSucceed h ∧ ExecutesSucceed h ∧ (∀ {n i v how}, .learn n i v how ∈ h → v = values i ∧ v ≠ []) ∧ LoadsCleared h := by
  have hcheck := pastAll_iff.mp hall
  have hmem {o : Obs} (ho : o ∈ h) : ∃ older, o.isConsistent values older = true := by
    obtain ⟨older, hp⟩ := Past.exists_of_mem ho
    exact ⟨older, hcheck o older hp⟩
  refine ⟨fun n i v hm => ?_, fun n i v calls hm => ?_, fun hm => ?_, fun hp hlt => ?_⟩
  · obtain ⟨older, ho⟩ := hmem hm
    cases ho
  · obtain ⟨older, ho⟩ := hmem hm
    cases ho
  · obtain ⟨older, ho⟩ := hmem hm
    simpa [Obs.isConsistent] using ho
  · have ho := hcheck _ _ hp
    simpa [Obs.isConsistent, hlt] using ho

/-- After `learnRun` node 2 is started again, with a checkpoint of instance 0. -/
def learnRestartRun : List Event := learnRun ++ [⟨2, .restart 1, {}⟩]

theorem checksums_fit_learnRestartRun :
    (Sys.run .plain learnRestartRun (Sys.init .plain (.ofList [1, 2, 3]))).Fitting .plain
      (fun _ => packPaxosValue [7] 0) := by
  have hall : pastAll (Obs.isConsistent fun _ => packPaxosValue [7] 0)
      (Sys.run .plain learnRestartRun (Sys.init .plain (.ofList [1, 2, 3]))).hist = true := by decide +kernel
  obtain ⟨hputs, hexecutes, hlearned, hcleared⟩ := conditions_of_pastAll _ hall
  exact checksums_fit (.of_run .plain .init (by decide +kernel)) hputs hexecutes hlearned hcleared

/-- A chosen value is not empty. -/
theorem Stepping.chosen_ne_nil {s : Abs} (hs : Stepping P inNetwork G s) (hsteady : Steady G s.hist) {i : Nat} {v : Bytes}
    (hchosen : Chosen G s.hist i v) : v ≠ [] := by
  obtain ⟨hl, -⟩ := hs.sound hsteady 0
  obtain ⟨b, Q, ⟨-, hcard⟩, hacc⟩ := hchosen
  have hpos : 0 < Q.card := by omega
  obtain ⟨m, hm⟩ := Finset.card_pos.mp hpos
  have hvote : .setAccepted m i b v ∈ s.hist := hl.obs _ (hacc m hm)
  obtain ⟨-, S, haccept⟩ := hl.obs _ hvote
  exact (hl.obs _ haccept).2.1

/-- **The checksums are those of the chosen values**: in a regular run without a failed execution, there is one value for
each instance, the only one that a majority can have accepted there, and all checksums and logs fit these. -/
theorem checksums_fit_chosen (hs : Reachable P inNetwork G s) (hr : Regular G s.hist) (hexecutes : ExecutesSucceed s.hist) :
    ∃ values : Nat → Bytes, (∀ i v, Chosen G s.hist i v → v = values i) ∧ s.Fitting P values := by
  classical
  let values : Nat → Bytes := fun i => if h : ∃ v, Chosen G s.hist i v then h.choose else []
  have hvalues (i : Nat) (v : Bytes) (hchosen : Chosen G s.hist i v) : v = values i := by
    have hex : ∃ v, Chosen G s.hist i v := ⟨v, hchosen⟩
    have heq : values i = hex.choose := dif_pos hex
    rw [heq]
    exact hs.stepping.chosen_unique hr.steady hr.ownPromiseFirst hchosen hex.choose_spec
  refine ⟨values, hvalues, hs.fitting ?_⟩
  constructor
  · exact hr.puts
  · intro n i v how hm
    have hchosen := (hs.stepping.learns hr n).2.chosen_of_mem hm
    exact ⟨hvalues i v hchosen, hs.stepping.chosen_ne_nil hr.steady hchosen⟩
  · exact keepsLearned_of_executes hs hexecutes
  · intro n i cp older hp
    exact absurd hp.mem (hr.steady.noRestart n i cp)

theorem checksums_fit_chosen_learnRun : ∃ values : Nat → Bytes,
    (∀ i v, Chosen (.ofList [1, 2, 3]) (Sys.run .plain learnRun (Sys.init .plain (.ofList [1, 2, 3]))).hist i v →
      v = values i) ∧ (Sys.run .plain learnRun (Sys.init .plain (.ofList [1, 2, 3]))).Fitting .plain values := by
  apply checksums_fit_chosen
  · exact .of_run .plain .init (by decide +kernel)
  · exact Regular.of_pastAll (by decide +kernel)
  · exact ExecutesSucceed.of_all (by decide +kernel)

end PhxPaxos
