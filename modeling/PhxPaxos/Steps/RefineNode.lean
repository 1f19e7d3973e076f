import PhxPaxos.Steps.RefineEvent

/-!
# All events as chains of steps

Messages from the network and from the retry queue, timeouts, new values, calls of the committer, the checkpoint
receiver and the start of a process; `handle_chain` puts them together.
-/

namespace PhxPaxos

variable {P : Params} {can : PaxosMsg → Prop} {n : NodeID}

section Node

variable {w : Proc} {msg : PaxosMsg}

/-! ## Messages and timers -/

theorem MsgType.rank_le (t : MsgType) : t.rank ≤ 5 := by
  cases t <;> decide

/-- `Instance::OnReceive` -/
theorem onReceive_chain (hw : w.me = n) (hcan : can msg) {gid : Nat} :
    Chain P can n (w.loc none) ((onReceive P gid msg w).loc none) := by
  unfold onReceive
  split
  · exact .refl
  · split
    · exact .refl
    · exact body_chain toSelf_ok hw (Or.inl ⟨rfl, hcan⟩) (msg.msgType.rank_le.trans (by omega))

/-- The first message of the retry queue is taken out. -/
theorem pop_chain : Chain P can n (w.loc none)
    ({ w with node.ioLoop.retryQueue := w.node.ioLoop.retryQueue.tail }.loc none) :=
  .single (Act.retry (l := w.loc none) fun _ hm => Or.inl (List.mem_of_mem_tail hm)) rfl

/-- One turn of `IOLoop::DealWithRetry`. -/
theorem dealWithRetry_chain (hw : w.me = n) (hq : ∀ m ∈ w.node.ioLoop.retryQueue, can m) :
    Chain P can n (w.loc none) ((dealWithRetry P w).loc none) := by
  unfold dealWithRetry
  split
  · exact .refl
  · rename_i m rest hm
    have hcan : can m := hq m (hm ▸ List.mem_cons_self)
    have hbody (isRetry : Bool) : Chain P can n (w.loc none)
        ((onReceivePaxosMsgBody P (toSelf P) m isRetry w).1.loc none) :=
      body_chain toSelf_ok hw (Or.inl ⟨rfl, hcan⟩) (m.msgType.rank_le.trans (by omega))
    simp only []
    split
    · exact .refl
    · split
      · split
        · exact (hbody true).trans pop_chain
        · exact .refl
      · split
        · exact (hbody false).trans pop_chain
        · exact pop_chain

/-- `Instance::OnNewValueCommitTimeout` -/
theorem onNewValueCommitTimeout_chain : Chain P can n (w.loc none) ((onNewValueCommitTimeout w).loc none) := by
  obtain ⟨timers, k, k', ha, he⟩ := exit_eq w
  unfold onNewValueCommitTimeout
  rw [he]
  exact .single (Act.commitTimeout (l := w.loc none) rfl ha) rfl

theorem armed_of_lookup {timers : List (Nat × TimerType)} {id : Nat} {type : TimerType}
    (h : timers.lookup id = some type) (ht : type = .proposerPrepareTimeout ∨ type = .proposerAcceptTimeout) :
    armedIn timers = true := by
  induction timers with
  | nil => simp at h
  | cons t ts ih =>
    obtain ⟨k, u⟩ := t
    simp only [List.lookup_cons] at h
    simp only [armedIn, List.any_cons, Bool.or_eq_true]
    split at h
    · cases h
      left
      rcases ht with rfl | rfl
      · exact Or.inl rfl
      · exact Or.inr rfl
    · exact Or.inr (ih h)

/-- `Instance::OnTimeout` -/
theorem onTimeout_chain (hw : w.me = n) {id : Nat} :
    Chain P can n (w.loc none) ((onTimeout P id w).loc none) := by
  unfold onTimeout
  split
  · exact .refl
  · rename_i type htype
    have hremove : Chain P can n (w.loc none)
        ({ w with node.ioLoop := w.node.ioLoop.removeTimer id }.loc none) :=
      timers_chain w.node.ioLoop.nowTimerID armed_removeTimer
    have hproposer (ht : type = .proposerPrepareTimeout ∨ type = .proposerAcceptTimeout) :
        Chain P can n (w.loc none)
          ((onProposerTimeout (toSelf P) { w with node.ioLoop := w.node.ioLoop.removeTimer id }).loc none) := by
      have ha : w.node.ioLoop.armed = true := armed_of_lookup htype ht
      have hl : w.loc none =
          { { w with node.ioLoop := w.node.ioLoop.removeTimer id }.loc none with core.armed := true } :=
        Loc.ext (Core.ext_flags rfl ha rfl) rfl rfl
      rw [hl]
      exact onProposerTimeout_chain toSelf_ok le_rfl hw
    simp only []
    cases type with
    | proposerPrepareTimeout => exact hproposer (Or.inl rfl)
    | proposerAcceptTimeout => exact hproposer (Or.inr rfl)
    | learnerAskforlearnNoop => exact hremove.trans (askforLearnNoop_chain hw)
    | instanceCommitTimeout => exact hremove.trans onNewValueCommitTimeout_chain

/-! ## New values -/

/-- `SMFac::BeforePropose` changes no state of the node, and no value to the empty one. -/
theorem beforePropose_eq (v : Bytes) (w : Proc) : ∃ env, (beforePropose P v w).1 = { w with env := env } := by
  have hcall (smid : Nat) (v : Bytes) (w : Proc) : ∃ env, (beforeProposeCall P smid v w).1 = { w with env := env } := by
    unfold beforeProposeCall
    split
    · exact ⟨_, rfl⟩
    · split <;> exact ⟨_, rfl⟩
  have hbatch (vs : List PaxosValue) : ∀ (called : List Nat) (w : Proc),
      ∃ env, (beforeBatchPropose P called vs w).1 = { w with env := env } := by
    induction vs with
    | nil => exact fun _ _ => ⟨_, rfl⟩
    | cons v vs ih =>
      intro called w
      unfold beforeBatchPropose
      split
      · exact ih called w
      · obtain ⟨env, he⟩ := hcall v.smid v.value w
        obtain ⟨env', he'⟩ := ih (v.smid :: called) (beforeProposeCall P v.smid v.value w).1
        rw [he] at he'
        exact ⟨env', by simp only [he]; exact he'⟩
  unfold beforePropose
  split
  · exact ⟨_, rfl⟩
  · split
    · split
      · exact ⟨_, rfl⟩
      · exact hbatch _ _ _
    · exact hcall _ _ _

theorem take_four_append_ne_nil {v body : Bytes} (h : v ≠ []) : v.take 4 ++ body ≠ [] := by
  cases v with
  | nil => exact absurd rfl h
  | cons a as => simp

theorem beforePropose_ne_nil {v : Bytes} (h : v ≠ []) : (beforePropose P v w).2 ≠ [] := by
  unfold beforePropose
  split
  · exact h
  · split
    · split
      · exact h
      · simp only []
        split
        · exact take_four_append_ne_nil h
        · exact h
    · simp only []
      split
      · exact take_four_append_ne_nil h
      · exact h

/-- The commit timer is no timer of the proposer. -/
theorem commitTimer_eq (w : Proc) : ∃ timers now k, (armedIn timers = true → w.node.ioLoop.armed = true) ∧
    (if w.node.commitCtx.timeoutMs ≠ -1 then
        { w with node.ioLoop := w.node.ioLoop.addTimer .instanceCommitTimeout,
                 node.commitTimerID := w.node.ioLoop.nowTimerID }
      else w) =
      { w with node.ioLoop.timers := timers, node.ioLoop.nowTimerID := now, node.commitTimerID := k } := by
  split
  · refine ⟨_, _, _, ?_, rfl⟩
    intro h
    rw [← armed_addTimer_other w.node.ioLoop .instanceCommitTimeout (by decide) (by decide)]
    exact h
  · exact ⟨w.node.ioLoop.timers, _, _, id, rfl⟩

/-- A commit starts, possibly with a changed value, and its timer is set. -/
theorem startCommit_chain (hnew : w.node.commitCtx.isNewCommit = true) {v v' : Bytes}
    (hv : w.node.commitCtx.value = some v)
    (hv' : v' = v ∨ P.openChangeValueBeforePropose = true ∧ (v ≠ [] → v' ≠ [])) {timers : List (Nat × TimerType)}
    {now k : Nat} (ha : armedIn timers = true → w.node.ioLoop.armed = true) (env : Env) :
    Chain P can n (w.loc none)
      ({ w with
          node.commitCtx := { w.node.commitCtx.startCommit w.node.instanceID with value := some v' }
          node.ioLoop.timers := timers
          node.ioLoop.nowTimerID := now
          node.commitTimerID := k
          env := env }.loc none) :=
  .head (Act.startCommit (l := w.loc none) hnew hv hv') rfl
    (timers_chain now
      (w := { w with
        node.commitCtx := { w.node.commitCtx.startCommit w.node.instanceID with value := some v' } }) ha)

/-- `Instance::CheckNewValue` -/
theorem checkNewValue_chain (hw : w.me = n) (hne : ∀ v, w.node.commitCtx.value = some v → v ≠ []) :
    Chain P can n (w.loc none) ((checkNewValue P w).loc none) := by
  subst hw
  unfold checkNewValue
  split
  · exact .refl
  · rename_i v hv
    split
    · exact .refl
    · rename_i hnew
      have hnew : w.node.commitCtx.isNewCommit = true := by simpa using hnew
      split
      · exact .refl
      · split
        · exact .single (Act.commitRefused (l := w.loc none) hnew (Or.inl rfl)) rfl
        · rename_i hf
          have hf : w.node.config.isIMFollower = false := by simpa using hf
          split
          · exact .single (Act.commitRefused (l := w.loc none) hnew (Or.inr (Or.inl rfl))) rfl
          · rename_i hm
            have hm : w.node.config.myNodeID ∈ w.node.config.systemVSM.setNodeID := by
              simpa [Config.checkConfig, SystemVSM.isIMInMembership] using hm
            split
            · exact .single (Act.commitRefused (l := w.loc none) hnew (Or.inr (Or.inr rfl))) rfl
            · obtain ⟨timers, now, k, ha, he⟩ := commitTimer_eq
                { w with node.commitCtx := w.node.commitCtx.startCommit w.node.instanceID }
              have hsame : w.node.commitCtx.startCommit w.node.instanceID =
                  { w.node.commitCtx.startCommit w.node.instanceID with value := some v } := by
                rw [← hv]
                rfl
              simp only [] at he ⊢
              rw [he]
              have hstart (v' : Bytes) (hv' : v' = v ∨ P.openChangeValueBeforePropose = true ∧ (v ≠ [] → v' ≠ []))
                  (env : Env) := @startCommit_chain P can w.me w hnew v v' hv hv' timers now k ha env
              split
              · -- the system variables have to be set up
                have h₁ := hstart v (Or.inl rfl) w.env
                rw [← hsame] at h₁
                refine h₁.trans (.head (Act.initSystemVariables (v := initSystemVariablesValue P _) ?_) rfl
                  (newValue_chain toSelf_ok le_rfl (by rfl) (by exact hf) (by exact hm) ?_
                    (Or.inr List.mem_cons_self) (by rfl)))
                · exact List.cons_ne_nil _ _
                · exact List.cons_ne_nil _ _
              · split
                · rename_i hopen
                  obtain ⟨env, henv⟩ := beforePropose_eq (P := P) v { w with
                    node.commitCtx := w.node.commitCtx.startCommit w.node.instanceID
                    node.ioLoop.timers := timers
                    node.ioLoop.nowTimerID := now
                    node.commitTimerID := k }
                  have hne' := beforePropose_ne_nil (P := P) (w := { w with
                    node.commitCtx := w.node.commitCtx.startCommit w.node.instanceID
                    node.ioLoop.timers := timers
                    node.ioLoop.nowTimerID := now
                    node.commitTimerID := k }) (hne v hv)
                  simp only [henv]
                  exact (hstart _ (Or.inr ⟨hopen, fun _ => hne'⟩) env).trans
                    (newValue_chain toSelf_ok le_rfl (by rfl) (by exact hf) (by exact hm) hne' (Or.inl ⟨rfl, rfl⟩) (by rfl))
                · have h₁ := hstart v (Or.inl rfl) w.env
                  rw [← hsame] at h₁
                  exact h₁.trans (newValue_chain toSelf_ok le_rfl (by rfl) (by exact hf) (by exact hm) (hne v hv)
                    (Or.inl ⟨by exact hv, by rfl⟩) (by rfl))

/-! ## The committer -/

theorem newValueGetID_chain {callID : Nat} {v : Bytes} {smid : Nat} :
    Chain P can n (w.loc none) ((newValueGetID callID v smid w).loc none) := by
  unfold newValueGetID
  split
  · exact .refl
  · rename_i h
    refine .single (Act.newCall (l := w.loc none) ?_ rfl) rfl
    intro d hd hid
    have := List.find?_eq_none.mp (Option.not_isSome_iff_eq_none.mp h) d hd
    exact this (by simpa using hid)

theorem findCall_mem {callID : Nat} {c : Call} (h : findCall callID w = some c) : c ∈ w.node.calls :=
  List.mem_of_find?_eq_some h

theorem lock_chain {callID : Nat} : Chain P can n (w.loc none) ((lock callID w).loc none) := by
  unfold lock
  split
  · exact .refl
  · rename_i c hc
    split
    · exact .refl
    · rename_i h
      simp only [ne_eq, not_or, not_not, Bool.not_eq_true, List.any_eq_false, beq_iff_eq] at h
      exact .single (Act.lock (l := w.loc none) (findCall_mem hc) h.1 h.2) rfl

theorem lockFail_chain {callID : Nat} {tooMany : Bool} :
    Chain P can n (w.loc none) ((lockFail callID tooMany w).loc none) := by
  unfold lockFail
  split
  · exact .refl
  · rename_i c hc
    split
    · exact .refl
    · rename_i h
      have hid (ret : PaxosTryCommitRet) : (c.afterTry ret 0).callID = c.callID := by
        unfold Call.afterTry
        split <;> rfl
      have := @Act.lockFail P can n (w.loc none) c (if tooMany then .tooManyThreadWaitingReject else .timeout)
        (findCall_mem hc) (not_not.mp h) (by cases tooMany <;> simp)
      refine .single ?_ rfl
      unfold setCall
      rw [hid]
      exact this

theorem getResult_chain {callID : Nat} : Chain P can n (w.loc none) ((getResult callID w).loc none) := by
  unfold getResult
  split
  · exact .refl
  · rename_i c hc
    split
    · exact .refl
    · rename_i h
      simp only [ne_eq, not_or, not_not, Bool.not_eq_true, Bool.not_eq_false'] at h
      have hid (ret : PaxosTryCommitRet) (i : Nat) : (c.afterTry ret i).callID = c.callID := by
        unfold Call.afterTry
        split <;> rfl
      refine .single ?_ rfl
      unfold setCall
      rw [hid]
      exact Act.getResult (l := w.loc none) (findCall_mem hc) h.1 h.2

/-! ## The sending thread -/

theorem sendLearnedValue_chain : Chain P can n (w.loc none) ((LearnerSender.sendLearnedValue w).loc none) := by
  unfold LearnerSender.sendLearnedValue
  simp only []
  split
  · exact .single (Act.sendStart (l := w.loc none)) rfl
  · exact .refl

theorem sendOne_chain (hw : w.me = n) : Chain P can n (w.loc none) ((LearnerSender.sendOne (toSelf P) w).loc none) := by
  subst hw
  unfold LearnerSender.sendOne
  simp only []
  split
  · rename_i h
    split
    · rename_i r hr
      refine .head (@Act.sendOne P can w.me (w.loc none) r w.node.learner.sender.sendToNodeID sendLearnValueNeedAck
        rfl hr h.2) rfl ?_
      exact send_chain toSelf_ok (by rfl) (by rfl) fun _ => .of_ne (Nat.zero_le _) h.2.le nofun nofun
    · exact .refl
  · exact .refl

theorem sendDone_chain : Chain P can n (w.loc none) ((LearnerSender.sendDone w).loc none) :=
  .single (Act.sendStart (l := w.loc none) (i := 0)) rfl

/-! ## Receiving a checkpoint -/

theorem setMinChosenInstanceID_chain {i : Nat} {s : Option PaxosMsg} :
    Chain P can n (w.loc s) ((setMinChosenInstanceID i w).1.loc s) := by
  unfold setMinChosenInstanceID
  split
  · exact .single (Act.setMinChosen (l := w.loc s) i) rfl
  · exact .refl

theorem clearAllLog_chain (hw : w.me = n) : Chain P can n (w.loc none) ((clearAllLog w).loc none) := by
  subst hw
  unfold clearAllLog
  split
  · exact .single (Act.clearAllLog (l := w.loc none) w.node.storage.systemVariables (Or.inr rfl)) rfl
  · exact .refl
  · rename_i k hk _
    match k with
    | 0 => exact absurd rfl hk
    | 1 => exact .single (Act.clearAllLog (l := w.loc none) none (Or.inl rfl)) rfl
    | k + 2 => exact .single (Act.clearAllLog (l := w.loc none) w.node.storage.systemVariables (Or.inr rfl)) rfl

theorem onSendCheckpointBegin_chain (hw : w.me = n) {m : CheckpointMsg} :
    Chain P can n (w.loc none) ((onSendCheckpointBegin m w).1.loc none) := by
  have hnew : Chain P can n (w.loc none) ((newReceiver m.nodeID m.uuid w).1.loc none) := by
    unfold newReceiver
    split
    · exact .refl
    · exact clearAllLog_chain hw
  unfold onSendCheckpointBegin
  simp only []
  split
  · exact hnew
  · exact hnew.trans setMinChosenInstanceID_chain

theorem receiveCheckpoint_loc {m : CheckpointMsg} {s : Option PaxosMsg} : (receiveCheckpoint m w).1.loc s = w.loc s := by
  unfold receiveCheckpoint
  simp only []
  repeat' split
  all_goals rfl

theorem onSendCheckpointEnd_loc {m : CheckpointMsg} {s : Option PaxosMsg} :
    (onSendCheckpointEnd m w).1.loc s = w.loc s := by
  unfold onSendCheckpointEnd
  repeat' split
  all_goals rfl

theorem onSendCheckpointFlag_chain (hw : w.me = n) {m : CheckpointMsg} :
    Chain P can n (w.loc none) ((onSendCheckpointFlag m w).1.loc none) := by
  unfold onSendCheckpointFlag
  cases m.flag with
  | begin => exact onSendCheckpointBegin_chain hw
  | ing => rw [receiveCheckpoint_loc]
  | «end» => rw [onSendCheckpointEnd_loc]

/-- `Learner::OnSendCheckpoint` -/
theorem onSendCheckpoint_chain (hw : w.me = n) {m : CheckpointMsg} :
    Chain P can n (w.loc none) ((onSendCheckpoint m w).loc none) := by
  have hc : Chain P can n (w.loc none) ((onSendCheckpointFlag m w).1.loc none) := onSendCheckpointFlag_chain hw
  unfold onSendCheckpoint
  split
  · exact .refl
  · simp only []
    split
    · exact hc
    · split
      · exact hc.trans (resetAskforLearnNoop_chain
          (w := { (onSendCheckpointFlag m w).1 with node.checkpointReceiver := {} }))
      · exact hc.trans resetAskforLearnNoop_chain

/-! ## Starting -/

theorem playLog_executes (k : Nat) : ∀ {i : Nat} {w : Proc}, w.me = n → Executes P can n w (playLog P k i w).1 := by
  induction k with
  | zero => exact fun _ => .refl rfl rfl rfl
  | succ k ih =>
    intro i w hw
    unfold playLog
    split
    · exact .refl rfl rfl rfl
    · rename_i r _
      have h₀ : Executes P can n w { w with smCalls := [] } := .refl rfl rfl rfl
      have h : Executes P can n w _ := h₀.trans (smExecute_executes (w := { w with smCalls := [] }) hw i r.acceptedValue)
      have h' (played : List Execution) :
          Executes P can n w { (smExecute P i r.acceptedValue { w with smCalls := [] }).1 with played := played } :=
        h.trans (.refl rfl rfl rfl)
      simp only []
      split
      · exact (h' _).trans (ih ((h' _).me_eq hw))
      · exact h' _

/-- `Instance::PlayLog` executes the instances from `i` on, each once. -/
theorem playLog_played (k : Nat) : ∀ (i : Nat) (w : Proc), ∃ played,
    (playLog P k i w).1.played = w.played ++ played ∧ PlayedFrom i played ∧
      ((playLog P k i w).2 = 0 → played.length = k ∧ ∀ e ∈ played, e.ok = true) := by
  induction k with
  | zero => exact fun i w => ⟨[], (List.append_nil _).symm, ⟨rfl, by simp, by simp⟩, by simp⟩
  | succ k ih =>
    intro i w
    unfold playLog
    split
    · exact ⟨[], (List.append_nil _).symm, ⟨rfl, by simp, by simp⟩, by simp⟩
    · rename_i r _
      obtain ⟨horderly, hp⟩ := smExecute_calls (P := P) i r.acceptedValue w
      generalize smExecute P i r.acceptedValue { w with smCalls := [] } = res at horderly hp
      obtain ⟨w', ok⟩ := res
      simp only at horderly hp ⊢
      cases ok with
      | false => exact ⟨[_], congrArg (· ++ _) hp, ⟨rfl, by simpa using horderly, by simp⟩, by simp⟩
      | true =>
        obtain ⟨played, he, ⟨hi, ho, hok⟩, hdone⟩ :=
          ih (i + 1) { w' with played := w'.played ++ [⟨i, true, w'.smCalls⟩] }
        refine ⟨⟨i, true, w'.smCalls⟩ :: played, ?_, ⟨?_, ?_, ?_⟩, ?_⟩
        · rw [if_pos rfl, he, hp, List.append_assoc, List.singleton_append]
        · rw [List.map_cons, hi, List.length_cons, List.range'_succ]
        · exact List.forall_mem_cons.mpr ⟨horderly, ho⟩
        · intro e he
          cases played with
          | nil => simp at he
          | cons f fs =>
            rw [List.dropLast_cons_of_ne_nil (List.cons_ne_nil _ _)] at he
            rcases List.mem_cons.mp he with rfl | he
            · rfl
            · exact hok e he
        · intro hret
          obtain ⟨hlen, hall⟩ := hdone hret
          exact ⟨by rw [List.length_cons, hlen], List.forall_mem_cons.mpr ⟨rfl, hall⟩⟩

theorem checkpointMgr_init_eq (cp : Nat) (w : Proc) : ∃ mgr minChosen env, (CheckpointMgr.init cp w).1 =
    { w with node.checkpointMgr := mgr, node.storage.minChosenInstanceID := minChosen, env := env } := by
  unfold CheckpointMgr.init
  simp only []
  split
  · unfold setMinChosenInstanceID
    split <;> exact ⟨_, _, _, rfl⟩
  · exact ⟨_, _, _, rfl⟩

theorem protectionLogic_eq (cp i : Nat) (w : Proc) : ∃ mgr minChosen env, (protectionLogic cp i w).1 =
    { w with node.checkpointMgr := mgr, node.storage.minChosenInstanceID := minChosen, env := env } := by
  unfold protectionLogic
  split
  · exact ⟨_, _, _, rfl⟩
  · split
    · split
      · simp only []
        unfold setMinChosenInstanceID
        split <;> exact ⟨_, _, _, rfl⟩
      · exact ⟨_, _, _, rfl⟩
    · exact ⟨_, _, _, rfl⟩

theorem initLastCheckSum_eq (w : Proc) : ∃ checksum, initLastCheckSum w = { w with node.lastChecksum := checksum } ∧
    (checksum = 0 ∨ 0 < w.node.instanceID ∧
      ∃ r, w.node.storage.records.lookup (w.node.instanceID - 1) = some r ∧ checksum = r.checksum) := by
  unfold initLastCheckSum
  split
  · exact ⟨0, rfl, Or.inl rfl⟩
  · rename_i hi
    split
    · exact ⟨0, rfl, Or.inl rfl⟩
    · split
      · exact ⟨0, rfl, Or.inl rfl⟩
      · rename_i r hr
        exact ⟨r.checksum, rfl, Or.inr ⟨Nat.pos_of_ne_zero hi, r, hr, rfl⟩⟩

/-- A process that starts replays the log from the checkpoint on, up to its instance. -/
theorem initNowInstanceID_played (cp : Nat) (w : Proc) (hw : w.played = []) :
    PlayedFrom cp (initNowInstanceID P cp w).1.played ∧ ((initNowInstanceID P cp w).2 = 0 →
      cp + (initNowInstanceID P cp w).1.played.length = (initNowInstanceID P cp w).1.node.instanceID ∧
        ∀ e ∈ (initNowInstanceID P cp w).1.played, e.ok = true) := by
  have hnone : PlayedFrom cp w.played := by
    rw [hw]
    exact ⟨rfl, by simp, by simp⟩
  unfold initNowInstanceID
  split
  · split
    · exact ⟨hnone, by simp⟩
    · rename_i hlt _
      obtain ⟨played, he, hplayed, hdone⟩ := playLog_played (P := P) (w.node.instanceID - cp) cp w
      obtain ⟨⟨_, _, hn, -⟩, -, -⟩ :=
        @playLog_executes P (fun _ => True) w.me (w.node.instanceID - cp) cp w rfl
      rw [he, hw, List.nil_append, hn]
      refine ⟨hplayed, fun hret => ?_⟩
      obtain ⟨hlen, hall⟩ := hdone hret
      exact ⟨by simp only [hlen]; omega, hall⟩
  · split
    · obtain ⟨mgr, minChosen, env, he⟩ := protectionLogic_eq cp w.node.instanceID w
      simp only []
      split
      · rename_i hret
        rw [he]
        exact ⟨hnone, fun h => absurd h hret⟩
      · simp only [he]
        exact ⟨hnone, fun _ => ⟨by simp [hw], by simp [hw]⟩⟩
    · exact ⟨hnone, fun _ => ⟨by simp only [hw, List.length_nil]; omega, by simp [hw]⟩⟩

/-- What a process that starts may change: its instance and its acceptor by a jump to the checkpoint, the rest by
executing the log. -/
structure Starts (n : NodeID) (cp : Nat) (w w' : Proc) : Prop where
  node : ∃ vsm stored mgr minChosen i a, w'.node = { w.node with
    config.systemVSM := vsm, storage.systemVariables := stored, storage.minChosenInstanceID := minChosen,
    checkpointMgr := mgr, instanceID := i, acceptor := a }
  net : w'.net = w.net
  place : w'.node.instanceID = w.node.instanceID ∧ w'.node.acceptor = w.node.acceptor ∨
    w.node.instanceID < w'.node.instanceID ∧ w'.node.instanceID = cp ∧ w'.node.acceptor = w.node.acceptor.init
  hist : ∃ obs, w'.hist = obs ++ w.hist ∧ ∀ o ∈ obs, o.IsUpdate n

theorem Executes.starts {w w' : Proc} {cp : Nat} (h : Executes P can n w w') : Starts n cp w w' := by
  obtain ⟨vsm, stored, hn, hnet⟩ := h.only
  exact ⟨⟨vsm, stored, _, _, _, _, hn⟩, hnet, Or.inl ⟨by rw [hn], by rw [hn]⟩, h.hist⟩

theorem Starts.refl {w : Proc} {cp : Nat} : Starts n cp w w :=
  ⟨⟨_, _, _, _, _, _, rfl⟩, rfl, Or.inl ⟨rfl, rfl⟩, [], rfl, by simp⟩

/-- Nothing changes but the checkpoint manager, perhaps with a jump. -/
theorem Starts.of_jump {w w' : Proc} {cp i : Nat} {a : AcceptorState} {mgr : CheckpointMgr} {minChosen : Option Nat}
    {env : Env}
    (h : w' = { w with node.checkpointMgr := mgr, node.storage.minChosenInstanceID := minChosen, env := env,
                       node.instanceID := i, node.acceptor := a })
    (hplace : i = w.node.instanceID ∧ a = w.node.acceptor ∨
      w.node.instanceID < i ∧ i = cp ∧ a = w.node.acceptor.init) : Starts n cp w w' := by
  subst h
  exact ⟨⟨_, _, mgr, minChosen, i, a, rfl⟩, rfl, hplace, ⟨[], rfl, by simp⟩⟩

/-- The middle part of `Instance::Init` -/
theorem initNowInstanceID_starts (hw : w.me = n) (cp : Nat) :
    Starts n cp w (initNowInstanceID P cp w).1 := by
  unfold initNowInstanceID
  split
  · split
    · exact .refl
    · exact (@playLog_executes P (fun _ => True) n _ _ _ hw).starts
  · split
    · rename_i hlt
      obtain ⟨mgr, minChosen, env, he⟩ := protectionLogic_eq cp w.node.instanceID w
      simp only []
      split
      · exact .of_jump he (Or.inl ⟨rfl, rfl⟩)
      · simp only [he]
        exact .of_jump rfl (Or.inr ⟨hlt, rfl, rfl⟩)
    · exact .refl

theorem Starts.me_eq {w w' : Proc} {cp : Nat} (h : Starts n cp w w') : w'.me = w.me := by
  obtain ⟨vsm, stored, mgr, minChosen, i, a, hn⟩ := h.node
  unfold Proc.me
  rw [hn]

theorem Acceptor.init_records (storage : LogStorage) :
    Acceptor.init storage = Acceptor.init { records := storage.records } := rfl

/-- The start fails: of the node only the storage is kept. -/
theorem restartFail_act (hw : w.me = n) {cp : Nat} {new : Proc}
    (hrecords : new.node.storage.records = w.node.storage.records)
    (hhist : ∃ obs, new.hist = obs ++ .restart w.me w.node.instanceID cp :: w.hist ∧ ∀ o ∈ obs, o.IsUpdate n)
    {start : Nat} (hplayed : PlayedFrom start new.played) :
    Act P can n (w.loc none)
      ({ w with
          node.storage := new.node.storage
          node.stopped := true
          hist := .playLog w.me new.played false :: new.hist }.loc none) := by
  subst hw
  obtain ⟨obs, hobs, hupdate⟩ := hhist
  have h := @Act.restartFail P can w.me (w.loc none) cp new.node.storage.systemVariables
    new.node.storage.minChosenInstanceID start new.played
    (.playLog w.me new.played false :: new.hist) rfl ⟨obs, hupdate, by rw [hobs]; rfl⟩ hplayed
  unfold Proc.loc Node.core
  simp only [hrecords]
  exact h

/-- The start succeeds after `w₂`: the proposer starts above the promise, the checksum is read back. -/
theorem restartDone_act (hw : w.me = n) {cp i : Nat} {a : AcceptorState} {w₁ w₂ : Proc}
    (ha : (i, a) = Acceptor.init w.node.storage)
    (h₁ : ∃ mgr minChosen env, w₁ = { w.log (.restart w.me w.node.instanceID cp) with
      node := { Node.new w.node.config { w.node.storage with minChosenInstanceID := minChosen } with
        instanceID := i, acceptor := a, checkpointMgr := mgr }
      env := env
      played := [] })
    (h₂ : Starts n cp w₁ w₂) (hplayed : PlayedFrom cp w₂.played)
    (hdone : cp + w₂.played.length = w₂.node.instanceID ∧ ∀ e ∈ w₂.played, e.ok = true) :
    let new := resetAskforLearnNoop (initLastCheckSum { w₂ with
      node.proposer.state.proposalID := w₂.node.acceptor.promiseBallot.proposalID + 1
      node.checkpointMgr.maxChosenInstanceID := w₂.node.instanceID })
    Act P can n (w.loc none) ((new.log (.playLog w.me new.played true)).loc none) := by
  subst hw
  intro new
  unfold new
  obtain ⟨mgr, minChosen, env, rfl⟩ := h₁
  obtain ⟨⟨vsm, stored, mgr', minChosen', i', a', hnode⟩, hnet, hplace, ⟨obs, hobs, hupdate⟩⟩ := h₂
  obtain ⟨node₂, env₂, net₂, hist₂, smCalls₂, played₂⟩ := w₂
  simp only at hnode hnet hplace hobs
  subst hnode hnet
  simp only at hplace ⊢
  generalize hw₃ : ({
    node := _
    env := env₂
    net := _
    hist := hist₂
    smCalls := smCalls₂
    played := played₂ } : Proc) = w₃
  obtain ⟨checksum, hchecksum, hread⟩ := initLastCheckSum_eq w₃
  obtain ⟨timers, now, k, harmed, he⟩ := resetAskforLearnNoop_eq (initLastCheckSum w₃)
  rw [he, hchecksum]
  rw [hchecksum] at harmed
  subst hw₃
  have hunarmed : armedIn timers = false :=
    Bool.eq_false_iff.mpr fun h => Bool.false_ne_true (harmed h)
  have hplace : (i', a') = Acceptor.init { records := w.node.storage.records } ∨
      (Acceptor.init { records := w.node.storage.records }).1 < i' ∧ i' = cp ∧
        a' = (Acceptor.init { records := w.node.storage.records }).2.init := by
    rw [← Acceptor.init_records, ← ha]
    rcases hplace with ⟨rfl, rfl⟩ | h
    · exact Or.inl rfl
    · exact Or.inr h
  have hact := @Act.restart P can w.me (w.loc none) cp i' a' checksum vsm stored minChosen' cp played₂
    (.playLog w.me played₂ true :: hist₂) rfl hplace hread ⟨obs, hupdate, by rw [hobs]; rfl⟩ hplayed hdone.1 hdone.2
  refine (congrArg (Act P can w.me (w.loc none)) ?_).mp hact
  exact Loc.ext (Core.ext_flags rfl hunarmed.symm rfl) rfl rfl

/-- The process is killed and started again. -/
theorem restart_act (hw : w.me = n) {cp : Nat} : Act P can n (w.loc none) ((restart P cp w).loc none) := by
  obtain ⟨i, a, hia⟩ : ∃ i a, (i, a) = Acceptor.init w.node.storage := ⟨_, _, rfl⟩
  obtain ⟨mgr, minChosen, env, hmgr⟩ := checkpointMgr_init_eq cp
    { w.log (.restart w.me w.node.instanceID cp) with
      node := { Node.new w.node.config w.node.storage with instanceID := i, acceptor := a }
      played := [] }
  unfold restart instanceInit
  rw [show Acceptor.init (Node.new w.node.config w.node.storage).storage = (i, a) from hia.symm]
  simp only []
  generalize CheckpointMgr.init cp _ = r at hmgr ⊢
  obtain ⟨w₁, ret₁⟩ := r
  simp only at hmgr ⊢
  have hstarts := @initNowInstanceID_starts P n w₁ (by rw [hmgr]; exact hw) cp
  obtain ⟨hplayed, hdone⟩ := initNowInstanceID_played (P := P) cp w₁ (by rw [hmgr])
  by_cases h₁ : ret₁ = 0
  · simp only [h₁, ne_eq, not_true_eq_false, if_false]
    generalize initNowInstanceID P cp w₁ = r at hstarts hplayed hdone ⊢
    obtain ⟨w₂, ret₂⟩ := r
    simp only at hstarts hplayed hdone ⊢
    by_cases h₂ : ret₂ = 0
    · simp only [h₂, not_true_eq_false, if_false]
      exact restartDone_act hw hia ⟨mgr, minChosen, env, hmgr⟩ hstarts hplayed (hdone h₂)
    · simp only [h₂, not_false_eq_true, if_true]
      obtain ⟨vsm, stored, mgr', minChosen', i', a', hnode⟩ := hstarts.node
      obtain ⟨obs, hobs, hupdate⟩ := hstarts.hist
      exact restartFail_act hw (by rw [hnode, hmgr]; rfl) ⟨obs, by rw [hobs, hmgr]; rfl, hupdate⟩ hplayed
  · simp only [h₁, ne_eq, not_false_eq_true, if_true]
    have hplayed : PlayedFrom cp w₁.played := by
      rw [hmgr]
      exact ⟨rfl, by simp, by simp⟩
    exact restartFail_act hw (by rw [hmgr]; rfl) ⟨[], by rw [hmgr]; rfl, by simp⟩ hplayed

/-! ## Every event -/

/-- **Every event at a node whose process runs is a chain of steps of that process.** -/
theorem handle_chain (hw : w.me = n) {kind : EventKind} (hrestart : ∀ cp, kind ≠ .restart cp)
    (hcan : ∀ gid msg, kind = .receive gid msg → can msg) (hq : ∀ m ∈ w.node.ioLoop.retryQueue, can m)
    (hne : ∀ v, w.node.commitCtx.value = some v → v ≠ []) :
    Chain P can n (w.loc none) ((handle P kind w).loc none) := by
  unfold handle
  split
  · exact absurd rfl (hrestart _)
  · split
    · exact .refl
    · cases kind with
      | newValueGetID => exact newValueGetID_chain
      | lock => exact lock_chain
      | lockFail => exact lockFail_chain
      | getResult => exact getResult_chain
      | checkNewValue => exact checkNewValue_chain (w := leaveRetry w) hw hne
      | receive gid msg => exact onReceive_chain (w := leaveRetry w) hw (hcan gid msg rfl)
      | receiveCheckpoint gid msg =>
        simp only []
        split
        · exact .refl
        · exact onSendCheckpoint_chain (w := leaveRetry w) hw
      | dealWithRetry => exact dealWithRetry_chain hw hq
      | timeout => exact onTimeout_chain (w := leaveRetry w) hw
      | sendLearnedValue => exact sendLearnedValue_chain
      | sendOne => exact sendOne_chain hw
      | sendDone => exact sendDone_chain
      | restart => exact .refl

/-- **Every event at a node is a chain of steps of that node.** -/
theorem handle_acts (hw : w.me = n) {kind : EventKind} (hcan : ∀ gid msg, kind = .receive gid msg → can msg)
    (hq : ∀ m ∈ w.node.ioLoop.retryQueue, can m) (hne : ∀ v, w.node.commitCtx.value = some v → v ≠ []) :
    Relation.ReflTransGen (Act P can n) (w.loc none) ((handle P kind w).loc none) := by
  by_cases hrestart : ∃ cp, kind = .restart cp
  · obtain ⟨cp, rfl⟩ := hrestart
    exact .single (restart_act hw)
  · exact (handle_chain hw (fun cp heq => hrestart ⟨cp, heq⟩) hcan hq hne).acts

end Node

end PhxPaxos
