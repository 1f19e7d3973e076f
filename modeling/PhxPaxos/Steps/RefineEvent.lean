import PhxPaxos.Steps.RefineProposer

/-!
# Events as chains of steps

The dispatch of a message (`body_chain`), the messages of a node to itself at any depth (`selfOk`, so five levels are
enough: none of its own Prepare and Accept messages is lost), timeouts, new values, calls of the committer, the
checkpoint receiver, the start of a process, and all events together (`handle_chain`).
-/

namespace PhxPaxos

variable {P : Params} {can : PaxosMsg → Prop} {n : NodeID}

/-! ## The dispatch of a message -/

section Receive

variable {d : Nat} {self : Self} {w : Proc} {s : Option PaxosMsg} {msg : PaxosMsg}

/-- `Instance::ReceiveMsgForProposer` -/
theorem receiveMsgForProposer_chain (hself : SelfOk P can n d self) (hw : w.me = n) (h : AtHand can (d + 1) s w msg)
    (hr : msg.msgType.rank ≤ d + 1) (h₁ : msg.msgType ≠ .paxosPrepare) (h₂ : msg.msgType ≠ .paxosAccept)
    (hvalid : w.node.config.isValidNodeID msg.nodeID = true) :
    Chain P can n (w.loc s) ((receiveMsgForProposer self msg w).loc none) := by
  have hdrop : Chain P can n (w.loc s) (w.loc none) := h.drop_of_ne h₁ h₂
  unfold receiveMsgForProposer
  split
  · exact hdrop
  · split
    · split
      · rename_i ht
        unfold onExpiredReply
        split
        · rename_i hrej
          exact .single (Act.noteReject h.src hrej ht.2) rfl
        · exact hdrop
      · exact hdrop
    · rename_i hi
      have hi : msg.instanceID = w.node.instanceID := not_not.mp hi
      cases ht : msg.msgType with
      | paxosPrepareReply =>
        rw [ht] at hr
        exact onPrepareReply_chain hself (by simpa [MsgType.rank] using hr) hw h ht hi hvalid
      | paxosAcceptReply =>
        rw [ht] at hr
        exact onAcceptReply_chain hself (by simpa [MsgType.rank] using hr) hw h ht hi hvalid
      | _ => exact hdrop

/-- The end of `Instance::ReceiveMsgForAcceptor`. -/
theorem acceptorOrRetry_chain (hself : SelfOk P can n d self) (hw : w.me = n) (h : AtHand can (d + 1) s w msg)
    (hr : msg.msgType.rank ≤ d + 1) (ht : msg.msgType = .paxosPrepare ∨ msg.msgType = .paxosAccept) {isRetry : Bool} :
    Chain P can n (w.loc s) ((acceptorOrRetry P self msg isRetry w).1.loc none) := by
  unfold acceptorOrRetry
  split
  · rename_i hi
    rcases ht with ht | ht
    · rw [ht] at hr
      simp only [ht]
      exact onPrepare_chain hself hw h (by simpa [MsgType.rank] using hr) ht hi
    · rw [ht] at hr
      simp only [ht]
      exact onAccept_chain hself hw h (by simp only [MsgType.rank] at hr; omega) ht hi
  · rename_i hi
    -- a message to itself is for the current instance
    have hcan : s = none ∧ can msg := by
      rcases h with h | ⟨-, h⟩
      · exact h
      · exact absurd (h.own ht).2.1 hi
    obtain ⟨rfl, hcan⟩ := hcan
    split
    · split
      · refine .single (Act.retry (l := w.loc none) ?_) rfl
        intro m hm
        simp only [IOLoop.addRetryPaxosMsg] at hm
        rcases List.mem_append.mp hm with hm | hm
        · left
          split at hm
          · exact List.mem_of_mem_tail hm
          · exact hm
        · exact Or.inr (List.mem_singleton.mp hm ▸ hcan)
      · exact .single (@Act.retry P can n (w.loc none) [] (by simp)) rfl
    · exact .refl

/-- `Instance::ReceiveMsgForAcceptor` -/
theorem receiveMsgForAcceptor_chain (hself : SelfOk P can n d self) (hw : w.me = n) (h : AtHand can (d + 1) s w msg)
    (hr : msg.msgType.rank ≤ d + 1) (ht : msg.msgType = .paxosPrepare ∨ msg.msgType = .paxosAccept) {isRetry : Bool} :
    Chain P can n (w.loc s) ((receiveMsgForAcceptor P self msg isRetry w).1.loc none) := by
  unfold receiveMsgForAcceptor
  split
  · rename_i hf
    refine h.drop fun _ _ hh => ?_
    exact absurd hh.1 (by simpa [Node.core] using hf)
  · simp only []
    split
    · rename_i hi
      have hcan : s = none ∧ can msg := by
        rcases h with h | ⟨-, h⟩
        · exact h
        · have := (h.own ht).2.1
          omega
      obtain ⟨rfl, hcan⟩ := hcan
      have hc := @fabricated_chain P can n w self msg hw hcan ht hi
      exact hc.trans (acceptorOrRetry_chain hself (hc.me_eq hw) (Or.inl ⟨rfl, hcan⟩) hr ht)
    · exact acceptorOrRetry_chain hself hw h hr ht

/-- `Instance::ChecksumLogic` -/
theorem checksumLogic_chain (hw : w.me = n) (h : can msg ∨ s = some msg) :
    Chain P can n (w.loc s) ((checksumLogic msg w).1.loc s) := by
  subst hw
  unfold checksumLogic
  split
  · exact .refl
  · rename_i hc
    split
    · exact .refl
    · rename_i hi
      have hi : msg.instanceID = w.node.instanceID := not_not.mp hi
      split
      · rename_i hl
        exact .single (Act.adoptChecksum (l := w.loc s) h hc hi hl.1 hl.2) rfl
      · rename_i hl
        split
        · rename_i hne
          exact .single (Act.checksumLogicFail (l := w.loc s) h hc hi hl hne) rfl
        · exact .refl

theorem checksumLogic_instanceID : (checksumLogic msg w).1.node.instanceID = w.node.instanceID := by
  unfold checksumLogic
  split <;> [rfl; skip]
  split <;> [rfl; skip]
  split <;> [rfl; skip]
  split <;> rfl

/-- A node never doubts the checksum of its own Prepare and Accept. -/
theorem checksumLogic_own (h : msg.lastChecksum = 0 ∨ msg.lastChecksum = w.node.lastChecksum) :
    checksumLogic msg w = (w, true) := by
  unfold checksumLogic
  split
  · rfl
  · rename_i hc
    have h := h.resolve_left hc
    split
    · rfl
    · rw [if_neg (by rw [← h]; exact fun h => hc h.2), if_neg (not_not.mpr h)]

/-- The message is still at hand after `Instance::ChecksumLogic`. -/
theorem AtHand.checksumLogic (h : AtHand can d s w msg) : AtHand can d s (checksumLogic msg w).1 msg := by
  rcases h with h | ⟨hs, h⟩
  · exact Or.inl h
  · refine Or.inr ⟨hs, h.rank, by rw [checksumLogic_instanceID]; exact h.instanceID_le, fun ht => ?_⟩
    obtain ⟨h₁, h₂, h₃⟩ := h.own ht
    rw [checksumLogic_own h₃]
    exact ⟨h₁, h₂, h₃⟩

theorem addTmpNodeOnlyForLearn_eq (c : Config) (m : NodeID) :
    ∃ t, c.addTmpNodeOnlyForLearn m = { c with tmpNodeOnlyForLearn := t } := by
  unfold Config.addTmpNodeOnlyForLearn
  split
  · exact ⟨_, rfl⟩
  · exact ⟨_, rfl⟩

/-- The node that sent the message is noted as one that only learns. -/
theorem addTmp_loc (c : Prop) [Decidable c] :
    (if c then { w with node.config := w.node.config.addTmpNodeOnlyForLearn msg.nodeID } else w).loc s = w.loc s := by
  obtain ⟨t, ht⟩ := addTmpNodeOnlyForLearn_eq w.node.config msg.nodeID
  split
  · rw [ht]
    rfl
  · rfl

/-- A handler that leaves the configuration, up to the nodes that only learn, as it was. -/
theorem AtHand.of_loc {w' : Proc} (h : AtHand can d s w msg) (hloc : w'.loc s = w.loc s) : AtHand can d s w' msg := by
  have hi : w'.node.instanceID = w.node.instanceID := congrArg (·.core.instanceID) hloc
  have hc : w'.node.lastChecksum = w.node.lastChecksum := congrArg (·.core.lastChecksum) hloc
  have hm : w'.me = w.me := congrArg (·.core.me) hloc
  rcases h with h | ⟨hs, h⟩
  · exact Or.inl h
  · exact Or.inr ⟨hs, h.rank, by rw [hi]; exact h.instanceID_le, by rw [hi, hc, hm]; exact h.own⟩

theorem AtHand.can_or (h : AtHand can d s w msg) : can msg ∨ s = some msg :=
  h.elim (fun h => Or.inl h.2) (fun h => Or.inr h.1)

/-- `Instance::OnReceivePaxosMsg` for a Prepare or an Accept. -/
theorem onReceiveProposersMsg_chain (hself : SelfOk P can n d self) (hw : w.me = n) (h : AtHand can (d + 1) s w msg)
    (hr : msg.msgType.rank ≤ d + 1) (ht : msg.msgType = .paxosPrepare ∨ msg.msgType = .paxosAccept) {isRetry : Bool} :
    Chain P can n (w.loc s) ((onReceiveProposersMsg P self msg isRetry w).1.loc none) := by
  unfold onReceiveProposersMsg
  have hloc (s : Option PaxosMsg) := @addTmp_loc w s msg (w.node.config.getGid = 0) _
  generalize (if w.node.config.getGid = 0 then
    { w with node.config := w.node.config.addTmpNodeOnlyForLearn msg.nodeID } else w) = w₁ at hloc
  replace h := h.of_loc (hloc s)
  replace hw : w₁.me = n := (congrArg (·.core.me) (hloc none)).trans hw
  rw [← hloc s]
  simp only []
  split
  · rename_i hv
    obtain ⟨t, ht⟩ := addTmpNodeOnlyForLearn_eq w₁.node.config msg.nodeID
    rw [ht]
    refine h.drop fun h ht hh => ?_
    rw [(h.own ht).1, hw] at hv
    have hv : w₁.node.config.systemVSM.isValidNodeID n = false := by simpa [Config.isValidNodeID] using hv
    exact Bool.noConfusion (hv.symm.trans hh.2)
  · have hc := checksumLogic_chain (P := P) hw h.can_or
    split
    · exact hc.trans (receiveMsgForAcceptor_chain hself (hc.me_eq hw) h.checksumLogic hr ht)
    · rename_i hok
      rcases h with ⟨rfl, -⟩ | ⟨-, h⟩
      · exact hc
      · rw [checksumLogic_own (h.own ht).2.2] at hok
        exact absurd rfl hok

/-- `Instance::OnReceivePaxosMsg` for a message of a learner. -/
theorem onReceiveLearnersMsg_chain (hself : SelfOk P can n d self) (hw : w.me = n) (h : AtHand can (d + 1) s w msg)
    (h₁ : msg.msgType ≠ .paxosPrepare) (h₂ : msg.msgType ≠ .paxosAccept) :
    Chain P can n (w.loc s) ((onReceiveLearnersMsg P self msg w).1.loc none) := by
  have hc := checksumLogic_chain (P := P) hw h.can_or
  unfold onReceiveLearnersMsg
  simp only []
  split
  · exact hc.trans (receiveMsgForLearner_chain hself (hc.me_eq hw) h.checksumLogic h₁ h₂)
  · exact hc.trans (h.checksumLogic.drop_of_ne h₁ h₂)

/-- `Instance::OnReceivePaxosMsg` -/
theorem body_chain (hself : SelfOk P can n d self) (hw : w.me = n) (h : AtHand can (d + 1) s w msg)
    (hr : msg.msgType.rank ≤ d + 1) {isRetry : Bool} :
    Chain P can n (w.loc s) ((onReceivePaxosMsgBody P self msg isRetry w).1.loc none) := by
  have hproposer (h₁ : msg.msgType ≠ .paxosPrepare) (h₂ : msg.msgType ≠ .paxosAccept) :
      Chain P can n (w.loc s) ((if !w.node.config.isValidNodeID msg.nodeID then (w, (0 : Int))
        else (receiveMsgForProposer self msg w, 0)).1.loc none) := by
    split
    · exact h.drop_of_ne h₁ h₂
    · rename_i hv
      exact receiveMsgForProposer_chain hself hw h hr h₁ h₂ (by simpa using hv)
  unfold onReceivePaxosMsgBody
  cases ht : msg.msgType with
  | paxosPrepareReply => exact hproposer (by simp [ht]) (by simp [ht])
  | paxosAcceptReply => exact hproposer (by simp [ht]) (by simp [ht])
  | proposalSendNewValue => exact hproposer (by simp [ht]) (by simp [ht])
  | paxosPrepare => exact onReceiveProposersMsg_chain hself hw h hr (Or.inl ht)
  | paxosAccept => exact onReceiveProposersMsg_chain hself hw h hr (Or.inr ht)
  | learnerOnAskforCheckpoint => exact h.drop_of_ne (by simp [ht]) (by simp [ht])
  | _ => exact onReceiveLearnersMsg_chain hself hw h (by simp [ht]) (by simp [ht])

end Receive

/-- **Messages to itself, with `d` levels left, are handled by steps up to rank `d`.** -/
theorem selfOk (d : Nat) : SelfOk P can n d fun msg w => onReceivePaxosMsg P d msg false w := by
  induction d with
  | zero =>
    intro msg w _ h
    have hr : msg.msgType.rank = 0 := Nat.le_zero.mp h.rank
    exact AtHand.drop_of_ne (Or.inr ⟨rfl, h⟩) (fun ht => by simp [ht, MsgType.rank] at hr)
      (fun ht => by simp [ht, MsgType.rank] at hr)
  | succ d ih =>
    intro msg w hw h
    exact body_chain ih hw (Or.inr ⟨rfl, h⟩) h.rank

theorem toSelf_ok : SelfOk P can n 5 (toSelf P) := selfOk 5

end PhxPaxos
