import PhxPaxos.Steps.RefineLearner

/-!
# Handlers as chains of steps: the proposer

The accept phase (`accept_chain`, `onAcceptReply_chain`), the prepare phase (`prepare_chain`, `onPrepareReply_chain`) and
new values (`newValue_chain`).
-/

namespace PhxPaxos

variable {P : Params} {can : PaxosMsg → Prop} {n : NodeID}

section Proposer

variable {d : Nat} {self : Self} {w : Proc} {s : Option PaxosMsg} {msg : PaxosMsg}

/-- `Proposer::Accept`; the prepare phase has just set `canSkipPrepare`, or it was skipped. -/
theorem accept_chain (hself : SelfOk P can n d self) (hd : 3 ≤ d) (hw : w.me = n)
    (hcan : w.node.proposer.canSkipPrepare = true) {b : Bool} {l : Loc}
    (hl : l = { w.loc none with core.canSkipPrepare := b })
    (h : l.core.isPreparing = true ∧ l.core.Passed ∨
      l.core.canSkipPrepare = true ∧ l.core.wasRejectBySomeone = false ∧ l.core.proposer.value ≠ []) :
    Chain P can n l ((accept self w).loc none) := by
  subst hl hw
  obtain ⟨timers, k, -, he⟩ := exitPrepare_eq w
  obtain ⟨timers', now, k', ha, he'⟩ := addAcceptTimer_eq false { w with
    node.ioLoop.timers := timers
    node.proposer.isPreparing := false
    node.proposer.prepareTimerID := k
    node.proposer.isAccepting := true
    node.proposer.msgCounter := {} }
  unfold accept
  simp only [he, he', Proc.broadcastMessage]
  refine .head (Act.startAccept rfl h) rfl (self_chain hself ?_ rfl ⟨hd, le_rfl, fun _ => ⟨rfl, rfl, Or.inr rfl⟩⟩)
  exact Loc.ext (Core.ext_flags hcan.symm ha.symm rfl) rfl rfl

/-- `Proposer::Prepare` -/
theorem prepare_chain (hself : SelfOk P can n d self) (hd : 5 ≤ d) (hw : w.me = n) {b : Bool} {l : Loc}
    (hl : l = { w.loc none with core.armed := b })
    (h : l.core.proposer.value ≠ [] ∨ l.core.armed = true ∧ l.core.timeoutInstanceID = l.core.instanceID) :
    Chain P can n l ((prepare self w.node.proposer.wasRejectBySomeone w).loc none) := by
  subst hl hw
  obtain ⟨timers, k, -, he⟩ := exitAccept_eq w
  obtain ⟨timers', now, k', ha, he'⟩ := addPrepareTimer_eq false { w with
    node.ioLoop.timers := timers
    node.proposer.isAccepting := false
    node.proposer.acceptTimerID := k
    node.proposer.isPreparing := true
    node.proposer.canSkipPrepare := false
    node.proposer.wasRejectBySomeone := false
    node.proposer.state := (w.node.core none).nextRound
    node.proposer.msgCounter := {} }
  unfold prepare
  simp only [he]
  erw [he']
  refine .head (Act.startPrepare rfl h) rfl (broadcastFirst_chain hself ?_ rfl ⟨hd, le_rfl, fun _ => ⟨rfl, rfl, Or.inl rfl⟩⟩ ?_)
  · exact Loc.ext (Core.ext_flags rfl ha.symm rfl) rfl rfl
  · intro w' hw' hs
    exact hw' ▸ Sendable.prepare (S := w.node.config.systemVSM.setNodeID) (hw' ▸ hs.subset List.mem_cons_self)

/-- `Proposer::NewValue` -/
theorem newValue_chain (hself : SelfOk P can n d self) (hd : 5 ≤ d) (hw : w.me = n)
    (hf : w.node.config.isIMFollower = false) (hm : n ∈ w.node.config.systemVSM.setNodeID) {v : Bytes} (hv : v ≠ [])
    (hc : w.node.commitCtx.value = some v ∧ w.node.commitCtx.instanceID = some w.node.instanceID ∨
      .initSystemVariables n w.node.instanceID v ∈ w.hist) {l : Loc} (hl : l = w.loc none) :
    Chain P can n l ((newValue self v w).loc none) := by
  subst hl hw
  unfold newValue
  simp only [Proc.log]
  refine .head (Act.newValue (l := w.loc none) rfl hf hm hc) rfl ?_
  have hne : (if w.node.proposer.state.value.length = 0 then v else w.node.proposer.state.value) ≠ [] := by
    split
    · exact hv
    · rename_i h
      exact fun h' => h (by simp [h'])
  by_cases h : (w.node.proposer.canSkipPrepare && !w.node.proposer.wasRejectBySomeone) = true
  · simp only [h, if_true]
    simp only [Bool.and_eq_true, Bool.not_eq_true'] at h
    exact accept_chain hself (by omega) (by rfl) (by exact h.1) (by rfl) (Or.inr ⟨h.1, h.2, hne⟩)
  · simp only [h]
    exact prepare_chain hself hd (by rfl) (by rfl) (Or.inl hne)

/-- A proposer timer is armed for another try of the round. -/
theorem rearm_chain {timers : List (Nat × TimerType)} (ha : armedIn timers = true)
    (h : w.node.proposer.isPreparing = true ∨ w.node.proposer.isAccepting = true) :
    Chain P can n (w.loc none) ({ w with node.ioLoop.timers := timers }.loc none) := by
  have h' := @Act.rearm P can n (w.loc none) h
  rw [← ha] at h'
  exact .single h' rfl

/-- The end of `Proposer::OnAcceptReply`. -/
theorem checkAcceptRound_chain (hself : SelfOk P can n d self) (hd : 1 ≤ d) {l : Loc} (hl : l = w.loc none)
    (hw : w.me = n) (hacc : w.node.proposer.isAccepting = true) :
    Chain P can n l ((checkAcceptRound self w).loc none) := by
  subst hl hw
  unfold checkAcceptRound
  split
  · rename_i hpass
    have hpass : (w.loc none).core.Passed := of_decide_eq_true (p := _ ≤ _) hpass
    obtain ⟨timers, k, ha, he⟩ := exitAccept_eq w
    rw [he]
    refine .head (Act.succeed (l := w.loc none) rfl hacc hpass ha) rfl ?_
    refine broadcastFirst_chain hself rfl rfl (.of_ne hd le_rfl nofun nofun) ?_
    intro w' hw' hs
    exact hw' ▸ Sendable.success (hw' ▸ hs.subset List.mem_cons_self)
  · split
    · obtain ⟨timers, now, k, ha, he⟩ := addAcceptTimer_eq true w
      rw [he]
      exact rearm_chain ha (Or.inr hacc)
    · exact .refl

/-- `Proposer::OnAcceptReply` -/
theorem onAcceptReply_chain (hself : SelfOk P can n d self) (hd : 1 ≤ d) (hw : w.me = n)
    (h : AtHand can (d + 1) s w msg) (ht : msg.msgType = .paxosAcceptReply) (hi : msg.instanceID = w.node.instanceID)
    (hvalid : w.node.config.isValidNodeID msg.nodeID = true) :
    Chain P can n (w.loc s) ((onAcceptReply self msg w).loc none) := by
  have hdrop : Chain P can n (w.loc s) (w.loc none) := h.drop_of_ne (by simp [ht]) (by simp [ht])
  unfold onAcceptReply
  split
  · exact hdrop
  · split
    · exact hdrop
    · rename_i hacc hp
      have hacc : w.node.proposer.isAccepting = true := by simpa using hacc
      have hp : msg.proposalID = w.node.proposer.state.proposalID := by simpa using hp
      simp only []
      split
      · rename_i hr
        exact .head (Act.countAccept h.src ht hi hacc hp hr hvalid) rfl
          (checkAcceptRound_chain hself hd (by rfl) (by exact hw) (by exact hacc))
      · rename_i hr
        exact .head (Act.noteReject h.src hr (Or.inr ht)) rfl
          (checkAcceptRound_chain hself hd (by rfl) (by exact hw) (by exact hacc))

/-- The end of `Proposer::OnPrepareReply`. -/
theorem checkPrepareRound_chain (hself : SelfOk P can n d self) (hd : 3 ≤ d) {l : Loc} (hl : l = w.loc none)
    (hw : w.me = n) (hprep : w.node.proposer.isPreparing = true) :
    Chain P can n l ((checkPrepareRound self w).loc none) := by
  subst hl
  unfold checkPrepareRound
  split
  · rename_i hpass
    have hpass : (w.loc none).core.Passed := of_decide_eq_true (p := _ ≤ _) hpass
    exact accept_chain hself hd (by exact hw) (by rfl) (by rfl) (Or.inl ⟨hprep, hpass⟩)
  · split
    · obtain ⟨timers, now, k, ha, he⟩ := addPrepareTimer_eq true w
      rw [he]
      exact rearm_chain ha (Or.inl hprep)
    · exact .refl

/-- `Proposer::OnPrepareReply` -/
theorem onPrepareReply_chain (hself : SelfOk P can n d self) (hd : 3 ≤ d) (hw : w.me = n)
    (h : AtHand can (d + 1) s w msg) (ht : msg.msgType = .paxosPrepareReply) (hi : msg.instanceID = w.node.instanceID)
    (hvalid : w.node.config.isValidNodeID msg.nodeID = true) :
    Chain P can n (w.loc s) ((onPrepareReply self msg w).loc none) := by
  have hdrop : Chain P can n (w.loc s) (w.loc none) := h.drop_of_ne (by simp [ht]) (by simp [ht])
  subst hw
  unfold onPrepareReply
  split
  · exact hdrop
  · split
    · exact hdrop
    · rename_i hprep hp
      have hprep : w.node.proposer.isPreparing = true := by simpa using hprep
      have hp : msg.proposalID = w.node.proposer.state.proposalID := by simpa using hp
      simp only []
      split
      · rename_i hr
        exact .head (Act.countPromise h.src ht hi hprep hp hr hvalid) rfl
          (checkPrepareRound_chain hself hd (by rfl) (by rfl) (by exact hprep))
      · rename_i hr
        exact .head (Act.noteReject h.src hr (Or.inl ht)) rfl
          (checkPrepareRound_chain hself hd (by rfl) (by rfl) (by exact hprep))

/-- `Proposer::OnPrepareTimeout` and `Proposer::OnAcceptTimeout`, when a timer was armed just before. -/
theorem onProposerTimeout_chain (hself : SelfOk P can n d self) (hd : 5 ≤ d) (hw : w.me = n) :
    Chain P can n { w.loc none with core.armed := true } ((onProposerTimeout self w).loc none) := by
  unfold onProposerTimeout
  split
  · exact .single (@Act.disarm P can n { w.loc none with core.armed := true } w.node.ioLoop.armed fun _ => rfl) rfl
  · rename_i hi
    exact prepare_chain hself hd hw (by rfl) (Or.inr ⟨rfl, (not_not.mp hi).symm⟩)

end Proposer

end PhxPaxos
