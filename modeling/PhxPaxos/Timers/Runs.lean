import PhxPaxos.Timers.Armed

/-!
# Runs of a node

A process starts with the timer of the learner and nothing else (`instanceInit_started`), and every event moves its gear; so what
moves keep holds in every state of a group (`Reachable.gear`) and of a node whose proposer is driven from outside as well
(`ProposerRun`).
-/

namespace PhxPaxos

/-! ## Starting -/

/-- The gear of a new process, before it asks for values. -/
def Gear.new (instanceID : Nat) (minimum : Nat × Option Nat) : Gear where
  timers := []
  nowTimerID := 1
  isPreparing := false
  isAccepting := false
  prepareTimerID := 0
  acceptTimerID := 0
  noopTimerID := 0
  commitTimerID := 0
  timeoutInstanceID := 0
  instanceID := instanceID
  commitCtx := {}
  calls := []
  setNeedAsk := ∅
  lastAskTime := 0
  inAskMode := false
  retryQueue := []
  minimum := minimum

theorem Gear.good_new (instanceID : Nat) (minimum : Nat × Option Nat) : (Gear.new instanceID minimum).Good where
  pos := nofun
  lt := nofun
  nodup := List.nodup_nil
  now_pos := Nat.one_pos
  prepareTimerID_lt := Nat.one_pos
  acceptTimerID_lt := Nat.one_pos
  noopTimerID_lt := Nat.one_pos
  commitTimerID_lt := Nat.one_pos
  prepare := fun _ => iff_of_false nofun fun h => Bool.false_ne_true h.1
  accept := fun _ => iff_of_false nofun fun h => Bool.false_ne_true h.1
  noop := nofun
  commit := nofun
  prepareTimerID_zero := fun _ => rfl
  acceptTimerID_zero := fun _ => rfl
  apart := fun h => absurd h Bool.false_ne_true
  timeout := fun h => h.elim (fun h => absurd h Bool.false_ne_true) fun h => absurd h Bool.false_ne_true

/-- A process that has just started, or could not: the timer of the learner is armed, or none. -/
def Gear.Started (g : Gear) : Prop :=
  ∃ instanceID minimum, g = Gear.new instanceID minimum ∨ g = (Gear.new instanceID minimum).resetNoop

theorem Gear.Started.good {g : Gear} (h : g.Started) : g.Good := by
  obtain ⟨i, m, rfl | rfl⟩ := h
  · exact good_new i m
  · exact (good_new i m).resetNoop

/-- The gear of a process that has done nothing but look at its log. -/
def Gear.IsNew (g : Gear) : Prop := ∃ instanceID minimum, g = Gear.new instanceID minimum

section Start

variable {P : Params} {w w' : Proc}

theorem Gear.IsNew.still (h : w.gear.IsNew) (hs : Still w w') : w'.gear.IsNew := hs.gear ▸ h

theorem Gear.IsNew.setMin (h : w.gear.IsNew) (m : Nat) : (setMinChosenInstanceID m w).1.gear.IsNew := by
  obtain ⟨i, o, h⟩ := h
  unfold setMinChosenInstanceID
  simp only []
  split
  · exact ⟨i, (m, some m), congrArg (fun g : Gear => { g with minimum := (m, some m) }) h⟩
  · exact ⟨i, o, h⟩

theorem checkpointMgr_init_isNew (cp : Nat) (h : w.gear.IsNew) : (CheckpointMgr.init cp w).1.gear.IsNew := by
  have hold : ({ w with node.checkpointMgr.minChosenInstanceID := w.node.storage.minChosenInstanceID.getD 0 } :
      Proc).gear.IsNew := by
    obtain ⟨i, o, h⟩ := h
    exact ⟨i, _, congrArg (fun g : Gear => { g with minimum := (w.node.storage.minChosenInstanceID.getD 0,
      w.node.storage.minChosenInstanceID) }) h⟩
  unfold CheckpointMgr.init
  simp only []
  split
  · exact hold.setMin _
  · exact hold

theorem playLog_still : ∀ (k i : Nat) (w : Proc), Still w (playLog P k i w).1 := by
  intro k
  induction k with
  | zero => exact fun _ _ => .refl
  | succ k ih =>
    intro i w
    unfold playLog
    split
    · exact .refl
    · rename_i r _
      have hexecute : Still w (smExecute P i r.acceptedValue { w with smCalls := [] }).1 :=
        (smExecute_still _ _ _).of_same rfl rfl
      simp only []
      split
      · exact hexecute.trans ((ih _ _).of_same rfl rfl)
      · exact hexecute.trans ⟨List.suffix_rfl, rfl⟩

theorem protectionLogic_isNew (cp i : Nat) (h : w.gear.IsNew) : (protectionLogic cp i w).1.gear.IsNew := by
  unfold protectionLogic
  split
  · exact h
  · split
    · split
      · exact h.setMin cp
      · exact h
    · exact h

theorem initNowInstanceID_isNew (cp : Nat) (h : w.gear.IsNew) : (initNowInstanceID P cp w).1.gear.IsNew := by
  unfold initNowInstanceID
  split
  · split
    · exact h
    · exact h.still (playLog_still _ _ w)
  · split
    · have hprotect := protectionLogic_isNew cp w.node.instanceID h
      simp only []
      split
      · exact hprotect
      · obtain ⟨i, o, hprotect⟩ := hprotect
        exact ⟨cp, o, congrArg (fun g : Gear => { g with instanceID := cp }) hprotect⟩
    · exact h

theorem initLastCheckSum_still (w : Proc) : Still w (initLastCheckSum w) := by
  unfold initLastCheckSum
  split
  · exact ⟨List.suffix_rfl, rfl⟩
  · split
    · exact ⟨List.suffix_rfl, rfl⟩
    · split <;> exact ⟨List.suffix_rfl, rfl⟩

/-- After `Instance::Init` the timer of the learner is armed and nothing else, or `Init` failed. -/
theorem instanceInit_started (cp : Nat) (h : w.gear.IsNew) : (instanceInit P cp w).1.gear.Started := by
  have hacceptor (i' : Nat) (a : AcceptorState) :
      ({ w with node.instanceID := i', node.acceptor := a } : Proc).gear.IsNew := by
    obtain ⟨i, o, h⟩ := h
    exact ⟨i', o, congrArg (fun g : Gear => { g with instanceID := i' }) h⟩
  have hmgr := checkpointMgr_init_isNew cp (hacceptor (Acceptor.init w.node.storage).1 (Acceptor.init w.node.storage).2)
  have hnow := initNowInstanceID_isNew (P := P) cp hmgr
  have hnew {w' : Proc} (h' : w'.gear.IsNew) : w'.gear.Started := by
    obtain ⟨i, o, h'⟩ := h'
    exact ⟨i, o, Or.inl h'⟩
  unfold instanceInit
  simp only []
  split
  · exact hnew hmgr
  · split
    · exact hnew hnow
    · rw [resetAskforLearnNoop_gear, (initLastCheckSum_still _).gear]
      obtain ⟨i, o, hnow⟩ := hnow
      exact ⟨i, o, Or.inr (congrArg Gear.resetNoop hnow)⟩

end Start

theorem Node.new_isNew (config : Config) (storage : LogStorage) : (Node.new config storage).gear.IsNew :=
  ⟨0, (0, storage.minChosenInstanceID), rfl⟩

/-- A start of the process, which may fail. -/
theorem restart_gear (P : Params) (cp : Nat) (w : Proc) :
    (restart P cp w).gear.Started ∨ ∃ minimum, (restart P cp w).gear = { w.gear with minimum := minimum } := by
  have hstart := instanceInit_started (P := P) (w := { w.log (.restart w.me w.node.instanceID cp) with
    node := Node.new w.node.config w.node.storage, played := [] }) cp (Node.new_isNew _ _)
  unfold restart
  simp only []
  split
  · exact Or.inr ⟨_, rfl⟩
  · exact Or.inl hstart

/-! ## Runs -/

/-- Everything may happen. -/
def Allow.all : Allow := ⟨True, True, True, False⟩

theorem handle_shift_all {P : Params} {kind : EventKind} (hkind : ∀ cp, kind ≠ .restart cp) (w : Proc) :
    Shift Allow.all w (handle P kind w) :=
  handle_shift hkind w (Or.inl trivial) (fun _ _ => trivial) fun _ _ _ => trivial

/-- What starts of the process give, what does not turn on the minimum, and what events keep holds in every state. -/
theorem Reachable.gear {P : Params} {D : Deliver} {G : Group} {I : Gear → Prop} (hstart : ∀ {g : Gear}, g.Started → I g)
    (hmin : ∀ {g : Gear} minimum, I g → I { g with minimum := minimum })
    (hkeep : ∀ {kind : EventKind} (w : Proc), (∀ cp, kind ≠ .restart cp) → I w.gear → I (handle P kind w).gear)
    {s : Sys} (h : Reachable P D G s) (n : NodeID) : I (s.node n).gear := by
  induction h with
  | init => exact hstart (instanceInit_started 0 (Node.new_isNew _ _))
  | @step s e _ _ ih =>
    by_cases hn : n = e.node
    · subst hn
      have hpost : I (handle P e.kind (s.proc e.node e.env)).gear := by
        by_cases hkind : ∃ cp, e.kind = .restart cp
        · obtain ⟨cp, hcp⟩ := hkind
          rw [hcp]
          rcases restart_gear P cp (s.proc e.node e.env) with hs | ⟨m, hs⟩
          · exact hstart hs
          · exact hs.symm ▸ hmin m ih
        · exact hkeep _ (fun cp hcp => hkind ⟨cp, hcp⟩) ih
      unfold Sys.step
      simp only [Function.update_self]
      exact hpost
    · unfold Sys.step
      simp only [Function.update_of_ne hn]
      exact ih

/-- **The timers of a node are in order** in every state of the group. -/
theorem Reachable.good {P : Params} {D : Deliver} {G : Group} {s : Sys} (h : Reachable P D G s) (n : NodeID) :
    (s.node n).gear.Good := by
  refine h.gear (fun hs => hs.good) (fun _ hg => { hg with }) (fun w hkind hg => ?_) n
  obtain ⟨new, -, hm⟩ := handle_shift_all (P := P) hkind w
  exact hm.good hg

/-- One step of a node: an event, or a method of its proposer. -/
inductive ProposerStep (P : Params) : Node → Node → Prop
  | event {kind : EventKind} (w : Proc) : (∀ cp, kind ≠ .restart cp) → ProposerStep P w.node (handle P kind w).node
  | newValue (value : Bytes) (w : Proc) : ProposerStep P w.node (newValue (toSelf P) value w).node
  | prepare (needNewBallot : Bool) (w : Proc) : ProposerStep P w.node (prepare (toSelf P) needNewBallot w).node
  | accept (w : Proc) : ProposerStep P w.node (accept (toSelf P) w).node
  | exitPrepare (w : Proc) : ProposerStep P w.node (exitPrepare w).node
  | exitAccept (w : Proc) : ProposerStep P w.node (exitAccept w).node
  | newInstance (w : Proc) : ProposerStep P w.node (newInstance w).node

abbrev ProposerRun (P : Params) : Node → Node → Prop := Relation.ReflTransGen (ProposerStep P)

theorem ProposerStep.good_since {P : Params} {n n' : Node} (h : ProposerStep P n n') (hn : n.gear.Good) :
    n'.gear.Good ∧ n.gear.Since n'.gear := by
  have hshift {w w' : Proc} (hs : Shift Allow.all w w') (hw : w.gear.Good) : w'.gear.Good ∧ w.gear.Since w'.gear := by
    obtain ⟨new, -, hm⟩ := hs
    exact ⟨hm.good hw, hm.since hw⟩
  cases h with
  | event w hkind => exact hshift (handle_shift_all hkind w) hn
  | newValue value w => exact hshift (newValue_shift toSelf_shift value w) hn
  | prepare b w => exact hshift (prepare_shift toSelf_shift b w) hn
  | accept w => exact hshift (accept_shift toSelf_shift w) hn
  | exitPrepare w => exact hshift (exitPrepare_shift w) hn
  | exitAccept w => exact hshift (exitAccept_shift w) hn
  | newInstance w =>
    have hgear : (PhxPaxos.newInstance w).node.gear = w.node.gear.newInstance := newInstance_gear w
    rw [hgear]
    exact ⟨hn.newInstance, hn.since_newInstance⟩

theorem ProposerRun.good_since {P : Params} {n n' : Node} (h : ProposerRun P n n') (hn : n.gear.Good) :
    n'.gear.Good ∧ n.gear.Since n'.gear := by
  induction h with
  | refl => exact ⟨hn, .refl _⟩
  | tail _ hstep ih =>
    obtain ⟨hgood, hsince⟩ := hstep.good_since ih.1
    exact ⟨hgood, ih.2.trans hsince⟩

end PhxPaxos
