import PhxPaxos.Model.Cleaner
import PhxPaxos.Recovery.Replay
import PhxPaxos.Steps.System

/-!
# What the cleaner deletes

The cleaner compares with one checkpoint id only, the largest of the state machines of the user, so a state machine that
is far behind loses instances it needs (`KeepsUp` fails); with a hold count near `2 ^ 64` its sums wrap. Otherwise what it
has deleted is covered by every checkpoint and lies the hold count below the current instance
(`cleaned_covered`).
-/

namespace PhxPaxos

variable {P : Params} {can : PaxosMsg → Prop} {n : NodeID}

/-! ## What the node does to the numbers that the cleaner reads -/

section Node

variable {l l' : Loc}

/-- The instance of a process only grows. -/
theorem Act.instanceID_le (h : Act P can n l l') (hs : starts n l'.hist = starts n l.hist) :
    l.core.instanceID ≤ l'.core.instanceID := by
  cases h with
  | advance => exact Nat.le_succ _
  | restart _ _ _ hstart => exact absurd hs hstart.starts_ne
  | _ => exact le_rfl

theorem Act.maxChosen_le (h : Act P can n l l') (hl : l.core.maxChosenInstanceID ≤ l.core.instanceID) :
    l'.core.maxChosenInstanceID ≤ l'.core.instanceID := by
  cases h with
  | advance => exact le_rfl
  | restart => exact le_rfl
  | _ => exact hl

theorem Act.commit_ne_nil (h : Act P can n l l') (hl : ∀ v, l.core.commitCtx.value = some v → v ≠ []) :
    ∀ v, l'.core.commitCtx.value = some v → v ≠ [] := by
  cases h with
  | executeFail | advance | commitRefused | commitTimeout => exact fun v hv => hl v (CommitCtx.setResult_value hv)
  | startCommit hnew hv hv' =>
    intro v'' heq
    cases heq
    rcases hv' with rfl | ⟨-, hv'⟩
    · exact hl _ hv
    · exact hv' (hl _ hv)
  | lock =>
    intro v hv
    cases hv
    exact packPaxosValue_ne_nil _ _
  | restart =>
    intro v hv
    cases hv
  | _ => exact hl

end Node

/-- A process that has started knows its instance as the max-chosen one and has no commit yet. -/
theorem instanceInit_fresh {cp : Nat} {w : Proc} (hret : (instanceInit P cp w).2 = 0) :
    (instanceInit P cp w).1.node.checkpointMgr.maxChosenInstanceID = (instanceInit P cp w).1.node.instanceID ∧
      (instanceInit P cp w).1.node.commitCtx = w.node.commitCtx := by
  obtain ⟨w₁, w₂, h₁, h₂, he⟩ := instanceInit_eq hret
  obtain ⟨timers, now, k, checksum, hend⟩ := initEnd_eq { w₂ with
    node.proposer.state.proposalID := w₂.node.acceptor.promiseBallot.proposalID + 1
    node.checkpointMgr.maxChosenInstanceID := w₂.node.instanceID }
  obtain ⟨mgr, minChosen, env, hmgr⟩ := checkpointMgr_init_eq cp { w with
    node.instanceID := (Acceptor.init w.node.storage).1, node.acceptor := (Acceptor.init w.node.storage).2 }
  obtain ⟨⟨vsm, stored, mgr', minChosen', i', a', hnode⟩, -, -, -⟩ := initNowInstanceID_starts (P := P) (w := w₁) rfl cp
  rw [h₁] at hmgr
  rw [h₂, show w₁ = _ from hmgr] at hnode
  rw [he, hend]
  refine ⟨rfl, ?_⟩
  simp only at hnode ⊢
  rw [hnode]

/-- A start leaves a process at or above its checkpoint, or none. -/
theorem restart_cases (cp : Nat) (w : Proc) :
    (∃ storage, (restart P cp w).node = { w.node with storage := storage, stopped := true }) ∨
      (restart P cp w).node.checkpointMgr.maxChosenInstanceID = (restart P cp w).node.instanceID ∧
        cp ≤ (restart P cp w).node.instanceID ∧ (restart P cp w).node.commitCtx.value = none := by
  unfold restart
  simp only []
  generalize hw : ({ w.log (.restart w.me w.node.instanceID cp) with
    node := Node.new w.node.config w.node.storage
    played := [] } : Proc) = w'
  by_cases hret : (instanceInit P cp w').2 = 0
  · right
    rw [if_neg (not_not.mpr hret)]
    obtain ⟨-, hlen, -⟩ := instanceInit_played (P := P) (by rw [← hw]) hret
    obtain ⟨hmax, hcommit⟩ := instanceInit_fresh hret
    refine ⟨hmax, ?_, ?_⟩
    · exact hlen ▸ Nat.le_add_right _ _
    · refine (congrArg CommitCtx.value hcommit).trans ?_
      rw [← hw]
      rfl
  · left
    rw [if_pos hret]
    exact ⟨_, rfl⟩

/-! ## Checkpoints grow -/

theorem next_le_raise (smid : Nat) (id : UInt64) (sm : StateMachine) : sm.next ≤ (Host.raise smid id sm).next := by
  unfold Host.raise
  split
  · rename_i h
    exact h.2
  · exact le_rfl

theorem raise_isInside (smid : Nat) (id : UInt64) (sm : StateMachine) : (Host.raise smid id sm).isInside = sm.isInside := by
  unfold Host.raise
  split <;> rfl

theorem userSMs_raise (smid : Nat) (id : UInt64) (sms : List StateMachine) :
    userSMs (sms.map (Host.raise smid id)) = (userSMs sms).map (Host.raise smid id) := by
  unfold userSMs
  rw [List.filter_map]
  congr 2
  funext sm
  simp [raise_isInside]

theorem start_le_raise (smid : Nat) (id : UInt64) (sms : List StateMachine) :
    SMFac.start sms ≤ SMFac.start (sms.map (Host.raise smid id)) := by
  refine (SMFac.start_le_iff _).mpr fun sm hsm => ?_
  refine (next_le_raise smid id sm).trans (SMFac.next_le_start ?_)
  unfold SMFac.counted at hsm ⊢
  simp only [userSMs_raise, List.map_eq_nil_iff]
  split at hsm
  · rw [if_pos ‹_›]
    exact List.mem_map_of_mem hsm
  · rw [if_neg ‹_›]
    exact List.mem_map_of_mem hsm

/-! ## The invariant -/

/-- What the cleaner has read is not above what is there now. -/
def CleanerPC.Within (start instanceID : Nat) : CleanerPC → Prop
  | .sleep | .readMin _ => True
  | .readCP _ cp => cp ≤ start
  | .loop _ cp maxChosen | .deleted _ cp maxChosen => cp ≤ start ∧ maxChosen ≤ instanceID

theorem CleanerPC.Within.mono {s s' i i' : Nat} {pc : CleanerPC} (h : pc.Within s i) (hs : s ≤ s') (hi : i ≤ i') :
    pc.Within s' i' := by
  cases pc with
  | sleep | readMin => trivial
  | readCP => exact Nat.le_trans h hs
  | loop | deleted => exact ⟨h.1.trans hs, h.2.trans hi⟩

namespace Host

/-- The numbers that the cleaner compares with, while the process runs. -/
structure InStep (h : Host) : Prop where
  commit : h.node.stopped = false → ∀ v, h.node.commitCtx.value = some v → v ≠ []
  maxChosen : h.node.stopped = false → h.node.checkpointMgr.maxChosenInstanceID ≤ h.node.instanceID
  pc : h.cleaner.pc.Within (SMFac.start h.sms) h.node.instanceID
  holdCount : 300 ≤ h.cleaner.holdCount

/-- What the node does besides starting. -/
theorem work_cases (h : Host) (kind : EventKind) (env : Env) : h.step P (.work kind env) = h ∨
    h.node.stopped = false ∧ (∀ cp, kind ≠ .restart cp) ∧
      h.step P (.work kind env) =
        { h with node := (handle P kind (h.proc env)).node, hist := (handle P kind (h.proc env)).hist } := by
  by_cases hrestart : ∃ cp, kind = .restart cp
  · obtain ⟨cp, rfl⟩ := hrestart
    exact Or.inl rfl
  · have hstep : h.step P (.work kind env) =
        { h with node := (handle P kind (h.proc env)).node, hist := (handle P kind (h.proc env)).hist } := by
      cases kind with
      | restart cp => exact absurd ⟨cp, rfl⟩ hrestart
      | _ => rfl
    cases hs : h.node.stopped with
    | false => exact Or.inr ⟨rfl, fun cp heq => hrestart ⟨cp, heq⟩, hstep⟩
    | true =>
      left
      have hsame : handle P kind (h.proc env) = h.proc env := by
        cases kind with
        | restart cp => exact absurd ⟨cp, rfl⟩ hrestart
        | _ => exact if_pos hs
      rw [hstep, hsame]
      rfl

/-- What the node does besides starting is a chain of steps. -/
theorem InStep.chain {h : Host} (hi : h.InStep) {kind : EventKind} {env : Env} (hrun : h.node.stopped = false)
    (hkind : ∀ cp, kind ≠ .restart cp) :
    Chain P (fun _ => True) h.node.config.myNodeID ((h.proc env).loc none) ((handle P kind (h.proc env)).loc none) :=
  handle_chain (w := h.proc env) rfl hkind (fun _ _ _ => trivial) (fun _ _ => trivial) (hi.commit hrun)

theorem InStep.work {h : Host} (hi : h.InStep) {kind : EventKind} {env : Env} (hrun : h.node.stopped = false)
    (hkind : ∀ cp, kind ≠ .restart cp) :
    h.node.instanceID ≤ (handle P kind (h.proc env)).node.instanceID ∧
      (handle P kind (h.proc env)).node.checkpointMgr.maxChosenInstanceID ≤
        (handle P kind (h.proc env)).node.instanceID ∧
      ∀ v, (handle P kind (h.proc env)).node.commitCtx.value = some v → v ≠ [] :=
  (@InStep.chain P _ hi _ env hrun hkind).keeps
    (I := fun l => h.node.instanceID ≤ l.core.instanceID ∧ l.core.maxChosenInstanceID ≤ l.core.instanceID ∧
      ∀ v, l.core.commitCtx.value = some v → v ≠ [])
    (fun hl hact hs => ⟨hl.1.trans (hact.instanceID_le hs), hact.maxChosen_le hl.2.1, hact.commit_ne_nil hl.2.2⟩)
    ⟨le_rfl, hi.maxChosen hrun, hi.commit hrun⟩

theorem default_holdCount : 300 ≤ ({} : Cleaner).holdCount := by
  decide

theorem InStep.start (h : Host) (env : Env) : (h.step P (.start env)).InStep := by
  have hcases := restart_cases (P := P) (SMFac.start h.sms) (h.proc env)
  rcases hcases with ⟨storage, hnode⟩ | ⟨hmax, -, hcommit⟩
  · have hstopped : (h.step P (.start env)).node.stopped = true := congrArg Node.stopped hnode
    refine ⟨?_, ?_, trivial, default_holdCount⟩
    · rw [hstopped]
      exact nofun
    · rw [hstopped]
      exact nofun
  · refine ⟨fun _ v hv => ?_, fun _ => hmax.le, trivial, default_holdCount⟩
    rw [show (h.step P (.start env)).node.commitCtx.value = none from hcommit] at hv
    cases hv

/-- The cleaner changes the log, the min-chosen instance id and its own state. -/
theorem clean_node (h : Host) (env : Env) : ∃ storage mgr, (h.clean env).node = { h.node with
    storage := storage, checkpointMgr := mgr } ∧ mgr.maxChosenInstanceID = h.node.checkpointMgr.maxChosenInstanceID := by
  unfold clean setMinChosenInstanceID
  simp only []
  split
  · exact ⟨_, _, rfl, rfl⟩
  · exact ⟨_, _, rfl, rfl⟩
  · exact ⟨_, _, rfl, rfl⟩
  · split
    · split <;> exact ⟨_, _, rfl, rfl⟩
    · exact ⟨_, _, rfl, rfl⟩
  · split
    · split <;> split <;> exact ⟨_, _, rfl, rfl⟩
    · exact ⟨_, _, rfl, rfl⟩

theorem clean_sms (h : Host) (env : Env) : (h.clean env).sms = h.sms ∧ (h.clean env).hist = h.hist ∧
    (h.clean env).cleaner.holdCount = h.cleaner.holdCount := by
  unfold clean
  simp only []
  split
  · exact ⟨rfl, rfl, rfl⟩
  · exact ⟨rfl, rfl, rfl⟩
  · exact ⟨rfl, rfl, rfl⟩
  · split
    · split <;> exact ⟨rfl, rfl, rfl⟩
    · exact ⟨rfl, rfl, rfl⟩
  · split
    · split <;> exact ⟨rfl, rfl, rfl⟩
    · exact ⟨rfl, rfl, rfl⟩

/-- The cleaner has read no more than there is. -/
theorem InStep.clean_pc {h : Host} (hi : h.InStep) (hrun : h.node.stopped = false) (env : Env) :
    (h.clean env).cleaner.pc.Within (SMFac.start h.sms) h.node.instanceID := by
  have hpc := hi.pc
  have hmax := hi.maxChosen hrun
  unfold clean
  simp only []
  split
  · trivial
  · exact le_rfl
  · rename_i heq
    rw [heq] at hpc
    exact ⟨hpc, hmax⟩
  · rename_i heq
    rw [heq] at hpc
    split
    · split
      · exact hpc
      · trivial
    · trivial
  · rename_i heq
    rw [heq] at hpc
    split
    · split
      · trivial
      · exact hpc
    · exact hpc

theorem InStep.clean {h : Host} (hi : h.InStep) (hrun : h.node.stopped = false) (env : Env) : (h.clean env).InStep := by
  obtain ⟨storage, mgr, hnode, hmgr⟩ := clean_node h env
  obtain ⟨hsms, -, hhold⟩ := clean_sms h env
  refine ⟨?_, ?_, ?_, by rw [hhold]; exact hi.holdCount⟩
  · rw [hnode]
    exact hi.commit
  · rw [hnode]
    exact fun _ => hmgr.le.trans (hi.maxChosen hrun)
  · rw [hnode, hsms]
    exact hi.clean_pc hrun env

theorem setHold_ge (c : Cleaner) (holdCount : UInt64) : 300 ≤ (c.setHoldPaxosLogCount holdCount).holdCount := by
  unfold Cleaner.setHoldPaxosLogCount
  split
  · exact le_rfl
  · rename_i h
    exact UInt64.le_iff_toNat_le.mp (UInt64.not_lt.mp h)

/-- Every step keeps the cleaner in step with the node. -/
theorem InStep.step {h : Host} (hi : h.InStep) (e : HostEvent) : (h.step P e).InStep := by
  cases e with
  | work kind env =>
    rcases work_cases (P := P) h kind env with heq | ⟨hrun, hkind, heq⟩
    · rw [heq]
      exact hi
    · obtain ⟨hle, hmax, hcommit⟩ := @InStep.work P _ hi _ env hrun hkind
      rw [heq]
      exact ⟨fun _ => hcommit, fun _ => hmax, hi.pc.mono le_rfl hle, hi.holdCount⟩
  | checkpoint smid id => exact ⟨hi.commit, hi.maxChosen, hi.pc.mono (start_le_raise smid id h.sms) le_rfl, hi.holdCount⟩
  | setHoldPaxosLogCount holdCount => exact ⟨hi.commit, hi.maxChosen, hi.pc, setHold_ge _ _⟩
  | clean env =>
    cases hrun : h.node.stopped with
    | true =>
      rw [show h.step P (.clean env) = h from if_pos hrun]
      exact hi
    | false =>
      rw [show h.step P (.clean env) = h.clean env from if_neg (by rw [hrun]; exact Bool.false_ne_true)]
      exact hi.clean hrun env
  | start env => exact .start h env

theorem Run.inStep {Ok : Host → HostEvent → Prop} {h : Host} (hr : Run P Ok h) : h.InStep := by
  induction hr with
  | init hstopped hcleaner _ =>
    refine ⟨?_, ?_, ?_, ?_⟩
    · rw [hstopped]
      exact nofun
    · rw [hstopped]
      exact nofun
    · rw [hcleaner]
      trivial
    · rw [hcleaner]
      exact default_holdCount
  | step _ _ ih => exact ih.step _

/-! ## What was deleted -/

/-- The cleaner is about to delete instance `i`, after it read the aggregated checkpoint before `cp`. -/
def Deletes (h : Host) (e : HostEvent) (i cp : Nat) : Prop :=
  ∃ env maxChosen, e = .clean env ∧ h.cleaner.pc = .loop i cp maxChosen ∧ add64 i h.cleaner.holdCount < cp ∧
    add64 i h.cleaner.holdCount < maxChosen

/-- When the cleaner deletes, its sum does not wrap, and no state machine of the user is behind the aggregated checkpoint
by more than the hold count. -/
def KeepsUp (h : Host) (e : HostEvent) : Prop :=
  ∀ i cp, h.Deletes e i cp →
    i + h.cleaner.holdCount < 2 ^ 64 ∧ ∀ sm ∈ userSMs h.sms, cp ≤ sm.next + h.cleaner.holdCount

/-- What the cleaner has deleted is covered by the checkpoints and the hold count below the current instance, which may be
that of the next start. -/
structure Covered (h : Host) : Prop where
  user : ∀ x ∈ h.cleaned, ∀ sm ∈ userSMs h.sms, x.1 < sm.next
  start : ∀ x ∈ h.cleaned, x.1 + x.2 < SMFac.start h.sms
  current : ∀ x ∈ h.cleaned, x.1 + x.2 < h.node.instanceID

theorem Covered.mono {h h' : Host} (hc : h.Covered) (hcleaned : h'.cleaned = h.cleaned) (hsms : h'.sms = h.sms)
    (hi : ∀ i, i < SMFac.start h.sms → i < h.node.instanceID → i < h'.node.instanceID) : h'.Covered := by
  refine ⟨?_, ?_, ?_⟩
  · rw [hcleaned, hsms]
    exact hc.user
  · rw [hcleaned, hsms]
    exact hc.start
  · rw [hcleaned]
    exact fun x hx => hi _ (hc.start x hx) (hc.current x hx)

theorem Covered.raise {h : Host} (hc : h.Covered) (smid : Nat) (id : UInt64) :
    ({ h with sms := h.sms.map (Host.raise smid id) } : Host).Covered := by
  refine ⟨?_, fun x hx => (hc.start x hx).trans_le (start_le_raise smid id h.sms), hc.current⟩
  intro x hx sm hsm
  rw [userSMs_raise] at hsm
  obtain ⟨sm', hsm', rfl⟩ := List.mem_map.mp hsm
  exact (hc.user x hx sm' hsm').trans_le (next_le_raise smid id sm')

/-- One step of the cleaner, which deletes at most one instance. -/
theorem clean_cleaned (h : Host) (env : Env) : (h.clean env).cleaned = h.cleaned ∨
    ∃ i cp, h.Deletes (.clean env) i cp ∧ (h.clean env).cleaned = (i, h.cleaner.holdCount) :: h.cleaned := by
  unfold clean
  simp only []
  split
  · exact Or.inl rfl
  · exact Or.inl rfl
  · exact Or.inl rfl
  · rename_i i cp maxChosen hpc
    split
    · rename_i hlt
      split
      · exact Or.inr ⟨i, cp, ⟨env, maxChosen, rfl, hpc, hlt⟩, rfl⟩
      · exact Or.inl rfl
    · exact Or.inl rfl
  · split
    · split <;> exact Or.inl rfl
    · exact Or.inl rfl

theorem Covered.clean {h : Host} (hc : h.Covered) (hi : h.InStep) {env : Env} (hok : h.KeepsUp (.clean env)) :
    (h.clean env).Covered := by
  obtain ⟨storage, mgr, hnode, -⟩ := clean_node h env
  obtain ⟨hsms, -, -⟩ := clean_sms h env
  have hid : (h.clean env).node.instanceID = h.node.instanceID := by rw [hnode]
  rcases clean_cleaned h env with hsame | ⟨i, cp, hdel, hcons⟩
  · exact hc.mono hsame hsms fun i _ hlt => hid ▸ hlt
  · obtain ⟨hnowrap, hkeep⟩ := hok i cp hdel
    obtain ⟨env', maxChosen, -, hpc, hcp, hmax⟩ := hdel
    have hwithin := hi.pc
    rw [hpc] at hwithin
    unfold add64 at hcp hmax
    rw [Nat.mod_eq_of_lt hnowrap] at hcp hmax
    refine ⟨?_, ?_, ?_⟩
    · rw [hcons, hsms]
      refine List.forall_mem_cons.mpr ⟨fun sm hsm => ?_, hc.user⟩
      have hle := hkeep sm hsm
      simp only
      omega
    · rw [hcons, hsms]
      exact List.forall_mem_cons.mpr ⟨hcp.trans_le hwithin.1, hc.start⟩
    · rw [hcons, hid]
      exact List.forall_mem_cons.mpr ⟨hmax.trans_le hwithin.2, hc.current⟩

theorem Covered.step {h : Host} (hc : h.Covered) (hi : h.InStep) {e : HostEvent} (hok : h.KeepsUp e) :
    (h.step P e).Covered := by
  cases e with
  | work kind env =>
    rcases work_cases (P := P) h kind env with heq | ⟨hrun, hkind, heq⟩
    · rw [heq]
      exact hc
    · rw [heq]
      exact hc.mono rfl rfl fun i _ hlt => hlt.trans_le (@InStep.work P _ hi _ env hrun hkind).1
  | checkpoint smid id => exact hc.raise smid id
  | setHoldPaxosLogCount holdCount => exact ⟨hc.user, hc.start, hc.current⟩
  | clean env =>
    cases hrun : h.node.stopped with
    | true =>
      rw [show h.step P (.clean env) = h from if_pos hrun]
      exact hc
    | false =>
      rw [show h.step P (.clean env) = h.clean env from if_neg (by rw [hrun]; exact Bool.false_ne_true)]
      exact hc.clean hi hok
  | start env =>
    refine hc.mono rfl rfl fun i hstart hlt => ?_
    rcases restart_cases (P := P) (SMFac.start h.sms) (h.proc env) with ⟨storage, hnode⟩ | ⟨-, hle, -⟩
    · exact (congrArg Node.instanceID hnode).symm ▸ hlt
    · exact hstart.trans_le hle

/-- **The cleaner keeps what recovery needs**, as long as no state machine of the user falls behind the aggregated
checkpoint by more than the hold count, and the sums of the cleaner do not wrap: every instance that it has deleted is at
or below the checkpoint of each of them, and the hold count below the current instance. -/
theorem cleaned_covered {h : Host} (hr : Run P KeepsUp h) : ∀ x ∈ h.cleaned,
    (∀ sm ∈ userSMs h.sms, sm.checkpointInstanceID ≠ noCheckpoint ∧ x.1 ≤ sm.checkpointInstanceID.toNat) ∧
      x.1 + x.2 < h.node.instanceID := by
  have hcovered : h.Covered := by
    induction hr with
    | init _ _ hcleaned =>
      refine ⟨?_, ?_, ?_⟩ <;>
      · rw [hcleaned]
        exact nofun
    | step hr hok ih => exact ih.step hr.inStep hok
  intro x hx
  refine ⟨fun sm hsm => ?_, hcovered.current x hx⟩
  have hlt : x.1 < sm.next := hcovered.user x hx sm hsm
  have hne : sm.checkpointInstanceID ≠ noCheckpoint := by
    intro heq
    rw [StateMachine.next, heq, nextInstance_noCheckpoint] at hlt
    exact Nat.not_lt_zero _ hlt
  rw [StateMachine.next, nextInstance_of_ne hne] at hlt
  exact ⟨hne, Nat.lt_succ_iff.mp hlt⟩

/-! ## Runs by their events -/

/-- `KeepsUp` by computation. -/
def keepsUp (h : Host) : Bool :=
  match h.cleaner.pc with
  | .loop i cp _ =>
    decide (i + h.cleaner.holdCount < 2 ^ 64) &&
      (userSMs h.sms).all fun sm => decide (cp ≤ sm.next + h.cleaner.holdCount)
  | _ => true

theorem keepsUp_sound {h : Host} (hk : h.keepsUp = true) (e : HostEvent) : h.KeepsUp e := by
  rintro i cp ⟨env, maxChosen, -, hpc, -⟩
  unfold keepsUp at hk
  rw [hpc] at hk
  simpa using hk

def run (P : Params) (es : List HostEvent) (h : Host) : Host := es.foldl (fun h e => h.step P e) h

/-- The host keeps up in every state that the run passes. -/
def runKeepsUp (P : Params) : List HostEvent → Host → Bool
  | [], _ => true
  | e :: es, h => h.keepsUp && runKeepsUp P es (h.step P e)

theorem Run.of_events {es : List HostEvent} : ∀ {h : Host}, Run P KeepsUp h → runKeepsUp P es h = true →
    Run P KeepsUp (h.run P es) := by
  induction es with
  | nil => exact fun hr _ => hr
  | cons e es ih =>
    intro h hr hk
    simp only [runKeepsUp, Bool.and_eq_true] at hk
    exact ih (hr.step (keepsUp_sound hk.1 e)) hk.2

theorem Run.of_any_events {es : List HostEvent} : ∀ {h : Host}, Run P (fun _ _ => True) h →
    Run P (fun _ _ => True) (h.run P es) := by
  induction es with
  | nil => exact id
  | cons e es ih => exact fun hr => ih (hr.step trivial)

/-- A node at instance 401 with two state machines of the user, of which the first has a checkpoint up to 400. -/
def cleanedHost (second : UInt64) : Host where
  node := { Node.new ((Group.ofList [1]).config 1)
      { records := [(400, learnedRecord 400 ⟨1, 1⟩ (packPaxosValue [8] 2) 0),
          (0, learnedRecord 0 ⟨1, 1⟩ (packPaxosValue [7] 2) 0)] } with stopped := true }
  sms := [⟨1, 400⟩, ⟨2, second⟩]

/-- The cleaner is told to hold 300 instances and gets to its first deletion. -/
def cleanEvents : List HostEvent :=
  [.start {}, .setHoldPaxosLogCount 0, .clean {}, .clean {}, .clean {}, .clean {}]

theorem cleaned_covered_cleanEvents : ((cleanedHost 100).run twoSMs cleanEvents).cleaned = [(0, 300)] ∧
    0 + 300 < ((cleanedHost 100).run twoSMs cleanEvents).node.instanceID := by
  have hcleaned : ((cleanedHost 100).run twoSMs cleanEvents).cleaned = [(0, 300)] := by decide +kernel
  have hr : Run twoSMs KeepsUp ((cleanedHost 100).run twoSMs cleanEvents) :=
    Run.of_events (.init rfl rfl rfl) (by decide +kernel)
  refine ⟨hcleaned, (cleaned_covered hr (0, 300) ?_).2⟩
  rw [hcleaned]
  exact List.mem_singleton.mpr rfl

/-- The second state machine has no checkpoint at all, and the cleaner deletes instance 0, which only the log held. -/
theorem cleaned_not_covered : ∃ h, Run twoSMs (fun _ _ => True) h ∧ h.cleaner.holdCount = 300 ∧
    (0, 300) ∈ h.cleaned ∧ h.node.storage.get 0 = none ∧ ⟨2, noCheckpoint⟩ ∈ userSMs h.sms := by
  refine ⟨(cleanedHost noCheckpoint).run twoSMs cleanEvents, Run.of_any_events (.init rfl rfl rfl), ?_, ?_, ?_, ?_⟩
  · decide +kernel
  · decide +kernel
  · decide +kernel
  · have hsms : ((cleanedHost noCheckpoint).run twoSMs cleanEvents).sms = [⟨1, 400⟩, ⟨2, noCheckpoint⟩] := rfl
    rw [hsms]
    simp [userSMs, StateMachine.isInside, systemVSMID, masterVSMID]

end Host

end PhxPaxos
