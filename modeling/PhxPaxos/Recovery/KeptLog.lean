import PhxPaxos.Recovery.Cleaner
import PhxPaxos.Recovery.Minimum
import PhxPaxos.Recovery.Promises

/-!
# The log grows by one record an instance

A node whose log is not cleared and whose acceptor writes succeed only adds records, all of them of its current instance,
and leaves no instance without one (`handle_extends`). So the log of a running node has no other gaps than those that the
cleaner makes.
-/

namespace PhxPaxos

variable {P : Params} {can : PaxosMsg → Prop} {n : NodeID}

/-- The acceptor writes of node `n` succeeded, and its log was not cleared. -/
def LogKept (n : NodeID) (h : List Obs) : Prop := (∀ i v, .persist n i v false ∉ h) ∧ .clearAllLog n ∉ h

theorem LogKept.suffix {h h' : List Obs} (hsuf : h <:+ h') (hk : LogKept n h') : LogKept n h :=
  ⟨fun i v hm => hk.1 i v (hsuf.subset hm), fun hm => hk.2 (hsuf.subset hm)⟩

/-- `LogKept` by computation. -/
def logKept (n : NodeID) (h : List Obs) : Bool :=
  h.all fun
    | .persist m _ _ false => decide (m ≠ n)
    | .clearAllLog m => decide (m ≠ n)
    | _ => true

theorem logKept_sound {h : List Obs} (hk : logKept n h = true) : LogKept n h := by
  have hall := List.all_eq_true.mp hk
  constructor
  · intro i v hm
    simpa using hall _ hm
  · intro hm
    simpa using hall _ hm

/-! ## One step -/

/-- What is accepted or learned in memory has a record, and no record is of a later instance. -/
structure Core.Written (c : Core) : Prop where
  le : ∀ x ∈ c.records, x.1 ≤ c.instanceID
  accepted : c.acceptor.acceptedBallot.proposalID ≠ 0 → (c.records.lookup c.instanceID).isSome = true
  learned : c.learner.isLearned = true → (c.records.lookup c.instanceID).isSome = true

/-- What a step does to the log. -/
inductive LogMove (c c' : Core) : Prop
  | keep : c'.instanceID = c.instanceID → c'.records = c.records → LogMove c c'
  | write (r : AcceptorStateData) : c'.instanceID = c.instanceID → c'.records = (c.instanceID, r) :: c.records →
      LogMove c c'
  | advance : c'.instanceID = c.instanceID + 1 → c'.records = c.records →
      (c.records.lookup c.instanceID).isSome = true → LogMove c c'

section Step

variable {l l' : Loc}

theorem Act.logMove (h : Act P can n l l') (hs : starts n l'.hist = starts n l.hist) (hk : LogKept n l'.hist)
    (hw : l.core.Written) : LogMove l.core l'.core := by
  cases h with
  | promise | accept | learnValue => exact .write _ rfl rfl
  | promiseFail | acceptFail => exact absurd List.mem_cons_self (hk.1 _ _)
  | clearAllLog => exact absurd List.mem_cons_self hk.2
  | advance hlearned => exact .advance rfl rfl (hw.learned hlearned)
  | restart _ _ _ hstart => exact absurd hs hstart.starts_ne
  | _ => exact .keep rfl rfl

theorem LogMove.le (h : LogMove l.core l'.core) (hw : l.core.Written) :
    ∀ x ∈ l'.core.records, x.1 ≤ l'.core.instanceID := by
  cases h with
  | keep hi hr =>
    rw [hi, hr]
    exact hw.le
  | write r hi hr =>
    rw [hi, hr]
    exact List.forall_mem_cons.mpr ⟨le_rfl, hw.le⟩
  | advance hi hr =>
    rw [hi, hr]
    exact fun x hx => (hw.le x hx).trans (Nat.le_succ _)

theorem Act.written (h : Act P can n l l') (hs : starts n l'.hist = starts n l.hist) (hk : LogKept n l'.hist)
    (hw : l.core.Written) : l'.core.Written := by
  have hle := (h.logMove hs hk hw).le hw
  cases h with
  | promise | accept | learnValue =>
    exact ⟨hle, fun _ => by simp, fun _ => by simp⟩
  | promiseFail | acceptFail => exact absurd List.mem_cons_self (hk.1 _ _)
  | clearAllLog => exact absurd List.mem_cons_self hk.2
  | learnBySuccess _ hne => exact ⟨hle, hw.accepted, fun _ => hw.accepted hne⟩
  | advance => exact ⟨hle, fun hne => absurd rfl hne, fun hl => absurd hl Bool.false_ne_true⟩
  | restart _ _ _ hstart => exact absurd hs hstart.starts_ne
  | _ => exact ⟨hle, hw.accepted, hw.learned⟩

end Step

/-! ## A chain of steps -/

/-- The log of `c` goes on where the records `old` were at instance `i₀`: before it nothing changed, no record is lost, and
every instance passed has one. -/
structure Extends (i₀ : Nat) (old : List (Nat × AcceptorStateData)) (c : Core) : Prop where
  le : i₀ ≤ c.instanceID
  before : ∀ i < i₀, c.records.lookup i = old.lookup i
  kept : ∀ i, (old.lookup i).isSome = true → (c.records.lookup i).isSome = true
  passed : ∀ i, i₀ ≤ i → i < c.instanceID → (c.records.lookup i).isSome = true

section Chain

variable {i₀ : Nat} {old : List (Nat × AcceptorStateData)} {c c' : Core}

theorem lookup_cons_isSome {i j : Nat} {r : AcceptorStateData} {records : List (Nat × AcceptorStateData)}
    (h : (records.lookup i).isSome = true) : (((j, r) :: records).lookup i).isSome = true := by
  rw [List.lookup_cons]
  split
  · rfl
  · exact h

theorem Extends.refl : Extends c.instanceID c.records c :=
  ⟨le_rfl, fun _ _ => rfl, fun _ => id, fun _ hle hlt => absurd hlt (Nat.not_lt.mpr hle)⟩

theorem Extends.move (he : Extends i₀ old c) (h : LogMove c c') : Extends i₀ old c' := by
  cases h with
  | keep hi hr => exact ⟨hi ▸ he.le, hr ▸ he.before, hr ▸ he.kept, hr ▸ hi ▸ he.passed⟩
  | write r hi hr =>
    refine ⟨hi ▸ he.le, fun i hlt => ?_, fun i hi₀ => ?_, fun i hle hlt => ?_⟩
    · have hne : (i == c.instanceID) = false := by
        have := he.le
        simp only [beq_eq_false_iff_ne]
        omega
      rw [hr, List.lookup_cons, hne]
      exact he.before i hlt
    · rw [hr]
      exact lookup_cons_isSome (he.kept i hi₀)
    · rw [hr]
      exact lookup_cons_isSome (he.passed i hle (hi ▸ hlt))
  | advance hi hr hsome =>
    refine ⟨hi ▸ he.le.trans (Nat.le_succ _), hr ▸ he.before, hr ▸ he.kept, fun i hle hlt => ?_⟩
    rw [hr]
    rcases Nat.lt_succ_iff_lt_or_eq.mp (hi ▸ hlt) with hlt | rfl
    · exact he.passed i hle hlt
    · exact hsome

theorem Chain.extends {l l' : Loc} (h : Chain P can n l l') (hk : LogKept n l'.hist) (hw : l.core.Written) :
    l'.core.Written ∧ Extends l.core.instanceID l.core.records l'.core := by
  induction h with
  | refl => exact ⟨hw, .refl⟩
  | tail _ hact ih =>
    obtain ⟨hact, hs⟩ := hact
    obtain ⟨hw', he⟩ := ih (hk.suffix hact.hist_suffix)
    exact ⟨hact.written hs hk hw', he.move (hact.logMove hs hk hw')⟩

end Chain

/-- **What a running node handles only adds to its log**, as long as the log is not cleared and the acceptor writes
succeed. -/
theorem handle_extends {w : Proc} {kind : EventKind} (hkind : ∀ cp, kind ≠ .restart cp)
    (hcommit : ∀ v, w.node.commitCtx.value = some v → v ≠ []) (hk : LogKept w.me (handle P kind w).hist)
    (hw : (w.node.core none).Written) :
    ((handle P kind w).node.core none).Written ∧
      Extends w.node.instanceID w.node.storage.records ((handle P kind w).node.core none) :=
  Chain.extends (l := w.loc none)
    (@handle_chain P (fun _ => True) w.me w rfl kind hkind (fun _ _ _ => trivial) (fun _ _ => trivial) hcommit) hk hw

/-! ## A start -/

/-- The stored minimum, `0` when there is none. -/
def LogStorage.minimum (s : LogStorage) : Nat := s.minChosenInstanceID.getD 0

/-- Where a start moves the stored minimum to. -/
def LogStorage.fixed (s : LogStorage) (cp : Nat) : Nat := fixMinChosenInstanceID s cp deleteSaveInterval s.minimum

/-- The probing passes over missing records before the checkpoint, and ends at a record, at the checkpoint or after `k`
instances. -/
theorem fixMin_spec (s : LogStorage) (cp : Nat) (k : Nat) : ∀ i, i ≤ fixMinChosenInstanceID s cp k i ∧
    fixMinChosenInstanceID s cp k i ≤ i + k ∧
    (∀ j, i ≤ j → j < fixMinChosenInstanceID s cp k i → j < cp ∧ s.get j = none) ∧
    (fixMinChosenInstanceID s cp k i = i + k ∨ cp ≤ fixMinChosenInstanceID s cp k i ∨
      (s.get (fixMinChosenInstanceID s cp k i)).isSome = true) := by
  induction k with
  | zero => exact fun i => ⟨le_rfl, le_rfl, fun j hle hlt => absurd hlt (Nat.not_lt.mpr hle), Or.inl rfl⟩
  | succ k ih =>
    intro i
    unfold fixMinChosenInstanceID
    split
    · exact ⟨le_rfl, Nat.le_add_right _ _, fun j hle hlt => absurd hlt (Nat.not_lt.mpr hle), Or.inr (Or.inl ‹_›)⟩
    · rename_i hcp
      split
      · rename_i hnone
        obtain ⟨hge, hle, hpassed, hend⟩ := ih (i + 1)
        refine ⟨(Nat.le_succ i).trans hge, hle.trans (by omega), fun j hj hlt => ?_, ?_⟩
        · rcases hj.eq_or_lt with rfl | hj
          · exact ⟨Nat.lt_of_not_le hcp, hnone⟩
          · exact hpassed j hj hlt
        · rcases hend with hend | hend
          · exact Or.inl (by omega)
          · exact Or.inr hend
      · rename_i hsome
        refine ⟨le_rfl, Nat.le_add_right _ _, fun j hle hlt => absurd hlt (Nat.not_lt.mpr hle), Or.inr (Or.inr ?_)⟩
        rw [hsome]
        rfl

/-- `CheckpointMgr::Init` stores the repaired minimum and keeps it in memory, or fails. -/
theorem checkpointMgr_init_minimum (cp : Nat) (w : Proc) :
    (CheckpointMgr.init cp w).1.node.storage.records = w.node.storage.records ∧
    ((CheckpointMgr.init cp w).2 = 0 ∧
        (CheckpointMgr.init cp w).1.node.storage.minimum = w.node.storage.fixed cp ∧
        (CheckpointMgr.init cp w).1.node.checkpointMgr.minChosenInstanceID = w.node.storage.fixed cp ∨
      (CheckpointMgr.init cp w).2 ≠ 0 ∧ (CheckpointMgr.init cp w).1.node.storage.minimum = w.node.storage.minimum) := by
  have hge : w.node.storage.minimum ≤ w.node.storage.fixed cp := (fixMin_spec _ _ _ _).1
  unfold CheckpointMgr.init
  simp only []
  split
  · unfold setMinChosenInstanceID
    split
    · exact ⟨rfl, Or.inl ⟨rfl, rfl, rfl⟩⟩
    · exact ⟨rfl, Or.inr ⟨(by decide : (-1 : Int) ≠ 0), rfl⟩⟩
  · rename_i hle
    have heq : w.node.storage.minimum = w.node.storage.fixed cp := le_antisymm hge (Nat.not_lt.mp hle)
    exact ⟨rfl, Or.inl ⟨rfl, heq, heq⟩⟩

/-- The replay, or a jump by at most one instance, leaves the minimum alone. -/
theorem initNowInstanceID_minimum {cp : Nat} {w : Proc} (hcp : cp ≤ w.node.instanceID + 1) :
    (initNowInstanceID P cp w).1.node.storage.records = w.node.storage.records ∧
      (initNowInstanceID P cp w).1.minimum = w.minimum := by
  unfold initNowInstanceID
  split
  · split
    · exact ⟨rfl, rfl⟩
    · obtain ⟨vsm, stored, hnode, -⟩ :=
        (@playLog_executes P (fun _ => True) w.me (w.node.instanceID - cp) cp w rfl).only
      unfold Proc.minimum
      rw [hnode]
      exact ⟨rfl, rfl⟩
  · split
    · have hlogic : protectionLogic cp w.node.instanceID w = (w, 0) := if_pos hcp
      rw [hlogic]
      exact ⟨rfl, rfl⟩
    · exact ⟨rfl, rfl⟩

/-- The acceptor that a start reads back has accepted only what is in the record of its instance. -/
theorem Acceptor.init_accepted (s : LogStorage) (h : (Acceptor.init s).2.acceptedBallot.proposalID ≠ 0) :
    (s.records.lookup (Acceptor.init s).1).isSome = true := by
  revert h
  unfold Acceptor.init LogStorage.get
  cases s.getMaxInstanceID with
  | none => exact fun h => absurd rfl h
  | some i =>
    simp only []
    cases hget : s.records.lookup i with
    | none => exact fun h => absurd rfl h
    | some r =>
      intro _
      rw [hget]
      rfl

/-- What a start makes of the log: the records stay, and the minimum is repaired, unless it fails before. -/
structure StartLog (cp : Nat) (s : LogStorage) (node : Node) : Prop where
  records : node.storage.records = s.records
  minimum : node.storage.minimum = s.fixed cp
  cached : node.checkpointMgr.minChosenInstanceID = s.fixed cp
  instanceID : node.instanceID = max cp (Acceptor.init s).1
  written : (node.core none).Written

/-- Where `Instance::Init` succeeds. -/
theorem instanceInit_startLog {cp : Nat} {w : Proc} (hcp : cp ≤ (Acceptor.init w.node.storage).1 + 1)
    (hlearned : w.node.learner.state.isLearned = false) (hplayed : w.played = []) (hret : (instanceInit P cp w).2 = 0) :
    StartLog cp w.node.storage (instanceInit P cp w).1.node := by
  obtain ⟨w₁, w₂, h₁, h₂, he⟩ := instanceInit_eq hret
  obtain ⟨-, hlen, -⟩ := instanceInit_played hplayed hret
  obtain ⟨timers, now, k, checksum, hend⟩ := initEnd_eq { w₂ with
    node.proposer.state.proposalID := w₂.node.acceptor.promiseBallot.proposalID + 1
    node.checkpointMgr.maxChosenInstanceID := w₂.node.instanceID }
  rw [he, hend] at hlen ⊢
  -- the minimum is repaired first
  have hmgr := checkpointMgr_init_minimum cp { w with
    node.instanceID := (Acceptor.init w.node.storage).1, node.acceptor := (Acceptor.init w.node.storage).2 }
  obtain ⟨mgr, minChosen, env, hinit⟩ := checkpointMgr_init_eq cp { w with
    node.instanceID := (Acceptor.init w.node.storage).1, node.acceptor := (Acceptor.init w.node.storage).2 }
  rw [h₁] at hmgr hinit
  obtain ⟨hrecords₁, hmgr⟩ := hmgr
  obtain ⟨-, hmin₁, hcached₁⟩ := hmgr.resolve_right fun h => h.1 rfl
  simp only at hrecords₁ hmin₁ hcached₁ hinit
  have hid₁ : w₁.node.instanceID = (Acceptor.init w.node.storage).1 := by rw [hinit]
  have hacceptor₁ : w₁.node.acceptor = (Acceptor.init w.node.storage).2 := by rw [hinit]
  have hlearner₁ : w₁.node.learner = w.node.learner := by rw [hinit]
  -- then the log is replayed
  have hnow := @initNowInstanceID_minimum P cp w₁ (by rw [hid₁]; exact hcp)
  have hstarts := @initNowInstanceID_starts P w₁.me w₁ rfl cp
  rw [h₂] at hnow hstarts
  obtain ⟨hrecords₂, hmin₂⟩ := hnow
  obtain ⟨vsm, stored, mgr', minChosen', i', a', hnode⟩ := hstarts.node
  have hlearner₂ : w₂.node.learner = w.node.learner := (congrArg Node.learner hnode).trans hlearner₁
  have hplace := hstarts.place
  rw [hid₁, hacceptor₁] at hplace
  simp only at hplace
  have hrecords : w₂.node.storage.records = w.node.storage.records := hrecords₂.trans hrecords₁
  have hid : w₂.node.instanceID = max cp (Acceptor.init w.node.storage).1 := by
    simp only at hlen
    rcases hplace with ⟨heq, -⟩ | ⟨hlt, heq, -⟩
    · rw [heq] at hlen ⊢
      exact (max_eq_right (by omega)).symm
    · rw [heq] at hlt ⊢
      exact (max_eq_left hlt.le).symm
  refine ⟨hrecords, (congrArg (·.2.getD 0) hmin₂).trans hmin₁, (congrArg (·.1) hmin₂).trans hcached₁, hid, ?_, ?_, ?_⟩
  · intro x hx
    have hle := @Acceptor.init_records_le w.node.storage.records x (hrecords ▸ hx)
    rw [← Acceptor.init_records] at hle
    change x.1 ≤ w₂.node.instanceID
    omega
  · intro hne
    change (w₂.node.storage.records.lookup w₂.node.instanceID).isSome = true
    rcases hplace with ⟨heq, hacceptor⟩ | ⟨-, -, hacceptor⟩
    · rw [hrecords, heq]
      refine Acceptor.init_accepted _ ?_
      rw [← hacceptor]
      exact hne
    · change w₂.node.acceptor.acceptedBallot.proposalID ≠ 0 at hne
      rw [hacceptor] at hne
      exact absurd rfl hne
  · intro htrue
    change w₂.node.learner.state.isLearned = true at htrue
    rw [hlearner₂, hlearned] at htrue
    exact absurd htrue Bool.false_ne_true

/-- Where it fails. -/
theorem instanceInit_failed {cp : Nat} {w : Proc} (hcp : cp ≤ (Acceptor.init w.node.storage).1 + 1)
    (hret : (instanceInit P cp w).2 ≠ 0) :
    (instanceInit P cp w).1.node.storage.records = w.node.storage.records ∧
      ((instanceInit P cp w).1.node.storage.minimum = w.node.storage.minimum ∨
        (instanceInit P cp w).1.node.storage.minimum = w.node.storage.fixed cp) := by
  generalize hw : ({ w with
    node.instanceID := (Acceptor.init w.node.storage).1, node.acceptor := (Acceptor.init w.node.storage).2 } : Proc) = w₀
  obtain ⟨hrecords₁, hmgr⟩ := checkpointMgr_init_minimum cp w₀
  obtain ⟨mgr, minChosen, env, hinit⟩ := checkpointMgr_init_eq cp w₀
  have hstorage : w₀.node.storage = w.node.storage := by rw [← hw]
  rw [hstorage] at hrecords₁ hmgr
  by_cases h₁ : (CheckpointMgr.init cp w₀).2 = 0
  · obtain ⟨-, hmin₁, -⟩ := hmgr.resolve_right fun h => h.1 h₁
    have hid₁ : (CheckpointMgr.init cp w₀).1.node.instanceID = (Acceptor.init w.node.storage).1 := by rw [hinit, ← hw]
    obtain ⟨hrecords₂, hmin₂⟩ := @initNowInstanceID_minimum P cp (CheckpointMgr.init cp w₀).1 (by rw [hid₁]; exact hcp)
    have heq : instanceInit P cp w = initNowInstanceID P cp (CheckpointMgr.init cp w₀).1 := by
      revert hret
      unfold instanceInit
      simp only [hw]
      rw [if_neg (not_not.mpr h₁)]
      split
      · exact fun _ => rfl
      · exact fun h => absurd rfl h
    rw [heq]
    exact ⟨hrecords₂.trans hrecords₁, Or.inr ((congrArg (·.2.getD 0) hmin₂).trans hmin₁)⟩
  · have heq : instanceInit P cp w = CheckpointMgr.init cp w₀ := by
      unfold instanceInit
      simp only [hw]
      exact if_pos h₁
    rw [heq]
    exact ⟨hrecords₁, Or.inl (hmgr.resolve_left fun h => h₁ h.1).2⟩

/-- **A start repairs the minimum and keeps the log**, or it fails and the node is stopped. -/
theorem restart_log {cp : Nat} {w : Proc} (hcp : cp ≤ (Acceptor.init w.node.storage).1 + 1) :
    StartLog cp w.node.storage (restart P cp w).node ∨
      ∃ storage, (restart P cp w).node = { w.node with storage := storage, stopped := true } ∧
        storage.records = w.node.storage.records ∧
        (storage.minimum = w.node.storage.minimum ∨ storage.minimum = w.node.storage.fixed cp) := by
  unfold restart
  simp only []
  generalize hw : ({ w.log (.restart w.me w.node.instanceID cp) with
    node := Node.new w.node.config w.node.storage
    played := [] } : Proc) = w'
  have hstorage : w'.node.storage = w.node.storage := by rw [← hw]; rfl
  by_cases hret : (instanceInit P cp w').2 = 0
  · left
    rw [if_neg (not_not.mpr hret), ← hstorage]
    exact instanceInit_startLog (by rw [hstorage]; exact hcp) (by rw [← hw]; rfl) (by rw [← hw]) hret
  · right
    rw [if_pos hret, ← hstorage]
    obtain ⟨hrecords, hmin⟩ := instanceInit_failed (by rw [hstorage]; exact hcp) hret
    exact ⟨_, rfl, hrecords, hmin⟩

end PhxPaxos
