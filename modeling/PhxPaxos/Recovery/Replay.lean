import PhxPaxos.Model.StateMachine
import PhxPaxos.Steps.RefineNode
import PhxPaxos.Model.Run

/-!
# Replaying the log after a restart

`Instance::Init` replays the log from one instance on for all state machines, the one after the largest of their
checkpoints (`SMFac::GetCheckpointInstanceID`). So every state machine gets the instances that its own checkpoint does not
cover exactly when the checkpoints are all the same (`recovers_iff`).
-/

namespace PhxPaxos

variable {P : Params}

/-- `Instance::Init` of a new process whose state machines report their checkpoints. -/
def initWith (P : Params) (sms : List StateMachine) (w : Proc) : Proc × Int :=
  instanceInit P (SMFac.start sms) { w with played := [] }

/-- The replay executed, one after the other and each with success, instances that include all from the checkpoint of
`sm` to `n`. -/
structure Recovers (sm : StateMachine) (played : List Execution) (n : Nat) : Prop where
  inOrder : ∃ start, played.map Execution.instanceID = List.range' start played.length
  ok : ∀ e ∈ played, e.ok = true
  covers : ∀ i, sm.next ≤ i → i < n → ∃ e ∈ played, e.instanceID = i

/-- What `Instance::Init` does when it succeeds. -/
theorem instanceInit_eq {cp : Nat} {w : Proc} (hret : (instanceInit P cp w).2 = 0) : ∃ w₁ w₂,
    CheckpointMgr.init cp { w with
      node.instanceID := (Acceptor.init w.node.storage).1, node.acceptor := (Acceptor.init w.node.storage).2 } = (w₁, 0) ∧
    initNowInstanceID P cp w₁ = (w₂, 0) ∧
    (instanceInit P cp w).1 = resetAskforLearnNoop (initLastCheckSum { w₂ with
      node.proposer.state.proposalID := w₂.node.acceptor.promiseBallot.proposalID + 1
      node.checkpointMgr.maxChosenInstanceID := w₂.node.instanceID }) := by
  revert hret
  unfold instanceInit
  simp only []
  generalize CheckpointMgr.init cp _ = r₁
  obtain ⟨w₁, ret₁⟩ := r₁
  simp only []
  split
  · exact fun h => absurd h ‹ret₁ ≠ 0›
  · rename_i h₁
    generalize hr₂ : initNowInstanceID P cp w₁ = r₂
    obtain ⟨w₂, ret₂⟩ := r₂
    simp only []
    split
    · exact fun h => absurd h ‹ret₂ ≠ 0›
    · rename_i h₂
      exact fun _ => ⟨w₁, w₂, by rw [not_not.mp h₁], by rw [hr₂, not_not.mp h₂], rfl⟩

/-- The end of `Instance::Init` sets timers and the last checksum. -/
theorem initEnd_eq (w : Proc) : ∃ timers now k checksum, resetAskforLearnNoop (initLastCheckSum w) =
    { w with
      node.lastChecksum := checksum
      node.ioLoop.timers := timers
      node.ioLoop.nowTimerID := now
      node.learner.askforlearnNoopTimerID := k } := by
  obtain ⟨checksum, hchecksum, -⟩ := initLastCheckSum_eq w
  obtain ⟨timers, now, k, -, he⟩ := resetAskforLearnNoop_eq (initLastCheckSum w)
  exact ⟨timers, now, k, checksum, by rw [he, hchecksum]⟩

/-- A process that starts replays the instances from `cp` to its own. -/
theorem instanceInit_played {cp : Nat} {w : Proc} (hw : w.played = []) (hret : (instanceInit P cp w).2 = 0) :
    PlayedFrom cp (instanceInit P cp w).1.played ∧
      cp + (instanceInit P cp w).1.played.length = (instanceInit P cp w).1.node.instanceID ∧
        ∀ e ∈ (instanceInit P cp w).1.played, e.ok = true := by
  obtain ⟨w₁, w₂, h₁, h₂, he⟩ := instanceInit_eq hret
  obtain ⟨timers, now, k, checksum, hend⟩ := initEnd_eq { w₂ with
    node.proposer.state.proposalID := w₂.node.acceptor.promiseBallot.proposalID + 1
    node.checkpointMgr.maxChosenInstanceID := w₂.node.instanceID }
  have hplayed₁ : w₁.played = [] := by
    obtain ⟨mgr, minChosen, env, hmgr⟩ := checkpointMgr_init_eq cp { w with
      node.instanceID := (Acceptor.init w.node.storage).1, node.acceptor := (Acceptor.init w.node.storage).2 }
    rw [h₁] at hmgr
    rw [show w₁ = _ from hmgr]
    exact hw
  obtain ⟨hplayed, hdone⟩ := initNowInstanceID_played (P := P) cp w₁ hplayed₁
  rw [h₂] at hplayed hdone
  rw [he, hend]
  exact ⟨hplayed, hdone rfl⟩

/-- **The replay reaches every state machine exactly when all checkpoints are the same.** -/
theorem recovers_iff (sms : List StateMachine) (w : Proc) (hret : (initWith P sms w).2 = 0) :
    (∀ sm ∈ userSMs sms, Recovers sm (initWith P sms w).1.played (initWith P sms w).1.node.instanceID) ↔
      ∀ sm ∈ userSMs sms, ∀ sm' ∈ userSMs sms, sm.checkpointInstanceID = sm'.checkpointInstanceID := by
  obtain ⟨hplayed, hlen, hok⟩ :=
    @instanceInit_played P (SMFac.start sms) { w with played := [] } rfl hret
  change PlayedFrom _ (initWith P sms w).1.played at hplayed
  change _ + (initWith P sms w).1.played.length = (initWith P sms w).1.node.instanceID at hlen
  change ∀ e ∈ (initWith P sms w).1.played, e.ok = true at hok
  have hmem (i : Nat) : (∃ e ∈ (initWith P sms w).1.played, e.instanceID = i) ↔
      SMFac.start sms ≤ i ∧ i < (initWith P sms w).1.node.instanceID := by
    rw [← hlen, ← List.mem_range'_1, ← hplayed.instances, List.mem_map]
  constructor
  · intro h
    -- the first instance that a checkpoint does not cover is replayed
    have hge : ∀ sm ∈ userSMs sms, SMFac.start sms ≤ sm.next := by
      intro sm hsm
      by_contra hlt
      have hlt : sm.next < (initWith P sms w).1.node.instanceID := by omega
      exact absurd ((hmem _).mp ((h sm hsm).covers _ le_rfl hlt)).1 (by omega)
    intro sm hsm sm' hsm'
    have heq : sm.next = SMFac.start sms := le_antisymm (SMFac.next_le_start_of_user hsm) (hge sm hsm)
    have heq' : sm'.next = SMFac.start sms := le_antisymm (SMFac.next_le_start_of_user hsm') (hge sm' hsm')
    exact nextInstance_injective (heq.trans heq'.symm)
  · intro hsame sm hsm
    refine ⟨⟨_, hplayed.instances⟩, hok, fun i hle hlt => (hmem i).mpr ⟨?_, hlt⟩⟩
    refine le_trans ?_ hle
    refine (SMFac.start_le_iff _).mpr fun sm' hsm' => ?_
    rw [SMFac.counted_of_user hsm] at hsm'
    exact (congrArg nextInstance (hsame sm' hsm' sm hsm)).le

/-- A library with the state machines 1 and 2 of the user. -/
def twoSMs : Params := { Params.plain with smids := [1, 2] }

/-- A node whose log holds the instances 1 to 3; at 3 it has only promised. -/
def replayedNode : Proc where
  node := Node.new ((Group.ofList [1]).config 1)
    { records := [(3, learnedRecord 3 ⟨2, 1⟩ [] 0), (2, learnedRecord 2 ⟨1, 1⟩ (packPaxosValue [8] 2) 0),
        (1, learnedRecord 1 ⟨1, 1⟩ (packPaxosValue [7] 1) 0)] }
  env := {}
  net := []
  hist := []

theorem recovers_iff_replayedNode :
    Recovers ⟨1, 0⟩ (initWith twoSMs [⟨1, 0⟩, ⟨2, 0⟩] replayedNode).1.played
      (initWith twoSMs [⟨1, 0⟩, ⟨2, 0⟩] replayedNode).1.node.instanceID := by
  have h := recovers_iff (P := twoSMs) [⟨1, 0⟩, ⟨2, 0⟩] replayedNode (by decide +kernel)
  refine h.mpr ?_ ⟨1, 0⟩ (by simp [userSMs, StateMachine.isInside, systemVSMID, masterVSMID])
  intro sm hsm sm' hsm'
  simp only [userSMs, List.mem_filter, List.mem_cons, List.not_mem_nil, or_false] at hsm hsm'
  rcases hsm.1 with rfl | rfl <;> rcases hsm'.1 with rfl | rfl <;> rfl

/-- The state machine 1 has a checkpoint up to instance 0 only, and the replay starts at 2: it misses instance 1, which
the log holds. -/
theorem replay_misses_instance :
    (initWith twoSMs [⟨1, 0⟩, ⟨2, 1⟩] replayedNode).2 = 0 ∧
      (∀ i ∈ [1, 2, 3], (replayedNode.readState i).isSome = true) ∧
      ¬ Recovers ⟨1, 0⟩ (initWith twoSMs [⟨1, 0⟩, ⟨2, 1⟩] replayedNode).1.played
        (initWith twoSMs [⟨1, 0⟩, ⟨2, 1⟩] replayedNode).1.node.instanceID := by
  refine ⟨by decide +kernel, by decide +kernel, fun h => ?_⟩
  have hcovers := h.covers 1 (by decide +kernel) (by decide +kernel)
  revert hcovers
  decide +kernel

end PhxPaxos
