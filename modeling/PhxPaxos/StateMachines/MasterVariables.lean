import PhxPaxos.Abstract.Replay
import PhxPaxos.Model.Master

/-!
# Master variables under replay and checkpoint

An entry is executed on the version that the entries before it leave, so a node that executes the log, is killed,
replays it and takes over the variables of other nodes stores what a straight execution stores, and never an older
version (`master_variables_converge`). It needs that a node gives away what it has stored: `Init` and
`UpdateByCheckpoint` leave the lease, and the node itself as the master, out of the memory that a checkpoint is made
from, and the variables of such a node are other ones (`master_variables_forgotten`).
-/

namespace PhxPaxos

/-- The version of stored variables. -/
def masterVersionOf (stored : Option MasterVariables) : Nat := (stored.map MasterVariables.version).getD noVersion

namespace MasterStateMachine

/-! ## One entry -/

/-- What the operation of an instance leaves in the storage. -/
def learnt (instanceID : Nat) (op : MasterOperator) (stored : Option MasterVariables) : Option MasterVariables :=
  if op.operator = masterOperatorTypeComplete ∧ op.version = masterVersionOf stored then
    some ⟨op.nodeID, instanceID, toUInt32 op.timeout⟩
  else stored

/-- The version in memory is that of the stored variables. -/
structure Stores (stored : Option MasterVariables) (sm : MasterStateMachine) : Prop where
  mvStore : sm.mvStore = stored
  masterVersion : sm.masterVersion = masterVersionOf stored

variable {sm : MasterStateMachine} {stored : Option MasterVariables}

theorem Stores.fresh (myNodeID : NodeID) : Stores none { myNodeID } := ⟨rfl, rfl⟩

theorem Stores.restart (h : Stores stored sm) (now : Nat) : Stores stored (sm.restart now) := by
  obtain ⟨hstore, -⟩ := h
  subst hstore
  unfold MasterStateMachine.restart MasterStateMachine.init
  cases hv : sm.mvStore with
  | none => exact ⟨rfl, rfl⟩
  | some v =>
    simp only []
    split
    · exact ⟨rfl, rfl⟩
    · exact ⟨rfl, rfl⟩

/-- The state after an operation that applies. -/
def learned (now instanceID : Nat) (op : MasterOperator) (absMasterTimeout : Nat) (sm : MasterStateMachine) :
    MasterStateMachine :=
  { sm with
    mvStore := some ⟨op.nodeID, instanceID, toUInt32 op.timeout⟩
    masterNodeID := op.nodeID
    absExpireTime := if op.nodeID = sm.myNodeID then absMasterTimeout else toUInt64 (now + op.timeout)
    leaseTime := op.timeout
    masterVersion := instanceID }

/-- An operation whose last version, if it has one, is that of the variables at hand or older than the operation is. -/
theorem executeOperator_eq {instanceID : Nat} {op : MasterOperator}
    (hlast : op.lastversion = 0 ∨ instanceID ≤ sm.masterVersion ∨ op.lastversion = sm.masterVersion)
    (put : Int) (now : Nat) (ctx : Option Nat) :
    sm.executeOperator put now instanceID op ctx =
      if op.operator = masterOperatorTypeComplete ∧ op.version = sm.masterVersion then
        if put ≠ 0 then (false, sm) else (true, sm.learned now instanceID op (ctx.getD 0))
      else (true, sm) := by
  have hfix : ¬ (op.lastversion ≠ 0 ∧ sm.masterVersion < instanceID ∧ op.lastversion ≠ sm.masterVersion) := by
    rintro ⟨h₀, hlt, hne⟩
    rcases hlast with hlast | hlast | hlast
    · exact h₀ hlast
    · exact absurd hlt (not_lt.mpr hlast)
    · exact hne hlast
  unfold executeOperator learnMaster updateMasterToStore
  simp only [if_neg hfix]
  by_cases hoperator : op.operator = masterOperatorTypeComplete
  · by_cases hsame : op.version = sm.masterVersion
    · by_cases hput : put = 0
      · simp only [hoperator, hsame, hput, if_true, ne_eq, not_true_eq_false, if_false, and_self]
        rfl
      · simp only [hoperator, hsame, hput, if_true, ne_eq, not_true_eq_false, not_false_eq_true, if_false, and_self]
        rfl
    · simp only [hoperator, hsame, if_true, ne_eq, not_false_eq_true, not_true_eq_false, if_false, and_false]
  · simp only [hoperator, if_false, false_and]

theorem Stores.executeOperator (h : Stores stored sm) {instanceID : Nat} {op : MasterOperator}
    (hlast : op.lastversion = 0 ∨ instanceID ≤ masterVersionOf stored ∨ op.lastversion = masterVersionOf stored)
    (now : Nat) (ctx : Option Nat) :
    (sm.executeOperator 0 now instanceID op ctx).1 = true ∧
      Stores (learnt instanceID op stored) (sm.executeOperator 0 now instanceID op ctx).2 := by
  rw [executeOperator_eq (by rw [h.masterVersion]; exact hlast), h.masterVersion, if_neg (not_not.mpr rfl), learnt]
  split
  · exact ⟨rfl, rfl, rfl⟩
  · exact ⟨rfl, h⟩

theorem execute_of_parse {value : Bytes} {op : MasterOperator} (hop : parseMasterOperator value = some op) (put : Int)
    (now instanceID : Nat) (ctx : Option Nat) :
    sm.execute put now instanceID value ctx = sm.executeOperator put now instanceID op ctx := by
  unfold execute
  rw [hop]

/-- The variables of a checkpoint are stored when they are newer. -/
theorem updateByCheckpoint_stores (h : Stores stored sm) (t : MasterStateMachine) (now : Nat) :
    Stores (if t.masterVersion = noVersion ∨ t.masterVersion ≤ sm.masterVersion ∧ sm.masterVersion ≠ noVersion then stored
      else some t.masterVariables) (sm.updateByCheckpoint 0 now t.getCheckpointBuffer).2 := by
  unfold updateByCheckpoint getCheckpointBuffer
  by_cases hinit : t.masterVersion = noVersion
  · simp only [hinit, true_or, if_true, List.length_nil]
    exact h
  · have hlen : (serializeMasterVariables t.masterVariables).length ≠ 0 :=
      fun h => serializeMasterVariables_ne_nil _ (List.length_eq_zero_iff.mp h)
    have hv : t.masterVariables.version = t.masterVersion := rfl
    simp only [hinit, false_or, if_false, hlen, parse_serializeMasterVariables, hv]
    by_cases hlag : t.masterVersion ≤ sm.masterVersion ∧ sm.masterVersion ≠ noVersion
    · rw [if_pos hlag, if_pos hlag]
      exact h
    · rw [if_neg hlag, if_neg hlag]
      simp only [updateMasterToStore, ne_eq, not_true_eq_false, if_false]
      split
      · exact ⟨rfl, rfl⟩
      · exact ⟨rfl, rfl⟩

/-! ## What operations leave in the storage -/

section Written

/-- The variables that the operations below `k` leave in the storage, `ops` being the operations by instance id. -/
def written (ops : Nat → Option MasterOperator) : Nat → Option MasterVariables
  | 0 => none
  | k + 1 =>
    match ops k with
    | none => written ops k
    | some op => learnt k op (written ops k)

variable {ops : Nat → Option MasterOperator}

theorem written_succ {k : Nat} {op : MasterOperator} (h : ops k = some op) :
    written ops (k + 1) = learnt k op (written ops k) := by
  simp only [written, h]

theorem written_succ_none {k : Nat} (h : ops k = none) : written ops (k + 1) = written ops k := by
  simp only [written, h]

theorem written_congr {ops' : Nat → Option MasterOperator} {k : Nat} (h : ∀ i < k, ops i = ops' i) :
    written ops k = written ops' k := by
  induction k with
  | zero => rfl
  | succ k ih => simp only [written, h k (Nat.lt_succ_self k), ih fun i hi => h i (Nat.lt_succ_of_lt hi)]

/-- Either nothing was written since, or what was written has a version from there on. -/
theorem written_since {k j : Nat} (hkj : k ≤ j) :
    written ops j = written ops k ∨ ∃ v, written ops j = some v ∧ k ≤ v.version ∧ v.version < j := by
  induction j, hkj using Nat.le_induction with
  | base => exact Or.inl rfl
  | succ j hkj ih =>
    have hold (h : written ops (j + 1) = written ops j) : written ops (j + 1) = written ops k ∨
        ∃ v, written ops (j + 1) = some v ∧ k ≤ v.version ∧ v.version < j + 1 := by
      rw [h]
      exact ih.imp_right fun ⟨v, hv, hk, hj⟩ => ⟨v, hv, hk, Nat.lt_succ_of_lt hj⟩
    cases hop : ops j with
    | none => exact hold (written_succ_none hop)
    | some op =>
      by_cases happly : op.operator = masterOperatorTypeComplete ∧ op.version = masterVersionOf (written ops j)
      · refine Or.inr ⟨⟨op.nodeID, j, toUInt32 op.timeout⟩, ?_, hkj, Nat.lt_succ_self j⟩
        rw [written_succ hop, learnt, if_pos happly]
      · refine hold ?_
        rw [written_succ hop, learnt, if_neg happly]

theorem version_lt {k : Nat} {v : MasterVariables} (h : written ops k = some v) : v.version < k := by
  rcases @written_since ops _ _ (Nat.zero_le k) with hk | ⟨w, hw, -, hlt⟩
  · rw [h] at hk
    cases hk
  · rw [h, Option.some.injEq] at hw
    exact hw ▸ hlt

theorem masterVersionOf_some {k : Nat} {v : MasterVariables} (h : written ops k = some v) :
    masterVersionOf (written ops k) = v.version := by
  rw [h]
  rfl

/-- The last version of an operation is 0, or that of the variables at hand, or older than the operation is. -/
theorem lastversion_past {k j : Nat} (hkj : k ≤ j) {op : MasterOperator}
    (hlast : op.lastversion = 0 ∨ op.lastversion = masterVersionOf (written ops k)) :
    op.lastversion = 0 ∨ k ≤ masterVersionOf (written ops j) ∨ op.lastversion = masterVersionOf (written ops j) := by
  rcases hlast with hlast | hlast
  · exact Or.inl hlast
  · rcases @written_since ops _ _ hkj with hsame | ⟨v, hv, hk, -⟩
    · exact Or.inr (Or.inr (hsame ▸ hlast))
    · exact Or.inr (Or.inl (masterVersionOf_some hv ▸ hk))

/-- An operation that was seen does not apply again, unless it is made on the version of a later one. -/
theorem not_applies_past {i k : Nat} (hik : i < k) (hk : k ≤ noVersion) {op : MasterOperator} (hop : ops i = some op)
    (hearlier : op.version = masterVersionOf (written ops k) → op.version = noVersion ∨ op.version ≤ i) :
    ¬ (op.operator = masterOperatorTypeComplete ∧ op.version = masterVersionOf (written ops k)) := by
  rintro ⟨hoperator, hversion⟩
  have hle := hearlier hversion
  rcases @written_since ops _ _ (Nat.succ_le_of_lt hik) with hsame | ⟨v, hv, hlt, -⟩
  · rw [hsame, written_succ hop] at hversion
    by_cases happly : op.version = masterVersionOf (written ops i)
    · -- it was applied to the variables of an earlier instance, and now they are its own
      rw [learnt, if_pos ⟨hoperator, happly⟩] at hversion
      have hi : op.version = i := hversion
      cases hw : written ops i with
      | none =>
        rw [hw] at happly
        have hnone : i = noVersion := hi.symm.trans happly
        exact absurd (hik.trans_le hk) (by rw [hnone]; exact lt_irrefl _)
      | some w =>
        rw [masterVersionOf_some hw, hi] at happly
        exact absurd (version_lt hw) (by rw [← happly]; exact lt_irrefl _)
    · rw [learnt, if_neg fun h => happly h.2] at hversion
      exact happly hversion
  · have hlt' := version_lt hv
    rw [masterVersionOf_some hv] at hversion
    rcases hle with hnone | hle
    · omega
    · omega

end Written

end MasterStateMachine

/-! ## The log -/

/-- The values of the master state machine by instance id. -/
def masterValueAt (values : List (Option Bytes)) (instanceID : Nat) : Option Bytes := (values[instanceID]?).join

/-- The node after the first values, executed in order. -/
def masterStraight (values : List (Option Bytes)) (myNodeID : NodeID) : Nat → MasterStateMachine
  | 0 => { myNodeID }
  | k + 1 =>
    match masterValueAt values k with
    | none => masterStraight values myNodeID k
    | some value => ((masterStraight values myNodeID k).execute 0 0 k value none).2

/-- A log by instance id, `none` for a value of another state machine. The last version of each master operation, where
it is set, is the version that the operations before it leave. -/
structure MasterLog where
  values : List (Option Bytes)
  length_le : values.length ≤ noVersion
  operation : ∀ {k : Nat} {value : Bytes}, masterValueAt values k = some value → ∃ op, parseMasterOperator value = some op ∧
    (op.lastversion = 0 ∨ op.lastversion = (masterStraight values nullnode k).masterVersion)

namespace MasterLog

open MasterStateMachine

variable (log : MasterLog)

def operationAt (k : Nat) : Option MasterOperator := (masterValueAt log.values k).bind parseMasterOperator

/-- The node after the first entries. -/
def straight (myNodeID : NodeID) (k : Nat) : MasterStateMachine := masterStraight log.values myNodeID k

/-- No operation is made on the version that a later one leaves. -/
def MadeOnEarlier : Prop :=
  ∀ {k j : Nat} {op : MasterOperator}, log.operationAt k = some op → op.version = (log.straight nullnode j).masterVersion →
    op.version = noVersion ∨ op.version ≤ k

/-- Nodes that execute the log, are killed and started again at any time, and take over the variables of others. -/
def replicated (myNodeID : NodeID → NodeID) : Replicated NodeID MasterStateMachine where
  length := log.values.length
  init n sm := sm = { myNodeID := myNodeID n }
  exec _ k sm sm' :=
    match masterValueAt log.values k with
    | none => sm' = sm
    | some value => ∃ now ctx, sm' = (sm.execute 0 now k value ctx).2
  recover _ sm sm' := ∃ now, sm' = sm.restart now
  adopt _ sm t sm' := ∃ now, sm' = (sm.updateByCheckpoint 0 now t.getCheckpointBuffer).2

variable {log}

theorem operationAt_none {k : Nat} (h : masterValueAt log.values k = none) : log.operationAt k = none := by
  rw [operationAt, h, Option.bind_none]

theorem operationAt_some {k : Nat} {value : Bytes} (h : masterValueAt log.values k = some value) :
    ∃ op, parseMasterOperator value = some op ∧ log.operationAt k = some op ∧
      (op.lastversion = 0 ∨ op.lastversion = (log.straight nullnode k).masterVersion) := by
  obtain ⟨op, hop, hlast⟩ := log.operation h
  exact ⟨op, hop, by rw [operationAt, h, Option.bind_some, hop], hlast⟩

/-- The straight execution stores what is written, whatever the node. -/
theorem straight_stores (myNodeID : NodeID) (k : Nat) : (log.straight myNodeID k).Stores (written log.operationAt k) := by
  induction k generalizing myNodeID with
  | zero => exact .fresh myNodeID
  | succ k ih =>
    unfold straight masterStraight
    cases hvalue : masterValueAt log.values k with
    | none =>
      rw [written_succ_none (operationAt_none hvalue)]
      exact ih myNodeID
    | some value =>
      obtain ⟨op, hop, hat, hlast⟩ := operationAt_some hvalue
      rw [(ih nullnode).masterVersion] at hlast
      simp only [execute_of_parse hop, written_succ hat]
      exact ((ih myNodeID).executeOperator (hlast.imp_right Or.inr) 0 none).2

/-- An operation that was seen leaves the variables as they are. -/
theorem learnt_past (hearlier : log.MadeOnEarlier) {i k : Nat} (hik : i < k) (hk : k ≤ log.values.length)
    {op : MasterOperator} (hop : log.operationAt i = some op) :
    learnt i op (written log.operationAt k) = written log.operationAt k := by
  refine if_neg (not_applies_past hik (hk.trans log.length_le) hop fun hversion => ?_)
  exact hearlier hop (hversion.trans (@straight_stores log nullnode k).masterVersion.symm)

theorem version_ne_noVersion {k : Nat} (hk : k ≤ log.values.length) {v : MasterVariables}
    (h : written log.operationAt k = some v) : v.version ≠ noVersion :=
  ((version_lt h).trans_le (hk.trans log.length_le)).ne

/-! ## Replicas of the log -/

/-- When the variables are taken over, the memory they come from is what the node has stored. -/
def GivesStored (sm t : MasterStateMachine) : Prop :=
  t.masterVersion = noVersion ∨ (t.masterVersion ≤ sm.masterVersion ∧ sm.masterVersion ≠ noVersion) ∨
    t.mvStore = some t.masterVariables

theorem stores_execute (hearlier : log.MadeOnEarlier) {i k : Nat} (hik : i < k) (hk : k ≤ log.values.length)
    {sm : MasterStateMachine} (h : sm.Stores (written log.operationAt k)) {value : Bytes}
    (hvalue : masterValueAt log.values i = some value) (now : Nat) (ctx : Option Nat) :
    (sm.execute 0 now i value ctx).2.Stores (written log.operationAt k) := by
  obtain ⟨op, hop, hat, hlast⟩ := operationAt_some hvalue
  rw [(straight_stores nullnode i).masterVersion] at hlast
  rw [execute_of_parse hop]
  have hexecute := (h.executeOperator (lastversion_past hik.le hlast) now ctx).2
  rwa [learnt_past hearlier hik hk hat] at hexecute

theorem stores_updateByCheckpoint {k j : Nat} (hk : k ≤ log.values.length) (hj : j ≤ log.values.length)
    {sm t : MasterStateMachine} (h : sm.Stores (written log.operationAt k)) (h' : t.Stores (written log.operationAt j)) (hgives : GivesStored sm t)
    (now : Nat) : (sm.updateByCheckpoint 0 now t.getCheckpointBuffer).2.Stores (written log.operationAt (max k j)) := by
  have hupdate := MasterStateMachine.updateByCheckpoint_stores h t now
  rw [h.masterVersion, h'.masterVersion] at hupdate
  unfold GivesStored at hgives
  rw [h.masterVersion, h'.masterVersion, h'.mvStore] at hgives
  split at hupdate
  · rename_i hkeep
    suffices hsame : written log.operationAt (max k j) = written log.operationAt k by rwa [hsame]
    rcases le_total j k with hjk | hkj
    · rw [max_eq_left hjk]
    · rw [max_eq_right hkj]
      rcases @written_since log.operationAt _ _ hkj with hsame | ⟨v, hv, hlt, -⟩
      · exact hsame
      · -- what `j` entries leave is newer, and would have been taken
        rw [masterVersionOf_some hv] at hkeep
        rcases hkeep with hnone | ⟨hle, hne⟩
        · exact absurd hnone (version_ne_noVersion hj hv)
        · cases hw : written log.operationAt k with
          | none => exact absurd (by rw [hw]; rfl) hne
          | some w =>
            have := version_lt hw
            rw [masterVersionOf_some hw] at hle
            omega
  · rename_i htake
    obtain ⟨hnone, hlag⟩ := not_or.mp htake
    have hstored := (hgives.resolve_left hnone).resolve_left hlag
    suffices hsame : written log.operationAt (max k j) = written log.operationAt j by rwa [hsame, hstored]
    rcases le_total k j with hkj | hjk
    · rw [max_eq_right hkj]
    · rw [max_eq_left hjk]
      rcases @written_since log.operationAt _ _ hjk with hsame | ⟨v, hv, hlt, -⟩
      · exact hsame
      · have hold := version_lt hstored
        rw [masterVersionOf_some hstored, masterVersionOf_some hv] at hlag
        exact absurd ⟨(hold.trans_le hlt).le, version_ne_noVersion hk hv⟩ hlag

theorem follows (hearlier : log.MadeOnEarlier) (myNodeID : NodeID → NodeID) :
    ((log.replicated myNodeID).adoptWhen GivesStored).Follows fun _ k sm => sm.Stores (written log.operationAt k) where
  init := by
    rintro n sm rfl
    exact .fresh _
  exec_next := by
    intro n k sm sm' hk h hexec
    change match masterValueAt log.values k with
      | none => sm' = sm
      | some value => ∃ now ctx, sm' = (sm.execute 0 now k value ctx).2 at hexec
    cases hvalue : masterValueAt log.values k with
    | none =>
      rw [hvalue] at hexec
      rw [hexec, written_succ_none (operationAt_none hvalue)]
      exact h
    | some value =>
      rw [hvalue] at hexec
      obtain ⟨now, ctx, rfl⟩ := hexec
      obtain ⟨op, hop, hat, hlast⟩ := operationAt_some hvalue
      rw [(straight_stores nullnode k).masterVersion] at hlast
      rw [written_succ hat, execute_of_parse hop]
      exact (h.executeOperator (hlast.imp_right Or.inr) now ctx).2
  exec_past := by
    intro n i k sm sm' hik hk h hexec
    change match masterValueAt log.values i with
      | none => sm' = sm
      | some value => ∃ now ctx, sm' = (sm.execute 0 now i value ctx).2 at hexec
    cases hvalue : masterValueAt log.values i with
    | none =>
      rw [hvalue] at hexec
      rw [hexec]
      exact h
    | some value =>
      rw [hvalue] at hexec
      obtain ⟨now, ctx, rfl⟩ := hexec
      exact stores_execute hearlier hik hk h hvalue now ctx
  recover := by
    rintro n k sm sm' h ⟨now, rfl⟩
    exact h.restart now
  adopt := by
    rintro n m k j sm t sm' hk hj h h' ⟨hgives, now, rfl⟩
    exact stores_updateByCheckpoint hk hj h h' hgives now

/-- What is stored has a version that is not older. -/
def NotOlder (stored stored' : Option MasterVariables) : Prop :=
  ∀ v, stored = some v → ∃ v', stored' = some v' ∧ v.version ≤ v'.version

theorem written_notOlder {k j : Nat} (hkj : k ≤ j) : NotOlder (written log.operationAt k) (written log.operationAt j) := by
  intro v hv
  rcases @written_since log.operationAt _ _ hkj with hsame | ⟨w, hw, hlt, -⟩
  · exact ⟨v, hsame.trans hv, le_rfl⟩
  · exact ⟨w, hw, ((version_lt hv).trans_le hlt).le⟩

/-- **Master variables converge**: where variables are taken over from nodes that hold in memory what they have stored,
and no operation is made on the version of a later one, every node stores what the straight execution of the entries it
has reached stores, and no step makes the stored version go back. -/
theorem master_variables_converge (log : MasterLog) (hearlier : log.MadeOnEarlier) {myNodeID : NodeID → NodeID}
    {r : NodeID → Replica MasterStateMachine} (h : ((log.replicated myNodeID).adoptWhen GivesStored).Run r) (n : NodeID) :
    (r n).state.mvStore = (log.straight (myNodeID n) (r n).reached).mvStore ∧
      ((r n).next = log.values.length →
        (r n).state.mvStore = (log.straight (myNodeID n) log.values.length).mvStore) ∧
      ∀ r', ((log.replicated myNodeID).adoptWhen GivesStored).Step r r' →
        NotOlder (r n).state.mvStore (r' n).state.mvStore := by
  have hR := follows hearlier myNodeID
  have hstraight (k : Nat) : (log.straight (myNodeID n) k).mvStore = written log.operationAt k := (straight_stores _ k).mvStore
  have hstored : (r n).state.mvStore = written log.operationAt (r n).reached := (h.follows hR n).1.mvStore
  refine ⟨hstored.trans (hstraight _).symm, ?_, ?_⟩
  · intro hend
    exact (h.at_end hR hend).mvStore.trans (hstraight _).symm
  · intro r' hstep
    obtain ⟨hstate, hle⟩ := hstep.follows hR (h.follows hR) n
    rw [hstored, hstate.1.mvStore]
    exact written_notOlder hle

/-! ## A master that is started again -/

/-- Node 1 proposes itself before the first version. -/
def electOperator : MasterOperator := ⟨1, noVersion, 10000, masterOperatorTypeComplete, 7, none⟩

theorem parse_electOperator : parseMasterOperator (serializeMasterOperator electOperator) = some electOperator :=
  parse_serializeMasterOperator (by decide) (by decide)

/-- Node 1 is elected at instance 0. -/
def electLog : MasterLog where
  values := [some (serializeMasterOperator electOperator)]
  length_le := by decide
  operation := by
    intro k value h
    match k with
    | 0 =>
      cases h
      exact ⟨electOperator, parse_electOperator, Or.inl rfl⟩
    | k + 1 => cases h

theorem electLog_operationAt : electLog.operationAt 0 = some electOperator := by
  have hvalue : masterValueAt electLog.values 0 = some (serializeMasterOperator electOperator) := rfl
  rw [operationAt, hvalue, Option.bind_some, parse_electOperator]

theorem electLog_madeOnEarlier : electLog.MadeOnEarlier := by
  intro k j op hop _
  match k with
  | 0 =>
    rw [electLog_operationAt, Option.some.injEq] at hop
    exact Or.inl (hop ▸ rfl)
  | k + 1 => cases hop

/-- The master after its election. -/
def elected : MasterStateMachine := ⟨1, some ⟨1, 0, 10000⟩, 1, 0, 10000, 9900⟩

theorem execute_elect :
    (MasterStateMachine.execute 0 0 0 (serializeMasterOperator electOperator) (some 9900) { myNodeID := 1 }) =
      (true, elected) := by
  rw [execute_of_parse parse_electOperator]
  decide

theorem straight_electLog : (electLog.straight 2 1).mvStore = some ⟨1, 0, 10000⟩ := by
  rw [(straight_stores 2 1).mvStore, written_succ electLog_operationAt]
  decide

/-- Node 2 takes the variables over from the master. -/
theorem master_variables_converge_electLog :
    (MasterStateMachine.updateByCheckpoint 0 50 elected.getCheckpointBuffer { myNodeID := 2 }).2.mvStore =
      (electLog.straight 2 1).mvStore := by
  have h₀ : ((electLog.replicated id).adoptWhen GivesStored).Run fun n => ⟨{ myNodeID := n }, 0, 0⟩ := .init fun _ => rfl
  have h₁ := h₀.step (.exec (n := 1) Nat.zero_lt_one ⟨0, some 9900, rfl⟩)
  have h₂ := h₁.step (.adopt (n := 2) (m := 1) (k := 1) ⟨Or.inr (Or.inr (by
    rw [Function.update_self, execute_elect]
    rfl)), 50, rfl⟩ (Nat.le_refl 1))
  have h := (electLog.master_variables_converge electLog_madeOnEarlier h₂ 2).1
  simp only [Function.update_self, execute_elect] at h
  exact h

/-- The master is started again before node 2 takes the variables over: node 2 stores no master and no lease. -/
theorem master_variables_forgotten : ∃ r, (electLog.replicated id).Run r ∧ (r 2).next = electLog.values.length ∧
    (r 2).state.mvStore = some ⟨nullnode, 0, 0⟩ ∧
    (electLog.straight 2 electLog.values.length).mvStore = some ⟨1, 0, 10000⟩ := by
  have h₀ : (electLog.replicated id).Run fun n => ⟨{ myNodeID := n }, 0, 0⟩ := .init fun _ => rfl
  have h₁ := h₀.step (.exec (n := 1) Nat.zero_lt_one ⟨0, some 9900, rfl⟩)
  have h₂ := h₁.step (.restart (n := 1) (k := 1) ⟨20, rfl⟩ (Nat.le_refl 1))
  have h₃ := h₂.step (.adopt (n := 2) (m := 1) (k := 1) ⟨50, rfl⟩ (Nat.le_refl 1))
  refine ⟨_, h₃, ?_, ?_, straight_electLog⟩
  · rw [Function.update_self]
    rfl
  · simp only [Function.update_self, execute_elect]
    have hbuffer : (elected.restart 20).getCheckpointBuffer = serializeMasterVariables ⟨nullnode, 0, 0⟩ := rfl
    unfold MasterStateMachine.updateByCheckpoint
    rw [hbuffer, parse_serializeMasterVariables]
    rfl

end MasterLog

end PhxPaxos
