import PhxPaxos.Model.MasterGroup
import PhxPaxos.StateMachines.MasterVariables

/-!
# One master at a time

A master counts its lease from the time it read the clock before it proposed itself, every other node from the time it
executes the entry, and a node proposes itself on the version of the last entry that it has, once the lease of that
entry is over. So along the entries that take effect a new master begins after the lease of the one before has ended,
and a master that lags behind them holds no lease any more (`MasterGroup.OK.unique`). This needs nodes that take over the
leases of the entries themselves, a renewal that does not end earlier than the lease it renews, a start that leaves out
no entry, and calls that propose different values (`KeepsLeases`).
-/

namespace PhxPaxos

open MasterStateMachine

/-! ## Versions -/

/-- The number of entries up to the one with the version. -/
def age (version : Nat) : Nat := if version = noVersion then 0 else version + 1

theorem age_of_ne {version : Nat} (h : version ≠ noVersion) : age version = version + 1 := if_neg h

@[simp] theorem age_noVersion : age noVersion = 0 := if_pos rfl

namespace MasterGroup

variable {log : List (Option MasterProposal)}

def proposalAt (log : List (Option MasterProposal)) (instanceID : Nat) : Option MasterProposal := (log[instanceID]?).join

def operations (log : List (Option MasterProposal)) (instanceID : Nat) : Option MasterOperator :=
  (proposalAt log instanceID).map MasterProposal.op

/-- The version that the first `k` entries leave. -/
def versionAt (log : List (Option MasterProposal)) (k : Nat) : Nat := masterVersionOf (written (operations log) k)

/-- The entry takes effect. -/
def TakesEffect (log : List (Option MasterProposal)) (k : Nat) (p : MasterProposal) : Prop :=
  proposalAt log k = some p ∧ p.op.operator = masterOperatorTypeComplete ∧ p.op.version = versionAt log k

theorem proposalAt_lt {k : Nat} {p : MasterProposal} (h : proposalAt log k = some p) : k < log.length := by
  by_contra hk
  rw [proposalAt, List.getElem?_eq_none (not_lt.mp hk)] at h
  cases h

theorem proposalAt_append {k : Nat} (hk : k < log.length) (x : Option MasterProposal) :
    proposalAt (log ++ [x]) k = proposalAt log k := by
  rw [proposalAt, proposalAt, List.getElem?_append_left hk]

theorem proposalAt_append_length (x : Option MasterProposal) : proposalAt (log ++ [x]) log.length = x := by
  rw [proposalAt, List.getElem?_concat_length, Option.join_some]

theorem proposalAt_append_some {k : Nat} {p : MasterProposal} (h : proposalAt log k = some p) (x : Option MasterProposal) :
    proposalAt (log ++ [x]) k = some p := by
  rw [proposalAt_append (proposalAt_lt h), h]

theorem versionAt_append {k : Nat} (hk : k ≤ log.length) (x : Option MasterProposal) :
    versionAt (log ++ [x]) k = versionAt log k := by
  unfold versionAt
  rw [written_congr fun i hi => ?_]
  rw [operations, operations, proposalAt_append (hi.trans_le hk)]

@[simp] theorem versionAt_zero : versionAt log 0 = noVersion := rfl

theorem versionAt_succ_of_takesEffect {k : Nat} {p : MasterProposal} (h : TakesEffect log k p) : versionAt log (k + 1) = k := by
  obtain ⟨hp, hoperator, hversion⟩ := h
  have hop : operations log k = some p.op := by rw [operations, hp, Option.map_some]
  rw [versionAt, written_succ hop, learnt, if_pos ⟨hoperator, hversion⟩]
  rfl

theorem versionAt_succ_of_not {k : Nat} (h : ∀ p, ¬ TakesEffect log k p) : versionAt log (k + 1) = versionAt log k := by
  unfold versionAt
  cases hp : proposalAt log k with
  | none => rw [written_succ_none (by rw [operations, hp, Option.map_none])]
  | some p =>
    have hop : operations log k = some p.op := by rw [operations, hp, Option.map_some]
    rw [written_succ hop, learnt, if_neg]
    exact fun happly => h p ⟨hp, happly⟩

/-- Either no entry took effect since, or the last one that did is there. -/
theorem versionAt_since {k j : Nat} (hkj : k ≤ j) :
    versionAt log j = versionAt log k ∨ k ≤ versionAt log j ∧ versionAt log j < j := by
  rcases @written_since (operations log) _ _ hkj with hsame | ⟨v, hv, hk, hlt⟩
  · exact Or.inl (congrArg masterVersionOf hsame)
  · rw [versionAt, masterVersionOf_some hv]
    exact Or.inr ⟨hk, hlt⟩

theorem versionAt_lt {k : Nat} (h : versionAt log k ≠ noVersion) : versionAt log k < k :=
  (versionAt_since (Nat.zero_le k)).elim (fun hsame => absurd (hsame.trans versionAt_zero) h) And.right

theorem age_versionAt_le {k : Nat} : age (versionAt log k) ≤ k := by
  by_cases h : versionAt log k = noVersion
  · rw [h, age_noVersion]
    exact Nat.zero_le k
  · rw [age_of_ne h]
    exact versionAt_lt h

theorem age_versionAt_mono {k j : Nat} (hkj : k ≤ j) (hj : j ≤ noVersion) :
    age (versionAt log k) ≤ age (versionAt log j) := by
  rcases @versionAt_since log _ _ hkj with hsame | ⟨hk, hlt⟩
  · rw [hsame]
  · rw [age_of_ne (hlt.trans_le hj).ne]
    exact age_versionAt_le.trans (hk.trans (Nat.le_succ _))

/-- The entry that a version is of takes effect. -/
theorem takesEffect_versionAt {k : Nat} (h : versionAt log k ≠ noVersion) : ∃ p, TakesEffect log (versionAt log k) p := by
  by_contra hnone
  have hlt := versionAt_lt h
  have hsame := versionAt_succ_of_not (not_exists.mp hnone)
  rcases @versionAt_since log _ _ (Nat.succ_le_of_lt hlt) with heq | ⟨hle, -⟩
  · -- the version was there before its own entry
    rw [hsame] at heq
    exact absurd (versionAt_lt (heq ▸ h)) (by rw [← heq]; exact lt_irrefl _)
  · omega

theorem TakesEffect.append {k : Nat} {p : MasterProposal} (h : TakesEffect log k p) (x : Option MasterProposal) :
    TakesEffect (log ++ [x]) k p := by
  refine ⟨proposalAt_append_some h.1 x, h.2.1, ?_⟩
  rw [versionAt_append (proposalAt_lt h.1).le]
  exact h.2.2

theorem TakesEffect.of_append {k : Nat} {p : MasterProposal} {x : Option MasterProposal} (h : TakesEffect (log ++ [x]) k p)
    (hk : k < log.length) : TakesEffect log k p := by
  obtain ⟨hp, hoperator, hversion⟩ := h
  rw [proposalAt_append hk] at hp
  rw [versionAt_append hk.le] at hversion
  exact ⟨hp, hoperator, hversion⟩

end MasterGroup

/-! ## Proposals -/

/-- When the lease that a proposal asks for ends, if it begins with the proposal. -/
def MasterProposal.endTime (p : MasterProposal) : Int := p.beginTime + p.op.timeout

/-- A lease time that `SetLeaseTime` lets through. -/
def LeaseTime (leaseTime : Int) : Prop := 1000 ≤ leaseTime ∧ leaseTime < 2 ^ 31

theorem LeaseTime.default : LeaseTime ({} : MasterMgr).leaseTime := ⟨by decide, by decide⟩

open MasterGroup

/-- An operation that was made at a time: on the version of an entry that began before, and after the end of its lease
when that is another node's. -/
structure Made (now : Nat) (log : List (Option MasterProposal)) (op : MasterOperator) (beginTime : Nat) : Prop where
  member : op.nodeID ≠ nullnode
  complete : op.operator = masterOperatorTypeComplete
  lease : LeaseTime op.timeout
  begun : beginTime ≤ now
  since : op.version = noVersion ∨ ∃ p, proposalAt log op.version = some p ∧ p.beginTime ≤ beginTime ∧
    (p.op.nodeID ≠ op.nodeID → p.endTime ≤ beginTime)

theorem Made.mono {now now' : Nat} {log : List (Option MasterProposal)} {op : MasterOperator} {beginTime : Nat}
    (h : Made now log op beginTime) (hnow : now ≤ now') : Made now' log op beginTime :=
  ⟨h.member, h.complete, h.lease, h.begun.trans hnow, h.since⟩

theorem Made.append {now : Nat} {log : List (Option MasterProposal)} {op : MasterOperator} {beginTime : Nat}
    (h : Made now log op beginTime) (x : Option MasterProposal) : Made now (log ++ [x]) op beginTime := by
  refine ⟨h.member, h.complete, h.lease, h.begun, h.since.imp_right ?_⟩
  rintro ⟨p, hp, hbegin, hend⟩
  exact ⟨p, proposalAt_append_some hp x, hbegin, hend⟩

/-- The last version of an operation, if it has one, is that of the entries before the instance. -/
def LastVersion (log : List (Option MasterProposal)) (instanceID : Nat) (op : MasterOperator) : Prop :=
  op.lastversion = 0 ∨ op.lastversion = versionAt log instanceID

/-- What was put to the vote, and what was chosen of it. -/
structure MasterVotes (now : Nat) (log : List (Option MasterProposal)) (proposed : List MasterProposal) : Prop where
  clock : now < 2 ^ 63
  length_le : log.length ≤ noVersion
  made : ∀ p ∈ proposed, Made now log p.op p.beginTime
  instanceID_le : ∀ p ∈ proposed, p.instanceID ≤ log.length
  lastVersion : ∀ p ∈ proposed, p.instanceID = log.length → LastVersion log log.length p.op
  distinct : ∀ p ∈ proposed, ∀ q ∈ proposed, p.instanceID = q.instanceID → p.op = q.op → p = q
  chosen : ∀ k p, proposalAt log k = some p → p ∈ proposed ∧ p.instanceID = k ∧
    (p.op.version = noVersion ∨ p.op.version < k) ∧ LastVersion log k p.op

/-! ## Nodes -/

/-- The lease of the operation is not over before that of the master that made it. -/
structure Renews (sm : MasterStateMachine) (op : MasterOperator) (beginTime : Nat) : Prop where
  version : age op.version ≤ age sm.masterVersion
  lease : sm.masterVersion = op.version → sm.masterNodeID = sm.myNodeID → (sm.absExpireTime : Int) + 100 ≤ beginTime + op.timeout

/-- The proposal takes over from the node's lease: it renews it, or begins after its end. -/
def TakesOver (sm : MasterStateMachine) (q : MasterProposal) : Prop :=
  q.op.nodeID = sm.myNodeID ∧ (sm.absExpireTime : Int) + 100 ≤ q.endTime ∨ (sm.absExpireTime : Int) + 100 ≤ q.beginTime

/-- What the state machine has of the entry that its version is of. -/
structure Knows (log : List (Option MasterProposal)) (sm : MasterStateMachine) : Prop where
  fresh : sm.masterVersion = noVersion → sm.masterNodeID = nullnode ∧ sm.mvStore = none
  stored : sm.masterVersion ≠ noVersion → ∃ p v, proposalAt log sm.masterVersion = some p ∧ sm.mvStore = some v ∧
    v.masterNodeID = p.op.nodeID ∧ p.op.timeout ≤ v.leaseTime ∧ v.leaseTime < 2 ^ 32
  other : ∀ p, sm.masterVersion ≠ noVersion → proposalAt log sm.masterVersion = some p → p.op.nodeID ≠ sm.myNodeID →
    sm.masterNodeID = p.op.nodeID ∧ p.endTime ≤ sm.absExpireTime
  self : ∀ p, sm.masterVersion ≠ noVersion → proposalAt log sm.masterVersion = some p → p.op.nodeID = sm.myNodeID →
    sm.absExpireTime ≠ 0 → (sm.absExpireTime : Int) + 100 = p.endTime

/-- The round of a node. -/
def RoundOK (now : Nat) (log : List (Option MasterProposal)) (proposed : List MasterProposal) (sm : MasterStateMachine) :
    TryBeMaster → Prop
  | .idle => True
  | .round leaseTime => LeaseTime leaseTime
  | .checked leaseTime version => LeaseTime leaseTime ∧ age version ≤ age sm.masterVersion ∧
      (version = noVersion ∨ ∃ p, proposalAt log version = some p ∧ (p.op.nodeID ≠ sm.myNodeID → p.endTime ≤ now))
  | .waiting op beginTime absMasterTimeout => Made now log op beginTime ∧ Renews sm op beginTime ∧
      op.nodeID = sm.myNodeID ∧ op.lastVersion = none ∧ (absMasterTimeout : Int) + 100 = beginTime + op.timeout
  | .started p absMasterTimeout => p ∈ proposed ∧ p.op.nodeID = sm.myNodeID ∧ (absMasterTimeout : Int) + 100 = p.endTime

structure NodeOK (now : Nat) (log : List (Option MasterProposal)) (proposed : List MasterProposal) (n : MemberID)
    (nd : MasterNode) : Prop where
  myNodeID : nd.sm.myNodeID = n
  lease : LeaseTime nd.mgr.leaseTime
  reached : ∃ r, nd.next ≤ r ∧ r ≤ log.length ∧ nd.sm.masterVersion = versionAt log r
  stores : nd.sm.Stores nd.sm.mvStore
  knows : Knows log nd.sm
  renews : ∀ p ∈ proposed, p.op.nodeID = n → Renews nd.sm p.op p.beginTime
  takesOver : nd.sm.masterVersion ≠ noVersion → nd.sm.masterNodeID = n → nd.sm.absExpireTime ≠ 0 →
    ∀ j q, nd.sm.masterVersion < j → TakesEffect log j q → TakesOver nd.sm q
  round : RoundOK now log proposed nd.sm nd.tryBeMaster

/-- A buffer that a node gave away. -/
def BufferOK (log : List (Option MasterProposal)) (cpBuffer : Bytes) : Prop :=
  cpBuffer = [] ∨ ∃ v, cpBuffer = serializeMasterVariables v ∧ v.version ≠ noVersion ∧ v.leaseTime < 2 ^ 32 ∧
    ∃ r ≤ log.length, v.version = versionAt log r

structure MasterGroup.OK (s : MasterGroup) : Prop where
  votes : MasterVotes s.now s.log s.proposed
  node : ∀ n, NodeOK s.now s.log s.proposed n (s.node n)
  buffers : ∀ b ∈ s.buffers, BufferOK s.log b

/-! ## One master -/

theorem isIMMaster_iff {now : Nat} {sm : MasterStateMachine} (h : sm.myNodeID ≠ nullnode) :
    sm.isIMMaster now = true ↔ now < sm.absExpireTime ∧ sm.masterNodeID = sm.myNodeID := by
  unfold isIMMaster getMaster
  rw [decide_eq_true_iff]
  by_cases hnow : sm.absExpireTime ≤ now
  · rw [if_pos hnow]
    exact ⟨fun heq => absurd heq.symm h, fun hlt => absurd hnow (not_le.mpr hlt.1)⟩
  · rw [if_neg hnow]
    exact ⟨fun heq => ⟨not_le.mp hnow, heq⟩, And.right⟩

namespace NodeOK

variable {now : Nat} {log : List (Option MasterProposal)} {proposed : List MasterProposal} {n : MemberID} {nd : MasterNode}

/-- A master has the version of an entry of its own, which took effect. -/
theorem of_master (h : NodeOK now log proposed n nd) (hm : nd.sm.masterNodeID = n) :
    nd.sm.masterVersion ≠ noVersion ∧ ∃ p, TakesEffect log nd.sm.masterVersion p ∧ p.op.nodeID = n := by
  have hversion : nd.sm.masterVersion ≠ noVersion := fun hnone => n.2 (hm.symm.trans (h.knows.fresh hnone).1)
  obtain ⟨r, -, -, hr⟩ := h.reached
  obtain ⟨p, hp⟩ := @takesEffect_versionAt log _ (hr ▸ hversion)
  rw [← hr] at hp
  refine ⟨hversion, p, hp, ?_⟩
  by_contra hother
  rw [← h.myNodeID] at hother hm
  exact hother ((h.knows.other p hversion hp.1 hother).1.symm.trans hm)

end NodeOK

/-- A master that has an older version than another one holds no lease. -/
theorem MasterGroup.OK.not_older {s : MasterGroup} (h : s.OK) {m n : MemberID} (hmn : m ≠ n)
    (hm : (s.node m).sm.isIMMaster s.now = true) (hn : (s.node n).sm.isIMMaster s.now = true) :
    ¬ (s.node m).sm.masterVersion < (s.node n).sm.masterVersion := by
  intro hlt
  have hmine := (h.node m).myNodeID
  have hhis := (h.node n).myNodeID
  rw [isIMMaster_iff (by rw [hmine]; exact m.2), hmine] at hm
  rw [isIMMaster_iff (by rw [hhis]; exact n.2), hhis] at hn
  obtain ⟨hversion, -⟩ := (h.node m).of_master hm.2
  obtain ⟨-, q, hq, hqn⟩ := (h.node n).of_master hn.2
  have hover := (h.node m).takesOver hversion hm.2 (Nat.ne_of_gt (Nat.zero_lt_of_lt hm.1)) _ q hlt hq
  rcases hover with ⟨hqm, -⟩ | hbegin
  · exact hmn (Subtype.ext (hmine.symm.trans (hqm.symm.trans hqn)))
  · have hbegun := (h.votes.made q (h.votes.chosen _ q hq.1).1).begun
    omega

theorem MasterGroup.OK.unique {s : MasterGroup} (h : s.OK) {m n : MemberID}
    (hm : (s.node m).sm.isIMMaster s.now = true) (hn : (s.node n).sm.isIMMaster s.now = true) : m = n := by
  by_contra hmn
  have hle := not_lt.mp (h.not_older hmn hm hn)
  have hle' := not_lt.mp (h.not_older (Ne.symm hmn) hn hm)
  have hmine := (h.node m).myNodeID
  have hhis := (h.node n).myNodeID
  rw [isIMMaster_iff (by rw [hmine]; exact m.2), hmine] at hm
  rw [isIMMaster_iff (by rw [hhis]; exact n.2), hhis] at hn
  obtain ⟨-, p, hp, hpm⟩ := (h.node m).of_master hm.2
  obtain ⟨-, q, hq, hqn⟩ := (h.node n).of_master hn.2
  rw [le_antisymm hle' hle] at hp
  have hpq : p = q := Option.some.inj (hp.1.symm.trans hq.1)
  exact hmn (Subtype.ext (hpm.symm.trans (hpq ▸ hqn)))

/-! ## The condition on a run -/

/-- The condition on a step: a renewal does not end before the lease it renews; no two calls put the same value to the
vote at one instance; a process does not start behind an entry that took effect and whose variables it has not stored;
and variables that are newer name the master of their entry, with a lease that is not shorter. -/
def MasterGroup.KeepsLeases (openChangeValueBeforePropose : Bool) (s : MasterGroup) : MasterAct → Prop
  | .propose n _ => ∀ leaseTime, (s.node n).tryBeMaster = .checked leaseTime (s.node n).sm.masterVersion →
      (s.node n).sm.masterNodeID = n → ((s.node n).sm.absExpireTime : Int) ≤ s.now + (leaseTime - 100)
  | .newValue n => ∀ p, (s.node n).newProposal openChangeValueBeforePropose = some p →
      ∀ q ∈ s.proposed, q.instanceID = p.instanceID → q.op ≠ p.op
  | .restart n instanceID => age (versionAt s.log instanceID) ≤ age (masterVersionOf (s.node n).sm.mvStore)
  | .adopt n _ cpBuffer => ∀ v, parseMasterVariables cpBuffer = some v →
      v.version ≤ (s.node n).sm.masterVersion ∧ (s.node n).sm.masterVersion ≠ noVersion ∨
        ∃ p, proposalAt s.log v.version = some p ∧ p.op.nodeID = v.masterNodeID ∧ p.op.timeout ≤ v.leaseTime
  | _ => True

/-! ## The clock and the rounds -/

theorem RoundOK.mono {now now' : Nat} {log : List (Option MasterProposal)} {proposed : List MasterProposal}
    {sm : MasterStateMachine} {t : TryBeMaster} (h : RoundOK now log proposed sm t) (hnow : now ≤ now') :
    RoundOK now' log proposed sm t := by
  cases t with
  | idle => exact h
  | round _ => exact h
  | started _ _ => exact h
  | checked leaseTime version =>
    obtain ⟨hlease, hage, hsince⟩ := h
    refine ⟨hlease, hage, hsince.imp_right ?_⟩
    rintro ⟨p, hp, hend⟩
    exact ⟨p, hp, fun hother => (hend hother).trans (Int.ofNat_le.mpr hnow)⟩
  | waiting op beginTime absMasterTimeout => exact ⟨h.1.mono hnow, h.2⟩

namespace NodeOK

variable {now now' : Nat} {log : List (Option MasterProposal)} {proposed : List MasterProposal} {n : MemberID}
  {nd : MasterNode}

theorem mono (h : NodeOK now log proposed n nd) (hnow : now ≤ now') : NodeOK now' log proposed n nd :=
  { h with round := h.round.mono hnow }

theorem setRound (h : NodeOK now log proposed n nd) {t : TryBeMaster} (ht : RoundOK now log proposed nd.sm t) :
    NodeOK now log proposed n { nd with tryBeMaster := t } :=
  { h with round := ht }

theorem setLeaseTime (h : NodeOK now log proposed n nd) {leaseTimeMs : Int} (hlt : leaseTimeMs < 2 ^ 31) :
    NodeOK now log proposed n { nd with mgr := nd.mgr.setLeaseTime leaseTimeMs } := by
  refine { h with lease := ?_ }
  unfold MasterMgr.setLeaseTime
  split
  · exact h.lease
  · rename_i hle
    exact ⟨not_lt.mp hle, hlt⟩

theorem beginRound (h : NodeOK now log proposed n nd) {nd' : MasterNode} (hstep : nd.beginRound = some nd') :
    NodeOK now log proposed n nd' := by
  unfold MasterNode.beginRound at hstep
  split at hstep
  · obtain rfl := Option.some.inj hstep
    exact h.setRound h.lease
  · cases hstep

theorem endCommit (h : NodeOK now log proposed n nd) {nd' : MasterNode} (hstep : nd.endCommit = some nd') :
    NodeOK now log proposed n nd' := by
  unfold MasterNode.endCommit at hstep
  split at hstep
  · obtain rfl := Option.some.inj hstep
    exact h.setRound (t := .idle) trivial
  · obtain rfl := Option.some.inj hstep
    exact h.setRound (t := .idle) trivial
  · cases hstep

/-- When no other node is master, the lease of the last entry is over, or it is the node's own. -/
theorem check (hvotes : MasterVotes now log proposed) (h : NodeOK now log proposed n nd) {nd' : MasterNode}
    (hstep : nd.check now = some nd') : NodeOK now log proposed n nd' := by
  unfold MasterNode.check at hstep
  split at hstep
  · rename_i leaseTime hround
    have hlease : LeaseTime leaseTime := by
      have := h.round
      rwa [hround] at this
    change (if (nd.sm.safeGetMaster now).1 ≠ nullnode ∧ (nd.sm.safeGetMaster now).1 ≠ nd.sm.myNodeID then _ else _) =
      some nd' at hstep
    split at hstep
    · obtain rfl := Option.some.inj hstep
      exact h.setRound (t := .idle) trivial
    · rename_i hmaster
      obtain rfl := Option.some.inj hstep
      refine h.setRound ⟨hlease, le_rfl, ?_⟩
      by_cases hversion : nd.sm.masterVersion = noVersion
      · exact Or.inl hversion
      · obtain ⟨p, -, hp, -⟩ := h.knows.stored hversion
        refine Or.inr ⟨p, hp, fun hother => ?_⟩
        obtain ⟨hnode, hend⟩ := h.knows.other p hversion hp hother
        have hover : nd.sm.absExpireTime ≤ now := by
          by_contra hlive
          have hsafe : (nd.sm.safeGetMaster now).1 = p.op.nodeID := (if_neg hlive).trans hnode
          rw [hsafe] at hmaster
          exact hmaster ⟨(hvotes.made p (hvotes.chosen _ p hp).1).member, hother⟩
        exact hend.trans (Int.ofNat_le.mpr hover)
  · cases hstep

theorem propose (hvotes : MasterVotes now log proposed) (h : NodeOK now log proposed n nd) {nd' : MasterNode} {sid : Nat}
    (hrenew : ∀ leaseTime, nd.tryBeMaster = .checked leaseTime nd.sm.masterVersion → nd.sm.masterNodeID = n →
      (nd.sm.absExpireTime : Int) ≤ now + (leaseTime - 100))
    (hstep : nd.propose now sid = some nd') : NodeOK now log proposed n nd' := by
  unfold MasterNode.propose at hstep
  split at hstep
  · rename_i leaseTime version hround
    obtain ⟨hlease, hage, hsince⟩ : RoundOK now log proposed nd.sm (.checked leaseTime version) := hround ▸ h.round
    obtain rfl := Option.some.inj hstep
    refine h.setRound ⟨⟨?_, rfl, hlease, le_rfl, hsince.imp_right ?_⟩, ⟨hage, ?_⟩, rfl, rfl, ?_⟩
    · exact fun hnull => n.2 (h.myNodeID.symm.trans hnull)
    · rintro ⟨p, hp, hend⟩
      exact ⟨p, hp, (hvotes.made p (hvotes.chosen _ p hp).1).begun, hend⟩
    · intro hversion hmaster
      have := hrenew leaseTime (hversion ▸ hround) (hmaster.trans h.myNodeID)
      simp only [makeOp]
      omega
    · have hclock := hvotes.clock
      obtain ⟨hlo, hhi⟩ := hlease
      simp only [makeOp, toUInt64]
      omega
  · cases hstep

end NodeOK

theorem MasterVotes.mono {now now' : Nat} {log : List (Option MasterProposal)} {proposed : List MasterProposal}
    (h : MasterVotes now log proposed) (hnow : now ≤ now') (hclock : now' < 2 ^ 63) : MasterVotes now' log proposed :=
  { h with clock := hclock, made := fun p hp => (h.made p hp).mono hnow }

theorem MasterGroup.OK.setNode {s : MasterGroup} (h : s.OK) {n : MemberID} {nd : MasterNode}
    (hnd : NodeOK s.now s.log s.proposed n nd) : (s.setNode n nd).OK := by
  refine ⟨h.votes, fun m => ?_, h.buffers⟩
  by_cases hmn : m = n
  · subst hmn
    simpa only [MasterGroup.setNode, Function.update_self] using hnd
  · simpa only [MasterGroup.setNode, Function.update_of_ne hmn] using h.node m

/-! ## A new value -/

section NewValue

variable {now : Nat} {log : List (Option MasterProposal)} {proposed : List MasterProposal} {n : MemberID}
  {nd : MasterNode} {openChangeValueBeforePropose : Bool} {p : MasterProposal}

/-- `BeforePropose` changes the last version alone. -/
theorem NodeOK.newProposal (h : NodeOK now log proposed n nd)
    (hp : nd.newProposal openChangeValueBeforePropose = some p) :
    Made now log p.op p.beginTime ∧ Renews nd.sm p.op p.beginTime ∧ p.op.nodeID = nd.sm.myNodeID ∧
      p.instanceID = nd.next ∧ (p.op.lastversion = 0 ∨ p.op.lastversion = nd.sm.masterVersion) ∧
      ∃ absMasterTimeout : Nat, (absMasterTimeout : Int) + 100 = p.endTime ∧
        nd.startCommit p = { nd with tryBeMaster := .started p absMasterTimeout } := by
  unfold MasterNode.newProposal at hp
  unfold MasterNode.startCommit
  split at hp
  · rename_i op beginTime absMasterTimeout hround
    obtain ⟨hmade, hrenews, hnode, hlast, habs⟩ : RoundOK now log proposed nd.sm (.waiting op beginTime absMasterTimeout) :=
      hround ▸ h.round
    obtain rfl := Option.some.inj hp
    cases openChangeValueBeforePropose with
    | false => exact ⟨hmade, hrenews, hnode, rfl, Or.inl (by simp [MasterOperator.lastversion, hlast]), _, habs, rfl⟩
    | true =>
      exact ⟨⟨hmade.member, hmade.complete, hmade.lease, hmade.begun, hmade.since⟩, ⟨hrenews.version, hrenews.lease⟩, hnode,
        rfl, Or.inr rfl, _, habs, rfl⟩
  · cases hp

theorem MasterVotes.newValue (hvotes : MasterVotes now log proposed) (h : NodeOK now log proposed n nd)
    (hp : nd.newProposal openChangeValueBeforePropose = some p)
    (hfresh : ∀ q ∈ proposed, q.instanceID = p.instanceID → q.op ≠ p.op) : MasterVotes now log (p :: proposed) := by
  obtain ⟨hmade, -, -, hinstance, hlast, -⟩ := h.newProposal hp
  obtain ⟨r, hnext, hr, hversion⟩ := h.reached
  refine { hvotes with made := ?_, instanceID_le := ?_, lastVersion := ?_, distinct := ?_, chosen := ?_ }
  · rintro q (_ | ⟨_, hq⟩)
    · exact hmade
    · exact hvotes.made q hq
  · rintro q (_ | ⟨_, hq⟩)
    · exact hinstance ▸ hnext.trans hr
    · exact hvotes.instanceID_le q hq
  · rintro q (_ | ⟨_, hq⟩) hqlen
    · -- the node has executed the whole log
      have hall : r = log.length := le_antisymm hr (hqlen ▸ hinstance ▸ hnext)
      rw [hversion, hall] at hlast
      exact hlast
    · exact hvotes.lastVersion q hq hqlen
  · rintro q (_ | ⟨_, hq⟩) q' (_ | ⟨_, hq'⟩) hsame hop
    · rfl
    · exact absurd hop.symm (hfresh q' hq' hsame.symm)
    · exact absurd hop (hfresh q hq hsame)
    · exact hvotes.distinct q hq q' hq' hsame hop
  · intro k q hq
    obtain ⟨hmem, hrest⟩ := hvotes.chosen k q hq
    exact ⟨List.mem_cons_of_mem p hmem, hrest⟩

theorem NodeOK.newValue (h : NodeOK now log proposed n nd) (hp : nd.newProposal openChangeValueBeforePropose = some p) :
    NodeOK now log (p :: proposed) n (nd.startCommit p) := by
  obtain ⟨-, hrenews, hnode, -, -, absMasterTimeout, habs, hstart⟩ := h.newProposal hp
  rw [hstart]
  refine { h with renews := ?_, round := ⟨List.mem_cons_self, hnode, habs⟩ }
  rintro q (_ | ⟨_, hq⟩) hqn
  · exact hrenews
  · exact h.renews q hq hqn

/-- The other nodes. -/
theorem NodeOK.proposedOf (h : NodeOK now log proposed n nd) (hp : p.op.nodeID ≠ n) :
    NodeOK now log (p :: proposed) n nd := by
  refine { h with renews := ?_, round := ?_ }
  · rintro q (_ | ⟨_, hq⟩) hqn
    · exact absurd hqn hp
    · exact h.renews q hq hqn
  · have hround := h.round
    cases ht : nd.tryBeMaster with
    | started q absMasterTimeout =>
      rw [ht] at hround
      exact ⟨List.mem_cons_of_mem p hround.1, hround.2⟩
    | idle => exact trivial
    | round _ => rwa [ht] at hround
    | checked _ _ => rwa [ht] at hround
    | waiting _ _ _ => rwa [ht] at hround

end NewValue

/-! ## A chosen value -/

section Chosen

variable {now : Nat} {log : List (Option MasterProposal)} {proposed : List MasterProposal} {n : MemberID}
  {nd : MasterNode} {x : Option MasterProposal}

theorem LastVersion.append {k : Nat} (hk : k ≤ log.length) {op : MasterOperator} (h : LastVersion log k op)
    (x : Option MasterProposal) : LastVersion (log ++ [x]) k op := by
  unfold LastVersion
  rw [versionAt_append hk]
  exact h

theorem MasterVotes.choose (h : MasterVotes now log proposed) (hlt : log.length < noVersion)
    (hx : ∀ p ∈ x, p ∈ proposed ∧ p.instanceID = log.length) : MasterVotes now (log ++ [x]) proposed := by
  have hlen : (log ++ [x]).length = log.length + 1 := by simp
  refine { clock := h.clock, length_le := hlen ▸ hlt, made := fun p hp => (h.made p hp).append x, distinct := h.distinct,
           instanceID_le := ?_, lastVersion := ?_, chosen := ?_ }
  · intro p hp
    exact hlen ▸ (h.instanceID_le p hp).trans (Nat.le_succ _)
  · intro p hp hpn
    have := h.instanceID_le p hp
    omega
  · intro k p hp
    have hk : k < log.length + 1 := hlen ▸ proposalAt_lt hp
    rcases Nat.lt_succ_iff_lt_or_eq.mp hk with hk | rfl
    · rw [proposalAt_append hk] at hp
      obtain ⟨hmem, hinstance, hversion, hlast⟩ := h.chosen k p hp
      exact ⟨hmem, hinstance, hversion, hlast.append hk.le x⟩
    · rw [proposalAt_append_length] at hp
      obtain ⟨hmem, hinstance⟩ := hx p hp
      refine ⟨hmem, hinstance, (h.made p hmem).since.imp_right ?_, (h.lastVersion p hmem hinstance).append le_rfl x⟩
      rintro ⟨q, hq, -⟩
      exact proposalAt_lt hq

/-- The next entry that takes effect takes over from a lease that the one before took over from, when it is not made by
the holder of the lease. -/
theorem TakesOver.next {sm : MasterStateMachine} {p q : MasterProposal} (hp : TakesOver sm p)
    (hq : Made now log q.op q.beginTime) (hpq : proposalAt log q.op.version = some p) (hversion : q.op.version ≠ noVersion)
    (hother : q.op.nodeID ≠ sm.myNodeID) : TakesOver sm q := by
  obtain ⟨p', hp', hbegin, hend⟩ := hq.since.resolve_left hversion
  obtain rfl : p' = p := Option.some.inj (hp'.symm.trans hpq)
  rcases hp with ⟨hown, hlease⟩ | hlease
  · exact Or.inr (hlease.trans (hend fun hsame => hother (hsame.symm.trans hown)))
  · exact Or.inr (hlease.trans (Int.ofNat_le.mpr hbegin))

/-- The first entry after the one that the lease is of. -/
theorem TakesOver.first {sm : MasterStateMachine} {p q : MasterProposal} (hp : p.op.nodeID = sm.myNodeID)
    (hlease : (sm.absExpireTime : Int) + 100 = p.endTime) (hq : Made now log q.op q.beginTime)
    (hpq : proposalAt log q.op.version = some p) (hversion : q.op.version ≠ noVersion)
    (hown : q.op.nodeID = sm.myNodeID → (sm.absExpireTime : Int) + 100 ≤ q.endTime) : TakesOver sm q := by
  by_cases hsame : q.op.nodeID = sm.myNodeID
  · exact Or.inl ⟨hsame, hown hsame⟩
  · obtain ⟨p', hp', -, hend⟩ := hq.since.resolve_left hversion
    obtain rfl : p' = p := Option.some.inj (hp'.symm.trans hpq)
    exact Or.inr (hlease ▸ hend fun h => hsame (h.symm.trans hp))

theorem Knows.append {sm : MasterStateMachine} (h : Knows log sm) (x : Option MasterProposal) :
    Knows (log ++ [x]) sm := by
  have hold {p : MasterProposal} (hversion : sm.masterVersion ≠ noVersion)
      (hp : proposalAt (log ++ [x]) sm.masterVersion = some p) : proposalAt log sm.masterVersion = some p := by
    obtain ⟨q, -, hq, -⟩ := h.stored hversion
    rwa [proposalAt_append (proposalAt_lt hq)] at hp
  refine ⟨h.fresh, ?_, fun p hversion hp => h.other p hversion (hold hversion hp),
    fun p hversion hp => h.self p hversion (hold hversion hp)⟩
  intro hversion
  obtain ⟨p, v, hp, hrest⟩ := h.stored hversion
  exact ⟨p, v, proposalAt_append_some hp x, hrest⟩

theorem RoundOK.append {sm : MasterStateMachine} {t : TryBeMaster} (h : RoundOK now log proposed sm t)
    (x : Option MasterProposal) : RoundOK now (log ++ [x]) proposed sm t := by
  cases t with
  | idle => exact h
  | round _ => exact h
  | started _ _ => exact h
  | checked leaseTime version =>
    obtain ⟨hlease, hage, hsince⟩ := h
    refine ⟨hlease, hage, hsince.imp_right ?_⟩
    rintro ⟨p, hp, hend⟩
    exact ⟨p, proposalAt_append_some hp x, hend⟩
  | waiting op beginTime absMasterTimeout => exact ⟨h.1.append x, h.2⟩

theorem NodeOK.choose (hvotes : MasterVotes now log proposed) (hlt : log.length < noVersion) (h : NodeOK now log proposed n nd)
    (hx : ∀ p ∈ x, p ∈ proposed ∧ p.instanceID = log.length) : NodeOK now (log ++ [x]) proposed n nd := by
  have hlen : (log ++ [x]).length = log.length + 1 := by simp
  obtain ⟨r, hnext, hr, hreached⟩ := h.reached
  refine { h with reached := ⟨r, hnext, by omega, by rw [versionAt_append hr, hreached]⟩, knows := h.knows.append x,
                  takesOver := ?_, round := h.round.append x }
  intro hversion hmaster hlive j q hj hq
  have hjlen : j < log.length + 1 := hlen ▸ proposalAt_lt hq.1
  rcases Nat.lt_succ_iff_lt_or_eq.mp hjlen with hjlen | rfl
  · exact h.takesOver hversion hmaster hlive j q hj (hq.of_append hjlen)
  · -- the new entry takes effect
    obtain ⟨hqx, -, hqversion⟩ := hq
    rw [proposalAt_append_length] at hqx
    rw [versionAt_append le_rfl] at hqversion
    obtain ⟨hmem, -⟩ := hx q hqx
    have hmade := hvotes.made q hmem
    obtain ⟨-, p, hp, hpn⟩ := h.of_master hmaster
    rw [← h.myNodeID] at hpn
    rcases @versionAt_since log _ _ hr with hsame | ⟨hle, hltlen⟩
    · -- the master is up to date
      have hat : q.op.version = nd.sm.masterVersion := hqversion.trans (hsame.trans hreached.symm)
      refine TakesOver.first hpn (h.knows.self p hversion hp.1 hpn hlive) hmade (hat ▸ hp.1) (hat ▸ hversion) ?_
      intro hown
      exact (h.renews q hmem (hown.trans h.myNodeID)).lease hat.symm (hmaster.trans h.myNodeID.symm)
    · -- the master lags
      have hne : versionAt log log.length ≠ noVersion := (hltlen.trans hlt).ne
      have hlag : nd.sm.masterVersion < versionAt log log.length := by
        have : versionAt log r < r := versionAt_lt (hreached ▸ hversion)
        omega
      obtain ⟨p', hp'⟩ := takesEffect_versionAt hne
      refine (h.takesOver hversion hmaster hlive _ p' hlag hp').next hmade (hqversion ▸ hp'.1) (hqversion ▸ hne) ?_
      intro hown
      have hage := (h.renews q hmem (hown.trans h.myNodeID)).version
      rw [hqversion, age_of_ne hne, age_of_ne hversion] at hage
      omega

end Chosen

/-! ## An execution -/

section Execute

variable {now : Nat} {log : List (Option MasterProposal)} {proposed : List MasterProposal} {n : MemberID}
  {nd : MasterNode} {p : MasterProposal}

theorem NodeOK.setResult (h : NodeOK now log proposed n nd) (instanceID : Nat) :
    NodeOK now log proposed n (nd.setResult instanceID) := by
  unfold MasterNode.setResult
  split
  · split
    · exact h.setRound (t := .idle) trivial
    · exact h
  · exact h

@[simp] theorem setResult_sm (nd : MasterNode) (instanceID : Nat) : (nd.setResult instanceID).sm = nd.sm := by
  unfold MasterNode.setResult
  split
  · split <;> rfl
  · rfl

/-- The node has an entry that leaves its state machine as it is. -/
theorem NodeOK.setNext (h : NodeOK now log proposed n nd) {next : Nat}
    (hreached : ∃ r, next ≤ r ∧ r ≤ log.length ∧ nd.sm.masterVersion = versionAt log r) :
    NodeOK now log proposed n { nd with next } :=
  { h with reached := hreached }

theorem NodeOK.reached_succ (h : NodeOK now log proposed n nd) (hlt : nd.next < log.length)
    (hnot : nd.sm.masterVersion = versionAt log nd.next → ∀ p, ¬ TakesEffect log nd.next p) :
    ∃ r, nd.next + 1 ≤ r ∧ r ≤ log.length ∧ nd.sm.masterVersion = versionAt log r := by
  obtain ⟨r, hnext, hr, hversion⟩ := h.reached
  rcases hnext.eq_or_lt with heq | hlater
  · refine ⟨nd.next + 1, le_rfl, hlt, ?_⟩
    rw [← heq] at hversion
    rw [versionAt_succ_of_not (hnot hversion), hversion]
  · exact ⟨r, hlater, hr, hversion⟩

theorem Renews.newer {sm sm' : MasterStateMachine} {op : MasterOperator} {beginTime : Nat} (h : Renews sm op beginTime)
    (hage : age sm.masterVersion < age sm'.masterVersion) : Renews sm' op beginTime := by
  refine ⟨h.version.trans hage.le, fun heq => ?_⟩
  have hle := h.version
  rw [← heq] at hle
  exact absurd hage (not_lt.mpr hle)

theorem RoundOK.newer {sm sm' : MasterStateMachine} {t : TryBeMaster} (h : RoundOK now log proposed sm t)
    (hnode : sm'.myNodeID = sm.myNodeID) (hage : age sm.masterVersion < age sm'.masterVersion) :
    RoundOK now log proposed sm' t := by
  cases t with
  | idle => exact h
  | round _ => exact h
  | started _ _ => exact ⟨h.1, hnode ▸ h.2.1, h.2.2⟩
  | checked leaseTime version => exact ⟨h.1, h.2.1.trans hage.le, hnode ▸ h.2.2⟩
  | waiting op beginTime absMasterTimeout => exact ⟨h.1, h.2.1.newer hage, hnode ▸ h.2.2.1, h.2.2.2⟩

/-- The context of a proposal is the node's own. -/
theorem NodeOK.commitCtx (hvotes : MasterVotes now log proposed) (h : NodeOK now log proposed n nd) (hp : p ∈ proposed)
    (hctx : (nd.commitCtx p).getD 0 ≠ 0) : (((nd.commitCtx p).getD 0 : Nat) : Int) + 100 = p.endTime := by
  have hround := h.round
  unfold MasterNode.commitCtx at hctx ⊢
  cases ht : nd.tryBeMaster with
  | started p' absMasterTimeout =>
    rw [ht] at hround
    simp only [ht] at hctx ⊢
    by_cases hsame : p'.instanceID = p.instanceID ∧ p'.op = p.op
    · obtain rfl : p' = p := hvotes.distinct p' hround.1 p hp hsame.1 hsame.2
      rw [if_pos hsame, Option.getD_some]
      exact hround.2.2
    · rw [if_neg hsame] at hctx
      exact absurd rfl hctx
  | _ =>
    simp only [ht] at hctx
    exact absurd rfl hctx

/-- The entries after one that a node has just executed take over from its lease: none of them is its own. -/
theorem takesOver_after (hvotes : MasterVotes now log proposed) {sm sm' : MasterStateMachine}
    (hrenews : ∀ q ∈ proposed, q.op.nodeID = sm'.myNodeID → Renews sm q.op q.beginTime) {i : Nat} (hi : TakesEffect log i p)
    (hage : age sm.masterVersion ≤ i) (hp : p.op.nodeID = sm'.myNodeID)
    (hlease : (sm'.absExpireTime : Int) + 100 = p.endTime) :
    ∀ j q, i < j → TakesEffect log j q → TakesOver sm' q := by
  have hlen : i < noVersion := (proposalAt_lt hi.1).trans_le hvotes.length_le
  intro j
  induction j using Nat.strongRecOn with
  | ind j ih =>
    intro q hij hq
    have hmem := (hvotes.chosen j q hq.1).1
    have hmade := hvotes.made q hmem
    have hjlen : j ≤ noVersion := (proposalAt_lt hq.1).le.trans hvotes.length_le
    -- an entry of the node itself would have been made on an older version
    have hother (hle : i ≤ q.op.version) (hne : q.op.version ≠ noVersion) : q.op.nodeID ≠ sm'.myNodeID := by
      intro hown
      have := (hrenews q hmem hown).version
      rw [age_of_ne hne] at this
      omega
    rcases @versionAt_since log _ _ (Nat.succ_le_of_lt hij) with hsame | ⟨hle, hlt⟩
    · have hat : q.op.version = i := hq.2.2.trans (hsame.trans (versionAt_succ_of_takesEffect hi))
      have hne : q.op.version ≠ noVersion := hat ▸ hlen.ne
      exact TakesOver.first hp hlease hmade (hat ▸ hi.1) hne fun hown => absurd hown (hother hat.ge hne)
    · have hne : versionAt log j ≠ noVersion := (hlt.trans_le hjlen).ne
      obtain ⟨p', hp'⟩ := takesEffect_versionAt hne
      rw [← hq.2.2] at hp' hle hlt hne
      exact (ih _ hlt p' hle hp').next hmade hp'.1 hne (hother (Nat.le_of_succ_le hle) hne)

theorem toUInt32_of_leaseTime {leaseTime : Int} (h : LeaseTime leaseTime) : (toUInt32 leaseTime : Int) = leaseTime := by
  obtain ⟨hlo, hhi⟩ := h
  unfold toUInt32
  omega

theorem toUInt64_add {now : Nat} (hnow : now < 2 ^ 63) {d : Int} (hlo : 0 ≤ d) (hhi : d < 2 ^ 32) :
    (toUInt64 (now + d) : Int) = now + d := by
  unfold toUInt64
  omega

/-- An entry that takes effect on the node. -/
theorem NodeOK.learned (hvotes : MasterVotes now log proposed) (h : NodeOK now log proposed n nd)
    (hp : TakesEffect log nd.next p) (hversion : nd.sm.masterVersion = versionAt log nd.next) :
    NodeOK now log proposed n { nd.setResult nd.next with
      sm := nd.sm.learned now nd.next p.op ((nd.commitCtx p).getD 0), next := nd.next + 1 } := by
  obtain ⟨hmem, -, -, -⟩ := hvotes.chosen _ p hp.1
  have hmade := hvotes.made p hmem
  have hlen := proposalAt_lt hp.1
  have hlt : nd.next < noVersion := hlen.trans_le hvotes.length_le
  have hage : age nd.sm.masterVersion ≤ nd.next := hversion ▸ age_versionAt_le
  have hnewer : age nd.sm.masterVersion < age nd.next := by rw [age_of_ne hlt.ne]; omega
  have hat {q : MasterProposal} (hq : proposalAt log nd.next = some q) : q = p := Option.some.inj (hq.symm.trans hp.1)
  have hround : RoundOK now log proposed nd.sm (nd.setResult nd.next).tryBeMaster := by
    have := (h.setResult nd.next).round
    rwa [setResult_sm] at this
  have hlease : (nd.setResult nd.next).mgr = nd.mgr := by
    unfold MasterNode.setResult
    split
    · split <;> rfl
    · rfl
  refine
    { myNodeID := h.myNodeID
      lease := hlease ▸ h.lease
      reached := ⟨nd.next + 1, le_rfl, hlen, (versionAt_succ_of_takesEffect hp).symm⟩
      stores := ⟨rfl, rfl⟩
      knows := ⟨fun hnone => absurd hnone hlt.ne, fun _ => ⟨p, _, hp.1, rfl, rfl, ?_, ?_⟩, fun q _ hq => ?_, fun q _ hq => ?_⟩
      renews := fun q hq hqn => (h.renews q hq hqn).newer hnewer
      takesOver := ?_
      round := hround.newer rfl hnewer }
  · exact (toUInt32_of_leaseTime hmade.lease).ge
  · have := toUInt32_of_leaseTime hmade.lease
    obtain ⟨-, hhi⟩ := hmade.lease
    simp only
    omega
  · intro hother
    rw [hat hq] at hother ⊢
    refine ⟨rfl, ?_⟩
    have hexpire : (nd.sm.learned now nd.next p.op ((nd.commitCtx p).getD 0)).absExpireTime =
        toUInt64 (now + p.op.timeout) := if_neg hother
    obtain ⟨hlo, hhi⟩ := hmade.lease
    have hbegun := hmade.begun
    rw [hexpire, toUInt64_add hvotes.clock (by omega) (by omega)]
    unfold MasterProposal.endTime
    omega
  · intro hown
    rw [hat hq] at hown ⊢
    have hexpire : (nd.sm.learned now nd.next p.op ((nd.commitCtx p).getD 0)).absExpireTime =
        (nd.commitCtx p).getD 0 := if_pos hown
    rw [hexpire]
    exact h.commitCtx hvotes hmem
  · intro _ hmaster hlive j q hj hq
    have hown : p.op.nodeID = nd.sm.myNodeID := hmaster.trans h.myNodeID.symm
    have hexpire : (nd.sm.learned now nd.next p.op ((nd.commitCtx p).getD 0)).absExpireTime =
        (nd.commitCtx p).getD 0 := if_pos hown
    rw [hexpire] at hlive
    refine @takesOver_after now log proposed p hvotes nd.sm
      (nd.sm.learned now nd.next p.op ((nd.commitCtx p).getD 0)) ?_ nd.next hp hage hown ?_ j q hj hq
    · exact fun q hq hqn => h.renews q hq (hqn.trans h.myNodeID)
    · rw [hexpire]
      exact h.commitCtx hvotes hmem hlive

theorem NodeOK.execute (hvotes : MasterVotes now log proposed) (h : NodeOK now log proposed n nd)
    {value : Option MasterProposal} (hvalue : log[nd.next]? = some value) (put : Int) :
    NodeOK now log proposed n (nd.execute put now value) := by
  have hlen : nd.next < log.length := (List.getElem?_eq_some_iff.mp hvalue).1
  have hat : proposalAt log nd.next = value := by rw [proposalAt, hvalue, Option.join_some]
  have hskip (hnot : nd.sm.masterVersion = versionAt log nd.next → ∀ p, ¬ TakesEffect log nd.next p) :
      NodeOK now log proposed n { nd.setResult nd.next with next := nd.next + 1 } :=
    (h.setResult nd.next).setNext (by rw [setResult_sm]; exact h.reached_succ hlen hnot)
  cases value with
  | none =>
    refine hskip fun _ p hp => ?_
    exact absurd (hat.symm.trans hp.1) (by simp)
  | some p =>
    obtain ⟨hmem, -, hversion, hlast⟩ := hvotes.chosen _ p hat
    have hmade := hvotes.made p hmem
    obtain ⟨r, hnext, hr, hreached⟩ := h.reached
    have hpast : p.op.lastversion = 0 ∨ nd.next ≤ nd.sm.masterVersion ∨ p.op.lastversion = nd.sm.masterVersion := by
      rw [hreached]
      exact lastversion_past hnext hlast
    have hsm : ({ nd.setResult nd.next with sm := nd.sm } : MasterNode) = nd.setResult nd.next := by
      rw [← setResult_sm nd nd.next]
    change NodeOK now log proposed n { nd.setResult nd.next with
      sm := (nd.sm.executeOperator put now nd.next p.op (nd.commitCtx p)).2
      next := if (nd.sm.executeOperator put now nd.next p.op (nd.commitCtx p)).1 then nd.next + 1 else nd.next }
    rw [executeOperator_eq hpast]
    by_cases happly : p.op.operator = masterOperatorTypeComplete ∧ p.op.version = nd.sm.masterVersion
    · rw [if_pos happly]
      by_cases hput : put = 0
      · -- the node has executed no later entry
        have hcurrent : nd.sm.masterVersion = versionAt log nd.next := by
          rcases hnext.eq_or_lt with heq | hlater
          · rw [hreached, heq]
          · have hop : operations log nd.next = some p.op := by rw [operations, hat, Option.map_some]
            refine absurd ⟨happly.1, happly.2.trans hreached⟩ (not_applies_past hlater (hr.trans hvotes.length_le) hop ?_)
            exact fun _ => hversion.imp_right le_of_lt
        rw [if_neg (not_not.mpr hput)]
        exact h.learned hvotes ⟨hat, happly.1, happly.2.trans hcurrent⟩ hcurrent
      · rw [if_pos hput]
        have hstay : ({ nd.setResult nd.next with sm := nd.sm, next := nd.next } : MasterNode) = nd.setResult nd.next := by
          unfold MasterNode.setResult
          split
          · split <;> rfl
          · rfl
        change NodeOK now log proposed n { nd.setResult nd.next with sm := nd.sm, next := nd.next }
        rw [hstay]
        exact h.setResult nd.next
    · rw [if_neg happly]
      have hnot (hcurrent : nd.sm.masterVersion = versionAt log nd.next) : ∀ q, ¬ TakesEffect log nd.next q := by
        rintro q ⟨hq, hoperator, hqversion⟩
        obtain rfl : q = p := Option.some.inj (hq.symm.trans hat)
        exact happly ⟨hoperator, hqversion.trans hcurrent.symm⟩
      have hnode := hskip hnot
      rw [← hsm] at hnode
      exact hnode

end Execute

/-! ## Variables that are read back or taken over -/

section TakenOver

variable {now : Nat} {log : List (Option MasterProposal)} {proposed : List MasterProposal} {n : MemberID}
  {nd : MasterNode} {v : MasterVariables} {sm : MasterStateMachine}

/-- What `Init` and `UpdateByCheckpoint` make of variables: the node itself is forgotten as the master. -/
structure TakenOver (now : Nat) (v : MasterVariables) (sm : MasterStateMachine) : Prop where
  mvStore : sm.mvStore = some v
  masterVersion : sm.masterVersion = v.version
  self : v.masterNodeID = sm.myNodeID → sm.masterNodeID = nullnode ∧ sm.absExpireTime = 0
  other : v.masterNodeID ≠ sm.myNodeID → sm.masterNodeID = v.masterNodeID ∧ sm.absExpireTime = toUInt64 (now + v.leaseTime)

@[simp] theorem restart_myNodeID (sm : MasterStateMachine) : (sm.restart now).myNodeID = sm.myNodeID := by
  unfold MasterStateMachine.restart MasterStateMachine.init
  split
  · rfl
  · split <;> rfl

theorem restart_takenOver (h : sm.mvStore = some v) : TakenOver now v (sm.restart now) := by
  unfold MasterStateMachine.restart MasterStateMachine.init
  rw [h]
  simp only []
  split
  · rename_i hself
    exact ⟨rfl, rfl, fun _ => ⟨rfl, rfl⟩, fun hother => absurd hself hother⟩
  · rename_i hother
    exact ⟨rfl, rfl, fun hself => absurd hself hother, fun _ => ⟨rfl, rfl⟩⟩

/-- Variables are taken over when they are newer. -/
theorem updateByCheckpoint_cases (put : Int) (now : Nat) (cpBuffer : Bytes) (sm : MasterStateMachine) :
    (sm.updateByCheckpoint put now cpBuffer).2 = sm ∨ ∃ v, parseMasterVariables cpBuffer = some v ∧
      ¬ (v.version ≤ sm.masterVersion ∧ sm.masterVersion ≠ noVersion) ∧
      TakenOver now v (sm.updateByCheckpoint put now cpBuffer).2 ∧
      (sm.updateByCheckpoint put now cpBuffer).2.myNodeID = sm.myNodeID := by
  unfold MasterStateMachine.updateByCheckpoint
  split
  · exact Or.inl rfl
  · cases hv : parseMasterVariables cpBuffer with
    | none => exact Or.inl rfl
    | some v =>
      simp only []
      split
      · exact Or.inl rfl
      · rename_i hnewer
        by_cases hput : put = 0
        · refine Or.inr ⟨v, rfl, hnewer, ?_⟩
          simp only [updateMasterToStore, hput, ne_eq, not_true_eq_false, if_false]
          split
          · rename_i hself
            exact ⟨⟨rfl, rfl, fun _ => ⟨rfl, rfl⟩, fun hother => absurd hself hother⟩, rfl⟩
          · rename_i hother
            exact ⟨⟨rfl, rfl, fun hself => absurd hself hother, fun _ => ⟨rfl, rfl⟩⟩, rfl⟩
        · left
          simp only [updateMasterToStore, hput, ne_eq, not_false_eq_true, if_true]

/-- The node is not master by variables that it took over. -/
theorem TakenOver.not_master (h : TakenOver now v sm) (hmember : sm.myNodeID ≠ nullnode) : sm.masterNodeID ≠ sm.myNodeID := by
  by_cases hself : v.masterNodeID = sm.myNodeID
  · rw [(h.self hself).1]
    exact hmember.symm
  · rw [(h.other hself).1]
    exact hself

theorem TakenOver.knows (hvotes : MasterVotes now log proposed) (h : TakenOver now v sm) (hversion : v.version ≠ noVersion)
    {p : MasterProposal} (hp : proposalAt log v.version = some p) (hnode : v.masterNodeID = p.op.nodeID)
    (hle : p.op.timeout ≤ v.leaseTime) (hlt : v.leaseTime < 2 ^ 32) : Knows log sm := by
  have hmade := hvotes.made p (hvotes.chosen _ p hp).1
  refine ⟨fun hnone => absurd (h.masterVersion.symm.trans hnone) hversion,
    fun _ => ⟨p, v, h.masterVersion ▸ hp, h.mvStore, hnode, hle, hlt⟩, fun q _ hq hother => ?_, fun q _ hq hown hlive => ?_⟩
  · rw [h.masterVersion, hp, Option.some.injEq] at hq
    subst hq
    obtain ⟨hmaster, hexpire⟩ := h.other (hnode ▸ hother)
    refine ⟨hmaster.trans hnode, ?_⟩
    have hbegun := hmade.begun
    rw [hexpire, toUInt64_add hvotes.clock (by omega) (by omega)]
    unfold MasterProposal.endTime
    omega
  · rw [h.masterVersion, hp, Option.some.injEq] at hq
    subst hq
    exact absurd (h.self (hnode.trans hown)).2 hlive

/-- A node with variables that are not older than those that it had. -/
theorem NodeOK.takenOver (hvotes : MasterVotes now log proposed) (h : NodeOK now log proposed n nd) (htaken : TakenOver now v sm)
    (hmine : sm.myNodeID = nd.sm.myNodeID) (hversion : v.version ≠ noVersion)
    {p : MasterProposal} (hp : proposalAt log v.version = some p) (hnode : v.masterNodeID = p.op.nodeID)
    (hle : p.op.timeout ≤ v.leaseTime) (hlt : v.leaseTime < 2 ^ 32) (hage : age nd.sm.masterVersion ≤ age v.version)
    {nd' : MasterNode} (hsm : nd'.sm = sm) (hlease : LeaseTime nd'.mgr.leaseTime)
    (hreached : ∃ r, nd'.next ≤ r ∧ r ≤ log.length ∧ v.version = versionAt log r)
    (hround : RoundOK now log proposed sm nd'.tryBeMaster) : NodeOK now log proposed n nd' := by
  have hn : sm.myNodeID = n := hmine.trans h.myNodeID
  have hnot : sm.masterNodeID ≠ n := hn ▸ htaken.not_master (hn ▸ n.2)
  subst hsm
  exact
    { myNodeID := hn
      lease := hlease
      reached := htaken.masterVersion ▸ hreached
      stores := ⟨rfl, by rw [htaken.masterVersion, htaken.mvStore]; rfl⟩
      knows := htaken.knows hvotes hversion hp hnode hle hlt
      renews := fun q hq hqn => ⟨(h.renews q hq hqn).version.trans (htaken.masterVersion ▸ hage),
        fun _ hmaster => absurd (hmaster.trans hn) hnot⟩
      takesOver := fun _ hmaster => absurd hmaster hnot
      round := hround }

theorem NodeOK.restart (hvotes : MasterVotes now log proposed) (h : NodeOK now log proposed n nd) {instanceID : Nat}
    (hle : instanceID ≤ log.length)
    (hstored : age (versionAt log instanceID) ≤ age (masterVersionOf nd.sm.mvStore)) :
    NodeOK now log proposed n (nd.restart now instanceID) := by
  rw [← h.stores.masterVersion] at hstored
  have hreached : ∃ r, instanceID ≤ r ∧ r ≤ log.length ∧ nd.sm.masterVersion = versionAt log r := by
    obtain ⟨r, -, hr, hversion⟩ := h.reached
    rcases le_total instanceID r with hir | hri
    · exact ⟨r, hir, hr, hversion⟩
    · -- no entry between took effect
      refine ⟨instanceID, le_rfl, hle, ?_⟩
      rcases @versionAt_since log _ _ hri with hsame | ⟨hlow, hhigh⟩
      · exact hversion.trans hsame.symm
      · have := @age_versionAt_le log r
        rw [age_of_ne (hhigh.trans_le (hle.trans hvotes.length_le)).ne, hversion] at hstored
        omega
  by_cases hversion : nd.sm.masterVersion = noVersion
  · have hnone := (h.knows.fresh hversion).2
    have hsm : nd.sm.restart now = { myNodeID := nd.sm.myNodeID } := by
      unfold MasterStateMachine.restart MasterStateMachine.init
      rw [hnone]
    have hnot : nullnode ≠ (n : NodeID) := n.2.symm
    rw [MasterNode.restart, hsm]
    exact
      { myNodeID := h.myNodeID
        lease := LeaseTime.default
        reached := hversion ▸ hreached
        stores := .fresh _
        knows := ⟨fun _ => ⟨rfl, rfl⟩, fun hne => absurd rfl hne, fun _ hne => absurd rfl hne, fun _ hne => absurd rfl hne⟩
        renews := fun q hq hqn => ⟨hversion ▸ (h.renews q hq hqn).version, fun _ hmaster => absurd (hmaster.trans h.myNodeID) hnot⟩
        takesOver := fun hne => absurd rfl hne
        round := trivial }
  · obtain ⟨p, v, hp, hv, hnode, hlease, hlt⟩ := h.knows.stored hversion
    have hsame : nd.sm.masterVersion = v.version := by rw [h.stores.masterVersion, hv]; rfl
    rw [hsame] at hp hversion hreached
    exact h.takenOver hvotes (restart_takenOver hv) (restart_myNodeID _) hversion hp hnode hlease hlt (hsame ▸ le_rfl) rfl
      LeaseTime.default hreached trivial

theorem NodeOK.adopt (hvotes : MasterVotes now log proposed) (h : NodeOK now log proposed n nd) {put : Int} {cpBuffer : Bytes}
    (hbuffer : BufferOK log cpBuffer)
    (hkeeps : ∀ v, parseMasterVariables cpBuffer = some v →
      v.version ≤ nd.sm.masterVersion ∧ nd.sm.masterVersion ≠ noVersion ∨
        ∃ p, proposalAt log v.version = some p ∧ p.op.nodeID = v.masterNodeID ∧ p.op.timeout ≤ v.leaseTime) :
    NodeOK now log proposed n (nd.adopt put now cpBuffer) := by
  rcases updateByCheckpoint_cases put now cpBuffer nd.sm with hsame | ⟨v, hv, hnewer, htaken, hmine⟩
  · rw [MasterNode.adopt, hsame]
    exact h
  · obtain ⟨p, hp, hnode, hle⟩ := (hkeeps v hv).resolve_left hnewer
    obtain ⟨hversion, hlt, r, hr, hat⟩ : v.version ≠ noVersion ∧ v.leaseTime < 2 ^ 32 ∧
        ∃ r ≤ log.length, v.version = versionAt log r := by
      rcases hbuffer with hempty | ⟨w, hw, hrest⟩
      · rw [hempty] at hv
        cases hv
      · rw [hw, parse_serializeMasterVariables, Option.some.injEq] at hv
        exact hv ▸ hrest
    have hage : age nd.sm.masterVersion < age v.version := by
      rw [age_of_ne hversion]
      by_cases hnone : nd.sm.masterVersion = noVersion
      · rw [hnone, age_noVersion]
        exact Nat.succ_pos _
      · rw [age_of_ne hnone]
        have := fun hle => hnewer ⟨hle, hnone⟩
        omega
    obtain ⟨r', hnext, hr', hreached⟩ := h.reached
    have hlater : r' ≤ r := by
      by_contra hlt'
      have := @age_versionAt_mono log _ _ (not_le.mp hlt').le (hr'.trans hvotes.length_le)
      rw [← hat, ← hreached] at this
      omega
    exact h.takenOver hvotes htaken hmine hversion hp hnode.symm hle hlt hage.le rfl h.lease
      ⟨r, hnext.trans hlater, hr, hat⟩ (h.round.newer hmine (htaken.masterVersion ▸ hage))

theorem NodeOK.give (h : NodeOK now log proposed n nd) : BufferOK log nd.sm.getCheckpointBuffer := by
  unfold getCheckpointBuffer
  split
  · exact Or.inl rfl
  · rename_i hversion
    obtain ⟨r, -, hr, hreached⟩ := h.reached
    refine Or.inr ⟨_, rfl, hversion, ?_, r, hr, hreached⟩
    change toUInt32 nd.sm.leaseTime < 2 ^ 32
    unfold toUInt32
    omega

theorem BufferOK.append {b : Bytes} (h : BufferOK log b) (x : Option MasterProposal) : BufferOK (log ++ [x]) b := by
  refine h.imp_right ?_
  rintro ⟨v, hv, hversion, hlt, r, hr, hat⟩
  have hlen : (log ++ [x]).length = log.length + 1 := by simp
  exact ⟨v, hv, hversion, hlt, r, by omega, by rw [versionAt_append hr, hat]⟩

end TakenOver

/-! ## Every run -/

namespace MasterGroup

variable {openChangeValueBeforePropose : Bool}

theorem init_ok {now : Nat} (hnow : now < 2 ^ 63) : (init now).OK := by
  have hlog (k : Nat) : proposalAt (init now).log k = none := rfl
  refine ⟨?_, fun n => ?_, by rintro b (_ | _)⟩
  · refine { clock := hnow, length_le := Nat.zero_le _, made := ?_, instanceID_le := ?_, lastVersion := ?_, distinct := ?_,
             chosen := ?_ }
    · rintro p (_ | _)
    · rintro p (_ | _)
    · rintro p (_ | _)
    · rintro p (_ | _)
    · intro k p hp
      rw [hlog k] at hp
      cases hp
  · exact
      { myNodeID := rfl
        lease := LeaseTime.default
        reached := ⟨0, le_rfl, le_rfl, rfl⟩
        stores := .fresh _
        knows := ⟨fun _ => ⟨rfl, rfl⟩, fun hne => absurd rfl hne, fun _ hne => absurd rfl hne, fun _ hne => absurd rfl hne⟩
        renews := by rintro p (_ | _)
        takesOver := fun hne => absurd rfl hne
        round := trivial }

theorem step_ok {s s' : MasterGroup} {a : MasterAct} (h : s.OK) (hkeeps : s.KeepsLeases openChangeValueBeforePropose a)
    (hstep : s.step openChangeValueBeforePropose a = some s') : s'.OK := by
  cases a with
  | tick now =>
    obtain ⟨hnow, hs⟩ := Option.ite_none_right_eq_some.mp hstep
    obtain rfl := Option.some.inj hs
    exact ⟨h.votes.mono hnow.1 hnow.2, fun n => (h.node n).mono hnow.1, h.buffers⟩
  | setLeaseTime n leaseTimeMs =>
    obtain ⟨hrange, hs⟩ := Option.ite_none_right_eq_some.mp hstep
    obtain rfl := Option.some.inj hs
    exact h.setNode ((h.node n).setLeaseTime hrange.2)
  | beginRound n =>
    obtain ⟨nd, hnd, rfl⟩ := Option.map_eq_some_iff.mp hstep
    exact h.setNode ((h.node n).beginRound hnd)
  | check n =>
    obtain ⟨nd, hnd, rfl⟩ := Option.map_eq_some_iff.mp hstep
    exact h.setNode ((h.node n).check h.votes hnd)
  | propose n sid =>
    obtain ⟨nd, hnd, rfl⟩ := Option.map_eq_some_iff.mp hstep
    exact h.setNode ((h.node n).propose h.votes hkeeps hnd)
  | newValue n =>
    obtain ⟨p, hp, rfl⟩ := Option.map_eq_some_iff.mp hstep
    have hn : p.op.nodeID = n := ((h.node n).newProposal hp).2.2.1.trans (h.node n).myNodeID
    refine ⟨h.votes.newValue (h.node n) hp (hkeeps p hp), fun m => ?_, h.buffers⟩
    by_cases hmn : m = n
    · subst hmn
      simpa only [setNode, Function.update_self] using (h.node m).newValue hp
    · simp only [setNode, Function.update_of_ne hmn]
      exact (h.node m).proposedOf fun hm => hmn (Subtype.ext (hm.symm.trans hn))
  | endCommit n =>
    obtain ⟨nd, hnd, rfl⟩ := Option.map_eq_some_iff.mp hstep
    exact h.setNode ((h.node n).endCommit hnd)
  | choose value =>
    obtain ⟨hvalue, hs⟩ := Option.ite_none_right_eq_some.mp hstep
    obtain rfl := Option.some.inj hs
    exact ⟨h.votes.choose hvalue.1 hvalue.2, fun n => (h.node n).choose h.votes hvalue.1 hvalue.2,
      fun b hb => (h.buffers b hb).append value⟩
  | execute n put =>
    obtain ⟨value, hvalue, rfl⟩ := Option.map_eq_some_iff.mp hstep
    exact h.setNode ((h.node n).execute h.votes hvalue put)
  | restart n instanceID =>
    obtain ⟨hle, hs⟩ := Option.ite_none_right_eq_some.mp hstep
    obtain rfl := Option.some.inj hs
    exact h.setNode ((h.node n).restart h.votes hle hkeeps)
  | give n =>
    obtain rfl := Option.some.inj hstep
    refine ⟨h.votes, h.node, ?_⟩
    rintro b (_ | ⟨_, hb⟩)
    · exact (h.node n).give
    · exact h.buffers b hb
  | adopt n put cpBuffer =>
    obtain ⟨hmem, hs⟩ := Option.ite_none_right_eq_some.mp hstep
    obtain rfl := Option.some.inj hs
    exact h.setNode ((h.node n).adopt h.votes (h.buffers _ hmem) hkeeps)

theorem Run.ok {s : MasterGroup} (h : Run openChangeValueBeforePropose (KeepsLeases openChangeValueBeforePropose) s) :
    s.OK := by
  induction h with
  | init hnow => exact init_ok hnow
  | step _ hkeeps hstep ih => exact step_ok ih hkeeps hstep

end MasterGroup

end PhxPaxos
