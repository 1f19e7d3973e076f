import PhxPaxos.StateMachines.MasterLease

/-!
# One master at a time, for reads without the lock

`IsIMMaster` can read the variables of a node that is in `LearnMaster`: the new master, and the time when the old lease
ends. The group as the locks show it takes the steps of `MasterGroup` (`Run.group`), and no more nodes are master to reads
without the lock, where an entry of the node itself takes effect only when the lease that the node has is over or the node
was master before (`isIMMaster_unique`). The lease that `Init` leaves out of the memory gives two masters (`two_masters`),
and so does an own entry that a process executes with the lease that `Init` has started again (`two_masters_between`).
-/

namespace PhxPaxos

open MasterStateMachine

/-! ## What an act leaves as it is -/

/-- The node whose variables the act stores. -/
def MasterAct.stores : MasterAct → Option MemberID
  | .execute n _ | .restart n _ | .adopt n .. => some n
  | _ => none

namespace MasterGroup

variable {openChangeValueBeforePropose : Bool} {s s' : MasterGroup} {a : MasterAct} {n : MemberID}

/-- The node has the same variables, at the same instance; the clock and the log have gone on. -/
structure Leaves (s s' : MasterGroup) (n : MemberID) : Prop where
  now : s.now ≤ s'.now
  log : s.log <+: s'.log
  sm : (s'.node n).sm = (s.node n).sm
  next : (s'.node n).next = (s.node n).next

theorem Leaves.trans {s'' : MasterGroup} (h : s.Leaves s' n) (h' : s'.Leaves s'' n) : s.Leaves s'' n :=
  ⟨h.now.trans h'.now, h.log.trans h'.log, h'.sm.trans h.sm, h'.next.trans h.next⟩

theorem leaves_setNode {m : MemberID} {nd : MasterNode}
    (h : m = n → nd.sm = (s.node n).sm ∧ nd.next = (s.node n).next) : s.Leaves (s.setNode m nd) n := by
  by_cases hnm : n = m
  · subst hnm
    obtain ⟨hsm, hnext⟩ := h rfl
    refine ⟨le_rfl, List.prefix_rfl, ?_, ?_⟩
    · simpa only [setNode, Function.update_self] using hsm
    · simpa only [setNode, Function.update_self] using hnext
  · refine ⟨le_rfl, List.prefix_rfl, ?_, ?_⟩
    · simp only [setNode, Function.update_of_ne hnm]
    · simp only [setNode, Function.update_of_ne hnm]

/-- The rounds of `MasterMgr` store no variables. -/
theorem round_leaves (now sid : Nat) {nd nd' : MasterNode}
    (h : nd.beginRound = some nd' ∨ nd.check now = some nd' ∨ nd.propose now sid = some nd' ∨ nd.endCommit = some nd') :
    nd'.sm = nd.sm ∧ nd'.next = nd.next := by
  rcases h with h | h | h | h
  · unfold MasterNode.beginRound at h
    split at h
    · obtain rfl := Option.some.inj h
      exact ⟨rfl, rfl⟩
    · cases h
  · unfold MasterNode.check at h
    split at h
    · dsimp only at h
      split at h
      · obtain rfl := Option.some.inj h
        exact ⟨rfl, rfl⟩
      · obtain rfl := Option.some.inj h
        exact ⟨rfl, rfl⟩
    · cases h
  · unfold MasterNode.propose at h
    split at h
    · obtain rfl := Option.some.inj h
      exact ⟨rfl, rfl⟩
    · cases h
  · unfold MasterNode.endCommit at h
    split at h
    · obtain rfl := Option.some.inj h
      exact ⟨rfl, rfl⟩
    · obtain rfl := Option.some.inj h
      exact ⟨rfl, rfl⟩
    · cases h

theorem startCommit_leaves (nd : MasterNode) (p : MasterProposal) :
    (nd.startCommit p).sm = nd.sm ∧ (nd.startCommit p).next = nd.next := by
  unfold MasterNode.startCommit
  split <;> exact ⟨rfl, rfl⟩

theorem step_leaves (hstep : s.step openChangeValueBeforePropose a = some s') (ha : a.stores ≠ some n) : s.Leaves s' n := by
  cases a with
  | tick now =>
    obtain ⟨hnow, hs⟩ := Option.ite_none_right_eq_some.mp hstep
    obtain rfl := Option.some.inj hs
    exact ⟨hnow.1, List.prefix_rfl, rfl, rfl⟩
  | setLeaseTime m leaseTimeMs =>
    obtain ⟨-, hs⟩ := Option.ite_none_right_eq_some.mp hstep
    obtain rfl := Option.some.inj hs
    exact leaves_setNode fun hm => hm ▸ ⟨rfl, rfl⟩
  | beginRound m =>
    obtain ⟨nd, hnd, rfl⟩ := Option.map_eq_some_iff.mp hstep
    exact leaves_setNode fun hm => hm ▸ round_leaves 0 0 (.inl hnd)
  | check m =>
    obtain ⟨nd, hnd, rfl⟩ := Option.map_eq_some_iff.mp hstep
    exact leaves_setNode fun hm => hm ▸ round_leaves s.now 0 (.inr (.inl hnd))
  | propose m sid =>
    obtain ⟨nd, hnd, rfl⟩ := Option.map_eq_some_iff.mp hstep
    exact leaves_setNode fun hm => hm ▸ round_leaves s.now sid (.inr (.inr (.inl hnd)))
  | newValue m =>
    obtain ⟨p, -, rfl⟩ := Option.map_eq_some_iff.mp hstep
    have hleaves : s.Leaves (s.setNode m ((s.node m).startCommit p)) n :=
      leaves_setNode fun hm => hm ▸ startCommit_leaves (s.node m) p
    exact ⟨hleaves.now, hleaves.log, hleaves.sm, hleaves.next⟩
  | endCommit m =>
    obtain ⟨nd, hnd, rfl⟩ := Option.map_eq_some_iff.mp hstep
    exact leaves_setNode fun hm => hm ▸ round_leaves 0 0 (.inr (.inr (.inr hnd)))
  | choose value =>
    obtain ⟨-, hs⟩ := Option.ite_none_right_eq_some.mp hstep
    obtain rfl := Option.some.inj hs
    exact ⟨le_rfl, List.prefix_append _ _, rfl, rfl⟩
  | execute m put =>
    obtain ⟨value, -, rfl⟩ := Option.map_eq_some_iff.mp hstep
    exact leaves_setNode fun hm => absurd (congrArg some hm) ha
  | restart m instanceID =>
    obtain ⟨-, hs⟩ := Option.ite_none_right_eq_some.mp hstep
    obtain rfl := Option.some.inj hs
    exact leaves_setNode fun hm => absurd (congrArg some hm) ha
  | give m =>
    obtain rfl := Option.some.inj hstep
    exact ⟨le_rfl, List.prefix_rfl, rfl, rfl⟩
  | adopt m put cpBuffer =>
    obtain ⟨-, hs⟩ := Option.ite_none_right_eq_some.mp hstep
    obtain rfl := Option.some.inj hs
    exact leaves_setNode fun hm => absurd (congrArg some hm) ha

end MasterGroup

namespace LearningGroup

variable {openChangeValueBeforePropose : Bool} {C : LearningGroup → LearningAct → Prop} {s s' : LearningGroup}
  {sm : MasterStateMachine} {n : MemberID}

/-! ## The condition on a run -/

/-- What the locks show keeps the leases. -/
def LocksKeep (openChangeValueBeforePropose : Bool) (s : LearningGroup) : LearningAct → Prop
  | .act a => s.group.KeepsLeases openChangeValueBeforePropose a
  | .learn _ | .learnt _ => True
  | .killed n instanceID => ∀ group, s.group.step openChangeValueBeforePropose (.execute n 0) = some group →
      group.KeepsLeases openChangeValueBeforePropose (.restart n instanceID)

/-- When an entry of the node itself takes effect, the lease that the node has is over, or the node is master already. -/
def LearnsLate (s : LearningGroup) : LearningAct → Prop
  | .learn n => ∀ sm, s.learnNodeID n = some sm → sm.masterNodeID = n →
      (s.group.node n).sm.masterNodeID = n ∨ (s.group.node n).sm.absExpireTime ≤ s.group.now
  | .act _ | .learnt _ | .killed .. => True

def KeepsLeases (openChangeValueBeforePropose : Bool) (s : LearningGroup) (a : LearningAct) : Prop :=
  s.LocksKeep openChangeValueBeforePropose a ∧ s.LearnsLate a

theorem Run.mono {C' : LearningGroup → LearningAct → Prop} (h : Run openChangeValueBeforePropose C s)
    (hC : ∀ s a, C s a → C' s a) : Run openChangeValueBeforePropose C' s := by
  induction h with
  | init hnow => exact .init hnow
  | step _ hkeeps hstep ih => exact ih.step (hC _ _ hkeeps) hstep

/-! ## What the locks show -/

theorem step_group {a : LearningAct} (h : MasterGroup.Run openChangeValueBeforePropose
      (MasterGroup.KeepsLeases openChangeValueBeforePropose) s.group)
    (hkeeps : s.LocksKeep openChangeValueBeforePropose a) (hstep : s.step openChangeValueBeforePropose a = some s') :
    MasterGroup.Run openChangeValueBeforePropose (MasterGroup.KeepsLeases openChangeValueBeforePropose) s'.group := by
  cases a with
  | act a =>
    obtain ⟨-, hact⟩ := Option.ite_none_right_eq_some.mp hstep
    obtain ⟨group, hgroup, rfl⟩ := Option.map_eq_some_iff.mp hact
    exact h.step hkeeps hgroup
  | learn n =>
    obtain ⟨-, hlearn⟩ := Option.ite_none_right_eq_some.mp hstep
    obtain ⟨sm, -, rfl⟩ := Option.map_eq_some_iff.mp hlearn
    exact h
  | learnt n =>
    obtain ⟨-, hlearnt⟩ := Option.ite_none_left_eq_some.mp hstep
    obtain ⟨group, hgroup, rfl⟩ := Option.map_eq_some_iff.mp hlearnt
    exact h.step (a := .execute n 0) trivial hgroup
  | killed n instanceID =>
    obtain ⟨-, hkilled⟩ := Option.ite_none_left_eq_some.mp hstep
    obtain ⟨group, hgroup, hrest⟩ := Option.bind_eq_some_iff.mp hkilled
    obtain ⟨group', hgroup', rfl⟩ := Option.map_eq_some_iff.mp hrest
    exact (h.step (a := .execute n 0) trivial hgroup).step (hkeeps group hgroup) hgroup'

/-- **Refinement**: behind the locks the group takes the steps of `MasterGroup`. -/
theorem Run.group (h : Run openChangeValueBeforePropose (LocksKeep openChangeValueBeforePropose) s) :
    MasterGroup.Run openChangeValueBeforePropose (MasterGroup.KeepsLeases openChangeValueBeforePropose) s.group := by
  induction h with
  | init hnow => exact .init hnow
  | step _ hkeeps hstep ih => exact step_group ih hkeeps hstep

/-! ## What a node shows while it learns -/

theorem learnNodeID_eq_some (h : s.learnNodeID n = some sm) :
    ∃ p, s.group.log[(s.group.node n).next]? = some (some p) ∧ p.op.operator = masterOperatorTypeComplete ∧
      (s.group.node n).sm.learnMasterNodeID (s.group.node n).next p.op = some sm := by
  obtain ⟨value, hvalue, hlearn⟩ := Option.bind_eq_some_iff.mp h
  obtain ⟨p, rfl, hp⟩ := Option.bind_eq_some_iff.mp hlearn
  obtain ⟨hoperator, hsm⟩ := Option.ite_none_right_eq_some.mp hp
  exact ⟨p, hvalue, hoperator, hsm⟩

theorem learnMasterNodeID_fields {instanceID : Nat} {op : MasterOperator} {sm sm' : MasterStateMachine}
    (h : sm.learnMasterNodeID instanceID op = some sm') :
    sm'.myNodeID = sm.myNodeID ∧ sm'.absExpireTime = sm.absExpireTime := by
  obtain ⟨-, hsm⟩ := Option.ite_none_left_eq_some.mp h
  obtain rfl := Option.some.inj hsm
  split <;> exact ⟨rfl, rfl⟩

/-- A node that learns has the variables that the entry leaves first, and is not master by its old lease, unless it was
before. -/
structure Learns (s : LearningGroup) (n : MemberID) (sm : MasterStateMachine) : Prop where
  learning : s.learnNodeID n = some sm
  master : sm.masterNodeID = n →
    (s.group.node n).sm.masterNodeID = n ∨ (s.group.node n).sm.absExpireTime ≤ s.group.now

theorem Learns.leaves (h : s.Learns n sm) (hleaves : s.group.Leaves s'.group n) : s'.Learns n sm := by
  obtain ⟨p, hp, hoperator, hsm⟩ := learnNodeID_eq_some h.learning
  obtain ⟨later, hlog⟩ := hleaves.log
  have hp' : s'.group.log[(s'.group.node n).next]? = some (some p) := by
    rw [hleaves.next, ← hlog]
    exact List.getElem?_append_left (List.getElem?_eq_some_iff.mp hp).1 ▸ hp
  refine ⟨?_, fun hmaster => ?_⟩
  · unfold learnNodeID MasterNode.learnNodeID
    rw [hp', hleaves.sm, hleaves.next, Option.bind_some, Option.bind_some, if_pos hoperator, hsm]
  · rw [hleaves.sm]
    exact (h.master hmaster).imp_right fun hover => hover.trans hleaves.now

/-- A node that is in `LearnMaster` is not touched by what happens meanwhile. -/
theorem Free.stores {a : MasterAct} (h : s.Free a) (hn : s.learning n ≠ none) : a.stores ≠ some n := by
  intro ha
  cases a with
  | execute m put => exact hn (Option.some.inj ha ▸ h.1)
  | restart m instanceID => exact hn (Option.some.inj ha ▸ h)
  | adopt m put cpBuffer => exact hn (Option.some.inj ha ▸ h)
  | _ => cases ha

theorem step_learns {a : LearningAct} (h : ∀ n sm, s.learning n = some sm → s.Learns n sm) (hlate : s.LearnsLate a)
    (hstep : s.step openChangeValueBeforePropose a = some s') (hn : s'.learning n = some sm) : s'.Learns n sm := by
  cases a with
  | act a =>
    obtain ⟨hfree, hact⟩ := Option.ite_none_right_eq_some.mp hstep
    obtain ⟨group, hgroup, rfl⟩ := Option.map_eq_some_iff.mp hact
    have hlearning : s.learning n ≠ none := by
      rw [show s.learning n = some sm from hn]
      exact Option.some_ne_none sm
    exact (h n sm hn).leaves (MasterGroup.step_leaves hgroup (hfree.stores hlearning))
  | learn m =>
    obtain ⟨-, hlearn⟩ := Option.ite_none_right_eq_some.mp hstep
    obtain ⟨sm', hsm', rfl⟩ := Option.map_eq_some_iff.mp hlearn
    by_cases hnm : n = m
    · subst hnm
      obtain rfl : sm' = sm := Option.some.inj ((Function.update_self n (some sm') s.learning).symm.trans hn)
      exact ⟨hsm', hlate sm' hsm'⟩
    · have hold := h n sm ((Function.update_of_ne hnm (some sm') s.learning).symm.trans hn)
      exact ⟨hold.learning, hold.master⟩
  | learnt m =>
    obtain ⟨-, hlearnt⟩ := Option.ite_none_left_eq_some.mp hstep
    obtain ⟨group, hgroup, rfl⟩ := Option.map_eq_some_iff.mp hlearnt
    by_cases hnm : n = m
    · subst hnm
      cases (Function.update_self n none s.learning).symm.trans hn
    · exact (h n sm ((Function.update_of_ne hnm none s.learning).symm.trans hn)).leaves
        (MasterGroup.step_leaves hgroup fun hm => hnm (Option.some.inj hm).symm)
  | killed m instanceID =>
    obtain ⟨-, hkilled⟩ := Option.ite_none_left_eq_some.mp hstep
    obtain ⟨group, hgroup, hrest⟩ := Option.bind_eq_some_iff.mp hkilled
    obtain ⟨group', hgroup', rfl⟩ := Option.map_eq_some_iff.mp hrest
    by_cases hnm : n = m
    · subst hnm
      cases (Function.update_self n none s.learning).symm.trans hn
    · have hexecute := MasterGroup.step_leaves hgroup fun hm => hnm (Option.some.inj hm).symm
      have hrestart := MasterGroup.step_leaves hgroup' fun hm => hnm (Option.some.inj hm).symm
      exact (h n sm ((Function.update_of_ne hnm none s.learning).symm.trans hn)).leaves (hexecute.trans hrestart)

theorem Run.learns (h : Run openChangeValueBeforePropose (KeepsLeases openChangeValueBeforePropose) s) :
    ∀ n sm, s.learning n = some sm → s.Learns n sm := by
  induction h with
  | init hnow =>
    intro n sm hn
    cases hn
  | step _ hkeeps hstep ih => exact fun n sm hn => step_learns ih hkeeps.2 hstep hn

/-- **The rest of LearnMaster**: it stores the time when the lease ends on what the node has shown meanwhile. -/
theorem Run.learnt (h : Run openChangeValueBeforePropose (KeepsLeases openChangeValueBeforePropose) s)
    (hn : s.learning n = some sm) (hstep : s.step openChangeValueBeforePropose (.learnt n) = some s') :
    ∃ op absMasterTimeout,
      s'.sm n = sm.learnExpireTime s.group.now (s.group.node n).next op absMasterTimeout := by
  obtain ⟨p, hp, hoperator, hsm⟩ := learnNodeID_eq_some (h.learns n sm hn).learning
  obtain ⟨-, hlearnt⟩ := Option.ite_none_left_eq_some.mp hstep
  obtain ⟨group, hgroup, rfl⟩ := Option.map_eq_some_iff.mp hlearnt
  obtain ⟨value, hvalue, rfl⟩ := Option.map_eq_some_iff.mp hgroup
  obtain rfl : value = some p := Option.some.inj (hvalue.symm.trans hp)
  refine ⟨p.op, ((s.group.node n).commitCtx p).getD 0, ?_⟩
  simp only [LearningGroup.sm, MasterGroup.setNode, Function.update_self, Option.getD_none, MasterNode.execute, executeOperator,
    hoperator, if_true, learnMaster_parts hsm, ne_eq, not_true_eq_false, if_false]

/-! ## One master -/

/-- A node that is master to a read without the lock is master behind it. -/
theorem Run.isIMMaster (h : Run openChangeValueBeforePropose (KeepsLeases openChangeValueBeforePropose) s)
    (hm : (s.sm n).isIMMaster s.group.now = true) : (s.group.node n).sm.isIMMaster s.group.now = true := by
  cases hn : s.learning n with
  | none =>
    unfold LearningGroup.sm at hm
    rwa [hn, Option.getD_none] at hm
  | some sm =>
    unfold LearningGroup.sm at hm
    rw [hn, Option.getD_some] at hm
    have hmine := ((h.mono fun _ _ hkeeps => hkeeps.1).group.ok.node n).myNodeID
    have hlearns := h.learns n sm hn
    obtain ⟨p, -, -, hsm⟩ := learnNodeID_eq_some hlearns.learning
    obtain ⟨hnode, hexpire⟩ := learnMasterNodeID_fields hsm
    rw [isIMMaster_iff (by rw [hnode, hmine]; exact n.2), hexpire, hnode, hmine] at hm
    rw [isIMMaster_iff (by rw [hmine]; exact n.2), hmine]
    exact ⟨hm.1, (hlearns.master hm.2).resolve_right (not_le.mpr hm.1)⟩

/-- **Master lease mutual exclusion**: in every run whose steps keep the leases, no two nodes are master at one time. -/
theorem isIMMaster_unique (h : Run openChangeValueBeforePropose (KeepsLeases openChangeValueBeforePropose) s) {m n : MemberID}
    (hm : (s.sm m).isIMMaster s.group.now = true) (hn : (s.sm n).isIMMaster s.group.now = true) : m = n :=
  (h.mono fun _ _ hkeeps => hkeeps.1).group.ok.unique (h.isIMMaster hm) (h.isIMMaster hn)

/-! ## Runs on given acts -/

instance decidableChecked (masterVersion : Nat) (p : Int → Prop) [DecidablePred p] :
    (t : TryBeMaster) → Decidable (∀ leaseTime, t = .checked leaseTime masterVersion → p leaseTime)
  | .checked leaseTime version => decidable_of_iff (version = masterVersion → p leaseTime)
      ⟨fun h _ heq => by cases heq; exact h rfl, fun h heq => h leaseTime (heq ▸ rfl)⟩
  | .idle | .round _ | .waiting .. | .started .. => isTrue nofun

instance (s : MasterGroup) : (a : MasterAct) → Decidable (s.KeepsLeases openChangeValueBeforePropose a)
  | .propose n _ => decidableChecked (s.node n).sm.masterVersion (fun leaseTime => (s.node n).sm.masterNodeID = n →
      ((s.node n).sm.absExpireTime : Int) ≤ s.now + (leaseTime - 100)) (s.node n).tryBeMaster
  | .newValue n => inferInstanceAs (Decidable (∀ p ∈ (s.node n).newProposal openChangeValueBeforePropose,
      ∀ q ∈ s.proposed, q.instanceID = p.instanceID → q.op ≠ p.op))
  | .restart n instanceID => inferInstanceAs (Decidable
      (age (MasterGroup.versionAt s.log instanceID) ≤ age (masterVersionOf (s.node n).sm.mvStore)))
  | .adopt n _ cpBuffer => inferInstanceAs (Decidable (∀ v ∈ parseMasterVariables cpBuffer,
      v.version ≤ (s.node n).sm.masterVersion ∧ (s.node n).sm.masterVersion ≠ noVersion ∨
        ∃ p ∈ MasterGroup.proposalAt s.log v.version, p.op.nodeID = v.masterNodeID ∧ p.op.timeout ≤ v.leaseTime))
  | .tick _ | .setLeaseTime .. | .beginRound _ | .check _ | .endCommit _ | .choose _ | .execute .. | .give _ => isTrue trivial

instance (s : LearningGroup) : (a : LearningAct) → Decidable (s.LocksKeep openChangeValueBeforePropose a)
  | .act a => inferInstanceAs (Decidable (s.group.KeepsLeases openChangeValueBeforePropose a))
  | .learn _ | .learnt _ => isTrue trivial
  | .killed n instanceID => inferInstanceAs (Decidable
      (∀ group ∈ s.group.step openChangeValueBeforePropose (.execute n 0),
        group.KeepsLeases openChangeValueBeforePropose (.restart n instanceID)))

instance (s : LearningGroup) : (a : LearningAct) → Decidable (s.LearnsLate a)
  | .learn n => inferInstanceAs (Decidable (∀ sm ∈ s.learnNodeID n, sm.masterNodeID = n →
      (s.group.node n).sm.masterNodeID = n ∨ (s.group.node n).sm.absExpireTime ≤ s.group.now))
  | .act _ | .learnt _ | .killed .. => isTrue trivial

instance (s : LearningGroup) (a : LearningAct) : Decidable (s.KeepsLeases openChangeValueBeforePropose a) :=
  inferInstanceAs (Decidable (_ ∧ _))

/-- The state after the acts, when the condition holds at each of them. -/
def exec (openChangeValueBeforePropose : Bool) (C : LearningGroup → LearningAct → Prop) [∀ s a, Decidable (C s a)]
    (s : LearningGroup) (acts : List LearningAct) : Option LearningGroup :=
  acts.foldlM (fun s a => if C s a then s.step openChangeValueBeforePropose a else none) s

theorem Run.exec [∀ s a, Decidable (C s a)] {acts : List LearningAct} (h : Run openChangeValueBeforePropose C s)
    (hexec : s.exec openChangeValueBeforePropose C acts = some s') : Run openChangeValueBeforePropose C s' := by
  induction acts generalizing s with
  | nil =>
    obtain rfl := Option.some.inj hexec
    exact h
  | cons a acts ih =>
    unfold LearningGroup.exec at hexec
    rw [List.foldlM_cons] at hexec
    obtain ⟨s₁, hstep, hrest⟩ := Option.bind_eq_some_iff.mp hexec
    obtain ⟨hC, hstep⟩ := Option.ite_none_right_eq_some.mp hstep
    exact ih (h.step hC hstep) hrest

def node₁ : MemberID := ⟨1, by decide⟩

def node₂ : MemberID := ⟨2, by decide⟩

def node₃ : MemberID := ⟨3, by decide⟩

/-- A node proposes itself, and the group chooses it. -/
def chooseActs (n : MemberID) (p : MasterProposal) : List LearningAct :=
  [.act (.beginRound n), .act (.check n), .act (.propose n p.op.sid), .act (.newValue n), .act (.choose (some p))]

/-- A node executes an entry that takes effect. -/
def learnActs (n : MemberID) : List LearningAct := [.learn n, .learnt n]

/-- Node 1 for instance 0. -/
def proposal₁ : MasterProposal := ⟨0, ⟨1, noVersion, 10000, masterOperatorTypeComplete, 7, some noVersion⟩, 0⟩

/-- Node 2 for instance 1, at a time. -/
def proposal₂ (beginTime : Nat) : MasterProposal := ⟨1, ⟨2, 0, 10000, masterOperatorTypeComplete, 9, some 0⟩, beginTime⟩

/-- Node 3 for instance 2, when the lease of node 2 is over. -/
def proposal₃ : MasterProposal := ⟨2, ⟨3, 1, 10000, masterOperatorTypeComplete, 11, some 1⟩, 20000⟩

/-- Node 1 is elected, and node 2 when the lease is over, while node 1 lags behind; in the end it executes that entry. -/
def reelectActs : List LearningAct :=
  chooseActs node₁ proposal₁ ++ learnActs node₁ ++ learnActs node₂ ++ [.act (.tick 10000)] ++
    chooseActs node₂ (proposal₂ 10000) ++ [.learn node₂, .act (.beginRound node₁), .learnt node₂, .learn node₁]

theorem isIMMaster_unique_reelected :
    ∃ s, ({ group := .init 0 } : LearningGroup).exec true (KeepsLeases true) reelectActs = some s ∧
      (s.sm node₂).isIMMaster s.group.now = true ∧ ∀ n, (s.sm n).isIMMaster s.group.now = true → n = node₂ := by
  have hexec : (({ group := .init 0 } : LearningGroup).exec true (KeepsLeases true) reelectActs).any
      (fun s => (s.sm node₂).isIMMaster s.group.now) = true := by
    decide +kernel
  obtain ⟨s, hs, hmaster⟩ := (Option.any_eq_true _ _).mp hexec
  exact ⟨s, hs, hmaster, fun n hn => isIMMaster_unique ((Run.init (by decide)).exec hs) hn hmaster⟩

/-! ## A lease that is forgotten -/

/-- Node 3 executes the election of node 1, is started again, and gives away its variables with no lease; node 2 takes
them over and proposes itself at once. -/
def forgottenActs : List LearningAct :=
  chooseActs node₁ proposal₁ ++ learnActs node₁ ++ learnActs node₃ ++
    [.act (.restart node₃ 1), .act (.give node₃), .act (.adopt node₂ 0 (serializeMasterVariables ⟨1, 0, 0⟩)),
      .act (.execute node₂ 0)] ++ chooseActs node₂ (proposal₂ 0) ++ learnActs node₂

instance (s : LearningGroup) (a : LearningAct) : Decidable ((fun _ _ => True : LearningGroup → LearningAct → Prop) s a) :=
  isTrue trivial

/-- Node 1, which lags behind, is still master. -/
theorem two_masters : ∃ s, Run true (fun _ _ => True) s ∧ (s.sm node₁).isIMMaster s.group.now = true ∧
    (s.sm node₂).isIMMaster s.group.now = true := by
  have hexec : (({ group := .init 0 } : LearningGroup).exec true (fun _ _ => True) forgottenActs).any
      (fun s => (s.sm node₁).isIMMaster s.group.now && (s.sm node₂).isIMMaster s.group.now) = true := by
    decide +kernel
  obtain ⟨s, hs, hmasters⟩ := (Option.any_eq_true _ _).mp hexec
  exact ⟨s, (Run.init (by decide)).exec hs, Bool.and_eq_true_iff.mp hmasters⟩

/-- Node 2 is elected after node 1, and node 3 after node 2, which has executed neither; it is started again, with the
lease of node 1 from the start, and executes its own entry. -/
def betweenActs : List LearningAct :=
  chooseActs node₁ proposal₁ ++ learnActs node₁ ++ learnActs node₂ ++ learnActs node₃ ++ [.act (.tick 10000)] ++
    chooseActs node₂ (proposal₂ 10000) ++ learnActs node₃ ++ [.act (.tick 20000)] ++
    chooseActs node₃ proposal₃ ++ learnActs node₃ ++ [.act (.restart node₂ 1), .learn node₂]

/-- The locks keep the leases, and node 2 is master to a read between the stores. -/
theorem two_masters_between : ∃ s, Run true (LocksKeep true) s ∧ (s.sm node₂).isIMMaster s.group.now = true ∧
    (s.sm node₃).isIMMaster s.group.now = true := by
  have hexec : (({ group := .init 0 } : LearningGroup).exec true (LocksKeep true) betweenActs).any
      (fun s => (s.sm node₂).isIMMaster s.group.now && (s.sm node₃).isIMMaster s.group.now) = true := by
    decide +kernel
  obtain ⟨s, hs, hmasters⟩ := (Option.any_eq_true _ _).mp hexec
  exact ⟨s, (Run.init (by decide)).exec hs, Bool.and_eq_true_iff.mp hmasters⟩

end LearningGroup

end PhxPaxos
