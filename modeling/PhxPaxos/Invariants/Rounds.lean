import PhxPaxos.Abstract.Voting
import PhxPaxos.Invariants.Messages

/-!
# The prepare rounds of a proposer

The prepare round of a node is read off the history: the last Prepare it broadcast and the promises it counted since
(`lastRound`). `Rounds` ties the message counter, the highest reported ballot, the value and the skip-prepare flag of the
proposer to that round: a node that is in, or may skip, the prepare phase has counted exactly these promises, a majority
before it may skip, and in the instance of the round its value is the one with the highest reported ballot.
-/

namespace PhxPaxos

variable {P : Params} {G : Group}

/-! ## Rounds in the history -/

/-- A promise that was counted: the node it came from and the pair it reports. -/
structure Report where
  node : NodeID
  ballot : BallotNumber
  value : Bytes
deriving DecidableEq

structure Round where
  instanceID : Nat
  proposalID : Nat
  reports : List Report
deriving DecidableEq

namespace Round

def nodes (r : Round) : Finset NodeID := (r.reports.map Report.node).toFinset

theorem mem_nodes {r : Round} {m : NodeID} : m ∈ r.nodes ↔ ∃ x ∈ r.reports, x.node = m := by
  simp [nodes]

end Round

/-- The round of node `n` after the observation. -/
def Obs.round (n : NodeID) : Obs → Option Round → Option Round
  | .prepare m i p _, r => if m = n then some ⟨i, p, []⟩ else r
  | .countPromise m _ _ k acc v _, r =>
    if m = n then r.map fun r => { r with reports := ⟨k, acc, v⟩ :: r.reports } else r
  | _, r => r

/-- The last prepare round of node `n`. -/
def lastRound (n : NodeID) (h : List Obs) : Option Round := h.foldr (Obs.round n) none

@[simp] theorem lastRound_cons (n : NodeID) (o : Obs) (h : List Obs) :
    lastRound n (o :: h) = o.round n (lastRound n h) := rfl

theorem Obs.round_of_node_ne {n : NodeID} {o : Obs} (ho : o.node ≠ n) (r : Option Round) : o.round n r = r := by
  cases o with
  | prepare | countPromise => exact if_neg ho
  | _ => rfl

/-- Other nodes do not change the round. -/
theorem lastRound_append {n : NodeID} {obs : List Obs} (hobs : ∀ o ∈ obs, o.node ≠ n) (h : List Obs) :
    lastRound n (obs ++ h) = lastRound n h := by
  induction obs with
  | nil => rfl
  | cons o obs ih =>
    rw [List.cons_append, lastRound_cons, Obs.round_of_node_ne (hobs o List.mem_cons_self),
      ih fun o ho => hobs o (List.mem_cons_of_mem _ ho)]

/-! ## The value with the highest reported ballot -/

/-- `v` is the value with the highest of the reported ballots, or there is none. -/
def Best (reports : List Report) (v : Bytes) : Prop :=
  (∀ x ∈ reports, x.ballot.isnull = true) ∨
    ∃ x ∈ reports, x.ballot.isnull = false ∧ x.value = v ∧ ∀ y ∈ reports, y.ballot.isnull = false → y.ballot ≤ x.ballot

/-- The proposer keeps the highest reported ballot and its value. -/
def Collected (p : ProposerState) (reports : List Report) : Prop :=
  (p.highestOtherPreAcceptBallot = {} ∧ ∀ x ∈ reports, x.ballot.isnull = true) ∨
    ∃ x ∈ reports, x.ballot.isnull = false ∧ x.value = p.value ∧ x.ballot = p.highestOtherPreAcceptBallot ∧
      ∀ y ∈ reports, y.ballot.isnull = false → y.ballot ≤ x.ballot

theorem Collected.best {p : ProposerState} {reports : List Report} (h : Collected p reports) : Best reports p.value := by
  rcases h with ⟨-, h⟩ | ⟨x, hx, hnull, hv, -, hmax⟩
  · exact Or.inl h
  · exact Or.inr ⟨x, hx, hnull, hv, hmax⟩

theorem Collected.nil (p : ProposerState) (hp : p.highestOtherPreAcceptBallot = {}) : Collected p [] :=
  Or.inl ⟨hp, by simp⟩

/-- `ProposerState::AddPreAcceptValue` keeps the highest ballot. -/
theorem Collected.add {p : ProposerState} {reports : List Report} (h : Collected p reports) (m : NodeID)
    (b : BallotNumber) (v : Bytes) : Collected (p.addPreAcceptValue b v) (⟨m, b, v⟩ :: reports) := by
  unfold ProposerState.addPreAcceptValue
  split
  · -- the report is empty
    rename_i hnull
    rcases h with ⟨hp, h⟩ | ⟨x, hx, hxnull, hv, hb, hmax⟩
    · exact Or.inl ⟨hp, List.forall_mem_cons.mpr ⟨hnull, h⟩⟩
    · refine Or.inr ⟨x, List.mem_cons_of_mem _ hx, hxnull, hv, hb, List.forall_mem_cons.mpr ⟨?_, hmax⟩⟩
      exact fun hne => absurd hnull (Bool.eq_false_iff.mp hne)
  · rename_i hnull
    have hnull : b.isnull = false := Bool.eq_false_iff.mpr hnull
    split
    · -- a higher ballot
      rename_i hgt
      have hgt : p.highestOtherPreAcceptBallot < b := by simpa using hgt
      refine Or.inr ⟨⟨m, b, v⟩, List.mem_cons_self, hnull, rfl, rfl, List.forall_mem_cons.mpr ⟨fun _ => le_rfl, ?_⟩⟩
      intro y hy hynull
      rcases h with ⟨-, h⟩ | ⟨x, -, -, -, hb, hmax⟩
      · exact absurd (h y hy) (by simp [hynull])
      · exact (hmax y hy hynull).trans (hb ▸ hgt.le)
    · -- no higher ballot: one was reported before
      rename_i hgt
      have hle : b ≤ p.highestOtherPreAcceptBallot := by simpa using hgt
      rcases h with ⟨hp, h⟩ | ⟨x, hx, hxnull, hv, hb, hmax⟩
      · have := BallotNumber.proposalID_le hle
        rw [hp] at this
        exact absurd (BallotNumber.isnull_iff.mpr (Nat.le_zero.mp this)) (by simp [hnull])
      · exact Or.inr ⟨x, List.mem_cons_of_mem _ hx, hxnull, hv, hb, List.forall_mem_cons.mpr ⟨fun _ => hb ▸ hle, hmax⟩⟩

theorem Collected.congr {p p' : ProposerState} {reports : List Report} (h : Collected p reports)
    (hv : p'.value = p.value) (hb : p'.highestOtherPreAcceptBallot = p.highestOtherPreAcceptBallot) :
    Collected p' reports := by
  unfold Collected
  rw [hv, hb]
  exact h

/-! ## The proposer and its round -/

/-- The round of an accept phase of node `n`: a majority promised its ballot, in this instance or an earlier one. -/
structure Prepared (G : Group) (i p : Nat) (v : Bytes) (r : Round) : Prop where
  proposalID : r.proposalID = p
  instance_le : r.instanceID ≤ i
  majority : Majority G.members r.nodes
  best : r.instanceID = i → Best r.reports v

/-- Each promise counted in the round of node `n` was made, and reported what the promise says. -/
def Round.Told (n : NodeID) (r : Round) (h : List Obs) : Prop :=
  ∀ x ∈ r.reports, ∃ w, .promise x.node r.instanceID ⟨r.proposalID, n⟩ x.ballot w ∈ h ∧
    x.value = if x.ballot.isnull then [] else w

theorem Round.Told.mono {n : NodeID} {r : Round} {h h' : List Obs} (ht : r.Told n h) (hsub : h ⊆ h') : r.Told n h' :=
  fun x hx => (ht x hx).imp fun _ => And.imp_left fun hm => hsub hm

/-- The proposer of node `n` and its last round. -/
structure Rounds (G : Group) (n : NodeID) (l : Loc) : Prop where
  preparing : l.core.isPreparing = true → (l.core.canSkipPrepare = false ∧ l.core.isAccepting = false) ∧
    ∃ r, lastRound n l.hist = some r ∧ r.instanceID = l.core.instanceID ∧
      r.proposalID = l.core.proposer.proposalID ∧ l.core.counted = r.nodes ∧ Collected l.core.proposer r.reports
  skip : l.core.canSkipPrepare = true →
    ∃ r, lastRound n l.hist = some r ∧
      Prepared G l.core.instanceID l.core.proposer.proposalID l.core.proposer.value r ∧
      (r.instanceID = l.core.instanceID → l.core.proposer.value ≠ [])
  told : ∀ r, lastRound n l.hist = some r → r.Told n l.hist
  accepts : ∀ {i p v S older}, Past l.hist (.accept n i p v S) older →
    ∃ r, lastRound n older = some r ∧ Prepared G i p v r ∧ r.Told n older

section Step

variable {n : NodeID} {l l' : Loc}

/-- The observation is of no Prepare, no counted promise and no Accept. -/
def Obs.OffRound (o : Obs) : Prop :=
  (∀ n i p S, o ≠ .prepare n i p S) ∧ (∀ n i p m acc v counted, o ≠ .countPromise n i p m acc v counted) ∧
    ∀ n i p v S, o ≠ .accept n i p v S

theorem Obs.OffRound.round {o : Obs} (ho : o.OffRound) (n : NodeID) (r : Option Round) : o.round n r = r := by
  cases o with
  | prepare => exact absurd rfl (ho.1 _ _ _ _)
  | countPromise => exact absurd rfl (ho.2.1 _ _ _ _ _ _ _)
  | _ => rfl

theorem lastRound_offRound {obs : List Obs} (hobs : ∀ o ∈ obs, o.OffRound) (h : List Obs) :
    lastRound n (obs ++ h) = lastRound n h := by
  induction obs with
  | nil => rfl
  | cons o obs ih =>
    rw [List.cons_append, lastRound_cons, (hobs o List.mem_cons_self).round,
      ih fun o ho => hobs o (List.mem_cons_of_mem _ ho)]

/-- The step does not touch the round: the proposer goes on with the same ballot and value, in the prepare phase with the
same counter, or leaves it, or moves on to the next instance. -/
theorem Rounds.of_same (hr : Rounds G n l) (obs : List Obs) (hh : l'.hist = obs ++ l.hist)
    (hobs : (∀ o ∈ obs, o.OffRound) ∨ ∀ o ∈ obs, o.node ≠ n)
    (hp : l'.core.proposer.proposalID = l.core.proposer.proposalID)
    (hskip : l'.core.canSkipPrepare = true → l.core.canSkipPrepare = true)
    (haccepting : l'.core.isAccepting = true → l.core.isAccepting = true)
    (hpreparing : l'.core.isPreparing = true → l.core.isPreparing = true ∧ l'.core.instanceID = l.core.instanceID ∧
      l'.core.counted = l.core.counted ∧ l'.core.proposer.value = l.core.proposer.value ∧
      l'.core.proposer.highestOtherPreAcceptBallot = l.core.proposer.highestOtherPreAcceptBallot)
    (hvalue : l'.core.instanceID = l.core.instanceID ∧
        (l.core.proposer.value ≠ [] → l'.core.proposer.value = l.core.proposer.value) ∨
      l'.core.instanceID = l.core.instanceID + 1) : Rounds G n l' := by
  have hround : lastRound n l'.hist = lastRound n l.hist := by
    rw [hh]
    exact hobs.elim (fun h => lastRound_offRound h _) fun h => lastRound_append h _
  refine ⟨?_, ?_, ?_, ?_⟩
  · intro h
    obtain ⟨h, hi, hc, hv, hb⟩ := hpreparing h
    obtain ⟨⟨hns, hna⟩, r, hr, hri, hrp, hcounted, hcollected⟩ := hr.preparing h
    refine ⟨⟨?_, ?_⟩, r, hround.trans hr, hri.trans hi.symm, hrp.trans hp.symm, hc.trans hcounted, hcollected.congr hv hb⟩
    · exact Bool.eq_false_iff.mpr fun hs => absurd (hskip hs) (Bool.eq_false_iff.mp hns)
    · exact Bool.eq_false_iff.mpr fun ha => absurd (haccepting ha) (Bool.eq_false_iff.mp hna)
  · intro h
    obtain ⟨r, hr, hprep, hne⟩ := hr.skip (hskip h)
    rcases hvalue with ⟨hi, hv⟩ | hi
    · refine ⟨r, hround.trans hr, ⟨hprep.proposalID.trans hp.symm, hi ▸ hprep.instance_le, hprep.majority, ?_⟩, ?_⟩
      · intro heq
        rw [hi] at heq
        rw [hv (hne heq)]
        exact hprep.best heq
      · intro heq
        rw [hi] at heq
        rw [hv (hne heq)]
        exact hne heq
    · have hlt : r.instanceID < l'.core.instanceID := hi ▸ Nat.lt_succ_of_le hprep.instance_le
      refine ⟨r, hround.trans hr, ⟨hprep.proposalID.trans hp.symm, hlt.le, hprep.majority, ?_⟩, ?_⟩
      · exact fun heq => absurd heq hlt.ne
      · exact fun heq => absurd heq hlt.ne
  · intro r hlast
    rw [hround] at hlast
    rw [hh]
    exact (hr.told r hlast).mono (List.subset_append_right _ _)
  · intro i p v S older hpast
    rw [hh] at hpast
    refine hr.accepts ((Past.append_iff (p := fun o => o = .accept n i p v S) ?_ rfl).mp hpast)
    rintro o ho rfl
    rcases hobs with hobs | hobs
    · exact (hobs _ ho).2.2 _ _ _ _ _ rfl
    · exact hobs _ ho rfl

/-- A majority of the members has been counted. -/
theorem majority_of_passed {r : Round} (hm : l.core.members = G.members) (hc : l.core.counted = r.nodes)
    (hsub : r.nodes ⊆ G.members) (hpassed : l.core.Passed) : Majority G.members r.nodes := by
  refine ⟨hsub, ?_⟩
  have hle : l.core.systemVSM.setNodeID.card / 2 + 1 ≤ l.core.counted.card := hpassed
  rw [hc, show l.core.systemVSM.setNodeID = G.members from hm] at hle
  omega

theorem Rounds.nodes_subset (hr : Rounds G n l) (hl : Ledger G l.net l.hist) {r : Round}
    (hlast : lastRound n l.hist = some r) : r.nodes ⊆ G.members := by
  intro m hm
  obtain ⟨x, hx, rfl⟩ := Round.mem_nodes.mp hm
  obtain ⟨w, hp, -⟩ := hr.told r hlast x hx
  exact (hl.obs _ hp).1

/-- The round with which the accept phase starts. -/
theorem Rounds.prepared (hr : Rounds G n l) (hl : Ledger G l.net l.hist) (hs : Steers G n l)
    (hstart : l.core.isPreparing = true ∧ l.core.Passed ∨
      l.core.canSkipPrepare = true ∧ l.core.wasRejectBySomeone = false ∧ l.core.proposer.value ≠ []) :
    ∃ r, lastRound n l.hist = some r ∧
      Prepared G l.core.instanceID l.core.proposer.proposalID l.core.proposer.value r := by
  rcases hstart with ⟨hp, hpassed⟩ | ⟨hskip, -, -⟩
  · obtain ⟨-, r, hlast, hi, hrp, hcounted, hcollected⟩ := hr.preparing hp
    exact ⟨r, hlast, hrp, hi.le, majority_of_passed hs.members hcounted (hr.nodes_subset hl hlast) hpassed,
      fun _ => hcollected.best⟩
  · obtain ⟨r, hlast, hprep, -⟩ := hr.skip hskip
    exact ⟨r, hlast, hprep⟩

theorem Rounds.of_startPrepare (hr : Rounds G n l) (hskip : l'.core.canSkipPrepare = false)
    (haccepting : l'.core.isAccepting = false) (hp : l'.core.proposer = l.core.nextRound)
    (hi : l'.core.instanceID = l.core.instanceID) (hc : l'.core.counted = ∅)
    (hh : l'.hist = .prepare n l.core.instanceID l.core.nextRound.proposalID l.core.members :: l.hist) :
    Rounds G n l' := by
  have hround : lastRound n l'.hist = some ⟨l.core.instanceID, l.core.nextRound.proposalID, []⟩ := by
    rw [hh, lastRound_cons]
    exact if_pos rfl
  have hreset : l.core.nextRound.highestOtherPreAcceptBallot = {} := by
    unfold Core.nextRound
    split <;> rfl
  refine ⟨fun _ => ⟨⟨hskip, haccepting⟩, _, hround, hi.symm, by rw [hp], hc, .nil _ (by rw [hp, hreset])⟩, ?_, ?_, ?_⟩
  · exact fun h => absurd h (Bool.eq_false_iff.mp hskip)
  · intro r hlast x hx
    rw [hround, Option.some.injEq] at hlast
    subst hlast
    cases hx
  · intro i p v S older hpast
    rw [hh] at hpast
    simp only [Past.cons_iff, reduceCtorEq, false_and, false_or] at hpast
    exact hr.accepts hpast

theorem Rounds.of_countPromise (hr : Rounds G n l) (hl : Ledger G l.net l.hist) (hs : Steers G n l) {msg : PaxosMsg}
    (hsrc : Src (inNetwork.Can l.net n) l msg) (ht : msg.msgType = .paxosPrepareReply)
    (hi : msg.instanceID = l.core.instanceID) (hpreparing : l.core.isPreparing = true)
    (hp : msg.proposalID = l.core.proposer.proposalID) (hreject : msg.rejectByPromiseID = 0) :
    Rounds G n
      { core := { l.core with
          toSelf := none
          counted := insert msg.nodeID l.core.counted
          proposer := l.core.proposer.addPreAcceptValue msg.preAcceptBallot msg.value }
        net := l.net
        hist := .countPromise n l.core.instanceID msg.proposalID msg.nodeID msg.preAcceptBallot msg.value
          l.core.counted :: l.hist } := by
  obtain ⟨hflags, r, hlast, hri, hrp, hcounted, hcollected⟩ := hr.preparing hpreparing
  have hround : lastRound n (.countPromise n l.core.instanceID msg.proposalID msg.nodeID msg.preAcceptBallot msg.value
      l.core.counted :: l.hist) =
      some { r with reports := ⟨msg.nodeID, msg.preAcceptBallot, msg.value⟩ :: r.reports } := by
    rw [lastRound_cons, hlast]
    exact if_pos rfl
  obtain ⟨w, hm, hw⟩ := (hs.told hl hsrc).1.promise ht hreject
  refine ⟨?_, ?_, ?_, ?_⟩
  · intro _
    refine ⟨hflags, _, hround, hri, ?_, ?_, hcollected.add _ _ _⟩
    · exact hrp.trans (addPreAcceptValue_proposalID _ _ _).symm
    · simp only [hcounted, Round.nodes, List.map_cons, List.toFinset_cons]
  · exact fun h => absurd h (Bool.eq_false_iff.mp hflags.1)
  · intro r' hlast' x hx
    rw [hround, Option.some.injEq] at hlast'
    subst hlast'
    rcases List.mem_cons.mp hx with rfl | hx
    · refine ⟨w, List.mem_cons_of_mem _ ?_, ?_⟩
      · rw [show r.instanceID = msg.instanceID from hri.trans hi.symm, show r.proposalID = msg.proposalID from hrp.trans hp.symm]
        exact hm
      · rw [hw]
        by_cases h0 : msg.preAcceptID = 0
        · rw [if_neg (by omega), if_pos (BallotNumber.isnull_iff.mpr h0)]
        · rw [if_pos (Nat.pos_of_ne_zero h0), if_neg fun hnull => h0 (BallotNumber.isnull_iff.mp hnull)]
    · obtain ⟨w, hm, hw⟩ := hr.told r hlast x hx
      exact ⟨w, List.mem_cons_of_mem _ hm, hw⟩
  · intro i p v S older hpast
    simp only [Past.cons_iff, reduceCtorEq, false_and, false_or] at hpast
    exact hr.accepts hpast

theorem Rounds.of_startAccept (hr : Rounds G n l) (hl : Ledger G l.net l.hist) (hs : Steers G n l)
    (hstart : l.core.isPreparing = true ∧ l.core.Passed ∨
      l.core.canSkipPrepare = true ∧ l.core.wasRejectBySomeone = false ∧ l.core.proposer.value ≠ [])
    (hpreparing : l'.core.isPreparing = false) (hp : l'.core.proposer = l.core.proposer)
    (hi : l'.core.instanceID = l.core.instanceID)
    (hh : l'.hist = .accept n l.core.instanceID l.core.proposer.proposalID l.core.proposer.value l.core.members ::
      l.hist) : Rounds G n l' := by
  have hround : lastRound n l'.hist = lastRound n l.hist := by rw [hh, lastRound_cons]; rfl
  obtain ⟨r, hlast, hprep⟩ := hr.prepared hl hs hstart
  refine ⟨fun h => absurd h (Bool.eq_false_iff.mp hpreparing), ?_, ?_, ?_⟩
  · intro _
    rw [hround, hp, hi]
    exact ⟨r, hlast, hprep, fun _ => hs.value_of_accept hstart⟩
  · intro r hlast
    rw [hround] at hlast
    rw [hh]
    exact (hr.told r hlast).mono (List.subset_cons_self _ _)
  · intro i p v S older hpast
    rw [hh, Past.cons_iff] at hpast
    rcases hpast with ⟨heq, rfl⟩ | hpast
    · cases heq
      exact ⟨r, hlast, hprep, hr.told r hlast⟩
    · exact hr.accepts hpast

/-- What the steps keep that neither prepare, count a promise nor accept. -/
theorem Rounds.act (hr : Rounds G n l) (hl : Ledger G l.net l.hist) (hs : Steers G n l)
    (hact : Act P (inNetwork.Can l.net n) n l l') (hsteady : Steady G l'.hist) : Rounds G n l' := by
  have hkeep : l.core.isPreparing = true → l.core.isPreparing = true ∧ l.core.instanceID = l.core.instanceID ∧
      l.core.counted = l.core.counted ∧ l.core.proposer.value = l.core.proposer.value ∧
      l.core.proposer.highestOtherPreAcceptBallot = l.core.proposer.highestOtherPreAcceptBallot :=
    fun h => ⟨h, rfl, rfl, rfl, rfl⟩
  have hoff (o : Obs) (ho : o.OffRound) : (∀ o' ∈ [o], o'.OffRound) ∨ ∀ o' ∈ [o], o'.node ≠ n :=
    Or.inl (by simpa using ho)
  cases hact with
  | startPrepare => exact hr.of_startPrepare rfl rfl rfl rfl rfl rfl
  | countPromise hsrc ht hi hp hpid hreject => exact hr.of_countPromise hl hs hsrc ht hi hp hpid hreject
  | startAccept _ hstart => exact hr.of_startAccept hl hs hstart rfl rfl rfl rfl
  | @newValue v =>
    have hkeepValue (hne : l.core.proposer.value ≠ []) :
        (if l.core.proposer.value.length = 0 then v else l.core.proposer.value) = l.core.proposer.value :=
      if_neg fun h0 => hne (List.length_eq_zero_iff.mp h0)
    refine hr.of_same [_] rfl (hoff _ (by simp [Obs.OffRound])) rfl id id ?_ (Or.inl ⟨rfl, hkeepValue⟩)
    exact fun h => ⟨h, rfl, rfl, hkeepValue (hs.busy (Or.inl h)), rfl⟩
  | @noteReject msg =>
    have hset := setOtherProposalID_value l.core.proposer msg.rejectByPromiseID
    have hb : (l.core.proposer.setOtherProposalID msg.rejectByPromiseID).highestOtherPreAcceptBallot =
        l.core.proposer.highestOtherPreAcceptBallot := by
      unfold ProposerState.setOtherProposalID
      split <;> rfl
    exact hr.of_same [] rfl (Or.inl (by simp)) hset.2 id id (fun h => ⟨h, rfl, rfl, hset.1, hb⟩)
      (Or.inl ⟨rfl, fun _ => hset.1⟩)
  | countAccept _ _ _ haccepting =>
    refine hr.of_same [] rfl (Or.inl (by simp)) rfl id id (fun h => ?_) (Or.inl ⟨rfl, fun _ => rfl⟩)
    exact absurd haccepting (Bool.eq_false_iff.mp (hr.preparing h).1.2)
  | succeed =>
    exact hr.of_same [_] rfl (hoff _ (by simp [Obs.OffRound])) rfl id nofun hkeep (Or.inl ⟨rfl, fun _ => rfl⟩)
  | executeFail =>
    exact hr.of_same [_] rfl (hoff _ (by simp [Obs.OffRound])) rfl nofun id hkeep (Or.inl ⟨rfl, fun _ => rfl⟩)
  | advance =>
    exact hr.of_same [_, _] rfl (Or.inl (by simp [Obs.OffRound])) rfl id nofun nofun (Or.inr rfl)
  | commitTimeout =>
    exact hr.of_same [] rfl (Or.inl (by simp)) rfl id nofun nofun (Or.inl ⟨rfl, fun _ => rfl⟩)
  | promise | acceptFail =>
    exact hr.of_same [_, _] rfl (Or.inl (by simp [Obs.OffRound])) rfl id id hkeep (Or.inl ⟨rfl, fun _ => rfl⟩)
  | accept =>
    exact hr.of_same [_, _, _] rfl (Or.inl (by simp [Obs.OffRound])) rfl id id hkeep
      (Or.inl ⟨rfl, fun _ => rfl⟩)
  | promiseFail | nextInstanceMsg | learnBySuccess | learnValue | updateSystemVariables | checksumLogicFail
  | initSystemVariables | clearAllLog =>
    exact hr.of_same [_] rfl (hoff _ (by simp [Obs.OffRound])) rfl id id hkeep (Or.inl ⟨rfl, fun _ => rfl⟩)
  | restart _ _ _ hstart => exact absurd hstart.restart_mem (hsteady.noRestart n _ _)
  | restartFail _ hstart => exact absurd hstart.restart_mem (hsteady.noRestart n _ _)
  | _ => exact hr.of_same [] rfl (Or.inl (by simp)) rfl id id hkeep (Or.inl ⟨rfl, fun _ => rfl⟩)

end Step

/-- **Every proposer is in its last prepare round**, in every run with a closed network. -/
theorem Stepping.rounds {s : Abs} (hs : Stepping P inNetwork G s) (hsteady : Steady G s.hist) (n : NodeID) :
    Rounds G n (s.loc n) := by
  refine hs.forall_loc (Steady G) Steady.suffix (I := Rounds G) ?_ ?_ ?_ hsteady n
  · intro n
    exact ⟨nofun, nofun, nofun, fun hp => absurd hp Past.nil_iff⟩
  · intro s n l hs hg ih hact
    obtain ⟨hl, hsteers⟩ := hs.sound (hg.suffix hact.hist_suffix) n
    exact (ih n).act hl hsteers hact hg
  · intro s n l k _ _ ih hact hk
    obtain ⟨obs, hh, hobs⟩ := hact.obs
    exact (ih k).of_same obs hh (Or.inr fun o ho => (hobs o ho).trans_ne hk.symm) rfl id id
      (fun h => ⟨h, rfl, rfl, rfl, rfl⟩) (Or.inl ⟨rfl, fun _ => rfl⟩)

end PhxPaxos
