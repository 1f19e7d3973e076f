import PhxPaxos.Safety.Learned

/-!
# Agreement

The votes and proposals of one instance are a `Voting`: a proposal was safe when it was first broadcast, since the
promises behind it reported all votes in lower ballots. So in a regular run at most one value is chosen for an instance,
and two nodes that learn the instance learn the same value (`agreement`).
-/

namespace PhxPaxos

variable {P : Params} {G : Group}

instance : WellFoundedLT BallotNumber :=
  ⟨InvImage.wf (fun b : BallotNumber => toLex (b.proposalID, b.nodeID)) wellFounded_lt⟩

/-! ## The last vote is the highest -/

theorem le_lastAccepted {n : NodeID} {i : Nat} {d : BallotNumber} {w : Bytes} {h : List Obs}
    (hmono : ∀ {c w older}, Past h (.setAccepted n i c w) older → ∀ {b v}, .setAccepted n i b v ∈ older → b ≤ c)
    (hlast : lastAccepted n i h = some (d, w)) {c : BallotNumber} {v : Bytes} (hm : .setAccepted n i c v ∈ h) :
    c ≤ d := by
  induction h with
  | nil => cases hm
  | cons o h ih =>
    rw [lastAccepted_cons] at hlast
    cases hcase : o.acceptedAt n i with
    | some x =>
      rw [hcase, Option.some_or, Option.some.injEq] at hlast
      subst hlast
      rw [Obs.acceptedAt_eq_some] at hcase
      subst hcase
      rcases List.mem_cons.mp hm with heq | hm
      · cases heq
        exact le_rfl
      · exact hmono Past.head hm
    | none =>
      rw [hcase, Option.none_or] at hlast
      rcases List.mem_cons.mp hm with heq | hm
      · rw [Obs.acceptedAt_eq_some.mpr heq.symm] at hcase
        cases hcase
      · exact ih (fun hp => hmono hp.of_cons) hlast hm

/-! ## The votes of an instance -/

section Voting

variable {s : Abs} (hs : Stepping P inNetwork G s) (hsteady : Steady G s.hist)
include hs hsteady

/-- A promise came before every vote of the node in a higher ballot, and reported every vote in a lower one. -/
theorem vote_reported {m : NodeID} {i j : Nat} {b c acc : BallotNumber} {u w : Bytes} {before : List Obs}
    (hp : Past s.hist (.promise m j b acc w) before) (hji : j ≤ i) (hm : .setAccepted m i c u ∈ s.hist) (hlt : c < b) :
    j = i ∧ c ≤ acc ∧ .setAccepted m i acc w ∈ before := by
  have hv := hs.votes hsteady m
  obtain ⟨older, hpast⟩ := Past.exists_of_mem hm
  rcases hp.total hpast with h | ⟨h, -⟩ | h
  · -- the promise came first
    exact absurd ((hv.vote hpast).1 h.mem).2 (not_le.mpr hlt)
  · cases h
  · obtain ⟨hlast, hle⟩ := hv.report hp
    have hij : j = i := le_antisymm hji (hle h.mem).1
    subst hij
    obtain ⟨d, x, hcase⟩ := exists_lastAccepted h.mem
    rw [hcase, Option.getD_some, Prod.mk.injEq] at hlast
    rw [hlast.1, hlast.2]
    refine ⟨rfl, ?_, mem_of_lastAccepted hcase⟩
    refine le_lastAccepted ?_ hcase h.mem
    exact fun hq _ _ hm' => ((hv.vote (hq.mono hp.suffix)).2 hm').2

/-- A vote is in a ballot that is not null. -/
theorem isnull_of_vote {m : NodeID} {i : Nat} {b : BallotNumber} {v : Bytes} (hm : .setAccepted m i b v ∈ s.hist) :
    b.isnull = false := by
  obtain ⟨hl, -⟩ := hs.sound hsteady m
  obtain ⟨-, S, haccept⟩ := hl.obs _ hm
  have hpos : 1 ≤ b.proposalID := (hl.obs _ haccept).1
  exact Bool.eq_false_iff.mpr fun h => absurd (BallotNumber.isnull_iff.mp h) (Nat.ne_of_gt hpos)

/-- A proposal was safe when it was broadcast first. -/
theorem proposal_safe (hfirst : OwnPromiseFirst s.hist) {i : Nat} {b : BallotNumber} {v : Bytes} {S : Finset NodeID}
    (hm : .accept b.nodeID i b.proposalID v S ∈ s.hist) :
    ∃ Q, Majority G.members Q ∧ SafeAt (fun m c w => .setAccepted m i c w ∈ s.hist)
      (fun c w => ∃ S, .accept c.nodeID i c.proposalID w S ∈ s.hist) Q b v := by
  obtain ⟨o, older, hpast, ⟨v', S', rfl⟩, hnone⟩ := Past.exists_first
    (p := fun o => ∃ v S, o = .accept b.nodeID i b.proposalID v S) ⟨_, hm, v, S, rfl⟩
  obtain rfl : v' = v := (hs.sameValue hsteady hfirst b.nodeID).one hpast.mem hm
  obtain ⟨hl, -⟩ := hs.sound hsteady b.nodeID
  -- no vote in this ballot yet
  have hnovote {m w} : .setAccepted m i b w ∉ older := by
    intro hvote
    obtain ⟨before, hp⟩ := Past.exists_of_mem hvote
    obtain ⟨-, S, haccept⟩ := hl.past _ _ (hp.mono hpast.suffix)
    exact hnone _ (hp.suffix.subset haccept) ⟨_, _, rfl⟩
  obtain ⟨r, hlast, hprep, htold⟩ := (hs.rounds hsteady b.nodeID).accepts hpast
  have hsafe : SafeAccept P G b.nodeID i b.proposalID v' older r.nodes r :=
    safeAccept_of_prepared hs hsteady hlast hprep htold hpast.suffix
  -- what the members of the majority voted for in lower ballots was reported
  have hreported {x : Report} (hx : x ∈ r.reports) {c w} (hlt : c < b) (hvote : .setAccepted x.node i c w ∈ s.hist) :
      r.instanceID = i ∧ c ≤ x.ballot ∧ x.ballot.isnull = false := by
    obtain ⟨u, before, hp, -, -⟩ := hsafe.reported x hx
    obtain ⟨hi, hle, hm⟩ := vote_reported hs hsteady (hp.mono hpast.suffix) hprep.instance_le hvote hlt
    have hsub : before ⊆ s.hist := fun o ho => hpast.suffix.subset (hp.suffix.subset ho)
    exact ⟨hi, hle, isnull_of_vote hs hsteady (hsub hm)⟩
  refine ⟨r.nodes, hprep.majority, ?_⟩
  by_cases hi : r.instanceID = i
  · rcases hprep.best hi with hnull | ⟨x, hx, hxnull, hxv, hmax⟩
    · left
      intro m hm c hlt w hvote
      obtain ⟨x, hx, rfl⟩ := Round.mem_nodes.mp hm
      exact absurd (hnull x hx) (by simp [(hreported hx hlt hvote).2.2])
    · right
      obtain ⟨u, before, hp, hrep, hval⟩ := hsafe.reported x hx
      rw [hxnull, hxv] at hval
      have hvote : .setAccepted x.node i x.ballot u ∈ before := by
        rw [hi] at hrep
        cases hcase : lastAccepted x.node i before with
        | none =>
          rw [hcase, Option.getD_none, Prod.mk.injEq] at hrep
          rw [hrep.1] at hxnull
          cases hxnull
        | some y =>
          rw [hcase, Option.getD_some] at hrep
          have hy : .setAccepted x.node i y.1 y.2 ∈ before := mem_of_lastAccepted hcase
          rwa [← hrep] at hy
      have hvote' := hp.suffix.subset hvote
      refine ⟨x.ballot, ?_, ?_, ?_⟩
      · refine lt_of_le_of_ne (((hs.votes hsteady x.node).report (hp.mono hpast.suffix)).2 hvote).2 ?_
        rintro heq
        rw [heq] at hvote'
        exact hnovote hvote'
      · obtain ⟨-, S, haccept⟩ := hl.obs _ (hpast.suffix.subset hvote')
        rw [show v' = u from hval]
        exact ⟨S, haccept⟩
      · intro m hm c hlt w hw
        obtain ⟨y, hy, rfl⟩ := Round.mem_nodes.mp hm
        obtain ⟨-, hle, hnull⟩ := hreported hy hlt hw
        exact hle.trans (hmax y hy hnull)
  · left
    intro m hm c hlt w hvote
    obtain ⟨x, hx, rfl⟩ := Round.mem_nodes.mp hm
    exact hi (hreported hx hlt hvote).1

/-- The voting of instance `i`. -/
def instanceVoting (hfirst : OwnPromiseFirst s.hist) (i : Nat) : Voting NodeID BallotNumber Bytes where
  quorum := Majority G.members
  proposed b v := ∃ S, .accept b.nodeID i b.proposalID v S ∈ s.hist
  voted m b v := .setAccepted m i b v ∈ s.hist
  meet := Majority.inter
  voted_proposed := by
    intro m b v hm
    obtain ⟨-, h⟩ := (hs.sound hsteady m).1.obs (.setAccepted m i b v) hm
    exact h
  one_value := fun ⟨_, h₁⟩ ⟨_, h₂⟩ => (hs.sameValue hsteady hfirst _).one h₁ h₂
  safe := fun ⟨_, hm⟩ => proposal_safe hs hsteady hfirst hm

/-- At most one value is chosen for an instance. -/
theorem Stepping.chosen_unique (hfirst : OwnPromiseFirst s.hist) {i : Nat} {v w : Bytes} (hv : Chosen G s.hist i v)
    (hw : Chosen G s.hist i w) : v = w := by
  obtain ⟨hl, -⟩ := hs.sound hsteady 0
  have hchosen {b u} : ChosenIn G s.hist i b u → (instanceVoting hs hsteady hfirst i).Chosen b u :=
    fun ⟨Q, hQ, hm⟩ => ⟨Q, hQ, fun m hmem => hl.obs _ (hm m hmem)⟩
  obtain ⟨b, hb⟩ := hv
  obtain ⟨c, hc⟩ := hw
  exact (instanceVoting hs hsteady hfirst i).chosen_unique (hchosen hb) (hchosen hc)

end Voting

/-! ## Learners -/

/-- **Agreement**: in a regular run, two nodes that learn an instance learn the same value. -/
theorem agreement {s : Sys} (hs : Reachable P inNetwork G s) (hr : Regular G s.hist) {n m : NodeID} {i : Nat}
    {v w : Bytes} {how how' : LearnBy} (hv : .learn n i v how ∈ s.hist) (hw : .learn m i w how' ∈ s.hist) : v = w := by
  have h₁ := (hs.stepping.learns hr n).2.chosen_of_mem hv
  have h₂ := (hs.stepping.learns hr m).2.chosen_of_mem hw
  exact hs.stepping.chosen_unique hr.steady hr.ownPromiseFirst h₁ h₂

theorem agreement_learnRun : ∃ v w how how',
    .learn 1 0 v how ∈ (Sys.run .plain learnRun (Sys.init .plain (.ofList [1, 2, 3]))).hist ∧
      .learn 2 0 w how' ∈ (Sys.run .plain learnRun (Sys.init .plain (.ofList [1, 2, 3]))).hist ∧ v = w := by
  have hv : .learn 1 0 (packPaxosValue [7] 0) (.success ⟨1, 1⟩) ∈
      (Sys.run .plain learnRun (Sys.init .plain (.ofList [1, 2, 3]))).hist := by decide +kernel
  have hw : .learn 2 0 (packPaxosValue [7] 0) (.success ⟨1, 1⟩) ∈
      (Sys.run .plain learnRun (Sys.init .plain (.ofList [1, 2, 3]))).hist := by decide +kernel
  exact ⟨_, _, _, _, hv, hw,
    agreement (.of_run .plain .init (by decide +kernel)) (Regular.of_pastAll (by decide +kernel)) hv hw⟩

/-! ## The violation -/

/-- After `reprepareRun`, nodes 1, 2 and 3 accept the second Accept of node 4, which counts them and passes the accept
phase with the value of its first one. -/
def disagreeRun : List Event :=
  reprepareRun ++ [deliver 1 (acceptMsg 4 0 1 (packPaxosValue [7] 0) 0), deliver 2 (acceptMsg 4 0 1 (packPaxosValue [7] 0) 0),
    deliver 3 (acceptMsg 4 0 1 (packPaxosValue [7] 0) 0), deliver 4 (replyMsg 1 .paxosAcceptReply 0 1 0),
    deliver 4 (replyMsg 2 .paxosAcceptReply 0 1 0), deliver 4 (replyMsg 3 .paxosAcceptReply 0 1 0),
    deliver 1 (successMsg 4 0 1 0)]

/-- Node 4 learns 9 and node 1 learns 7 for instance 0. -/
theorem disagreement : ∃ s, Reachable .plain inNetwork (.ofList [1, 2, 3, 4, 5]) s ∧
    Steady (.ofList [1, 2, 3, 4, 5]) s.hist ∧ PutsSucceed s.hist ∧
    .learn 4 0 (packPaxosValue [9] 0) (.success ⟨1, 4⟩) ∈ s.hist ∧
    .learn 1 0 (packPaxosValue [7] 0) (.success ⟨1, 4⟩) ∈ s.hist := by
  refine ⟨Sys.run .plain disagreeRun (Sys.init .plain (.ofList [1, 2, 3, 4, 5])),
    .of_run .plain .init (by decide +kernel), .of_all (by decide +kernel), ?_, ?_, ?_⟩
  · refine PutsSucceed.of_all ?_
    decide +kernel
  · decide +kernel
  · decide +kernel

end PhxPaxos
