import PhxPaxos.Invariants.Rounds
import PhxPaxos.Model.Run

/-!
# Accept messages carry safe values

The inductive core of Paxos as the proposer implements it: whenever a node broadcasts an Accept, a majority promised its
ballot, in this instance or an earlier one, and the value is safe with regard to what these promises report
(`accept_safe`). It holds for a full prepare phase, one that is run again with the same ballot, and a skipped one.
-/

namespace PhxPaxos

variable {P : Params} {G : Group}

/-! ## Promises -/

/-- From the moment on when the history was `past`, node `m` has promised `b` or more. -/
def Kept (P : Params) (G : Group) (m : NodeID) (b : BallotNumber) (past : List Obs) : Prop :=
  ∀ {s : Sys}, Reachable P inNetwork G s → Steady G s.hist → past <:+ s.hist →
    b ≤ (s.node m).acceptor.promiseBallot

/-- A promise is kept. -/
theorem promise_kept {m : NodeID} {j : Nat} {b acc : BallotNumber} {w : Bytes} {before : List Obs} :
    Kept P G m b (.promise m j b acc w :: before) := by
  intro s hs hsteady hpast
  have hv := hs.stepping.votes hsteady m
  exact (hv.promise_le (Past.mem hpast)).2

/-! ## Safe values -/

/-- The Accept of node `n` for instance `i` with ballot `(p, n)` and value `v` that was broadcast when the history was
`older`, after the prepare round `r` with the promises of `Q`. -/
structure SafeAccept (P : Params) (G : Group) (n : NodeID) (i p : Nat) (v : Bytes) (older : List Obs) (Q : Finset NodeID)
    (r : Round) : Prop where
  /-- It is the last round of the node, with the same ballot, in this instance or an earlier one. -/
  round : lastRound n older = some r ∧ r.proposalID = p ∧ r.instanceID ≤ i
  majority : Majority G.members Q
  /-- Each member of `Q` promised the ballot in the instance of the round, kept the promise, and if that was an earlier
  instance, had accepted nothing for `i` by then. -/
  promised : ∀ m ∈ Q, ∃ acc w before, Past older (.promise m r.instanceID ⟨p, n⟩ acc w) before ∧
    Kept P G m ⟨p, n⟩ (.promise m r.instanceID ⟨p, n⟩ acc w :: before) ∧
    (r.instanceID < i → ∀ c w', .setAccepted m i c w' ∉ before)
  /-- The reports of the round are what the nodes had accepted when they promised. -/
  reported : ∀ x ∈ r.reports, ∃ w before, Past older (.promise x.node r.instanceID ⟨p, n⟩ x.ballot w) before ∧
    (x.ballot, w) = (lastAccepted x.node r.instanceID before).getD ({}, []) ∧ x.value = if x.ballot.isnull then [] else w
  /-- In its own instance, the value has the highest reported ballot. -/
  best : r.instanceID = i → Best r.reports v

/-- What the acceptors had accepted at the promises of a round. -/
theorem safeAccept_of_prepared {s : Abs} (hs : Stepping P inNetwork G s) (hsteady : Steady G s.hist) {n : NodeID}
    {i p : Nat} {v : Bytes} {older : List Obs} {r : Round} (hlast : lastRound n older = some r)
    (hprep : Prepared G i p v r) (htold : r.Told n older) (hsuffix : older <:+ s.hist) :
    SafeAccept P G n i p v older r.nodes r where
  round := ⟨hlast, hprep.proposalID, hprep.instance_le⟩
  majority := hprep.majority
  promised := by
    intro m hm
    obtain ⟨x, hx, rfl⟩ := Round.mem_nodes.mp hm
    obtain ⟨w, hp, -⟩ := htold x hx
    rw [hprep.proposalID] at hp
    obtain ⟨before, hpast⟩ := Past.exists_of_mem hp
    refine ⟨x.ballot, w, before, hpast, promise_kept, ?_⟩
    intro hlt c w' hvote
    have hle := (hs.votes hsteady x.node).report (hpast.mono hsuffix)
    exact absurd (hle.2 hvote).1 (Nat.not_le.mpr hlt)
  reported := by
    intro x hx
    obtain ⟨w, hp, hv⟩ := htold x hx
    rw [hprep.proposalID] at hp
    obtain ⟨before, hpast⟩ := Past.exists_of_mem hp
    exact ⟨w, before, hpast, ((hs.votes hsteady x.node).report (hpast.mono hsuffix)).1, hv⟩
  best := hprep.best

/-- **Every Accept is safe**: it follows a prepare round in which a majority promised its ballot, and carries the value
with the highest ballot that this round reported for the instance. -/
theorem accept_safe {s : Sys} (hs : Reachable P inNetwork G s) (hsteady : Steady G s.hist) {n : NodeID} {i p : Nat}
    {v : Bytes} {S : Finset NodeID} {older : List Obs} (h : Past s.hist (.accept n i p v S) older) :
    ∃ Q r, SafeAccept P G n i p v older Q r := by
  obtain ⟨r, hlast, hprep, htold⟩ := (hs.stepping.rounds hsteady n).accepts h
  exact ⟨r.nodes, r, safeAccept_of_prepared hs.stepping hsteady hlast hprep htold h.suffix⟩

/-- In a group of three, node 1 proposes, node 2 promises, and node 1 broadcasts its Accept. -/
def acceptRun : List Event :=
  proposeEvents 1 0 [7] ++ [deliver 2 (prepareMsg 1 0 1), deliver 1 (promiseMsg 2 0 1 {})]

theorem accept_safe_acceptRun : ∃ older Q r,
    Past (Sys.run .plain acceptRun (Sys.init .plain (.ofList [1, 2, 3]))).hist
      (.accept 1 0 1 [0, 0, 0, 0, 7] {1, 2, 3}) older ∧
    SafeAccept .plain (.ofList [1, 2, 3]) 1 0 1 [0, 0, 0, 0, 7] older Q r := by
  obtain ⟨older, hpast⟩ : ∃ older, Past (Sys.run .plain acceptRun (Sys.init .plain (.ofList [1, 2, 3]))).hist
      (.accept 1 0 1 [0, 0, 0, 0, 7] {1, 2, 3}) older := Past.exists_of_mem (by decide +kernel)
  obtain ⟨Q, r, h⟩ := accept_safe (.of_run .plain .init (by decide +kernel)) (.of_all (by decide +kernel)) hpast
  exact ⟨older, Q, r, hpast, h⟩

end PhxPaxos
