import PhxPaxos.Invariants.Messages
import PhxPaxos.Safety.Offered
import PhxPaxos.Transport.MessageSize

/-!
# A round that nothing disturbs: the handlers

What a node does in one round of its proposer when no write fails. A node that stands where the proposer stands
(`Node.Joins`) promises (`onPrepare_promise`) or rejects (`onPrepare_reject`), and accepts (`onAccept_accept`). The proposer
collects promises (`Proc.Collects`) until a majority has promised, then votes (`Proc.Gathers`) until a majority has accepted,
and then has learned its value (`Decided`). What it sends to itself in between it handles at once, so that one promise, its
own, may already take a proposer that is the only member through the whole round. No value that a node has accepted or proposes
is too large to be sent (`Transportable`), and it stays that way.
-/

namespace PhxPaxos

variable {P : Params} {large : Bool} {p q : NodeID} {b : Nat} {v : Bytes} {K : Finset NodeID} {w w' : Proc}

/-- What a node does with a message to itself, with `d` levels left. -/
abbrev selfAt (P : Params) (d : Nat) : Self := fun msg w => onReceivePaxosMsg P d msg false w

/-! ## Where the nodes stand -/

/-- Where a proposer stands: its instance, its system variables and its checksum. -/
structure Standpoint where
  instanceID : Nat
  systemVSM : SystemVSM
  lastChecksum : Nat

namespace Standpoint

def members (x : Standpoint) : Finset NodeID := x.systemVSM.setNodeID

def gid (x : Standpoint) : Nat := x.systemVSM.systemVariables.gid

def majority (x : Standpoint) : Nat := x.systemVSM.getMajorityCount

end Standpoint

def Node.standpoint (n : Node) : Standpoint := ⟨n.instanceID, n.config.systemVSM, n.lastChecksum⟩

variable {x : Standpoint}

/-- The node takes part in the rounds of a proposer that stands at `x`: it is up, it votes, it stands there too,
`ChecksumLogic` has nothing against the checksum, and what it has accepted can be sent. -/
structure Node.Joins (large : Bool) (x : Standpoint) (n : Node) : Prop where
  up : n.stopped = false
  listens : n.checkpointMgr.inAskforCheckpointMode = false
  votes : n.config.isIMFollower = false
  systemVSM : n.config.systemVSM = x.systemVSM
  instanceID : n.instanceID = x.instanceID
  checksum : x.lastChecksum = 0 ∨ n.lastChecksum = x.lastChecksum ∨ 0 < x.instanceID ∧ n.lastChecksum = 0
  accepted : Transportable large n.acceptor.acceptedValue

/-- The proposer `p`, which stands at `x` and has a value that can be sent; no write is going to fail. -/
structure Proc.Leads (large : Bool) (x : Standpoint) (p : NodeID) (w : Proc) : Prop where
  me : w.me = p
  joins : w.node.Joins large x
  checksum : w.node.lastChecksum = x.lastChecksum
  member : p ∈ x.members
  value : Transportable large w.node.proposer.state.value
  puts : w.env.puts = []

theorem Node.Joins.isValidNodeID (h : w.node.Joins large x) (hq : q ∈ x.members) : w.node.config.isValidNodeID q = true := by
  unfold Config.isValidNodeID SystemVSM.isValidNodeID
  rw [h.systemVSM]
  split
  · rfl
  · exact decide_eq_true hq

theorem Node.Joins.getGid {n : Node} (h : n.Joins large x) : n.config.getGid = x.gid := by
  unfold Config.getGid
  rw [h.systemVSM]
  rfl

/-! ## The acceptor -/

section Acceptor

variable (self : Self) (msg : PaxosMsg)

/-- A checksum that is not against that of the message: it stays, or it is taken over from the message. -/
theorem checksumLogic_joins (h : w.node.Joins large x) (hi : msg.instanceID = x.instanceID)
    (hc : msg.lastChecksum = 0 ∨ msg.lastChecksum = x.lastChecksum) :
    ∃ c, (c = w.node.lastChecksum ∨ c = x.lastChecksum) ∧
      checksumLogic msg w = ({ w with node.lastChecksum := c }, true) := by
  by_cases hown : msg.lastChecksum = 0 ∨ msg.lastChecksum = w.node.lastChecksum
  · exact ⟨w.node.lastChecksum, Or.inl rfl, checksumLogic_own hown⟩
  · rw [not_or] at hown
    have hx : msg.lastChecksum = x.lastChecksum := hc.resolve_left hown.1
    have hne : x.lastChecksum ≠ 0 := hx ▸ hown.1
    have hlast : w.node.lastChecksum ≠ x.lastChecksum := fun he => hown.2 (hx.trans he.symm)
    have hzero : 0 < x.instanceID ∧ w.node.lastChecksum = 0 := (h.checksum.resolve_left hne).resolve_left hlast
    refine ⟨x.lastChecksum, Or.inr rfl, ?_⟩
    unfold checksumLogic
    rw [if_neg hown.1, if_neg (by rw [hi, h.instanceID]; simp), if_pos (by rw [h.instanceID]; exact hzero), hx]

/-- A node that takes over the checksum still takes part. -/
theorem Node.Joins.withChecksum {n : Node} (h : n.Joins large x) {c : Nat} (hc : c = n.lastChecksum ∨ c = x.lastChecksum) :
    { n with lastChecksum := c }.Joins large x := by
  refine { h with checksum := ?_ }
  rcases hc with rfl | rfl
  · exact h.checksum
  · exact Or.inr (Or.inl rfl)

/-- What the acceptor does with a Prepare or an Accept. -/
def Proc.callAcceptor (P : Params) (self : Self) (msg : PaxosMsg) (w : Proc) : Proc × Int :=
  if msg.msgType = .paxosPrepare then onPrepare P self msg w else (onAccept P self msg w, 0)

/-- A Prepare or Accept of a member for the instance reaches the acceptor. -/
theorem body_acceptor (h : w.node.Joins large x) (ht : msg.msgType = .paxosPrepare ∨ msg.msgType = .paxosAccept)
    (hi : msg.instanceID = x.instanceID) (hq : msg.nodeID ∈ x.members)
    (hc : msg.lastChecksum = 0 ∨ msg.lastChecksum = x.lastChecksum) :
    ∃ c, (c = w.node.lastChecksum ∨ c = x.lastChecksum) ∧
      onReceivePaxosMsgBody P self msg false w = { w with node.lastChecksum := c }.callAcceptor P self msg := by
  obtain ⟨c, hc', hlogic⟩ := checksumLogic_joins msg h hi hc
  refine ⟨c, hc', ?_⟩
  have htmp : w.node.config.addTmpNodeOnlyForLearn msg.nodeID = w.node.config := by
    unfold Config.addTmpNodeOnlyForLearn
    rw [if_pos (by rw [h.systemVSM]; exact hq)]
  have hvalid := h.isValidNodeID hq
  have hproposers : onReceiveProposersMsg P self msg false w = { w with node.lastChecksum := c }.callAcceptor P self msg := by
    unfold onReceiveProposersMsg
    simp only [htmp, ite_self]
    rw [if_neg (by rw [hvalid]; simp), hlogic]
    unfold receiveMsgForAcceptor
    simp only [if_true]
    rw [if_neg (by rw [h.votes]; simp), if_neg (by rw [hi, h.instanceID]; omega)]
    unfold acceptorOrRetry Proc.callAcceptor
    rw [if_pos (by exact hi.trans h.instanceID.symm)]
    rcases ht with ht | ht <;> rw [ht] <;> rfl
  unfold onReceivePaxosMsgBody
  rcases ht with ht | ht <;> rw [ht] <;> exact hproposers

/-- From `w` to `w'` only the acceptor, which has promised `bn` and has accepted `v`, and the log have changed. -/
structure Proc.Votes (bn : BallotNumber) (v : Bytes) (w w' : Proc) : Prop where
  node : ∃ a storage, a.promiseBallot = bn ∧ a.acceptedValue = v ∧
    w'.node = { w.node with acceptor := a, storage := storage }
  net : w'.net = w.net
  hist : w.hist ⊆ w'.hist
  puts : w'.env.puts = []

theorem Proc.Votes.me {bn : BallotNumber} (h : w.Votes bn v w') : w'.me = w.me := by
  obtain ⟨⟨a, storage, -, -, hnode⟩, -, -, -⟩ := h
  unfold Proc.me
  rw [hnode]

/-- A promise carries what the acceptor has accepted, or nothing. -/
theorem promiseMsg_transportable {a : AcceptorState} (ha : Transportable large a.acceptedValue) (q : NodeID) (i b : Nat) :
    Transportable large (promiseMsg q i b a).value := by
  unfold promiseMsg
  split
  · exact ha
  · exact transportable_nil

theorem nextPut_of_nil (hputs : w.env.puts = []) : w.nextPut = true := by
  unfold Proc.nextPut
  rw [hputs]
  rfl

/-- `Acceptor::OnPrepare` promises. -/
theorem onPrepare_promise (hputs : w.env.puts = []) (hb : w.node.acceptor.promiseBallot ≤ msg.ballot) :
    ∃ w', w.Votes msg.ballot w.node.acceptor.acceptedValue w' ∧
      onPrepare P self msg w =
        (w'.sendMessage self msg.nodeID (promiseMsg w.me w.node.instanceID msg.proposalID w.node.acceptor), 0) := by
  unfold onPrepare
  simp only []
  rw [if_pos (BallotNumber.ge_iff.mpr hb), persist_true (by exact nextPut_of_nil hputs)]
  simp only [ne_eq, not_true_eq_false, if_false]
  refine ⟨_, ?_, rfl⟩
  constructor
  · refine ⟨_, _, ?_, ?_, rfl⟩ <;> rfl
  · rfl
  · exact fun o ho => List.mem_cons_of_mem _ (List.mem_cons_of_mem _ ho)
  · exact congrArg List.tail hputs

/-- `Acceptor::OnPrepare` rejects. -/
theorem onPrepare_reject (hb : msg.ballot < w.node.acceptor.promiseBallot) :
    onPrepare P self msg w =
      (w.sendMessage self msg.nodeID (replyMsg w.me .paxosPrepareReply w.node.instanceID msg.proposalID
        w.node.acceptor.promiseBallot.proposalID), 0) := by
  unfold onPrepare
  simp only []
  rw [if_neg (by rw [BallotNumber.ge_iff]; exact not_le.mpr hb)]
  rfl

/-- `Acceptor::OnAccept` accepts. -/
theorem onAccept_accept (hputs : w.env.puts = []) (hb : w.node.acceptor.promiseBallot ≤ msg.ballot) :
    ∃ w', w.Votes msg.ballot msg.value w' ∧ w'.node.acceptor.acceptedBallot = msg.ballot ∧
      w'.node.acceptor.acceptedValue = msg.value ∧ .accepted w.me w.node.instanceID msg.ballot msg.value ∈ w'.hist ∧
      onAccept P self msg w =
        w'.sendMessage self msg.nodeID (replyMsg w.me .paxosAcceptReply w.node.instanceID msg.proposalID 0) := by
  unfold onAccept
  simp only []
  rw [if_pos (BallotNumber.ge_iff.mpr hb), persist_true (by exact nextPut_of_nil hputs)]
  simp only [ne_eq, not_true_eq_false, if_false]
  refine ⟨_, ?_, ?_, ?_, ?_, rfl⟩
  · constructor
    · exact ⟨_, _, rfl, rfl, rfl⟩
    · rfl
    · exact fun o ho => List.mem_cons_of_mem _ (List.mem_cons_of_mem _ (List.mem_cons_of_mem _ ho))
    · exact congrArg List.tail hputs
  · rfl
  · rfl
  · exact List.mem_cons_self

end Acceptor

/-- A node that has voted for a value that can be sent still takes part. -/
theorem Node.Joins.vote {bn : BallotNumber} (h : w.node.Joins large x) (hv : Transportable large v) (hvote : w.Votes bn v w') :
    w'.node.Joins large x := by
  obtain ⟨⟨a, storage, -, ha, hnode⟩, -, -, -⟩ := hvote
  rw [hnode]
  exact { h with accepted := ha ▸ hv }

/-- A vote leaves the proposer where it stands. -/
theorem Proc.Leads.vote {bn : BallotNumber} (h : w.Leads large x p) (hv : Transportable large v) (hvote : w.Votes bn v w') :
    w'.Leads large x p := by
  have hjoins := h.joins.vote hv hvote
  obtain ⟨⟨a, storage, -, -, hnode⟩, -, -, hputs⟩ := id hvote
  refine ⟨hvote.me.trans h.me, hjoins, ?_, h.member, ?_, hputs⟩
  · rw [hnode]
    exact h.checksum
  · rw [hnode]
    exact h.value

theorem Proc.Leads.others (h : w.Leads large x p) : w.others = x.members.erase p := by
  unfold Proc.others
  rw [h.joins.systemVSM, h.me]
  rfl

/-- The round has passed when a majority is among the counted. -/
theorem Proc.Leads.isPassed (h : w.Leads large x p) : w.node.proposer.msgCounter.isPassedOnThisRound w.node.config =
    decide (x.majority ≤ w.node.proposer.msgCounter.promiseOrAcceptMsgNodeID.card) := by
  have hmajority : w.node.config.getMajorityCount = x.majority := by
    unfold Config.getMajorityCount
    rw [h.joins.systemVSM]
    rfl
  unfold MsgCounter.isPassedOnThisRound
  rw [hmajority]

theorem sendMessage_self {self : Self} {dst : NodeID} (h : dst = w.me) (msg : PaxosMsg) :
    w.sendMessage self dst msg = (self msg w).1 :=
  if_pos h

/-- The proposer's own Prepare or Accept reaches its acceptor. -/
theorem Proc.Leads.self_acceptor (h : w.Leads large x p) (msg : PaxosMsg)
    (ht : msg.msgType = .paxosPrepare ∨ msg.msgType = .paxosAccept) (hi : msg.instanceID = x.instanceID)
    (hp : msg.nodeID = p) (hc : msg.lastChecksum = 0 ∨ msg.lastChecksum = x.lastChecksum) (d : Nat) :
    selfAt P (d + 1) msg w = w.callAcceptor P (selfAt P d) msg := by
  obtain ⟨c, hc', hbody⟩ := body_acceptor (P := P) (selfAt P d) msg h.joins ht hi (hp ▸ h.member) hc
  have hc' : c = w.node.lastChecksum := hc'.elim id fun he => he.trans h.checksum.symm
  subst hc'
  exact hbody

/-! ## The accept phase -/

/-- A majority of the members has accepted a value of the proposer `p`, which has learned it, at the instance of `x`. -/
def Decided (x : Standpoint) (p : NodeID) (h : List Obs) : Prop :=
  ∃ b v K, K ⊆ x.members ∧ x.majority ≤ K.card ∧ (∀ q ∈ K, .accepted q x.instanceID ⟨b, p⟩ v ∈ h) ∧
    .learn p x.instanceID v (.success ⟨b, p⟩) ∈ h

theorem Decided.mono {h h' : List Obs} (hsub : h ⊆ h') (hd : Decided x p h) : Decided x p h' := by
  obtain ⟨b, v, K, hK, hmaj, hacc, hlearn⟩ := hd
  exact ⟨b, v, K, hK, hmaj, fun q hq => hsub (hacc q hq), hsub hlearn⟩

/-- The nodes `K` have accepted `v` with the ballot of the proposer. -/
structure Accepted (x : Standpoint) (p : NodeID) (b : Nat) (v : Bytes) (K : Finset NodeID) (h : List Obs) : Prop where
  subset : K ⊆ x.members
  accepted : ∀ q ∈ K, .accepted q x.instanceID ⟨b, p⟩ v ∈ h

theorem Accepted.mono {h h' : List Obs} (hsub : h ⊆ h') (ha : Accepted x p b v K h) : Accepted x p b v K h' :=
  ⟨ha.subset, fun q hq => hsub (ha.accepted q hq)⟩

theorem Accepted.insert {h : List Obs} (ha : Accepted x p b v K h) (hq : q ∈ x.members)
    (hacc : .accepted q x.instanceID ⟨b, p⟩ v ∈ h) : Accepted x p b v (insert q K) h := by
  refine ⟨Finset.insert_subset hq ha.subset, fun k hk => ?_⟩
  rcases Finset.mem_insert.mp hk with rfl | hk
  · exact hacc
  · exact ha.accepted k hk

/-- The proposer is in the accept phase of ballot `b` and has counted the votes of `K` for `v`; it has voted itself. -/
structure Proc.Gathers (large : Bool) (x : Standpoint) (p : NodeID) (b : Nat) (v : Bytes) (K : Finset NodeID) (w : Proc) : Prop
    extends Proc.Leads large x p w where
  accepting : w.node.proposer.isAccepting = true
  proposalID : w.node.proposer.state.proposalID = b
  counted : w.node.proposer.msgCounter.promiseOrAcceptMsgNodeID = K
  acceptedBallot : w.node.acceptor.acceptedBallot = ⟨b, p⟩
  acceptedValue : w.node.acceptor.acceptedValue = v
  accepted : Accepted x p b v K w.hist
  sent : ⟨x.members.erase p, x.gid, acceptMsg p x.instanceID b v x.lastChecksum⟩ ∈ w.net

/-- The accept phase of ballot `b` goes on, with the votes of `K`, or is over. -/
def Proc.Voting (large : Bool) (x : Standpoint) (p : NodeID) (b : Nat) (v : Bytes) (K : Finset NodeID) (w : Proc) : Prop :=
  K.card < x.majority ∧ w.Gathers large x p b v K ∨ Decided x p w.hist

theorem broadcastFirst_hist (self : Self) (msg : PaxosMsg) (w : Proc) :
    (w.broadcastMessage self .first msg).hist = (self msg w).1.hist := by
  unfold Proc.broadcastMessage
  simp only []
  split <;> rfl

/-- The proposer learns from its own success message. -/
theorem Proc.Leads.success (h : w.Leads large x p) (hb : b ≠ 0) (hballot : w.node.acceptor.acceptedBallot = ⟨b, p⟩)
    (hvalue : w.node.acceptor.acceptedValue = v) (d : Nat) :
    w.hist ⊆ (selfAt P (d + 1) (successMsg p x.instanceID b x.lastChecksum) w).1.hist ∧
      .learn p x.instanceID v (.success ⟨b, p⟩) ∈
        (selfAt P (d + 1) (successMsg p x.instanceID b x.lastChecksum) w).1.hist := by
  have hreceive : (selfAt P (d + 1) (successMsg p x.instanceID b x.lastChecksum) w).1 =
      (instanceLearned P (onProposerSendSuccess (successMsg p x.instanceID b x.lastChecksum) w)).1 := by
    have hlogic : checksumLogic (successMsg p x.instanceID b x.lastChecksum) w = (w, true) :=
      checksumLogic_own (Or.inr h.checksum.symm)
    unfold selfAt onReceivePaxosMsg onReceivePaxosMsgBody
    simp only [successMsg] at hlogic ⊢
    unfold onReceiveLearnersMsg
    rw [hlogic]
    rfl
  have hlearn : (onProposerSendSuccess (successMsg p x.instanceID b x.lastChecksum) w).hist =
      .learn p x.instanceID v (.success ⟨b, p⟩) :: w.hist := by
    unfold onProposerSendSuccess
    simp only []
    rw [if_neg (by rw [h.joins.instanceID]; exact fun hne => hne rfl),
      if_neg (by rw [BallotNumber.isnull_iff, hballot]; exact hb), if_neg (by rw [hballot]; exact fun hne => hne rfl)]
    unfold transmitToFollower
    rw [← h.me, hvalue]
    split <;> rfl
  have hchain : Chain P (fun _ => True) _ ((onProposerSendSuccess (successMsg p x.instanceID b x.lastChecksum) w).loc none)
      ((instanceLearned P (onProposerSendSuccess (successMsg p x.instanceID b x.lastChecksum) w)).1.loc none) :=
    instanceLearned_chain rfl
  have hsuffix : (onProposerSendSuccess (successMsg p x.instanceID b x.lastChecksum) w).hist <:+
      (instanceLearned P (onProposerSendSuccess (successMsg p x.instanceID b x.lastChecksum) w)).1.hist := hchain.hist_suffix
  rw [hreceive]
  rw [hlearn] at hsuffix
  exact ⟨fun o ho => hsuffix.subset (List.mem_cons_of_mem _ ho), hsuffix.subset List.mem_cons_self⟩

/-- The end of `Proposer::OnAcceptReply` when all who answered have accepted. -/
theorem Proc.Gathers.checkAcceptRound (h : w.Gathers large x p b v K) (hb : b ≠ 0) (d : Nat) :
    (checkAcceptRound (selfAt P (d + 1)) w).Voting large x p b v K := by
  unfold PhxPaxos.checkAcceptRound
  by_cases hpass : x.majority ≤ K.card
  · right
    rw [if_pos (by rw [h.isPassed, h.counted]; exact decide_eq_true hpass)]
    obtain ⟨timers, k, -, he⟩ := exitAccept_eq w
    simp only [he]
    unfold proposerSendSuccess
    rw [broadcastFirst_hist]
    generalize hw₁ : Proc.log _ _ = w₁
    have hleads : w₁.Leads large x p := by
      rw [← hw₁]
      exact { h.toLeads with joins := { h.joins with } }
    have hacc : w₁.node.acceptor = w.node.acceptor := by
      rw [← hw₁]
      rfl
    have hhist : w.hist ⊆ w₁.hist := by
      rw [← hw₁]
      exact List.subset_cons_self _ _
    have hid : w₁.node.proposer.state.proposalID = b := by
      rw [← hw₁]
      exact h.proposalID
    have hmsg : successMsg w₁.me w₁.node.instanceID w₁.node.proposer.state.proposalID w₁.node.lastChecksum =
        successMsg p x.instanceID b x.lastChecksum := by
      rw [hleads.me, hleads.joins.instanceID, hid, hleads.checksum]
    have hsuccess := hleads.success (P := P) hb (hacc ▸ h.acceptedBallot) (hacc ▸ h.acceptedValue) d
    rw [← hmsg] at hsuccess
    exact ⟨b, v, K, h.accepted.subset, hpass, fun q hq => hsuccess.1 (hhist (h.accepted.accepted q hq)), hsuccess.2⟩
  · left
    refine ⟨not_le.mp hpass, ?_⟩
    rw [if_neg (by rw [h.isPassed, h.counted, decide_eq_true_eq]; exact hpass)]
    split
    · obtain ⟨timers, now, k, -, he⟩ := addAcceptTimer_eq true w
      rw [he]
      exact { h with joins := { h.joins with } }
    · exact h

/-- A reply to an Accept or a Prepare of the proposer reaches it. -/
theorem Proc.Leads.body_reply (h : w.Leads large x p) {self : Self} {msg : PaxosMsg}
    (ht : msg.msgType = .paxosPrepareReply ∨ msg.msgType = .paxosAcceptReply) (hi : msg.instanceID = x.instanceID)
    (hq : msg.nodeID ∈ x.members) :
    (onReceivePaxosMsgBody P self msg false w).1 =
      if msg.msgType = .paxosPrepareReply then onPrepareReply self msg w else onAcceptReply self msg w := by
  have hvalid := h.joins.isValidNodeID hq
  have hproposer : onReceivePaxosMsgBody P self msg false w =
      if !w.node.config.isValidNodeID msg.nodeID then (w, 0) else (receiveMsgForProposer self msg w, 0) := by
    unfold onReceivePaxosMsgBody
    rcases ht with ht | ht <;> rw [ht]
  rw [hproposer, if_neg (by rw [hvalid]; simp)]
  unfold receiveMsgForProposer
  simp only []
  rw [if_neg (by rw [h.joins.votes]; simp), if_neg (by rw [hi, h.joins.instanceID]; exact fun hne => hne rfl)]
  rcases ht with ht | ht <;> rw [ht] <;> rfl

/-- The proposer counts the vote of `q`. -/
theorem Proc.Gathers.vote (h : w.Gathers large x p b v K) (hb : b ≠ 0) (hq : q ∈ x.members)
    (hacc : .accepted q x.instanceID ⟨b, p⟩ v ∈ w.hist) (d : Nat) :
    (onReceivePaxosMsgBody P (selfAt P (d + 1)) (replyMsg q .paxosAcceptReply x.instanceID b 0) false w).1.Voting large
      x p b v (insert q K) := by
  rw [h.body_reply (Or.inr rfl) rfl hq, if_neg (by exact nofun)]
  unfold onAcceptReply
  rw [if_neg (by rw [h.accepting]; simp), if_neg (by rw [h.proposalID]; exact fun hne => hne rfl)]
  simp only []
  rw [if_pos (by rfl)]
  refine Proc.Gathers.checkAcceptRound ?_ hb d
  exact { h with
    joins := { h.joins with }
    counted := congrArg (insert q) h.counted
    accepted := h.accepted.insert hq hacc }

/-- The proposer handles its own Accept: it accepts, and counts its own vote. -/
theorem Proc.Leads.acceptSelf (h : w.Leads large x p) (hb : b ≠ 0) (hpromise : w.node.acceptor.promiseBallot ≤ ⟨b, p⟩)
    (haccepting : w.node.proposer.isAccepting = true) (hid : w.node.proposer.state.proposalID = b)
    (hcounted : w.node.proposer.msgCounter.promiseOrAcceptMsgNodeID = ∅) (hv : Transportable large v)
    (hsent : ⟨x.members.erase p, x.gid, acceptMsg p x.instanceID b v x.lastChecksum⟩ ∈ w.net) (d : Nat) :
    (selfAt P (d + 3) (acceptMsg p x.instanceID b v x.lastChecksum) w).1.Voting large x p b v {p} := by
  obtain ⟨w₁, hvote, hballot, hvalue, hacc, haccept⟩ := onAccept_accept (P := P) (selfAt P (d + 2))
    (acceptMsg p x.instanceID b v x.lastChecksum) h.puts hpromise
  have hreceive : (selfAt P (d + 3) (acceptMsg p x.instanceID b v x.lastChecksum) w).1 =
      (selfAt P (d + 2) (replyMsg p .paxosAcceptReply x.instanceID b 0) w₁).1 := by
    rw [h.self_acceptor _ (Or.inr rfl) rfl rfl (Or.inr rfl)]
    unfold Proc.callAcceptor
    rw [if_neg (by exact nofun), haccept, sendMessage_self (by exact (h.vote hv hvote).me.symm), h.me, h.joins.instanceID]
    rfl
  obtain ⟨⟨a, storage, -, -, hnode⟩, hnet, hhist, -⟩ := id hvote
  have hgathers : w₁.Gathers large x p b v ∅ := by
    refine { h.vote hv hvote with
      accepting := ?_
      proposalID := ?_
      counted := ?_
      acceptedBallot := hballot
      acceptedValue := hvalue
      accepted := ⟨Finset.empty_subset _, nofun⟩
      sent := hnet ▸ hsent }
    · rw [hnode]
      exact haccepting
    · rw [hnode]
      exact hid
    · rw [hnode]
      exact hcounted
  have hown : .accepted p x.instanceID ⟨b, p⟩ v ∈ w₁.hist := by
    rw [h.me, h.joins.instanceID] at hacc
    exact hacc
  rw [hreceive]
  exact hgathers.vote hb h.member hown d

/-- `Proposer::Accept` -/
theorem Proc.Leads.accept (h : w.Leads large x p) (hb : b ≠ 0) (hpromise : w.node.acceptor.promiseBallot ≤ ⟨b, p⟩)
    (hid : w.node.proposer.state.proposalID = b) (d : Nat) :
    (PhxPaxos.accept (selfAt P (d + 3)) w).Voting large x p b w.node.proposer.state.value {p} := by
  obtain ⟨timers, k, -, he⟩ := exitPrepare_eq w
  obtain ⟨timers', now, k', -, he'⟩ := addAcceptTimer_eq false { w with
    node.ioLoop.timers := timers
    node.proposer.isPreparing := false
    node.proposer.prepareTimerID := k
    node.proposer.isAccepting := true
    node.proposer.msgCounter := {} }
  unfold PhxPaxos.accept
  simp only [he, he', Proc.broadcastMessage]
  generalize hw₁ : Proc.emit _ _ _ = w₁
  have hmsg : acceptMsg w.me w.node.instanceID w.node.proposer.state.proposalID w.node.proposer.state.value
      w.node.lastChecksum = acceptMsg p x.instanceID b w.node.proposer.state.value x.lastChecksum := by
    rw [h.me, h.joins.instanceID, hid, h.checksum]
  have hleads : w₁.Leads large x p := by
    rw [← hw₁]
    exact { h with joins := { h.joins with } }
  have hsent : ⟨x.members.erase p, x.gid,
      acceptMsg p x.instanceID b w.node.proposer.state.value x.lastChecksum⟩ ∈ w₁.net := by
    rw [← hmsg, ← h.others, ← h.joins.getGid, ← hw₁]
    exact List.mem_cons_self
  have hself := hleads.acceptSelf (P := P) hb (by rw [← hw₁]; exact hpromise) (by rw [← hw₁]; rfl)
    (by rw [← hw₁]; exact hid) (by rw [← hw₁]; rfl) h.value hsent d
  rw [← hmsg] at hself
  exact hself

/-! ## The prepare phase -/

/-- The proposer is in the prepare phase of ballot `b` and has counted the promises of `K`. -/
structure Proc.Collects (large : Bool) (x : Standpoint) (p : NodeID) (b : Nat) (K : Finset NodeID) (w : Proc) : Prop
    extends Proc.Leads large x p w where
  preparing : w.node.proposer.isPreparing = true
  proposalID : w.node.proposer.state.proposalID = b
  counted : w.node.proposer.msgCounter.promiseOrAcceptMsgNodeID = K
  promise : w.node.acceptor.promiseBallot ≤ ⟨b, p⟩

/-- The prepare phase of ballot `b` goes on, with the promises of `K`, or the accept phase has followed. -/
def Proc.Proposing (large : Bool) (x : Standpoint) (p : NodeID) (b : Nat) (K : Finset NodeID) (w : Proc) : Prop :=
  K.card < x.majority ∧ w.Collects large x p b K ∨ x.majority ≤ K.card ∧ ∃ v, w.Voting large x p b v {p}

/-- The end of `Proposer::OnPrepareReply` while few have promised: at most the timer is set again. -/
theorem Proc.Leads.checkPrepareRound_few (h : w.Leads large x p)
    (hfew : w.node.proposer.msgCounter.promiseOrAcceptMsgNodeID.card < x.majority) (self : Self) :
    ∃ timers now k, PhxPaxos.checkPrepareRound self w =
      { w with
        node.ioLoop.timers := timers
        node.ioLoop.nowTimerID := now
        node.proposer.prepareTimerID := k } := by
  unfold PhxPaxos.checkPrepareRound
  rw [if_neg (by rw [h.isPassed, decide_eq_true_eq]; exact not_le.mpr hfew)]
  split
  · obtain ⟨timers, now, k, -, he⟩ := addPrepareTimer_eq true w
    exact ⟨timers, now, k, he⟩
  · exact ⟨_, _, _, rfl⟩

/-- The end of `Proposer::OnPrepareReply`. -/
theorem Proc.Collects.checkPrepareRound (h : w.Collects large x p b K) (hb : b ≠ 0) (d : Nat) :
    (checkPrepareRound (selfAt P (d + 3)) w).Proposing large x p b K := by
  by_cases hpass : x.majority ≤ K.card
  · right
    unfold PhxPaxos.checkPrepareRound
    rw [if_pos (by rw [h.isPassed, h.counted]; exact decide_eq_true hpass)]
    have hleads : { w with node.proposer.canSkipPrepare := true }.Leads large x p :=
      { h.toLeads with joins := { h.joins with } }
    exact ⟨hpass, _, hleads.accept hb h.promise h.proposalID d⟩
  · left
    obtain ⟨timers, now, k, he⟩ := h.checkPrepareRound_few (h.counted ▸ not_le.mp hpass) (selfAt P (d + 3))
    refine ⟨not_le.mp hpass, ?_⟩
    rw [he]
    exact { h with joins := { h.joins with } }

/-- The value of the proposer is the one it had or the one that it is told of. -/
theorem countPromise_transportable {msg : PaxosMsg} (h : Transportable large w.node.proposer.state.value)
    (hmsg : Transportable large msg.value) : Transportable large (countPromise msg w).node.proposer.state.value := by
  have hvalue : (countPromise msg w).node.proposer.state.value =
      (w.node.proposer.state.addPreAcceptValue msg.preAcceptBallot msg.value).value := rfl
  rw [hvalue]
  rcases addPreAcceptValue_value w.node.proposer.state msg.preAcceptBallot msg.value with hkept | htaken
  · rw [hkept]
    exact h
  · rw [htaken]
    exact hmsg

/-- The proposer counts the promise of `q`. -/
theorem Proc.Collects.promised (h : w.Collects large x p b K) (hb : b ≠ 0) (hq : q ∈ x.members) {a : AcceptorState}
    (ha : Transportable large a.acceptedValue) (d : Nat) :
    (onReceivePaxosMsgBody P (selfAt P (d + 3)) (promiseMsg q x.instanceID b a) false w).1.Proposing large x p b
      (insert q K) := by
  rw [h.body_reply (Or.inl rfl) rfl hq, if_pos (by rfl)]
  unfold onPrepareReply
  rw [if_neg (by rw [h.preparing]; simp), if_neg (by rw [h.proposalID]; exact fun hne => hne rfl)]
  simp only []
  rw [if_pos (by rfl)]
  refine Proc.Collects.checkPrepareRound ?_ hb d
  exact { h with
    joins := { h.joins with }
    value := countPromise_transportable h.value (promiseMsg_transportable ha _ _ _)
    proposalID := (addPreAcceptValue_proposalID _ _ _).trans h.proposalID
    counted := congrArg (insert q) h.counted }

/-- The proposer handles its own Prepare: it promises, and counts its own promise. -/
theorem Proc.Collects.prepareSelf (h : w.Collects large x p b ∅) (hb : b ≠ 0) (d : Nat) :
    ∃ w', selfAt P (d + 5) (prepareMsg p x.instanceID b) w = (w', 0) ∧ w'.Proposing large x p b {p} := by
  obtain ⟨w₁, hvote, hprepare⟩ := onPrepare_promise (P := P) (selfAt P (d + 4)) (prepareMsg p x.instanceID b)
    h.puts h.promise
  have hleads : w₁.Leads large x p := h.toLeads.vote h.joins.accepted hvote
  have hreceive : selfAt P (d + 5) (prepareMsg p x.instanceID b) w =
      ((selfAt P (d + 4) (promiseMsg p x.instanceID b w.node.acceptor) w₁).1, 0) := by
    rw [h.self_acceptor _ (Or.inl rfl) rfl rfl (Or.inl rfl)]
    unfold Proc.callAcceptor
    rw [if_pos (by rfl), hprepare, sendMessage_self (by exact hleads.me.symm), h.me, h.joins.instanceID]
    rfl
  obtain ⟨⟨a, storage, ha, -, hnode⟩, -, -, -⟩ := id hvote
  have hcollects : w₁.Collects large x p b ∅ := by
    refine { hleads with preparing := ?_, proposalID := ?_, counted := ?_, promise := ?_ }
    · rw [hnode]
      exact h.preparing
    · rw [hnode]
      exact h.proposalID
    · rw [hnode]
      exact h.counted
    · rw [hnode]
      exact ha.le
  exact ⟨_, hreceive, hcollects.promised hb h.member h.joins.accepted d⟩

/-- The proposer is in the prepare phase of ballot `b` and knows of a promise with proposal id `r`. -/
structure Proc.Rejected (large : Bool) (x : Standpoint) (p : NodeID) (b r : Nat) (w : Proc) : Prop
    extends Proc.Leads large x p w where
  preparing : w.node.proposer.isPreparing = true
  proposalID : w.node.proposer.state.proposalID = b
  rejected : w.node.proposer.wasRejectBySomeone = true
  other : r ≤ w.node.proposer.state.highestOtherProposalID

theorem le_setOtherProposalID (s : ProposerState) (r : Nat) : r ≤ (s.setOtherProposalID r).highestOtherProposalID := by
  unfold ProposerState.setOtherProposalID
  split <;> simp_all

/-- The proposer counts a reject while few have promised. -/
theorem Proc.Leads.rejected (h : w.Leads large x p) {r : Nat} (hr : r ≠ 0) (hq : q ∈ x.members)
    (hpreparing : w.node.proposer.isPreparing = true) (hid : w.node.proposer.state.proposalID = b)
    (hfew : w.node.proposer.msgCounter.promiseOrAcceptMsgNodeID.card < x.majority) (self : Self) :
    (onReceivePaxosMsgBody P self (replyMsg q .paxosPrepareReply x.instanceID b r) false w).1.Rejected large x p b r ∧
      (onReceivePaxosMsgBody P self (replyMsg q .paxosPrepareReply x.instanceID b r) false w).1.node.acceptor =
        w.node.acceptor := by
  rw [h.body_reply (Or.inl rfl) rfl hq, if_pos (by rfl)]
  unfold onPrepareReply
  rw [if_neg (by rw [hpreparing]; simp), if_neg (by rw [hid]; exact fun hne => hne rfl)]
  simp only []
  rw [if_neg (by exact hr)]
  generalize hw₁ : wasReject _ _ = w₁
  have hrejected : w₁.Rejected large x p b r := by
    rw [← hw₁]
    exact { h with
      joins := { h.joins with }
      value := (setOtherProposalID_value _ _).1.symm ▸ h.value
      preparing := hpreparing
      proposalID := (setOtherProposalID_value _ _).2.trans hid
      rejected := rfl
      other := le_setOtherProposalID _ _ }
  have hacc : w₁.node.acceptor = w.node.acceptor := by
    rw [← hw₁]
    rfl
  have hcounted : w₁.node.proposer.msgCounter.promiseOrAcceptMsgNodeID.card < x.majority := by
    rw [← hw₁]
    exact hfew
  obtain ⟨timers, now, k, he⟩ := hrejected.checkPrepareRound_few hcounted self
  rw [he]
  exact ⟨{ hrejected with joins := { hrejected.joins with } }, hacc⟩

/-! ## The same node -/

theorem Proc.Leads.of_node (h : w.Leads large x p) (hnode : w'.node = w.node) (hputs : w'.env.puts = []) :
    w'.Leads large x p where
  me := (congrArg (fun n : Node => n.config.myNodeID) hnode).trans h.me
  joins := hnode ▸ h.joins
  checksum := hnode ▸ h.checksum
  member := h.member
  value := hnode ▸ h.value
  puts := hputs

theorem Proc.Collects.of_node (h : w.Collects large x p b K) (hnode : w'.node = w.node) (hputs : w'.env.puts = []) :
    w'.Collects large x p b K where
  toLeads := h.toLeads.of_node hnode hputs
  preparing := hnode ▸ h.preparing
  proposalID := hnode ▸ h.proposalID
  counted := hnode ▸ h.counted
  promise := hnode ▸ h.promise

theorem Proc.Rejected.of_node {r : Nat} (h : w.Rejected large x p b r) (hnode : w'.node = w.node) (hputs : w'.env.puts = []) :
    w'.Rejected large x p b r where
  toLeads := h.toLeads.of_node hnode hputs
  preparing := hnode ▸ h.preparing
  proposalID := hnode ▸ h.proposalID
  rejected := hnode ▸ h.rejected
  other := hnode ▸ h.other

theorem Proc.Gathers.of_node (h : w.Gathers large x p b v K) (hnode : w'.node = w.node) (hputs : w'.env.puts = [])
    (hhist : w.hist ⊆ w'.hist) (hnet : w.net ⊆ w'.net) : w'.Gathers large x p b v K where
  toLeads := h.toLeads.of_node hnode hputs
  accepting := hnode ▸ h.accepting
  proposalID := hnode ▸ h.proposalID
  counted := hnode ▸ h.counted
  acceptedBallot := hnode ▸ h.acceptedBallot
  acceptedValue := hnode ▸ h.acceptedValue
  accepted := h.accepted.mono hhist
  sent := hnet h.sent

/-! ## A new round -/

/-- The proposal id with which the next prepare phase begins. -/
def Node.nextID (n : Node) : Nat := (n.core none).nextRound.proposalID

/-- `Proposer::Prepare` up to its broadcast. -/
theorem Proc.Leads.prepare_eq (h : w.Leads large x p) (self : Self) :
    ∃ w₁ : Proc, PhxPaxos.prepare self w.node.proposer.wasRejectBySomeone w =
        w₁.broadcastMessage self .first (prepareMsg p x.instanceID w.node.nextID) ∧
      w₁.Leads large x p ∧ w₁.node.proposer.isPreparing = true ∧ w₁.node.proposer.state.proposalID = w.node.nextID ∧
      w₁.node.proposer.msgCounter.promiseOrAcceptMsgNodeID = ∅ ∧ w₁.node.acceptor = w.node.acceptor := by
  obtain ⟨timers, k, -, he⟩ := exitAccept_eq w
  obtain ⟨timers', now, k', -, he'⟩ := addPrepareTimer_eq false { w with
    node.ioLoop.timers := timers
    node.proposer.isAccepting := false
    node.proposer.acceptTimerID := k
    node.proposer.isPreparing := true
    node.proposer.canSkipPrepare := false
    node.proposer.wasRejectBySomeone := false
    node.proposer.state := (w.node.core none).nextRound
    node.proposer.msgCounter := {} }
  unfold PhxPaxos.prepare
  simp only [he]
  erw [he']
  have hmsg : prepareMsg w.me w.node.instanceID w.node.nextID = prepareMsg p x.instanceID w.node.nextID := by
    rw [h.me, h.joins.instanceID]
  rw [← hmsg]
  refine ⟨_, rfl, ?_, rfl, rfl, rfl, rfl⟩
  exact { h with joins := { h.joins with }, value := (nextRound_value _).symm ▸ h.value }

/-- The broadcast of a Prepare after the proposer has handled it itself. -/
theorem broadcastFirst_eq {self : Self} {msg : PaxosMsg} (h : self msg w = (w', 0)) :
    w.broadcastMessage self .first msg = w'.emit w'.others msg := by
  unfold Proc.broadcastMessage
  rw [h]
  rfl

/-- A round of the ballot `b` has begun: the Prepare is in the network, unless the round has already gone further. -/
structure Proc.Begun (large : Bool) (x : Standpoint) (p : NodeID) (b : Nat) (w : Proc) : Prop where
  proposing : w.Proposing large x p b {p}
  sent : w.Collects large x p b {p} → ⟨x.members.erase p, x.gid, prepareMsg p x.instanceID b⟩ ∈ w.net

theorem Proc.Voting.emit (h : w.Voting large x p b v K) (dst : Finset NodeID) (msg : PaxosMsg) :
    (w.emit dst msg).Voting large x p b v K := by
  rcases h with ⟨hfew, h⟩ | h
  · refine Or.inl ⟨hfew, { h with joins := { h.joins with }, sent := List.mem_cons_of_mem _ h.sent }⟩
  · exact Or.inr h

theorem Proc.Proposing.emit (h : w.Proposing large x p b K) (dst : Finset NodeID) (msg : PaxosMsg) :
    (w.emit dst msg).Proposing large x p b K := by
  rcases h with ⟨hfew, h⟩ | ⟨hmany, v, h⟩
  · exact Or.inl ⟨hfew, { h with joins := { h.joins with } }⟩
  · exact Or.inr ⟨hmany, v, h.emit dst msg⟩

/-- `Proposer::Prepare` of a proposer that has promised no higher ballot. -/
theorem Proc.Leads.prepare_begun (h : w.Leads large x p) (hb : w.node.nextID = b) (hpos : b ≠ 0)
    (hpromise : w.node.acceptor.promiseBallot ≤ ⟨b, p⟩) (d : Nat) :
    (PhxPaxos.prepare (selfAt P (d + 5)) w.node.proposer.wasRejectBySomeone w).Begun large x p b := by
  obtain ⟨w₁, heq, hleads, hpreparing, hid, hcounted, hacc⟩ := h.prepare_eq (selfAt P (d + 5))
  rw [hb] at heq hid
  have hcollects : w₁.Collects large x p b ∅ := { hleads with
    preparing := hpreparing, proposalID := hid, counted := hcounted, promise := by rw [hacc]; exact hpromise }
  obtain ⟨w₂, hself, hproposing⟩ := hcollects.prepareSelf (P := P) hpos d
  rw [heq, broadcastFirst_eq hself]
  refine ⟨hproposing.emit _ _, fun hc => ?_⟩
  have hothers : w₂.others = x.members.erase p := hc.toLeads.others
  have hgid : w₂.node.config.getGid = x.gid := hc.joins.getGid
  rw [← hothers, ← hgid]
  exact List.mem_cons_self

/-- `Proposer::Prepare` of a proposer that has promised a higher ballot. -/
theorem Proc.Leads.prepare_rejected (h : w.Leads large x p) (hb : w.node.nextID = b) (hpos : 0 < x.majority)
    (hpromise : ⟨b, p⟩ < w.node.acceptor.promiseBallot) (hr : w.node.acceptor.promiseBallot.proposalID ≠ 0) (d : Nat) :
    (PhxPaxos.prepare (selfAt P (d + 2)) w.node.proposer.wasRejectBySomeone w).Rejected large x p b
      w.node.acceptor.promiseBallot.proposalID ∧
      (PhxPaxos.prepare (selfAt P (d + 2)) w.node.proposer.wasRejectBySomeone w).node.acceptor = w.node.acceptor := by
  obtain ⟨w₁, heq, hleads, hpreparing, hid, hcounted, hacc⟩ := h.prepare_eq (selfAt P (d + 2))
  rw [hb] at heq hid
  rw [← hacc] at hpromise hr ⊢
  have hprepare := onPrepare_reject (P := P) (selfAt P (d + 1)) (prepareMsg p x.instanceID b) hpromise
  have hself : selfAt P (d + 2) (prepareMsg p x.instanceID b) w₁ =
      ((selfAt P (d + 1) (replyMsg p .paxosPrepareReply x.instanceID b w₁.node.acceptor.promiseBallot.proposalID) w₁).1,
        0) := by
    rw [hleads.self_acceptor _ (Or.inl rfl) rfl rfl (Or.inl rfl)]
    unfold Proc.callAcceptor
    rw [if_pos (by rfl), hprepare, sendMessage_self (by exact hleads.me.symm), hleads.me, hleads.joins.instanceID]
    rfl
  have hfew : w₁.node.proposer.msgCounter.promiseOrAcceptMsgNodeID.card < x.majority := by
    rw [hcounted]
    exact hpos
  obtain ⟨hrejected, hkept⟩ := hleads.rejected (P := P) hr h.member hpreparing hid hfew (selfAt P d)
  rw [heq, broadcastFirst_eq hself]
  exact ⟨{ hrejected with joins := { hrejected.joins with } }, hkept⟩

end PhxPaxos
