import Mathlib.Data.Finset.Max
import PhxPaxos.Model.Run
import PhxPaxos.Progress.Handlers
import PhxPaxos.Timers.Runs

/-!
# A majority can always go on

From every state of the group, a proposer that works and a majority of its members that stand where it stands can come to a
decision by themselves (`Reachable.can_decide`). The proposer first begins with ballots above what it has promised
(`Sys.Quorum.raise`) and above what the others have (`Sys.Quorum.decides`); each time its timer begins a round, which ends in a
reject that tells of a higher promise. A round that nobody rejects collects a majority of promises (`Sys.Open.collect`), then of
votes (`Sys.Open.gather`). A node whose checksum contradicts that of the proposer stops at its Accept, so it counts as one that
does not stand there. A value within the last bytes below the limit is admitted but never arrives (`accept_refused`), so the
values of the round have to be `Transportable`; messages without a value always are.
-/

namespace PhxPaxos

variable {P : Params} {large : Bool} {G : Group} {x : Standpoint} {p q : NodeID} {Q K : Finset NodeID} {b : Nat} {v : Bytes}
  {s s' : Sys}

/-! ## Going on -/

/-- One more event of the run, at a node of `Q` and without a failing write: a timer fires, or a message arrives that a node
of `Q` has sent. `Communicate::Send` drops a message that is too large. -/
inductive Sys.Next (P : Params) (large : Bool) (Q : Finset NodeID) (s : Sys) : Sys → Prop
  | timeout {n : NodeID} (timerID : Nat) : n ∈ Q → Sys.Next P large Q s (s.step P ⟨n, .timeout timerID, {}⟩)
  | receive {n : NodeID} {gid : Nat} {msg : PaxosMsg} : n ∈ Q → msg.nodeID ∈ Q → Transportable large msg.value →
      inNetwork.May s.net n gid msg →
      Sys.Next P large Q s (s.step P ⟨n, .receive gid msg, {}⟩)

/-- The nodes of `Q` can go on by themselves from the one state to the other. -/
abbrev Sys.GoesOn (P : Params) (large : Bool) (Q : Finset NodeID) : Sys → Sys → Prop :=
  Relation.ReflTransGen (Sys.Next P large Q)

theorem Reachable.next (hs : Reachable P inNetwork G s) (h : s.Next P large Q s') : Reachable P inNetwork G s' := by
  cases h with
  | timeout timerID _ => exact .step _ hs nofun
  | receive _ _ _ hmay =>
    refine .step _ hs fun gid msg hk => ?_
    cases hk
    exact hmay

theorem Reachable.me (hs : Reachable P inNetwork G s) (n : NodeID) : (s.node n).config.myNodeID = n :=
  (hs.stepping.ready n).me

/-- A majority of the members, with the proposer `p`, takes part in its rounds; its value can be sent. -/
structure Sys.Quorum (large : Bool) (x : Standpoint) (p : NodeID) (Q : Finset NodeID) (s : Sys) : Prop where
  mem : p ∈ Q
  subset : Q ⊆ x.members
  majority : x.majority ≤ Q.card
  joins : ∀ q ∈ Q, (s.node q).Joins large x
  checksum : (s.node p).lastChecksum = x.lastChecksum
  value : Transportable large (s.node p).proposer.state.value

/-- None of them has promised more than the ballot `b` of the proposer. -/
structure Sys.Open (large : Bool) (x : Standpoint) (p : NodeID) (Q : Finset NodeID) (b : Nat) (s : Sys) : Prop
    extends Sys.Quorum large x p Q s where
  promise : ∀ q ∈ Q, q ≠ p → (s.node q).acceptor.promiseBallot ≤ ⟨b, p⟩

theorem Sys.Quorum.leads (h : s.Quorum large x p Q) (hs : Reachable P inNetwork G s) : (s.proc p {}).Leads large x p where
  me := hs.me p
  joins := h.joins p h.mem
  checksum := h.checksum
  member := h.subset h.mem
  value := h.value
  puts := rfl

/-- A message that arrives at a node that takes part is handled. -/
theorem handle_receive {w : Proc} (h : w.node.Joins large x) (msg : PaxosMsg) :
    handle P (.receive x.gid msg) w = (onReceivePaxosMsgBody P (selfAt P 5) msg false (leaveRetry w)).1 := by
  unfold handle
  simp only []
  rw [if_neg (by rw [h.up]; simp)]
  unfold onReceive
  rw [if_neg (by exact fun hask => Bool.noConfusion (hask.symm.trans h.listens)), if_neg ?_]
  · rfl
  · exact fun hne => hne.2.2 h.getGid

/-- Where the event happened the node is what its handler made of it, and elsewhere nothing changed. -/
theorem Sys.step_node_self (s : Sys) (n : NodeID) (kind : EventKind) :
    (s.step P ⟨n, kind, {}⟩).node n = (handle P kind (s.proc n {})).node :=
  Function.update_self ..

theorem Sys.step_node_ne (s : Sys) {n k : NodeID} (kind : EventKind) (hk : k ≠ n) :
    (s.step P ⟨n, kind, {}⟩).node k = s.node k :=
  Function.update_of_ne hk ..

/-- A quorum stays one when a node other than the proposer handles an event and goes on taking part. -/
theorem Sys.Quorum.other (h : s.Quorum large x p Q) (hne : q ≠ p) {kind : EventKind}
    (hjoins : (handle P kind (s.proc q {})).node.Joins large x) : (s.step P ⟨q, kind, {}⟩).Quorum large x p Q := by
  have hp : (s.step P ⟨q, kind, {}⟩).node p = s.node p := s.step_node_ne kind (Ne.symm hne)
  refine { h with
    joins := fun k hk => ?_
    checksum := by rw [hp]; exact h.checksum
    value := by rw [hp]; exact h.value }
  by_cases hkq : k = q
  · subst hkq
    rw [Sys.step_node_self]
    exact hjoins
  · rw [Sys.step_node_ne _ _ hkq]
    exact h.joins k hk

theorem Sys.Open.other (h : s.Open large x p Q b) (hne : q ≠ p) {kind : EventKind}
    (hjoins : (handle P kind (s.proc q {})).node.Joins large x)
    (hpromise : (handle P kind (s.proc q {})).node.acceptor.promiseBallot ≤ ⟨b, p⟩) :
    (s.step P ⟨q, kind, {}⟩).Open large x p Q b := by
  refine ⟨h.toQuorum.other hne hjoins, fun k hk hkp => ?_⟩
  by_cases hkq : k = q
  · subst hkq
    rw [Sys.step_node_self]
    exact hpromise
  · rw [Sys.step_node_ne _ _ hkq]
    exact h.promise k hk hkp

/-- A quorum stays one when the proposer handles an event and still stands there. -/
theorem Sys.Quorum.own (h : s.Quorum large x p Q) {kind : EventKind} (hleads : (handle P kind (s.proc p {})).Leads large x p) :
    (s.step P ⟨p, kind, {}⟩).Quorum large x p Q := by
  refine { h with
    joins := fun k hk => ?_
    checksum := by rw [Sys.step_node_self]; exact hleads.checksum
    value := by rw [Sys.step_node_self]; exact hleads.value }
  by_cases hkp : k = p
  · subst hkp
    rw [Sys.step_node_self]
    exact hleads.joins
  · rw [Sys.step_node_ne _ _ hkp]
    exact h.joins k hk

theorem Sys.Open.own (h : s.Open large x p Q b) {kind : EventKind} (hleads : (handle P kind (s.proc p {})).Leads large x p) :
    (s.step P ⟨p, kind, {}⟩).Open large x p Q b := by
  refine ⟨h.toQuorum.own hleads, fun k hk hkp => ?_⟩
  rw [Sys.step_node_ne _ _ hkp]
  exact h.promise k hk hkp

/-- The history and the network only grow. -/
theorem Reachable.next_subset (hs : Reachable P inNetwork G s) (h : s.Next P large Q s') :
    s.hist ⊆ s'.hist ∧ s.net ⊆ s'.net := by
  obtain ⟨n, kind, hcan, rfl⟩ : ∃ n kind, (⟨n, kind, {}⟩ : Event).CanHappen inNetwork s ∧
      s' = s.step P ⟨n, kind, {}⟩ := by
    cases h with
    | timeout timerID _ => exact ⟨_, _, (fun _ _ hk => by cases hk), rfl⟩
    | receive _ _ _ hmay =>
      refine ⟨_, _, fun gid msg hk => ?_, rfl⟩
      cases hk
      exact hmay
  have hready := hs.stepping.ready n
  have hacts : Relation.ReflTransGen (Act P (inNetwork.Can s.net n) n) ((s.proc n {}).loc none)
      ((handle P kind (s.proc n {})).loc none) :=
    handle_acts (w := s.proc n {}) hready.me (fun gid msg hk => ⟨gid, hcan gid msg hk⟩) hready.retryQueue hready.commit
  suffices hgrow : ∀ {l}, Relation.ReflTransGen (Act P (inNetwork.Can s.net n) n) ((s.proc n {}).loc none) l →
      s.hist ⊆ l.hist ∧ s.net ⊆ l.net from hgrow hacts
  intro l hl
  induction hl with
  | refl => exact ⟨List.Subset.refl _, List.Subset.refl _⟩
  | tail _ hact ih =>
    exact ⟨List.Subset.trans ih.1 hact.hist_suffix.subset, List.Subset.trans ih.2 hact.net_suffix.subset⟩

theorem Reachable.goesOn (hs : Reachable P inNetwork G s) (h : s.GoesOn P large Q s') : Reachable P inNetwork G s' := by
  induction h with
  | refl => exact hs
  | tail _ hnext ih => exact ih.next hnext

/-! ## The other nodes of the quorum -/

/-- A Prepare or Accept of the proposer reaches the acceptor of a node that takes part. -/
theorem Sys.handle_acceptor (msg : PaxosMsg) (hjoins : (s.node q).Joins large x)
    (ht : msg.msgType = .paxosPrepare ∨ msg.msgType = .paxosAccept) (hi : msg.instanceID = x.instanceID)
    (hp : msg.nodeID ∈ x.members) (hc : msg.lastChecksum = 0 ∨ msg.lastChecksum = x.lastChecksum) :
    ∃ w : Proc, w.node.Joins large x ∧ w.me = (s.node q).config.myNodeID ∧ w.node.acceptor = (s.node q).acceptor ∧
      w.env.puts = [] ∧ handle P (.receive x.gid msg) (s.proc q {}) = (w.callAcceptor P (selfAt P 5) msg).1 := by
  have hleave : (leaveRetry (s.proc q {})).node.Joins large x := { hjoins with }
  obtain ⟨c, hc', hbody⟩ := body_acceptor (P := P) (selfAt P 5) msg hleave ht hi hp hc
  have hkept := hleave.withChecksum hc'
  refine ⟨{ leaveRetry (s.proc q {}) with node.lastChecksum := c }, hkept, rfl, rfl, rfl, ?_⟩
  have hreceive := handle_receive (P := P) (w := s.proc q {}) hjoins msg
  rw [hreceive, hbody]

theorem sendMessage_other {self : Self} {w : Proc} {dst : NodeID} (hne : dst ≠ w.me) (msg : PaxosMsg) :
    w.sendMessage self dst msg = w.emit {dst} msg :=
  if_neg hne

/-- What another node of the quorum answers has been sent to the proposer. -/
structure Sys.Answers (P : Params) (large : Bool) (x : Standpoint) (p : NodeID) (Q : Finset NodeID) (b : Nat) (msg : PaxosMsg)
    (s s' : Sys) : Prop where
  next : s.Next P large Q s'
  isOpen : s'.Open large x p Q b
  proposer : s'.node p = s.node p
  sent : ⟨{p}, x.gid, msg⟩ ∈ s'.net

/-- A node that has voted answers, and goes on taking part. -/
theorem Sys.Open.answer (h : s.Open large x p Q b) (hq : q ∈ Q) (hne : q ≠ p) {msg reply : PaxosMsg}
    (hsent : ⟨x.members.erase p, x.gid, msg⟩ ∈ s.net) (hp : msg.nodeID = p) (hmsg : Transportable large msg.value)
    {w w' : Proc} (hjoins : w.node.Joins large x) (hvote : w.Votes ⟨b, p⟩ v w') (hv : Transportable large v)
    (hhandle : handle P (.receive x.gid msg) (s.proc q {}) = w'.emit {p} reply) :
    s.Answers P large x p Q b reply (s.step P ⟨q, .receive x.gid msg, {}⟩) := by
  have hjoins' : w'.node.Joins large x := hjoins.vote hv hvote
  obtain ⟨⟨a, storage, ha, -, hnode⟩, -, -, -⟩ := hvote
  constructor
  · exact .receive hq (hp ▸ h.mem) hmsg ⟨_, hsent, Finset.mem_erase.mpr ⟨hne, h.subset hq⟩, rfl, rfl⟩
  · refine h.other hne ?_ ?_
    · rw [hhandle]
      exact { hjoins' with }
    · rw [hhandle]
      have hle : w'.node.acceptor.promiseBallot ≤ ⟨b, p⟩ := by
        rw [hnode]
        exact ha.le
      exact hle
  · exact s.step_node_ne _ (Ne.symm hne)
  · have hmem : ⟨{p}, x.gid, reply⟩ ∈ (handle P (.receive x.gid msg) (s.proc q {})).net := by
      rw [hhandle, ← hjoins'.getGid]
      exact List.mem_cons_self
    exact hmem

/-- Another node of the quorum promises. -/
theorem Sys.Open.answerPrepare (h : s.Open large x p Q b) (hs : Reachable P inNetwork G s) (hq : q ∈ Q) (hne : q ≠ p)
    (hsent : ⟨x.members.erase p, x.gid, prepareMsg p x.instanceID b⟩ ∈ s.net) :
    ∃ s' a, s.Answers P large x p Q b (promiseMsg q x.instanceID b a) s' ∧ Transportable large a.acceptedValue := by
  obtain ⟨w, hjoins, hme, hacc, hputs, hhandle⟩ := Sys.handle_acceptor (P := P)
    (prepareMsg p x.instanceID b) (h.joins q hq) (Or.inl rfl) rfl (h.subset h.mem) (Or.inl rfl)
  have hme : w.me = q := hme.trans (hs.me q)
  have hpromise : w.node.acceptor.promiseBallot ≤ (prepareMsg p x.instanceID b).ballot := by
    rw [hacc]
    exact h.promise q hq hne
  obtain ⟨w₁, hvote, hprepare⟩ := onPrepare_promise (P := P) (selfAt P 5) (prepareMsg p x.instanceID b) hputs hpromise
  unfold Proc.callAcceptor at hhandle
  rw [if_pos (by rfl), hprepare, sendMessage_other (by exact fun he => hne (hme.symm.trans (hvote.me.symm.trans he.symm)))]
    at hhandle
  rw [hme, hjoins.instanceID] at hhandle
  have hv := hjoins.accepted
  exact ⟨_, _, h.answer hq hne hsent rfl transportable_nil hjoins hvote hv hhandle, hv⟩

/-- Another node of the quorum accepts. -/
theorem Sys.Open.answerAccept (h : s.Open large x p Q b) (hs : Reachable P inNetwork G s) (hq : q ∈ Q) (hne : q ≠ p)
    (hsent : ⟨x.members.erase p, x.gid, acceptMsg p x.instanceID b v x.lastChecksum⟩ ∈ s.net)
    (hv : Transportable large v) :
    ∃ s', s.Answers P large x p Q b (replyMsg q .paxosAcceptReply x.instanceID b 0) s' ∧
      .accepted q x.instanceID ⟨b, p⟩ v ∈ s'.hist := by
  obtain ⟨w, hjoins, hme, hacc, hputs, hhandle⟩ := Sys.handle_acceptor (P := P)
    (acceptMsg p x.instanceID b v x.lastChecksum) (h.joins q hq) (Or.inr rfl) rfl (h.subset h.mem) (Or.inr rfl)
  have hme : w.me = q := hme.trans (hs.me q)
  have hpromise : w.node.acceptor.promiseBallot ≤ (acceptMsg p x.instanceID b v x.lastChecksum).ballot := by
    rw [hacc]
    exact h.promise q hq hne
  obtain ⟨w₁, hvote, -, -, hmem, haccept⟩ := onAccept_accept (P := P) (selfAt P 5)
    (acceptMsg p x.instanceID b v x.lastChecksum) hputs hpromise
  unfold Proc.callAcceptor at hhandle
  rw [if_neg (by exact nofun), haccept,
    sendMessage_other (by exact fun he => hne (hme.symm.trans (hvote.me.symm.trans he.symm)))] at hhandle
  rw [hme, hjoins.instanceID] at hhandle hmem
  refine ⟨_, h.answer hq hne hsent rfl hv hjoins hvote hv hhandle, ?_⟩
  have hhist : .accepted q x.instanceID ⟨b, p⟩ v ∈
      (handle P (.receive x.gid (acceptMsg p x.instanceID b v x.lastChecksum)) (s.proc q {})).hist := by
    rw [hhandle]
    exact hmem
  exact hhist

/-- Another node of the quorum, which has promised more, rejects. -/
theorem Sys.Quorum.answerReject (h : s.Quorum large x p Q) (hs : Reachable P inNetwork G s) (hq : q ∈ Q) (hne : q ≠ p)
    (hsent : ⟨x.members.erase p, x.gid, prepareMsg p x.instanceID b⟩ ∈ s.net)
    (hpromise : ⟨b, p⟩ < (s.node q).acceptor.promiseBallot) :
    ∃ s', s.Next P large Q s' ∧ s'.Quorum large x p Q ∧ (∀ k, (s'.node k).acceptor = (s.node k).acceptor) ∧
      s'.node p = s.node p ∧
      ⟨{p}, x.gid, replyMsg q .paxosPrepareReply x.instanceID b (s.node q).acceptor.promiseBallot.proposalID⟩ ∈ s'.net := by
  obtain ⟨w, hjoins, hme, hacc, hputs, hhandle⟩ := Sys.handle_acceptor (P := P)
    (prepareMsg p x.instanceID b) (h.joins q hq) (Or.inl rfl) rfl (h.subset h.mem) (Or.inl rfl)
  have hme : w.me = q := hme.trans (hs.me q)
  have hreject := onPrepare_reject (P := P) (selfAt P 5) (prepareMsg p x.instanceID b) (w := w)
    (by rw [hacc]; exact hpromise)
  unfold Proc.callAcceptor at hhandle
  rw [if_pos (by rfl), hreject, sendMessage_other (by exact fun he => hne (hme.symm.trans he.symm))] at hhandle
  rw [hme, hjoins.instanceID, hacc] at hhandle
  have hkept : (handle P (.receive x.gid (prepareMsg p x.instanceID b)) (s.proc q {})).node = w.node := by
    rw [hhandle]
    rfl
  have hnext : s.Next P large Q (s.step P ⟨q, .receive x.gid (prepareMsg p x.instanceID b), {}⟩) :=
    .receive hq h.mem transportable_nil ⟨_, hsent, Finset.mem_erase.mpr ⟨hne, h.subset hq⟩, rfl, rfl⟩
  refine ⟨_, hnext, h.other hne ?_, ?_, s.step_node_ne _ (Ne.symm hne), ?_⟩
  · rw [hkept]
    exact hjoins
  · intro k
    by_cases hkq : k = q
    · subst hkq
      rw [Sys.step_node_self, hkept]
      exact hacc
    · rw [Sys.step_node_ne _ _ hkq]
  · have hmem : ⟨{p}, x.gid, replyMsg q .paxosPrepareReply x.instanceID b (s.node q).acceptor.promiseBallot.proposalID⟩ ∈
        (handle P (.receive x.gid (prepareMsg p x.instanceID b)) (s.proc q {})).net := by
      rw [hhandle, ← hjoins.getGid]
      exact List.mem_cons_self
    exact hmem

/-! ## The rounds of the proposer -/

/-- The accept phase comes to its end. -/
theorem Sys.Open.gather (hb : b ≠ 0) (n : Nat) : ∀ {s : Sys} {K : Finset NodeID}, Reachable P inNetwork G s →
    s.Open large x p Q b → (s.proc p {}).Gathers large x p b v K → p ∈ K → K.card < x.majority →
    x.majority ≤ K.card + n → ∃ s', s.GoesOn P large Q s' ∧ Decided x p s'.hist := by
  induction n with
  | zero => exact fun _ _ _ _ hfew hn => absurd hn (not_le.mpr hfew)
  | succ n ih =>
    intro s K hs h hgathers hpK hfew hn
    obtain ⟨q, hq, hqK⟩ := Finset.exists_mem_notMem_of_card_lt_card (hfew.trans_le h.majority)
    have hne : q ≠ p := fun he => hqK (he ▸ hpK)
    obtain ⟨s₁, ⟨hnext, hopen, hproposer, hsent⟩, hacc⟩ := h.answerAccept hs hq hne hgathers.sent
      (hgathers.acceptedValue ▸ hgathers.joins.accepted)
    have hs₁ := hs.next hnext
    have hgrow := hs.next_subset hnext
    have hgathers₁ : (leaveRetry (s₁.proc p {})).Gathers large x p b v K := by
      have hg : (s₁.proc p {}).Gathers large x p b v K := hgathers.of_node hproposer rfl hgrow.1 hgrow.2
      exact { hg with joins := { hg.joins with } }
    have hvoting := hgathers₁.vote (P := P) hb (h.subset hq) hacc 4
    rw [← handle_receive (hopen.joins p h.mem)] at hvoting
    have hnext₁ : s₁.Next P large Q (s₁.step P ⟨p, .receive x.gid (replyMsg q .paxosAcceptReply x.instanceID b 0), {}⟩) :=
      .receive h.mem hq transportable_nil ⟨_, hsent, Finset.mem_singleton_self p, rfl, rfl⟩
    rcases hvoting with ⟨hfew₁, hg⟩ | hdecided
    · have hg₂ : ((s₁.step P ⟨p, .receive x.gid (replyMsg q .paxosAcceptReply x.instanceID b 0), {}⟩).proc p {}).Gathers
          large x p b v (insert q K) :=
        hg.of_node (s₁.step_node_self p _) rfl (List.Subset.refl _) (List.Subset.refl _)
      have hcard : (insert q K).card = K.card + 1 := Finset.card_insert_of_notMem hqK
      obtain ⟨s', hgoes, hdecided⟩ := ih (hs₁.next hnext₁) (hopen.own hg.toLeads) hg₂ (Finset.mem_insert_of_mem hpK)
        hfew₁ (by omega)
      exact ⟨s', .head hnext (.head hnext₁ hgoes), hdecided⟩
    · exact ⟨_, .head hnext (.single hnext₁), hdecided⟩

/-- The accept phase that has just begun comes to its end. -/
theorem Sys.Open.voting (h : s.Open large x p Q b) (hs : Reachable P inNetwork G s) (hb : b ≠ 0)
    (hvoting : (s.proc p {}).Voting large x p b v {p}) : ∃ s', s.GoesOn P large Q s' ∧ Decided x p s'.hist := by
  rcases hvoting with ⟨hfew, hg⟩ | hdecided
  · exact Sys.Open.gather hb x.majority hs h hg (Finset.mem_singleton_self p) hfew (Nat.le_add_left _ _)
  · exact ⟨s, .refl, hdecided⟩

/-- The proposer sees its own event as it will handle the next. -/
theorem Proc.Voting.of_node {w w' : Proc} (h : w.Voting large x p b v K) (hnode : w'.node = w.node) (hputs : w'.env.puts = [])
    (hhist : w.hist ⊆ w'.hist) (hnet : w.net ⊆ w'.net) : w'.Voting large x p b v K :=
  h.imp (fun hg => ⟨hg.1, hg.2.of_node hnode hputs hhist hnet⟩) (Decided.mono hhist)

theorem Sys.step_voting {kind : EventKind} (h : (handle P kind (s.proc p {})).Voting large x p b v K) :
    ((s.step P ⟨p, kind, {}⟩).proc p {}).Voting large x p b v K :=
  h.of_node (s.step_node_self p kind) rfl (List.Subset.refl _) (List.Subset.refl _)

/-- The prepare phase comes to its end, and the accept phase after it. -/
theorem Sys.Open.collect (hb : b ≠ 0) (n : Nat) : ∀ {s : Sys} {K : Finset NodeID}, Reachable P inNetwork G s →
    s.Open large x p Q b → (s.proc p {}).Collects large x p b K →
    ⟨x.members.erase p, x.gid, prepareMsg p x.instanceID b⟩ ∈ s.net → p ∈ K → K.card < x.majority →
    x.majority ≤ K.card + n → ∃ s', s.GoesOn P large Q s' ∧ Decided x p s'.hist := by
  induction n with
  | zero => exact fun _ _ _ _ _ hfew hn => absurd hn (not_le.mpr hfew)
  | succ n ih =>
    intro s K hs h hcollects hsent hpK hfew hn
    obtain ⟨q, hq, hqK⟩ := Finset.exists_mem_notMem_of_card_lt_card (hfew.trans_le h.majority)
    have hne : q ≠ p := fun he => hqK (he ▸ hpK)
    obtain ⟨s₁, a, ⟨hnext, hopen, hproposer, hreply⟩, hv⟩ := h.answerPrepare hs hq hne hsent
    have hs₁ := hs.next hnext
    have hgrow := hs.next_subset hnext
    have hcollects₁ : (leaveRetry (s₁.proc p {})).Collects large x p b K := by
      have hc : (s₁.proc p {}).Collects large x p b K := hcollects.of_node hproposer rfl
      exact { hc with joins := { hc.joins with } }
    have hproposing := hcollects₁.promised (P := P) hb (h.subset hq) hv 2
    rw [← handle_receive (hopen.joins p h.mem)] at hproposing
    have hnext₁ : s₁.Next P large Q (s₁.step P ⟨p, .receive x.gid (promiseMsg q x.instanceID b a), {}⟩) :=
      .receive h.mem hq (promiseMsg_transportable hv q x.instanceID b) ⟨_, hreply, Finset.mem_singleton_self p, rfl, rfl⟩
    have hs₂ := hs₁.next hnext₁
    have hcard : (insert q K).card = K.card + 1 := Finset.card_insert_of_notMem hqK
    rcases hproposing with ⟨hfew₁, hc⟩ | ⟨-, v, hvoting⟩
    · have hc₂ : ((s₁.step P ⟨p, .receive x.gid (promiseMsg q x.instanceID b a), {}⟩).proc p {}).Collects large x p b
          (insert q K) := hc.of_node (s₁.step_node_self p _) rfl
      have hsent₂ := (hs₁.next_subset hnext₁).2 (hgrow.2 hsent)
      obtain ⟨s', hgoes, hdecided⟩ := ih hs₂ (hopen.own hc.toLeads) hc₂ hsent₂ (Finset.mem_insert_of_mem hpK) hfew₁
        (by omega)
      exact ⟨s', .head hnext (.head hnext₁ hgoes), hdecided⟩
    · rcases hvoting with hg | hdecided
      · obtain ⟨s', hgoes, hdecided⟩ := (hopen.own hg.2.toLeads).voting hs₂ hb (Sys.step_voting (Or.inl hg))
        exact ⟨s', .head hnext (.head hnext₁ hgoes), hdecided⟩
      · exact ⟨_, .head hnext (.single hnext₁), hdecided⟩

/-- `Proposer::IsWorking` -/
def Proposer.isWorking (p : Proposer) : Bool := p.isPreparing || p.isAccepting

/-- A timer that is armed is found. -/
theorem Gear.Good.lookup {g : Gear} (hg : g.Good) {timerID : Nat} {type : TimerType} (h : (timerID, type) ∈ g.timers) :
    g.timers.lookup timerID = some type := by
  obtain ⟨l, r, heq⟩ := List.append_of_mem h
  refine List.lookup_eq_some_iff.mpr ⟨l, r, heq, fun t ht => ?_⟩
  have hnodup := hg.nodup
  rw [heq, List.map_append, List.map_cons] at hnodup
  have hdisjoint := (List.nodup_append.mp hnodup).2.2
  have hne : t.1 ≠ timerID := hdisjoint _ (List.mem_map_of_mem ht) _ List.mem_cons_self
  simpa using Ne.symm hne

/-- A proposer that works has a timer, which begins the next prepare phase when it fires. -/
theorem Reachable.timer (hs : Reachable P inNetwork G s) (hleads : (s.proc p {}).Leads large x p)
    (hwork : (s.node p).proposer.isWorking = true) :
    ∃ timerID w, w.Leads large x p ∧ w.node.nextID = (s.node p).nextID ∧ w.node.acceptor = (s.node p).acceptor ∧
      handle P (.timeout timerID) (s.proc p {}) =
        PhxPaxos.prepare (selfAt P 5) w.node.proposer.wasRejectBySomeone w := by
  have hgood := hs.good p
  have hphase : (s.node p).gear.isPreparing = true ∨ (s.node p).gear.isAccepting = true :=
    (Bool.or_eq_true _ _).mp hwork
  have htimeout : (s.node p).instanceID = (s.node p).proposer.timeoutInstanceID := (hgood.timeout hphase).symm
  obtain ⟨timerID, type, hmem, htype⟩ : ∃ timerID type, (timerID, type) ∈ (s.node p).gear.timers ∧
      (type = .proposerPrepareTimeout ∨ type = .proposerAcceptTimeout) := by
    rcases hphase with h | h
    · exact ⟨_, _, (hgood.prepare _).mpr ⟨h, rfl⟩, Or.inl rfl⟩
    · exact ⟨_, _, (hgood.accept _).mpr ⟨h, rfl⟩, Or.inr rfl⟩
  have hlookup : (s.node p).ioLoop.timers.lookup timerID = some type := hgood.lookup hmem
  refine ⟨timerID, { leaveRetry (s.proc p {}) with
    node.ioLoop := (leaveRetry (s.proc p {})).node.ioLoop.removeTimer timerID }, ?_, rfl, rfl, ?_⟩
  · exact { hleads with joins := { hleads.joins with } }
  · have hfire : onTimeout P timerID (leaveRetry (s.proc p {})) = onProposerTimeout (toSelf P)
        { leaveRetry (s.proc p {}) with
          node.ioLoop := (leaveRetry (s.proc p {})).node.ioLoop.removeTimer timerID } := by
      unfold onTimeout
      rw [show (leaveRetry (s.proc p {})).node.ioLoop.timers.lookup timerID = some type from hlookup]
      rcases htype with rfl | rfl <;> rfl
    have hup : (s.proc p {}).node.stopped = false := hleads.joins.up
    unfold handle
    simp only []
    rw [if_neg (by rw [hup]; simp), hfire]
    unfold onProposerTimeout
    exact if_neg (by exact fun hne => hne htimeout)

/-- A round whose ballot no node of the quorum has promised to refuse ends with a decision. -/
theorem Sys.Open.round (h : s.Open large x p Q b) (hs : Reachable P inNetwork G s)
    (hwork : (s.node p).proposer.isWorking = true) (hb : (s.node p).nextID = b) (hpos : b ≠ 0)
    (hown : (s.node p).acceptor.promiseBallot ≤ ⟨b, p⟩) : ∃ s', s.GoesOn P large Q s' ∧ Decided x p s'.hist := by
  obtain ⟨timerID, w, hleads, hid, hacc, hhandle⟩ := hs.timer (h.leads hs) hwork
  have hbegun := hleads.prepare_begun (P := P) (hid.trans hb) hpos (by rw [hacc]; exact hown) 0
  rw [← hhandle] at hbegun
  have hnext : s.Next P large Q (s.step P ⟨p, .timeout timerID, {}⟩) := .timeout timerID h.mem
  have hs₁ := hs.next hnext
  rcases hbegun.proposing with ⟨hfew, hc⟩ | ⟨-, v, hg | hdecided⟩
  · obtain ⟨s', hgoes, hdecided⟩ := Sys.Open.collect hpos x.majority hs₁ (h.own hc.toLeads)
      (hc.of_node (s.step_node_self p _) rfl) (hbegun.sent hc) (Finset.mem_singleton_self p) hfew (Nat.le_add_left _ _)
    exact ⟨s', .head hnext hgoes, hdecided⟩
  · obtain ⟨s', hgoes, hdecided⟩ := (h.own hg.2.toLeads).voting hs₁ hpos (Sys.step_voting (Or.inl hg))
    exact ⟨s', .head hnext hgoes, hdecided⟩
  · exact ⟨_, .single hnext, hdecided⟩

/-! ## A ballot above all promises -/

/-- The proposal id of a node is never `0`. -/
theorem Stepping.proposalID_pos {D : Deliver} {s : Abs} (hs : Stepping P D G s) (n : NodeID) :
    1 ≤ (s.core n).proposer.proposalID := by
  refine hs.forall_loc (fun _ => True) (fun _ _ => trivial) (I := fun _ l => 1 ≤ l.core.proposer.proposalID) ?_ ?_ ?_
    trivial n
  · exact fun _ => le_rfl
  · intro s n l _ _ h hact
    have h := h n
    cases hact with
    | startPrepare => exact h.trans (le_nextRound _)
    | countPromise => exact h.trans_eq (addPreAcceptValue_proposalID _ _ _).symm
    | noteReject => exact h.trans_eq (setOtherProposalID_value _ _).2.symm
    | restart => exact Nat.le_add_left _ _
    | _ => exact h
  · exact fun _ _ h _ _ => h _

theorem Reachable.nextID_pos (hs : Reachable P inNetwork G s) (n : NodeID) : (s.node n).nextID ≠ 0 := by
  have hid : 1 ≤ (s.node n).proposer.state.proposalID := hs.stepping.proposalID_pos n
  have hle : (s.node n).proposer.state.proposalID ≤ (s.node n).nextID := le_nextRound ((s.node n).core none)
  omega

/-- After a reject the next ballot is above that of the round and above the promise that was told of. -/
theorem Proc.Rejected.lt_nextID {w : Proc} {r : Nat} (h : w.Rejected large x p b r) :
    b < w.node.nextID ∧ r < w.node.nextID := by
  have hnext : w.node.nextID =
      max w.node.proposer.state.proposalID w.node.proposer.state.highestOtherProposalID + 1 := by
    unfold Node.nextID Core.nextRound
    rw [if_pos (by exact h.rejected)]
    rfl
  have hid := h.proposalID
  have hother := h.other
  omega

theorem Proc.Rejected.isWorking {w : Proc} {r : Nat} (h : w.Rejected large x p b r) : w.node.proposer.isWorking = true :=
  (Bool.or_eq_true _ _).mpr (Or.inl h.preparing)

theorem BallotNumber.le_of_proposalID_lt {c : BallotNumber} (h : c.proposalID < b) : c ≤ ⟨b, p⟩ :=
  BallotNumber.le_iff.mpr (Or.inl h)

/-- A proposer whose own acceptor has promised more begins with a ballot above that. -/
theorem Sys.Quorum.raise (h : s.Quorum large x p Q) (hs : Reachable P inNetwork G s)
    (hwork : (s.node p).proposer.isWorking = true) :
    ∃ s', s.GoesOn P large Q s' ∧ s'.Quorum large x p Q ∧ (s'.node p).proposer.isWorking = true ∧
      (s'.node p).acceptor.promiseBallot ≤ ⟨(s'.node p).nextID, p⟩ := by
  by_cases hown : (s.node p).acceptor.promiseBallot ≤ ⟨(s.node p).nextID, p⟩
  · exact ⟨s, .refl, h, hwork, hown⟩
  · rw [not_le] at hown
    have hpos := hs.nextID_pos p
    have hid : (s.node p).nextID ≤ (s.node p).acceptor.promiseBallot.proposalID := BallotNumber.proposalID_le hown.le
    obtain ⟨timerID, w, hleads, hnextID, hacc, hhandle⟩ := hs.timer (h.leads hs) hwork
    obtain ⟨hrejected, hkept⟩ := hleads.prepare_rejected (P := P) hnextID (Nat.succ_pos _) (by rw [hacc]; exact hown)
      (by rw [hacc]; omega) 3
    rw [← hhandle] at hrejected hkept
    have hnode : (s.step P ⟨p, .timeout timerID, {}⟩).node p = (handle P (.timeout timerID) (s.proc p {})).node :=
      s.step_node_self p _
    refine ⟨_, .single (.timeout timerID h.mem), h.own hrejected.toLeads, ?_, ?_⟩
    · rw [hnode]
      exact hrejected.isWorking
    · rw [hnode, hkept]
      exact BallotNumber.le_of_proposalID_lt hrejected.lt_nextID.2

/-- A proposer finds out how much the other nodes of the quorum have promised, and decides with a ballot above that. -/
theorem Sys.Quorum.decides (h : s.Quorum large x p Q) (hs : Reachable P inNetwork G s)
    (hwork : (s.node p).proposer.isWorking = true)
    (hown : (s.node p).acceptor.promiseBallot ≤ ⟨(s.node p).nextID, p⟩) :
    ∃ s', s.GoesOn P large Q s' ∧ Decided x p s'.hist := by
  have hpos := hs.nextID_pos p
  by_cases hall : ∀ q ∈ Q, q ≠ p → (s.node q).acceptor.promiseBallot ≤ ⟨(s.node p).nextID, p⟩
  · exact Sys.Open.round ⟨h, hall⟩ hs hwork rfl hpos hown
  · push Not at hall
    obtain ⟨k, hk, hkp, hlt⟩ := hall
    -- the node that has promised the most
    obtain ⟨q, hq, hmax⟩ := Finset.exists_max_image (Q.erase p) (fun q => (s.node q).acceptor.promiseBallot)
      ⟨k, Finset.mem_erase.mpr ⟨hkp, hk⟩⟩
    obtain ⟨hqp, hqQ⟩ := Finset.mem_erase.mp hq
    have hqlt : ⟨(s.node p).nextID, p⟩ < (s.node q).acceptor.promiseBallot :=
      hlt.trans_le (hmax k (Finset.mem_erase.mpr ⟨hkp, hk⟩))
    have htwo : 1 < x.majority := by
      have hcard : 1 < x.members.card := Finset.one_lt_card.mpr ⟨p, h.subset h.mem, q, h.subset hqQ, Ne.symm hqp⟩
      have hmajority : x.majority = x.members.card / 2 + 1 := rfl
      omega
    -- a round that this node rejects
    obtain ⟨timerID, w, hleads, hid, hacc, hhandle⟩ := hs.timer (h.leads hs) hwork
    have hbegun := hleads.prepare_begun (P := P) hid hpos (by rw [hacc]; exact hown) 0
    rw [← hhandle] at hbegun
    obtain ⟨hfew, hc⟩ := hbegun.proposing.resolve_right fun hmany => absurd htwo (not_lt.mpr hmany.1)
    have hnext₁ : s.Next P large Q (s.step P ⟨p, .timeout timerID, {}⟩) := .timeout timerID h.mem
    have hs₁ := hs.next hnext₁
    have hother₁ (k : NodeID) (hk : k ≠ p) : (s.step P ⟨p, .timeout timerID, {}⟩).node k = s.node k := s.step_node_ne _ hk
    obtain ⟨s₂, hnext₂, hquorum₂, hacc₂, hproposer, hreply⟩ := (h.own hc.toLeads).answerReject hs₁ hqQ hqp
      (hbegun.sent hc) (by rw [hother₁ q hqp]; exact hqlt)
    rw [hother₁ q hqp] at hreply
    have hs₂ := hs₁.next hnext₂
    have hcollects : (leaveRetry (s₂.proc p {})).Collects large x p (s.node p).nextID {p} := by
      have hc₂ : (s₂.proc p {}).Collects large x p (s.node p).nextID {p} :=
        hc.of_node (hproposer.trans (s.step_node_self p _)) rfl
      exact { hc₂ with joins := { hc₂.joins with } }
    have hle : (s.node p).nextID ≤ (s.node q).acceptor.promiseBallot.proposalID := BallotNumber.proposalID_le hqlt.le
    obtain ⟨hrejected, hkept⟩ := hcollects.toLeads.rejected (P := P)
      (r := (s.node q).acceptor.promiseBallot.proposalID) (by omega) (h.subset hqQ) hcollects.preparing
      hcollects.proposalID (by rw [hcollects.counted]; exact hfew) (selfAt P 5)
    rw [← handle_receive (hquorum₂.joins p h.mem)] at hrejected hkept
    have hnext₃ : s₂.Next P large Q (s₂.step P ⟨p, .receive x.gid (replyMsg q .paxosPrepareReply x.instanceID
        (s.node p).nextID (s.node q).acceptor.promiseBallot.proposalID), {}⟩) :=
      .receive h.mem hqQ transportable_nil ⟨_, hreply, Finset.mem_singleton_self p, rfl, rfl⟩
    have hs₃ := hs₂.next hnext₃
    have hnode₃ := s₂.step_node_self (P := P) p (.receive x.gid (replyMsg q .paxosPrepareReply x.instanceID
      (s.node p).nextID (s.node q).acceptor.promiseBallot.proposalID))
    have hother₃ (k : NodeID) (hk : k ≠ p) := s₂.step_node_ne (P := P) (.receive x.gid (replyMsg q .paxosPrepareReply
      x.instanceID (s.node p).nextID (s.node q).acceptor.promiseBallot.proposalID)) hk
    -- the round after it
    obtain ⟨hid₃, hother⟩ := hrejected.lt_nextID
    rw [← hnode₃] at hid₃ hother hkept
    have hopen : Sys.Open large x p Q _ _ := ⟨hquorum₂.own hrejected.toLeads, fun k hk hkp => by
      rw [hother₃ k hkp, hacc₂, hother₁ k hkp]
      have hk := BallotNumber.proposalID_le (hmax k (Finset.mem_erase.mpr ⟨hkp, hk⟩))
      exact BallotNumber.le_of_proposalID_lt (hk.trans_lt hother)⟩
    have hown₃ := (BallotNumber.proposalID_le hcollects.promise).trans_lt hid₃
    obtain ⟨s', hgoes, hdecided⟩ := hopen.round hs₃ (by rw [hnode₃]; exact hrejected.isWorking) rfl (hs₃.nextID_pos p)
      (by rw [hkept]; exact BallotNumber.le_of_proposalID_lt hown₃)
    exact ⟨s', .head hnext₁ (.head hnext₂ (.head hnext₃ hgoes)), hdecided⟩

/-- **A majority can always go on**: in every state of the group, whatever was lost, promised, accepted and restarted before,
if the proposer of a node works and a majority of its members takes part, and if neither its value nor what they have accepted
is too large to be sent, then these nodes can go on by themselves, with timers that fire, messages among them that
`Communicate::Send` does not drop and no failing write, to a state in which a majority has accepted a value of this proposer
for the instance and the node has learned it. -/
theorem Reachable.can_decide (hs : Reachable P inNetwork G s) (hquorum : s.Quorum large (s.node p).standpoint p Q)
    (hwork : (s.node p).proposer.isWorking = true) :
    ∃ s', s.GoesOn P large Q s' ∧ Decided (s.node p).standpoint p s'.hist := by
  obtain ⟨s₁, hgoes, hquorum₁, hwork₁, hown⟩ := hquorum.raise hs hwork
  obtain ⟨s', hgoes', hdecided⟩ := hquorum₁.decides (hs.goesOn hgoes) hwork₁ hown
  exact ⟨s', hgoes.trans hgoes', hdecided⟩

/-- Nodes 1 and 3 propose, and node 2 has promised the ballot of node 3, which is above that of node 1. -/
def rivalRun : List Event := proposeEvents 1 0 [7] ++ proposeEvents 3 1 [8] ++ [deliver 2 (prepareMsg 3 0 1)]

theorem can_decide_rivalRun : ∃ s',
    (Sys.run .plain rivalRun (Sys.init .plain (.ofList [1, 2, 3]))).GoesOn .plain false {1, 2} s' ∧
    Decided ((Sys.run .plain rivalRun (Sys.init .plain (.ofList [1, 2, 3]))).node 1).standpoint 1 s'.hist := by
  apply Reachable.can_decide (G := .ofList [1, 2, 3])
  · exact .of_run .plain .init (by decide +kernel)
  · have hstands : ∀ q ∈ ({1, 2} : Finset NodeID),
        let n := (Sys.run .plain rivalRun (Sys.init .plain (.ofList [1, 2, 3]))).node q
        let n₁ := (Sys.run .plain rivalRun (Sys.init .plain (.ofList [1, 2, 3]))).node 1
        n.stopped = false ∧ n.checkpointMgr.inAskforCheckpointMode = false ∧ n.config.isIMFollower = false ∧
          n.config.systemVSM = n₁.config.systemVSM ∧ n.instanceID = n₁.instanceID ∧ n₁.lastChecksum = 0 ∧
          n.acceptor.acceptedValue.length + 89 ≤ maxValueSize false := by
      decide +kernel
    constructor
    · decide
    · decide +kernel
    · decide +kernel
    · intro q hq
      obtain ⟨hup, hlistens, hvotes, hvsm, hi, hc, hsize⟩ := hstands q hq
      exact ⟨hup, hlistens, hvotes, hvsm, hi, Or.inl hc, transportable_iff.mpr hsize⟩
    · rfl
    · exact transportable_iff.mpr (by decide +kernel)
  · decide +kernel

end PhxPaxos
