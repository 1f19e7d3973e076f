import PhxPaxos.Invariants.Acceptor

/-!
# What messages tell

`Act.sent` lists the messages that a step sends. In a closed network every message that may arrive is backed by the
history (`Told`): a Prepare was broadcast, a reply reports a promise that was made, an Accept or a success message
belongs to an accept phase. On the way the values that are proposed, accepted and reported are found not to be empty
(`Sound`).
-/

namespace PhxPaxos

variable {P : Params} {G : Group}

/-! ## The messages of a step -/

/-- Node `n` sends the message to `d` in a step from `l` after which the history is `h`. -/
inductive Sent (can : PaxosMsg → Prop) (n : NodeID) (l : Loc) (h : List Obs) (d : NodeID) : PaxosMsg → Prop
  | own {dst msg} : Sendable n l dst msg →
      (d ∈ dst ∨ d = n ∧ msg.msgType ≠ .paxosPrepare ∧ msg.msgType ≠ .paxosAccept) → Sent can n l h d msg
  | prepare {i p S} : .prepare n i p S ∈ h → d = n → Sent can n l h d (prepareMsg n i p)
  | promise {p} :
      .promise n l.core.instanceID ⟨p, d⟩ l.core.acceptor.acceptedBallot l.core.acceptor.acceptedValue ∈ h →
      Sent can n l h d (promiseMsg n l.core.instanceID p l.core.acceptor)
  | reject {msg} (type : MsgType) : Src can l msg → (msg.msgType = .paxosPrepare ∨ msg.msgType = .paxosAccept) →
      type = .paxosPrepareReply ∨ type = .paxosAcceptReply → msg.ballot < l.core.acceptor.promiseBallot →
      Sent can n l h d (replyMsg n type l.core.instanceID msg.proposalID l.core.acceptor.promiseBallot.proposalID)
  | accepted {p v} : .accepted n l.core.instanceID ⟨p, d⟩ v ∈ h →
      Sent can n l h d (replyMsg n .paxosAcceptReply l.core.instanceID p 0)
  | accept {p v S} : .accept n l.core.instanceID p v S ∈ h → d = n ∨ d ∈ S →
      Sent can n l h d (acceptMsg n l.core.instanceID p v l.core.lastChecksum)
  | success {p S} : .success n l.core.instanceID p S l.core.lastChecksum ∈ h → d = n →
      Sent can n l h d (successMsg n l.core.instanceID p l.core.lastChecksum)
  | record {r flag} : l.core.records.lookup l.core.sendInstanceID = some r →
      l.core.sendInstanceID < l.core.instanceID →
      Sent can n l h d
        (learnValueMsg n l.core.sendInstanceID r.acceptedBallot r.acceptedValue l.core.sendChecksum flag)

theorem Sendable.nodeID {n : NodeID} {l : Loc} {dst : Finset NodeID} {msg : PaxosMsg} (h : Sendable n l dst msg) :
    msg.nodeID = n := by
  cases h with
  | plain _ _ hn => exact hn
  | _ => rfl

theorem Sendable.not_mem {n : NodeID} {l : Loc} {dst : Finset NodeID} {msg : PaxosMsg} (h : Sendable n l dst msg) :
    n ∉ dst := by
  cases h with
  | plain _ _ _ _ hn => exact hn
  | record _ _ hn => exact hn
  | transmit _ _ hn => exact hn
  | _ => exact Finset.notMem_erase _ _

theorem Sent.nodeID {can : PaxosMsg → Prop} {n d : NodeID} {l : Loc} {h : List Obs} {msg : PaxosMsg}
    (hs : Sent can n l h d msg) : msg.nodeID = n := by
  cases hs with
  | own h => exact h.nodeID
  | _ => rfl

/-- **The messages that a step sends**, to the network and to the node itself. -/
theorem Act.sent {can : PaxosMsg → Prop} {n : NodeID} {l l' : Loc} (h : Act P can n l l') :
    (∀ x ∈ l'.net, x ∈ l.net ∨ ∀ d ∈ x.dst, d ≠ n ∧ Sent can n l l'.hist d x.msg) ∧
      ∀ msg, l'.core.toSelf = some msg → l.core.toSelf = some msg ∨ Sent can n l l'.hist n msg := by
  -- one message to one node
  have hsend {c : Core} {hist : List Obs} {dst : NodeID} {msg : PaxosMsg} (hc : c.toSelf = none)
      (hsent : Sent can n l hist dst msg) :
      (∀ x ∈ (Loc.send n dst msg ⟨c, l.net, hist⟩).net, x ∈ l.net ∨ ∀ d ∈ x.dst, d ≠ n ∧ Sent can n l hist d x.msg) ∧
        ∀ m, (Loc.send n dst msg ⟨c, l.net, hist⟩).core.toSelf = some m →
          l.core.toSelf = some m ∨ Sent can n l hist n m := by
    constructor
    · intro x hx
      by_cases hd : dst = n
      · simp only [Loc.send, hd, if_true] at hx
        exact Or.inl hx
      · simp only [Loc.send, hd, if_false, List.mem_cons] at hx
        rcases hx with rfl | hx
        · right
          intro d hmem
          rw [Finset.mem_singleton.mp hmem]
          exact ⟨hd, hsent⟩
        · exact Or.inl hx
    · intro m hm
      by_cases hd : dst = n
      · simp only [Loc.send_core, hd, if_true, Option.some.injEq] at hm
        subst hd hm
        exact Or.inr hsent
      · simp only [Loc.send_core, hd, if_false, hc] at hm
        cases hm
  cases h with
  | sendTo hnone hdst hself =>
    rename_i dst msg
    by_cases hd : dst = n
    · obtain ⟨h₁, h₂, -, -, dst', hs⟩ := hself hd
      exact hsend hnone (.own hs (Or.inr ⟨hd, h₁, h₂⟩))
    · exact hsend hnone (.own (hdst hd) (Or.inl (Finset.mem_singleton_self _)))
  | emit hs =>
    refine ⟨?_, fun m hm => Or.inl hm⟩
    intro x hx
    rcases List.mem_cons.mp hx with rfl | hx
    · exact Or.inr fun d hd => ⟨fun heq => hs.not_mem (heq ▸ hd), .own hs (Or.inl hd)⟩
    · exact Or.inl hx
  | promise => exact hsend rfl (.promise List.mem_cons_self)
  | rejectPrepare hsrc ht _ hlt => exact hsend rfl (.reject _ hsrc (Or.inl ht) (Or.inl rfl) hlt)
  | accept => exact hsend rfl (.accepted (List.mem_cons_self))
  | rejectAccept hsrc ht _ hlt => exact hsend rfl (.reject _ hsrc (Or.inr ht) (Or.inr rfl) hlt)
  | startPrepare =>
    refine ⟨fun x hx => Or.inl hx, ?_⟩
    intro m hm
    cases hm
    exact Or.inr (.prepare List.mem_cons_self rfl)
  | startAccept =>
    constructor
    · intro x hx
      rcases List.mem_cons.mp hx with rfl | hx
      · refine Or.inr fun d hd => ⟨Finset.ne_of_mem_erase hd, ?_⟩
        exact .accept List.mem_cons_self (Or.inr (Finset.mem_of_mem_erase hd))
      · exact Or.inl hx
    · intro m hm
      cases hm
      exact Or.inr (.accept List.mem_cons_self (Or.inl rfl))
  | succeed =>
    refine ⟨fun x hx => Or.inl hx, ?_⟩
    intro m hm
    cases hm
    exact Or.inr (.success List.mem_cons_self rfl)
  | sendOne hnone hr hlt => exact hsend hnone (.record hr hlt)
  | dropSelf | promiseFail | acceptFail | countPromise | noteReject | countAccept | learnBySuccess | learnValue
  | learnValueFail | restart =>
    refine ⟨fun x hx => Or.inl hx, ?_⟩
    intro m hm
    cases hm
  | _ => exact ⟨fun x hx => Or.inl hx, fun m hm => Or.inl hm⟩

/-! ## What messages and observations tell -/

/-- What a message tells the node `n` where it arrives. -/
structure Told (G : Group) (h : List Obs) (n : NodeID) (msg : PaxosMsg) : Prop where
  prepare : msg.msgType = .paxosPrepare →
    n ∈ G.members ∧ ∃ S, .prepare msg.nodeID msg.instanceID msg.proposalID S ∈ h
  promise : msg.msgType = .paxosPrepareReply → msg.rejectByPromiseID = 0 →
    ∃ v, .promise msg.nodeID msg.instanceID ⟨msg.proposalID, n⟩ msg.preAcceptBallot v ∈ h ∧
      msg.value = if msg.preAcceptID > 0 then v else []
  accept : msg.msgType = .paxosAccept →
    n ∈ G.members ∧ ∃ S, .accept msg.nodeID msg.instanceID msg.proposalID msg.value S ∈ h
  accepted : msg.msgType = .paxosAcceptReply → msg.rejectByPromiseID = 0 →
    ∃ v, .accepted msg.nodeID msg.instanceID ⟨msg.proposalID, n⟩ v ∈ h
  success : msg.msgType = .learnerProposerSendSuccess →
    ∃ S checksum, .success msg.nodeID msg.instanceID msg.proposalID S checksum ∈ h

theorem Told.mono {h h' : List Obs} {n : NodeID} {msg : PaxosMsg} (ht : Told G h n msg) (hsub : h ⊆ h') :
    Told G h' n msg where
  prepare t := (ht.prepare t).imp_right fun ⟨S, hm⟩ => ⟨S, hsub hm⟩
  promise t r := (ht.promise t r).imp fun _ => And.imp_left fun hm => hsub hm
  accept t := (ht.accept t).imp_right fun ⟨S, hm⟩ => ⟨S, hsub hm⟩
  accepted t r := (ht.accepted t r).imp fun _ hm => hsub hm
  success t := (ht.success t).imp fun _ => Exists.imp fun _ hm => hsub hm

/-- What an observation presupposes. -/
def Obs.Backed (G : Group) (h : List Obs) : Obs → Prop
  | .prepare m _ p S => 1 ≤ p ∧ m ∈ G.members ∧ S = G.members
  | .accept m _ p v S => 1 ≤ p ∧ v ≠ [] ∧ m ∈ G.members ∧ S = G.members
  | .success _ _ _ S _ => S = G.members
  | .setAccepted m i b v => m ∈ G.members ∧ ∃ S, .accept b.nodeID i b.proposalID v S ∈ h
  | .accepted m i b v => .setAccepted m i b v ∈ h
  | .promise m i b acc v => m ∈ G.members ∧ (∃ S, .prepare b.nodeID i b.proposalID S ∈ h) ∧ (acc.proposalID ≠ 0 → v ≠ [])
  | _ => True

theorem Obs.Backed.mono {h h' : List Obs} (hsub : h ⊆ h') {o : Obs} (ho : o.Backed G h) : o.Backed G h' := by
  cases o with
  | setAccepted => exact ho.imp_right fun ⟨S, hm⟩ => ⟨S, hsub hm⟩
  | accepted => exact hsub ho
  | promise => exact ho.imp_right (And.imp_left fun ⟨S, hm⟩ => ⟨S, hsub hm⟩)
  | _ => exact ho

/-- Every observation is backed by those before it. -/
def AllBacked (G : Group) (h : List Obs) : Prop := ∀ o older, Past h o older → o.Backed G older

theorem AllBacked.cons {h : List Obs} {o : Obs} (hh : AllBacked G h) (ho : o.Backed G h) : AllBacked G (o :: h) :=
  fun _ _ hp => Past.forall_cons ho (hh _ _) hp

/-- Every observation is backed by those before it, and every message by the history. -/
structure Ledger (G : Group) (net : List Envelope) (h : List Obs) : Prop where
  past : AllBacked G h
  net : ∀ x ∈ net, ∀ d ∈ x.dst, d ≠ x.msg.nodeID ∧ Told G h d x.msg

theorem Ledger.obs {net : List Envelope} {h : List Obs} (hl : Ledger G net h) (o : Obs) (ho : o ∈ h) : o.Backed G h := by
  obtain ⟨older, hp⟩ := Past.exists_of_mem ho
  exact (hl.past o older hp).mono hp.suffix.subset

/-- The proposer of node `n` and its part of the history. -/
structure Steers (G : Group) (n : NodeID) (l : Loc) : Prop where
  members : l.core.members = G.members
  proposalID_pos : 1 ≤ l.core.proposer.proposalID
  prepare_le : ∀ {j p S}, .prepare n j p S ∈ l.hist → j ≤ l.core.instanceID ∧ p ≤ l.core.proposer.proposalID
  accept_le : ∀ {i p v S}, .accept n i p v S ∈ l.hist → i ≤ l.core.instanceID ∧ p ≤ l.core.proposer.proposalID
  /-- Only a member that is no follower has a value to propose. -/
  value : l.core.proposer.value ≠ [] → l.core.isIMFollower = false ∧ n ∈ G.members
  busy : l.core.isPreparing = true ∨ l.core.isAccepting = true → l.core.proposer.value ≠ []
  armed : l.core.armed = true → l.core.timeoutInstanceID = l.core.instanceID → l.core.proposer.value ≠ []
  timeout_le : l.core.timeoutInstanceID ≤ l.core.instanceID
  toSelf : ∀ msg, l.core.toSelf = some msg → msg.nodeID = n ∧ Told G l.hist n msg

/-- A message at hand is backed by the history, and only what a node sends to itself is its own. -/
theorem Steers.told {n : NodeID} {l : Loc} {msg : PaxosMsg} (hl : Ledger G l.net l.hist) (hs : Steers G n l)
    (hsrc : Src (inNetwork.Can l.net n) l msg) :
    Told G l.hist n msg ∧ (msg.nodeID = n → l.core.toSelf = some msg) := by
  rcases hsrc with ⟨-, gid, x, hx, hd, -, rfl⟩ | hself
  · exact ⟨(hl.net x hx n hd).2, fun heq => absurd heq.symm (hl.net x hx n hd).1⟩
  · exact ⟨(hs.toSelf msg hself).2, fun _ => hself⟩

/-! ## The steps of the proposer -/

theorem nextRound_value (c : Core) : c.nextRound.value = c.proposer.value := by
  unfold Core.nextRound
  split <;> rfl

theorem le_nextRound (c : Core) : c.proposer.proposalID ≤ c.nextRound.proposalID := by
  unfold Core.nextRound
  split
  · simp only [ProposerState.newPrepare, ProposerState.resetHighestOtherPreAcceptBallot]
    omega
  · exact le_rfl

/-- A nonempty report leaves a value that is not empty. -/
theorem addPreAcceptValue_ne_nil {p : ProposerState} {b : BallotNumber} {v : Bytes} (hp : p.value ≠ [])
    (hv : b.proposalID ≠ 0 → v ≠ []) : (p.addPreAcceptValue b v).value ≠ [] := by
  unfold ProposerState.addPreAcceptValue
  split
  · exact hp
  · rename_i hb
    split
    · exact hv (by simpa using hb)
    · exact hp

theorem setOtherProposalID_value (p : ProposerState) (i : Nat) :
    (p.setOtherProposalID i).value = p.value ∧ (p.setOtherProposalID i).proposalID = p.proposalID := by
  unfold ProposerState.setOtherProposalID
  split <;> exact ⟨rfl, rfl⟩

theorem addPreAcceptValue_proposalID (p : ProposerState) (b : BallotNumber) (v : Bytes) :
    (p.addPreAcceptValue b v).proposalID = p.proposalID := by
  unfold ProposerState.addPreAcceptValue
  split
  · rfl
  · split <;> rfl

/-! ## Every step keeps history and network backed -/

section Step

variable {n : NodeID} {l l' : Loc}

/-- An accepted value is not empty. -/
theorem Ledger.accepted_ne_nil (hl : Ledger G l.net l.hist) (hv : Votes n l)
    (hb : l.core.acceptor.acceptedBallot.proposalID ≠ 0) : l.core.acceptor.acceptedValue ≠ [] := by
  have hlast := hv.last
  cases hcase : lastAccepted n l.core.instanceID l.hist with
  | none =>
    rw [hcase, Option.getD_none, Prod.mk.injEq] at hlast
    exact absurd (by rw [hlast.1]) hb
  | some x =>
    rw [hcase, Option.getD_some] at hlast
    have hm : .setAccepted n l.core.instanceID x.1 x.2 ∈ l.hist := mem_of_lastAccepted hcase
    obtain ⟨-, S, haccept⟩ := hl.obs _ hm
    have hne : x.2 ≠ [] := (hl.obs _ haccept).2.1
    rwa [← hlast] at hne

/-- A node that is about to prepare has a value, so it is a member. -/
theorem Steers.value_of_start (hs : Steers G n l)
    (h : l.core.proposer.value ≠ [] ∨ l.core.armed = true ∧ l.core.timeoutInstanceID = l.core.instanceID) :
    l.core.proposer.value ≠ [] :=
  h.elim id fun ⟨ha, hi⟩ => hs.armed ha hi

theorem Steers.value_of_accept (hs : Steers G n l)
    (h : l.core.isPreparing = true ∧ l.core.Passed ∨
      l.core.canSkipPrepare = true ∧ l.core.wasRejectBySomeone = false ∧ l.core.proposer.value ≠ []) :
    l.core.proposer.value ≠ [] :=
  h.elim (fun h => hs.busy (Or.inl h.1)) fun h => h.2.2

theorem Ledger.act_past (hl : Ledger G l.net l.hist) (hs : Steers G n l) (hv : Votes n l)
    (hact : Act P (inNetwork.Can l.net n) n l l') (hsteady : Steady G l'.hist) : AllBacked G l'.hist := by
  cases hact with
  | promise hsrc ht hi _ =>
    obtain ⟨hmem, S, hprepare⟩ := (hs.told hl hsrc).1.prepare ht
    rw [hi] at hprepare
    refine (hl.past.cons ?_).cons ?_
    · trivial
    · exact ⟨hmem, ⟨S, List.mem_cons_of_mem _ hprepare⟩, hl.accepted_ne_nil hv⟩
  | accept hsrc ht hi _ =>
    obtain ⟨hmem, S, haccept⟩ := (hs.told hl hsrc).1.accept ht
    rw [hi] at haccept
    refine ((hl.past.cons ?_).cons ?_).cons ?_
    · exact ⟨hmem, S, haccept⟩
    · trivial
    · exact List.mem_cons_of_mem _ List.mem_cons_self
  | acceptFail hsrc ht hi _ =>
    obtain ⟨hmem, S, haccept⟩ := (hs.told hl hsrc).1.accept ht
    rw [hi] at haccept
    refine (hl.past.cons ?_).cons ?_
    · exact ⟨hmem, S, haccept⟩
    · trivial
  | startPrepare _ hstart =>
    refine hl.past.cons ?_
    exact ⟨hs.proposalID_pos.trans (le_nextRound _), (hs.value (hs.value_of_start hstart)).2, hs.members⟩
  | startAccept _ hstart =>
    have hne := hs.value_of_accept hstart
    refine hl.past.cons ?_
    exact ⟨hs.proposalID_pos, hne, (hs.value hne).2, hs.members⟩
  | succeed =>
    refine hl.past.cons ?_
    exact hs.members
  | advance =>
    refine (hl.past.cons ?_).cons ?_
    · trivial
    · trivial
  | restart _ _ _ hstart => exact absurd hstart.restart_mem (hsteady.noRestart n _ _)
  | restartFail _ hstart => exact absurd hstart.restart_mem (hsteady.noRestart n _ _)
  | promiseFail | newValue | countPromise | nextInstanceMsg | learnBySuccess | learnValue | executeFail
  | updateSystemVariables | checksumLogicFail | initSystemVariables | clearAllLog =>
    refine hl.past.cons ?_
    trivial
  | _ => exact hl.past

theorem Ledger.act_obs (hl : Ledger G l.net l.hist) (hs : Steers G n l) (hv : Votes n l)
    (hact : Act P (inNetwork.Can l.net n) n l l') (hsteady : Steady G l'.hist) :
    ∀ o ∈ l'.hist, o.Backed G l'.hist := by
  intro o ho
  obtain ⟨older, hp⟩ := Past.exists_of_mem ho
  exact (hl.act_past hs hv hact hsteady o older hp).mono hp.suffix.subset

/-- A message that is sent tells the truth. -/
theorem Sent.told {h : List Obs} {d : NodeID} {msg : PaxosMsg} (hl : Ledger G l.net l.hist) (hs : Steers G n l)
    (hsub : l.hist ⊆ h) (hh : ∀ o ∈ h, o.Backed G h) (hsent : Sent (inNetwork.Can l.net n) n l h d msg) :
    Told G h d msg := by
  cases hsent with
  | own hsendable hd =>
    cases hsendable with
    | plain ht => exact ⟨fun t => absurd t ht.1, fun t => absurd t ht.2.1, fun t => absurd t ht.2.2.1,
        fun t => absurd t ht.2.2.2.1, fun t => absurd t ht.2.2.2.2.2⟩
    | prepare hm =>
      refine ⟨fun _ => ⟨?_, _, hsub hm⟩, nofun, nofun, nofun, nofun⟩
      rw [← hs.members]
      exact Finset.mem_of_mem_erase (hd.resolve_right fun h => h.2.1 rfl)
    | success hm => exact ⟨nofun, nofun, nofun, nofun, fun _ => ⟨_, _, hsub hm⟩⟩
    | record => exact ⟨nofun, nofun, nofun, nofun, nofun⟩
    | transmit => exact ⟨nofun, nofun, nofun, nofun, nofun⟩
  | prepare hm hd =>
    subst hd
    exact ⟨fun _ => ⟨(hh _ hm).2.1, _, hm⟩, nofun, nofun, nofun, nofun⟩
  | promise hm => exact ⟨nofun, fun _ _ => ⟨_, hm, rfl⟩, nofun, nofun, nofun⟩
  | @reject m type hsrc ht htype hlt =>
    have htold := (hs.told hl hsrc).1
    have hpos : 1 ≤ m.proposalID := by
      rcases ht with ht | ht
      · obtain ⟨-, S, hm⟩ := htold.prepare ht
        exact (hl.obs _ hm).1
      · obtain ⟨-, S, hm⟩ := htold.accept ht
        exact (hl.obs _ hm).1
    have hr : l.core.acceptor.promiseBallot.proposalID ≠ 0 := by
      have := BallotNumber.proposalID_le hlt.le
      exact Nat.ne_of_gt (hpos.trans this)
    rcases htype with rfl | rfl
    · exact ⟨nofun, fun _ h0 => absurd h0 hr, nofun, nofun, nofun⟩
    · exact ⟨nofun, nofun, nofun, fun _ h0 => absurd h0 hr, nofun⟩
  | accepted hm => exact ⟨nofun, nofun, nofun, fun _ _ => ⟨_, hm⟩, nofun⟩
  | accept hm hd =>
    refine ⟨nofun, nofun, fun _ => ⟨?_, _, hm⟩, nofun, nofun⟩
    obtain ⟨-, -, hn, hS⟩ := hh _ hm
    rcases hd with rfl | hd
    · exact hn
    · rwa [← hS]
  | success hm => exact ⟨nofun, nofun, nofun, nofun, fun _ => ⟨_, _, hm⟩⟩
  | record => exact ⟨nofun, nofun, nofun, nofun, nofun⟩

theorem Ledger.act (hl : Ledger G l.net l.hist) (hs : Steers G n l) (hv : Votes n l)
    (hact : Act P (inNetwork.Can l.net n) n l l') (hsteady : Steady G l'.hist) : Ledger G l'.net l'.hist where
  past := hl.act_past hs hv hact hsteady
  net := by
    intro x hx d hd
    rcases hact.sent.1 x hx with hx | hx
    · exact (hl.net x hx d hd).imp_right fun ht => ht.mono hact.hist_suffix.subset
    · obtain ⟨hne, hsent⟩ := hx d hd
      exact ⟨by rwa [hsent.nodeID], hsent.told hl hs hact.hist_suffix.subset (hl.act_obs hs hv hact hsteady)⟩

/-! ## Every step keeps the proposer -/

theorem Steers.act_members (hs : Steers G n l) (hact : Act P (inNetwork.Can l.net n) n l l')
    (hsteady : Steady G l'.hist) : l'.core.members = G.members ∧ l'.core.isIMFollower = l.core.isIMFollower := by
  cases hact with
  | updateSystemVariables => exact ⟨hsteady.members _ _ _ List.mem_cons_self, rfl⟩
  | restart _ _ _ hstart => exact absurd hstart.restart_mem (hsteady.noRestart n _ _)
  | _ => exact ⟨hs.members, rfl⟩

/-- The proposal id only grows, within an instance and from one to the next. -/
theorem Act.proposalID_le {can : PaxosMsg → Prop} (hact : Act P can n l l') (hsteady : Steady G l'.hist) :
    l.core.proposer.proposalID ≤ l'.core.proposer.proposalID ∧ l.core.instanceID ≤ l'.core.instanceID := by
  cases hact with
  | startPrepare => exact ⟨le_nextRound _, le_rfl⟩
  | countPromise => exact ⟨(addPreAcceptValue_proposalID _ _ _).ge, le_rfl⟩
  | noteReject => exact ⟨(setOtherProposalID_value _ _).2.ge, le_rfl⟩
  | advance => exact ⟨le_rfl, Nat.le_succ _⟩
  | restart _ _ _ hstart => exact absurd hstart.restart_mem (hsteady.noRestart n _ _)
  | _ => exact ⟨le_rfl, le_rfl⟩

theorem Steers.act_le (hs : Steers G n l) (hact : Act P (inNetwork.Can l.net n) n l l') (hsteady : Steady G l'.hist) :
    (∀ {j p S}, .prepare n j p S ∈ l'.hist → j ≤ l'.core.instanceID ∧ p ≤ l'.core.proposer.proposalID) ∧
      ∀ {i p v S}, .accept n i p v S ∈ l'.hist → i ≤ l'.core.instanceID ∧ p ≤ l'.core.proposer.proposalID := by
  have hle := hact.proposalID_le hsteady
  have hprepare {j p S} (hm : .prepare n j p S ∈ l.hist) :
      j ≤ l'.core.instanceID ∧ p ≤ l'.core.proposer.proposalID :=
    ⟨(hs.prepare_le hm).1.trans hle.2, (hs.prepare_le hm).2.trans hle.1⟩
  have haccept {i p v S} (hm : .accept n i p v S ∈ l.hist) :
      i ≤ l'.core.instanceID ∧ p ≤ l'.core.proposer.proposalID :=
    ⟨(hs.accept_le hm).1.trans hle.2, (hs.accept_le hm).2.trans hle.1⟩
  cases hact with
  | startPrepare =>
    constructor
    · intro j p S hm
      rcases List.mem_cons.mp hm with heq | hm
      · cases heq
        exact ⟨le_rfl, le_rfl⟩
      · exact hprepare hm
    · exact fun hm => haccept (by simpa using hm)
  | startAccept =>
    constructor
    · exact fun hm => hprepare (by simpa using hm)
    · intro i p v S hm
      rcases List.mem_cons.mp hm with heq | hm
      · cases heq
        exact ⟨le_rfl, le_rfl⟩
      · exact haccept hm
  | restart _ _ _ hstart => exact absurd hstart.restart_mem (hsteady.noRestart n _ _)
  | restartFail _ hstart => exact absurd hstart.restart_mem (hsteady.noRestart n _ _)
  | _ => exact ⟨fun hm => hprepare (by simpa using hm), fun hm => haccept (by simpa using hm)⟩

/-- The value that a counted report leaves. -/
theorem Steers.value_of_countPromise (hl : Ledger G l.net l.hist) (hs : Steers G n l) {msg : PaxosMsg}
    (hsrc : Src (inNetwork.Can l.net n) l msg) (ht : msg.msgType = .paxosPrepareReply) (hr : msg.rejectByPromiseID = 0)
    (hp : l.core.isPreparing = true) :
    (l.core.proposer.addPreAcceptValue msg.preAcceptBallot msg.value).value ≠ [] := by
  obtain ⟨v, hm, hv⟩ := (hs.told hl hsrc).1.promise ht hr
  refine addPreAcceptValue_ne_nil (hs.busy (Or.inl hp)) ?_
  intro hne
  rw [hv, if_pos (Nat.pos_of_ne_zero (by exact hne))]
  exact (hl.obs _ hm).2.2 hne

theorem Steers.act_value (hl : Ledger G l.net l.hist) (hs : Steers G n l)
    (hact : Act P (inNetwork.Can l.net n) n l l') (hsteady : Steady G l'.hist) :
    (l'.core.proposer.value ≠ [] → l'.core.isIMFollower = false ∧ n ∈ G.members) ∧
      (l'.core.isPreparing = true ∨ l'.core.isAccepting = true → l'.core.proposer.value ≠ []) ∧
      (l'.core.armed = true → l'.core.timeoutInstanceID = l'.core.instanceID → l'.core.proposer.value ≠ []) ∧
      l'.core.timeoutInstanceID ≤ l'.core.instanceID := by
  cases hact with
  | @newValue v _ hf hn _ =>
    have hkeep (hne : l.core.proposer.value ≠ []) :
        (if l.core.proposer.value.length = 0 then v else l.core.proposer.value) ≠ [] := by
      rwa [if_neg fun h0 => hne (List.length_eq_zero_iff.mp h0)]
    refine ⟨fun _ => ⟨hf, by rwa [← hs.members]⟩, fun h => hkeep (hs.busy h), fun h₁ h₂ => hkeep (hs.armed h₁ h₂), ?_⟩
    exact hs.timeout_le
  | startPrepare _ hstart =>
    have hne : l.core.nextRound.value ≠ [] := by
      rw [nextRound_value]
      exact hs.value_of_start hstart
    exact ⟨fun _ => hs.value (hs.value_of_start hstart), fun _ => hne, fun _ _ => hne, le_rfl⟩
  | countPromise hsrc ht _ hp _ hr _ =>
    have hne := hs.value_of_countPromise hl hsrc ht hr hp
    exact ⟨fun _ => hs.value (hs.busy (Or.inl hp)), fun _ => hne, fun _ _ => hne, hs.timeout_le⟩
  | @noteReject msg =>
    have heq := (setOtherProposalID_value l.core.proposer msg.rejectByPromiseID).1
    refine ⟨fun h => hs.value (heq ▸ h), fun h => ?_, fun h₁ h₂ => ?_, hs.timeout_le⟩
    · exact heq.symm ▸ hs.busy h
    · exact heq.symm ▸ hs.armed h₁ h₂
  | startAccept _ hstart =>
    have hne := hs.value_of_accept hstart
    exact ⟨fun _ => hs.value hne, fun _ => hne, fun _ _ => hne, le_rfl⟩
  | succeed _ _ _ ha =>
    exact ⟨hs.value, fun h => hs.busy (h.imp_right nofun), fun h => hs.armed (ha h), hs.timeout_le⟩
  | disarm ha => exact ⟨hs.value, hs.busy, fun h => hs.armed (ha h), hs.timeout_le⟩
  | rearm hbusy => exact ⟨hs.value, hs.busy, fun _ _ => hs.busy hbusy, hs.timeout_le⟩
  | advance =>
    refine ⟨fun h => absurd rfl h, fun h => by simp at h, fun _ h => ?_, hs.timeout_le.trans (Nat.le_succ _)⟩
    exact absurd (h ▸ hs.timeout_le) (Nat.not_succ_le_self _)
  | commitTimeout _ ha =>
    exact ⟨hs.value, fun h => by simp at h, fun h => hs.armed (ha h), hs.timeout_le⟩
  | restart _ _ _ hstart => exact absurd hstart.restart_mem (hsteady.noRestart n _ _)
  | _ => exact ⟨hs.value, hs.busy, hs.armed, hs.timeout_le⟩

theorem Steers.act (hl : Ledger G l.net l.hist) (hs : Steers G n l) (hv : Votes n l)
    (hact : Act P (inNetwork.Can l.net n) n l l') (hsteady : Steady G l'.hist) : Steers G n l' where
  members := (hs.act_members hact hsteady).1
  proposalID_pos := hs.proposalID_pos.trans (hact.proposalID_le hsteady).1
  prepare_le := (hs.act_le hact hsteady).1
  accept_le := (hs.act_le hact hsteady).2
  value := (hs.act_value hl hact hsteady).1
  busy := (hs.act_value hl hact hsteady).2.1
  armed := (hs.act_value hl hact hsteady).2.2.1
  timeout_le := (hs.act_value hl hact hsteady).2.2.2
  toSelf := by
    intro msg hm
    rcases hact.sent.2 msg hm with hm | hsent
    · exact (hs.toSelf msg hm).imp_right fun ht => ht.mono hact.hist_suffix.subset
    · exact ⟨hsent.nodeID, hsent.told hl hs hact.hist_suffix.subset (hl.act_obs hs hv hact hsteady)⟩

/-- Steps of other nodes leave the proposer alone. -/
theorem Steers.other {k : NodeID} (hs : Steers G k l) {net : List Envelope} {obs : List Obs}
    (hobs : ∀ o ∈ obs, o.node ≠ k) : Steers G k ⟨l.core, net, obs ++ l.hist⟩ where
  members := hs.members
  proposalID_pos := hs.proposalID_pos
  prepare_le hm := hs.prepare_le ((List.mem_append.mp hm).resolve_left fun ho => hobs _ ho rfl)
  accept_le hm := hs.accept_le ((List.mem_append.mp hm).resolve_left fun ho => hobs _ ho rfl)
  value := hs.value
  busy := hs.busy
  armed := hs.armed
  timeout_le := hs.timeout_le
  toSelf msg hm := (hs.toSelf msg hm).imp_right fun ht => ht.mono (List.subset_append_right _ _)

end Step

/-- **A closed network tells the truth**, and proposers have values to propose. -/
theorem Stepping.sound {s : Abs} (hs : Stepping P inNetwork G s) (hsteady : Steady G s.hist) (n : NodeID) :
    Ledger G s.net s.hist ∧ Steers G n (s.loc n) := by
  refine hs.forall_loc (Steady G) Steady.suffix (I := fun n l => Ledger G l.net l.hist ∧ Steers G n l) ?_ ?_ ?_ hsteady n
  · intro n
    refine ⟨⟨fun _ _ hp => absurd hp Past.nil_iff, by simp [Group.abs, Abs.loc]⟩, ?_⟩
    refine ⟨?_, le_rfl, by simp [Group.abs, Abs.loc], by simp [Group.abs, Abs.loc], fun h => absurd rfl h,
      fun h => by simp [Group.abs, Abs.loc, Group.core] at h, fun h => absurd h Bool.false_ne_true, le_rfl,
      fun _ h => absurd h (by simp [Group.abs, Abs.loc, Group.core])⟩
    exact G.nodeInfoList n
  · intro s n l hs hg ih hact
    have hv := hs.votes (hg.suffix hact.hist_suffix) n
    exact ⟨(ih n).1.act (ih n).2 hv hact hg, (ih n).2.act (ih n).1 hv hact hg⟩
  · intro s n l k hs hg ih hact hk
    have hv := hs.votes (hg.suffix hact.hist_suffix) n
    have hl : Ledger G l.net l.hist := (ih n).1.act (ih n).2 hv hact hg
    obtain ⟨obs, hh, hobs⟩ := hact.obs
    refine ⟨hl, ?_⟩
    rw [hh]
    exact (ih k).2.other fun o ho => (hobs o ho).trans_ne hk.symm

end PhxPaxos
