import PhxPaxos.Safety.OneValue

/-!
# What is learned was chosen

A value is chosen in an instance when a majority of the members accepted it with one ballot (`Chosen`). A success message
is sent after such a majority was counted, and what is forwarded to learners is read from the log, where the record of a
past instance holds a chosen value (`Learns`). So everything learned was chosen (`learned_chosen`), but for two ways in
which a node may go wrong:

* it takes the ballot of a message of the next instance for that of a success message, although the sender kept the
  ballot while it learned the instance from others (`PassedBefore` excludes it);
* it overwrites the record of an instance it has learned, and could not execute, with a late Accept (`NotOverwritten`
  excludes it).
-/

namespace PhxPaxos

variable {P : Params} {G : Group}

/-! ## Conditions on a run -/

/-- Every write of the acceptor succeeded. -/
def PutsSucceed (h : List Obs) : Prop := ∀ n i v, .persist n i v false ∉ h

theorem PutsSucceed.of_all {h : List Obs} (hall : h.all (fun
    | .persist _ _ _ false => false
    | _ => true) = true) : PutsSucceed h :=
  fun _ _ _ hm => absurd (List.all_eq_true.mp hall _ hm) (by simp)

/-- When a message of the next instance comes with the ballot of the accepted pair, its sender has passed the accept
phase of this ballot in this instance. -/
def PassedBefore (h : List Obs) : Prop :=
  ∀ {n i b older}, Past h (.nextInstanceMsg n i b b) older →
    ∃ S checksum, .success b.nodeID i b.proposalID S checksum ∈ older

/-- What the acceptor writes for an instance that was learned is the learned value. -/
def NotOverwritten (h : List Obs) : Prop :=
  ∀ {n i v w how older}, Past h (.persist n i w true) older → .learn n i v how ∈ older → w = v

/-- The runs in which what is learned was chosen. -/
structure Regular (G : Group) (h : List Obs) : Prop where
  steady : Steady G h
  puts : PutsSucceed h
  ownPromiseFirst : OwnPromiseFirst h
  passedBefore : PassedBefore h
  notOverwritten : NotOverwritten h

theorem Regular.suffix {h h' : List Obs} (hsuf : h <:+ h') (hr : Regular G h') : Regular G h where
  steady := hr.steady.suffix hsuf
  puts n i v hm := hr.puts n i v (hsuf.subset hm)
  ownPromiseFirst := OwnPromiseFirst.suffix hsuf hr.ownPromiseFirst
  passedBefore hp := hr.passedBefore (hp.mono hsuf)
  notOverwritten hp := hr.notOverwritten (hp.mono hsuf)

/-- The check of `Regular` for one observation. -/
def Obs.isRegular (members : Finset NodeID) (o : Obs) (older : List Obs) : Bool :=
  o.isSteady members && o.ownPromiseFirst older &&
    match o with
    | .persist _ _ _ false => false
    | .persist n i w true => older.all fun
      | .learn n' i' v _ => !decide (n' = n ∧ i' = i) || decide (w = v)
      | _ => true
    | .nextInstanceMsg _ i b acc => !decide (acc = b) || older.any fun
      | .success n i' p _ _ => decide (n = b.nodeID ∧ i' = i ∧ p = b.proposalID)
      | _ => false
    | _ => true

theorem Regular.of_pastAll {h : List Obs} (hall : pastAll (Obs.isRegular G.members) h = true) : Regular G h := by
  have hcheck := pastAll_iff.mp hall
  simp only [Obs.isRegular, Bool.and_eq_true] at hcheck
  have hsteady : Steady G h := by
    refine .of_all (List.all_eq_true.mpr fun o ho => ?_)
    obtain ⟨older, hp⟩ := Past.exists_of_mem ho
    exact (hcheck o older hp).1.1
  have hputs : PutsSucceed h := by
    intro n i v hm
    obtain ⟨older, hp⟩ := Past.exists_of_mem hm
    exact absurd (hcheck _ older hp).2 (by simp)
  have hfirst : OwnPromiseFirst h :=
    OwnPromiseFirst.of_pastAll (pastAll_iff.mpr fun o older hp => (hcheck o older hp).1.2)
  have hpassed : PassedBefore h := by
    intro n i b older hp
    have := (hcheck _ older hp).2
    simp only [decide_true, Bool.not_true, Bool.false_or, List.any_eq_true] at this
    obtain ⟨o, ho, hsuccess⟩ := this
    cases o with
    | success n' i' p S checksum =>
      obtain ⟨rfl, rfl, rfl⟩ := of_decide_eq_true hsuccess
      exact ⟨S, checksum, ho⟩
    | _ => cases hsuccess
  have hover : NotOverwritten h := by
    intro n i v w how older hp hm
    have := (hcheck _ older hp).2
    simp only [List.all_eq_true] at this
    simpa using this _ hm
  exact ⟨hsteady, hputs, @hfirst, @hpassed, @hover⟩

/-! ## Chosen values -/

/-- A majority of the members accepted `v` with ballot `b` in instance `i`. -/
def ChosenIn (G : Group) (h : List Obs) (i : Nat) (b : BallotNumber) (v : Bytes) : Prop :=
  ∃ Q, Majority G.members Q ∧ ∀ m ∈ Q, .accepted m i b v ∈ h

def Chosen (G : Group) (h : List Obs) (i : Nat) (v : Bytes) : Prop := ∃ b, ChosenIn G h i b v

theorem Chosen.mono {h h' : List Obs} (hsub : h ⊆ h') {i : Nat} {v : Bytes} (hc : Chosen G h i v) :
    Chosen G h' i v := by
  obtain ⟨b, Q, hQ, hm⟩ := hc
  exact ⟨b, Q, hQ, fun m hmem => hsub (hm m hmem)⟩

/-! ## The accept phase -/

/-- The accept phase of node `n`: those counted have accepted, and a majority had when it was passed. -/
structure Accepting (G : Group) (n : NodeID) (l : Loc) : Prop where
  counted : l.core.isAccepting = true → ∀ m ∈ l.core.counted,
    ∃ v, .accepted m l.core.instanceID (l.core.ballot n) v ∈ l.hist
  passed : ∀ {i p S checksum older}, Past l.hist (.success n i p S checksum) older →
    ∃ Q, Majority G.members Q ∧ ∀ m ∈ Q, ∃ v, .accepted m i ⟨p, n⟩ v ∈ older

section Step

variable {n : NodeID} {l l' : Loc}

/-- A step that passes no accept phase, and keeps the counter while in one. -/
theorem Accepting.of_step (ha : Accepting G n l) (obs : List Obs) (hh : l'.hist = obs ++ l.hist)
    (hobs : ∀ i p S checksum, .success n i p S checksum ∉ obs)
    (hcounted : l'.core.isAccepting = true → l'.core.counted = ∅ ∨ l.core.isAccepting = true ∧
      l'.core.counted = l.core.counted ∧ l'.core.instanceID = l.core.instanceID ∧
      l'.core.proposer.proposalID = l.core.proposer.proposalID) : Accepting G n l' := by
  refine ⟨?_, ?_⟩
  · intro h m hm
    rcases hcounted h with hc | ⟨hacc, hc, hi, hp⟩
    · rw [hc] at hm
      exact absurd hm (Finset.notMem_empty m)
    · rw [hc] at hm
      obtain ⟨v, hv⟩ := ha.counted hacc m hm
      unfold Core.ballot at hv ⊢
      rw [hi, hp, hh]
      exact ⟨v, List.mem_append_right _ hv⟩
  · intro i p S checksum older hp
    rw [hh] at hp
    refine ha.passed ((Past.append_iff (p := fun o => o = .success n i p S checksum) ?_ rfl).mp hp)
    rintro o ho rfl
    exact hobs _ _ _ _ ho

theorem Accepting.act (ha : Accepting G n l) (hl : Ledger G l.net l.hist) (hst : Steers G n l) (hr : Rounds G n l)
    (hact : Act P (inNetwork.Can l.net n) n l l') (hsteady : Steady G l'.hist) : Accepting G n l' := by
  have hkeep : l.core.isAccepting = true → l.core.counted = ∅ ∨ l.core.isAccepting = true ∧
      l.core.counted = l.core.counted ∧ l.core.instanceID = l.core.instanceID ∧
      l.core.proposer.proposalID = l.core.proposer.proposalID := fun h => Or.inr ⟨h, rfl, rfl, rfl⟩
  cases hact with
  | startPrepare => exact ha.of_step [_] rfl (by simp) nofun
  | countPromise _ _ _ hpreparing =>
    refine ha.of_step [_] rfl (by simp) fun h => ?_
    exact absurd h (Bool.eq_false_iff.mp (hr.preparing hpreparing).1.2)
  | noteReject =>
    exact ha.of_step [] rfl (by simp) fun h => Or.inr ⟨h, rfl, rfl, (setOtherProposalID_value _ _).2⟩
  | startAccept => exact ha.of_step [_] rfl (by simp) fun _ => Or.inl rfl
  | countAccept hsrc ht hi hacc hp hreject =>
    refine ⟨?_, ha.passed⟩
    intro _ m hm
    rcases Finset.mem_insert.mp hm with rfl | hm
    · obtain ⟨v, hv⟩ := (hst.told hl hsrc).1.accepted ht hreject
      rw [hi, hp] at hv
      exact ⟨v, hv⟩
    · exact ha.counted hacc m hm
  | succeed _ hacc hpassed =>
    refine ⟨nofun, ?_⟩
    intro i p S checksum older hp
    rcases Past.cons_iff.mp hp with ⟨heq, rfl⟩ | hp
    · cases heq
      have hsub : l.core.counted ⊆ G.members := by
        intro m hm
        obtain ⟨v, hv⟩ := ha.counted hacc m hm
        have hvote : .setAccepted m l.core.instanceID (l.core.ballot n) v ∈ l.hist := hl.obs _ hv
        exact (hl.obs _ hvote).1
      have hle : l.core.systemVSM.setNodeID.card / 2 + 1 ≤ l.core.counted.card := hpassed
      rw [show l.core.systemVSM.setNodeID = G.members from hst.members] at hle
      exact ⟨l.core.counted, ⟨hsub, by omega⟩, ha.counted hacc⟩
    · exact ha.passed hp
  | promise | acceptFail => exact ha.of_step [_, _] rfl (by simp) hkeep
  | accept => exact ha.of_step [_, _, _] rfl (by simp) hkeep
  | advance => exact ha.of_step [_, _] rfl (by simp) nofun
  | commitTimeout => exact ha.of_step [] rfl (by simp) nofun
  | promiseFail | newValue | nextInstanceMsg | learnBySuccess | learnValue | executeFail | updateSystemVariables
  | checksumLogicFail | initSystemVariables | clearAllLog =>
    exact ha.of_step [_] rfl (by simp) hkeep
  | restart _ _ _ hstart => exact absurd hstart.restart_mem (hsteady.noRestart n _ _)
  | restartFail _ hstart => exact absurd hstart.restart_mem (hsteady.noRestart n _ _)
  | _ => exact ha.of_step [] rfl (by simp) hkeep

end Step

theorem Stepping.accepting {s : Abs} (hs : Stepping P inNetwork G s) (hsteady : Steady G s.hist) (n : NodeID) :
    Accepting G n (s.loc n) := by
  refine hs.forall_loc (Steady G) Steady.suffix (I := Accepting G) ?_ ?_ ?_ hsteady n
  · exact fun n => ⟨nofun, fun hp => absurd hp Past.nil_iff⟩
  · intro s n l hs hg ih hact
    have hold := hg.suffix hact.hist_suffix
    obtain ⟨hl, hst⟩ := hs.sound hold n
    exact (ih n).act hl hst (hs.rounds hold n) hact hg
  · intro s n l k _ _ ih hact hk
    obtain ⟨obs, hh, hobs⟩ := hact.obs
    refine (ih k).of_step obs hh ?_ fun h => Or.inr ⟨h, rfl, rfl, rfl⟩
    exact fun _ _ _ _ ho => hk (hobs _ ho)

/-- A pair that was accepted with the ballot of a passed accept phase is chosen. -/
theorem Stepping.chosen_of_success {s : Abs} (hs : Stepping P inNetwork G s) (hsteady : Steady G s.hist)
    (hfirst : OwnPromiseFirst s.hist) {n : NodeID} {i : Nat} {b : BallotNumber} {v : Bytes} {S : Finset NodeID}
    {checksum : Nat} (hsuccess : .success b.nodeID i b.proposalID S checksum ∈ s.hist)
    (hvote : .setAccepted n i b v ∈ s.hist) : ChosenIn G s.hist i b v := by
  obtain ⟨hl, -⟩ := hs.sound hsteady n
  obtain ⟨older, hpast⟩ := Past.exists_of_mem hsuccess
  obtain ⟨Q, hQ, hacc⟩ := (hs.accepting hsteady b.nodeID).passed hpast
  refine ⟨Q, hQ, fun m hm => ?_⟩
  obtain ⟨w, hw⟩ := hacc m hm
  have hw : .accepted m i b w ∈ s.hist := hpast.suffix.subset hw
  have hwvote : .setAccepted m i b w ∈ s.hist := hl.obs _ hw
  obtain ⟨-, S₁, h₁⟩ := hl.obs _ hwvote
  obtain ⟨-, S₂, h₂⟩ := hl.obs _ hvote
  rw [(hs.sameValue hsteady hfirst b.nodeID).one h₂ h₁]
  exact hw

/-! ## The learner and the log -/

/-- Values on their way to learners were chosen. -/
def ValuesChosen (G : Group) (net : List Envelope) (h : List Obs) : Prop :=
  ∀ x ∈ net, ∀ d ∈ x.dst, x.msg.msgType = .learnerSendLearnValue → Chosen G h x.msg.instanceID x.msg.value

/-- What node `n` has learned and what its log holds. -/
structure Learns (G : Group) (n : NodeID) (l : Loc) : Prop where
  /-- The record of a past instance holds a chosen value. -/
  log : ∀ {i r}, i < l.core.instanceID → l.core.records.lookup i = some r → Chosen G l.hist i r.acceptedValue
  above : ∀ {i}, l.core.instanceID < i → l.core.records.lookup i = none
  /-- The record of the current instance holds what the acceptor accepted, until a value is learned. -/
  current : ∀ {r}, l.core.records.lookup l.core.instanceID = some r →
    r.acceptedValue = l.core.acceptor.acceptedValue ∧ (∀ v how, .learn n l.core.instanceID v how ∉ l.hist) ∨
      Chosen G l.hist l.core.instanceID r.acceptedValue
  learned : l.core.learner.isLearned = true →
    ∃ how, .learn n l.core.instanceID l.core.learner.learnedValue how ∈ l.hist
  learn_le : ∀ {i v how}, .learn n i v how ∈ l.hist → i ≤ l.core.instanceID
  chosen : ∀ {i v how older}, Past l.hist (.learn n i v how) older → Chosen G older i v
  toSelf : ∀ msg, l.core.toSelf = some msg → msg.msgType = .learnerSendLearnValue →
    Chosen G l.hist msg.instanceID msg.value

section Step

variable {n : NodeID} {l l' : Loc}

theorem Learns.chosen_of_mem (h : Learns G n l) {i : Nat} {v : Bytes} {how : LearnBy}
    (hm : .learn n i v how ∈ l.hist) : Chosen G l.hist i v := by
  obtain ⟨older, hp⟩ := Past.exists_of_mem hm
  exact (h.chosen hp).mono hp.suffix.subset

theorem Learns.src_chosen (h : Learns G n l) (hnet : ValuesChosen G l.net l.hist) {msg : PaxosMsg}
    (hsrc : Src (inNetwork.Can l.net n) l msg) (ht : msg.msgType = .learnerSendLearnValue) :
    Chosen G l.hist msg.instanceID msg.value := by
  rcases hsrc with ⟨-, gid, x, hx, hd, -, rfl⟩ | hself
  · exact hnet x hx n hd ht
  · exact h.toSelf msg hself ht

/-- A value that is sent to a learner was chosen. -/
theorem Learns.sent_chosen (h : Learns G n l) {hist : List Obs} {d : NodeID} {msg : PaxosMsg}
    (hsent : Sent (inNetwork.Can l.net n) n l hist d msg) (ht : msg.msgType = .learnerSendLearnValue) :
    Chosen G l.hist msg.instanceID msg.value := by
  cases hsent with
  | own hsend =>
    cases hsend with
    | plain hplain => exact absurd ht hplain.2.2.2.2.1
    | prepare => cases ht
    | success => cases ht
    | record hr hi => exact h.log hi hr
    | transmit hl hv =>
      obtain ⟨how, hm⟩ := h.learned hl
      rw [hv] at hm
      exact h.chosen_of_mem hm
  | reject type _ _ htype => rcases htype with rfl | rfl <;> cases ht
  | record hr hi => exact h.log hi hr
  | _ => cases ht

/-- A step that writes no record, learns nothing and stays in the instance. -/
theorem Learns.of_step (h : Learns G n l) (hsuf : l.hist <:+ l'.hist)
    (hobs : ∀ {i v how}, .learn n i v how ∈ l'.hist → .learn n i v how ∈ l.hist)
    (hpast : ∀ {i v how older}, Past l'.hist (.learn n i v how) older → Past l.hist (.learn n i v how) older)
    (hi : l'.core.instanceID = l.core.instanceID) (hrec : l'.core.records = l.core.records)
    (ha : l'.core.acceptor = l.core.acceptor)
    (hl : l'.core.learner.isLearned = true → l.core.learner.isLearned = true ∧
      l'.core.learner.learnedValue = l.core.learner.learnedValue)
    (hself : ∀ msg, l'.core.toSelf = some msg → msg.msgType = .learnerSendLearnValue →
      Chosen G l.hist msg.instanceID msg.value) : Learns G n l' := by
  refine ⟨?_, ?_, ?_, ?_, ?_, fun hp => h.chosen (hpast hp), fun msg hm ht => (hself msg hm ht).mono hsuf.subset⟩
  · rw [hi, hrec]
    exact fun hlt hr => (h.log hlt hr).mono hsuf.subset
  · rw [hi, hrec]
    exact h.above
  · rw [hi, hrec, ha]
    intro r hr
    rcases h.current hr with ⟨heq, hno⟩ | hc
    · exact Or.inl ⟨heq, fun v how hm => hno v how (hobs hm)⟩
    · exact Or.inr (hc.mono hsuf.subset)
  · rw [hi]
    intro hlearned
    obtain ⟨hlearned, hv⟩ := hl hlearned
    rw [hv]
    exact (h.learned hlearned).imp fun _ hm => hsuf.subset hm
  · rw [hi]
    exact fun hm => h.learn_le (hobs hm)

/-- The acceptor writes its accepted value into the record of the instance. -/
theorem Learns.of_write (h : Learns G n l) {r : AcceptorStateData} (hsuf : l.hist <:+ l'.hist)
    (hobs : ∀ {i v how}, .learn n i v how ∈ l'.hist → .learn n i v how ∈ l.hist)
    (hpast : ∀ {i v how older}, Past l'.hist (.learn n i v how) older → Past l.hist (.learn n i v how) older)
    (hwrite : ∀ {v how}, .learn n l.core.instanceID v how ∈ l.hist → r.acceptedValue = v)
    (hi : l'.core.instanceID = l.core.instanceID)
    (hrec : l'.core.records = (l.core.instanceID, r) :: l.core.records)
    (ha : l'.core.acceptor.acceptedValue = r.acceptedValue) (hl : l'.core.learner = l.core.learner)
    (hself : ∀ msg, l'.core.toSelf = some msg → msg.msgType ≠ .learnerSendLearnValue) : Learns G n l' := by
  refine ⟨?_, ?_, ?_, ?_, ?_, fun hp => h.chosen (hpast hp), fun msg hm ht => absurd ht (hself msg hm)⟩
  · rw [hi, hrec]
    intro i r' hlt hr
    rw [List.lookup_cons, show (i == l.core.instanceID) = false from beq_false_of_ne hlt.ne] at hr
    exact (h.log hlt hr).mono hsuf.subset
  · rw [hi, hrec]
    intro i hlt
    rw [List.lookup_cons, show (i == l.core.instanceID) = false from beq_false_of_ne hlt.ne']
    exact h.above hlt
  · rw [hi, hrec, ha]
    intro r' hr
    rw [List.lookup_cons_self, Option.some.injEq] at hr
    subst hr
    by_cases hlearned : ∃ v how, .learn n l.core.instanceID v how ∈ l.hist
    · obtain ⟨v, how, hm⟩ := hlearned
      rw [hwrite hm]
      exact Or.inr ((h.chosen_of_mem hm).mono hsuf.subset)
    · exact Or.inl ⟨rfl, fun v how hm => hlearned ⟨v, how, hobs hm⟩⟩
  · rw [hi, hl]
    intro hlearned
    exact (h.learned hlearned).imp fun _ hm => hsuf.subset hm
  · rw [hi]
    exact fun hm => h.learn_le (hobs hm)

/-- The learner learns a chosen value; the record of the instance holds one. -/
theorem Learns.of_learn (h : Learns G n l) {v : Bytes} {how : LearnBy}
    (hh : l'.hist = .learn n l.core.instanceID v how :: l.hist) (hv : Chosen G l.hist l.core.instanceID v)
    (hi : l'.core.instanceID = l.core.instanceID)
    (hlog : ∀ {i}, i ≠ l.core.instanceID → l'.core.records.lookup i = l.core.records.lookup i)
    (hcurrent : ∀ {r}, l'.core.records.lookup l.core.instanceID = some r →
      Chosen G l.hist l.core.instanceID r.acceptedValue)
    (hl : l'.core.learner.learnedValue = v) (hself : l'.core.toSelf = none) : Learns G n l' := by
  have hsub : l.hist ⊆ l'.hist := by
    rw [hh]
    exact List.subset_cons_self _ _
  refine ⟨?_, ?_, ?_, ?_, ?_, ?_, ?_⟩
  · rw [hi]
    intro i r hlt hr
    rw [hlog hlt.ne] at hr
    exact (h.log hlt hr).mono hsub
  · rw [hi]
    intro i hlt
    rw [hlog hlt.ne']
    exact h.above hlt
  · rw [hi]
    exact fun hr => Or.inr ((hcurrent hr).mono hsub)
  · intro _
    rw [hl, hi, hh]
    exact ⟨how, List.mem_cons_self⟩
  · rw [hi, hh]
    intro i w how' hm
    rcases List.mem_cons.mp hm with heq | hm
    · cases heq
      exact le_rfl
    · exact h.learn_le hm
  · rw [hh]
    intro i w how' older hp
    rcases Past.cons_iff.mp hp with ⟨heq, rfl⟩ | hp
    · cases heq
      exact hv
    · exact h.chosen hp
  · intro msg hm
    rw [hself] at hm
    cases hm

/-- The node goes on to the next instance. -/
theorem Learns.of_advance (h : Learns G n l) (hlearned : l.core.learner.isLearned = true) (hsuf : l.hist <:+ l'.hist)
    (hobs : ∀ {i v how}, .learn n i v how ∈ l'.hist → .learn n i v how ∈ l.hist)
    (hpast : ∀ {i v how older}, Past l'.hist (.learn n i v how) older → Past l.hist (.learn n i v how) older)
    (hi : l'.core.instanceID = l.core.instanceID + 1) (hrec : l'.core.records = l.core.records)
    (hl : l'.core.learner.isLearned = false) (hself : l'.core.toSelf = l.core.toSelf) : Learns G n l' := by
  have hchosen {r} (hr : l.core.records.lookup l.core.instanceID = some r) :
      Chosen G l.hist l.core.instanceID r.acceptedValue := by
    obtain ⟨how, hm⟩ := h.learned hlearned
    exact (h.current hr).resolve_left fun hno => hno.2 _ _ hm
  refine ⟨?_, ?_, ?_, ?_, ?_, fun hp => h.chosen (hpast hp), ?_⟩
  · rw [hi, hrec]
    intro i r hlt hr
    rcases Nat.lt_succ_iff_lt_or_eq.mp hlt with hlt | rfl
    · exact (h.log hlt hr).mono hsuf.subset
    · exact (hchosen hr).mono hsuf.subset
  · rw [hi, hrec]
    exact fun hlt => h.above (Nat.lt_of_succ_lt hlt)
  · rw [hi, hrec]
    intro r hr
    rw [h.above (Nat.lt_succ_self _)] at hr
    cases hr
  · rw [hl]
    exact nofun
  · rw [hi]
    exact fun hm => (h.learn_le (hobs hm)).trans (Nat.le_succ _)
  · rw [hself]
    exact fun msg hm ht => (h.toSelf msg hm ht).mono hsuf.subset

/-- The accepted pair was set. -/
theorem Votes.vote_of_accepted (hv : Votes n l) (hb : l.core.acceptor.acceptedBallot.proposalID ≠ 0) :
    .setAccepted n l.core.instanceID l.core.acceptor.acceptedBallot l.core.acceptor.acceptedValue ∈ l.hist := by
  have hlast := hv.last
  cases hcase : lastAccepted n l.core.instanceID l.hist with
  | none =>
    rw [hcase, Option.getD_none, Prod.mk.injEq] at hlast
    exact absurd (by rw [hlast.1]) hb
  | some x =>
    rw [hcase, Option.getD_some] at hlast
    have hm : .setAccepted n l.core.instanceID x.1 x.2 ∈ l.hist := mem_of_lastAccepted hcase
    rwa [← hlast] at hm

/-- The accept phase behind a success message, a real one or one made up from a message of the next instance. -/
theorem Steers.success_of_learn (hl : Ledger G l.net l.hist) (hst : Steers G n l) (hpassed : PassedBefore l.hist)
    {msg : PaxosMsg} (hsrc : Src (inNetwork.Can l.net n) l msg) (hb : l.core.acceptor.acceptedBallot = msg.ballot)
    (hcase : msg.msgType = .learnerProposerSendSuccess ∧ msg.instanceID = l.core.instanceID ∨
      (msg.msgType = .paxosPrepare ∨ msg.msgType = .paxosAccept) ∧ msg.instanceID = l.core.instanceID + 1 ∧
        .nextInstanceMsg n l.core.instanceID msg.ballot l.core.acceptor.acceptedBallot ∈ l.hist) :
    ∃ S checksum, .success l.core.acceptor.acceptedBallot.nodeID l.core.instanceID
      l.core.acceptor.acceptedBallot.proposalID S checksum ∈ l.hist := by
  rw [hb]
  rcases hcase with ⟨ht, hi⟩ | ⟨-, -, hm⟩
  · rw [← hi]
    exact (hst.told hl hsrc).1.success ht
  · rw [hb] at hm
    obtain ⟨older, hp⟩ := Past.exists_of_mem hm
    obtain ⟨S, checksum, hs⟩ := hpassed hp
    exact ⟨S, checksum, hp.suffix.subset hs⟩

theorem Learns.act (h : Learns G n l) (hnet : ValuesChosen G l.net l.hist) (hl : Ledger G l.net l.hist)
    (hst : Steers G n l) (hv : Votes n l)
    (hcs : ∀ {m i b v S checksum}, .success (BallotNumber.nodeID b) i b.proposalID S checksum ∈ l.hist →
      .setAccepted m i b v ∈ l.hist → ChosenIn G l.hist i b v)
    (hact : Act P (inNetwork.Can l.net n) n l l') (hr : Regular G l'.hist) : Learns G n l' := by
  have hself : ∀ msg, l'.core.toSelf = some msg → msg.msgType = .learnerSendLearnValue →
      Chosen G l.hist msg.instanceID msg.value := by
    intro msg hm ht
    rcases hact.sent.2 msg hm with hm | hsent
    · exact h.toSelf msg hm ht
    · exact h.sent_chosen hsent ht
  have hpassed : PassedBefore l.hist := fun hp => hr.passedBefore (hp.mono hact.hist_suffix)
  cases hact with
  | promise hsrc ht hi hb =>
    refine h.of_write ⟨[_, _], rfl⟩ (by simp) (by simp) ?_ rfl rfl rfl rfl ?_
    · exact fun hm => hr.notOverwritten (Past.head.of_cons) hm
    · intro msg hm
      obtain ⟨-, rfl⟩ := send_toSelf rfl hm
      exact nofun
  | promiseFail => exact absurd List.mem_cons_self (hr.puts n _ _)
  | accept hsrc ht hi hb =>
    refine h.of_write ⟨[_, _, _], rfl⟩ (by simp) (by simp) ?_ rfl rfl rfl rfl ?_
    · exact fun hm => hr.notOverwritten (Past.head.of_cons) (List.mem_cons_of_mem _ hm)
    · intro msg hm
      obtain ⟨-, rfl⟩ := send_toSelf rfl hm
      exact nofun
  | acceptFail => exact absurd List.mem_cons_self (hr.puts n _ _)
  | learnBySuccess hsrc hnull hb hcase =>
    obtain ⟨S, checksum, hsuccess⟩ := hst.success_of_learn hl hpassed hsrc hb hcase
    have hchosen : Chosen G l.hist l.core.instanceID l.core.acceptor.acceptedValue :=
      ⟨_, hcs hsuccess (hv.vote_of_accepted hnull)⟩
    refine h.of_learn rfl hchosen rfl (fun _ => rfl) ?_ rfl rfl
    intro r hrec
    rcases h.current hrec with ⟨heq, -⟩ | hc
    · rw [heq]
      exact hchosen
    · exact hc
  | learnValue hsrc ht hi =>
    have hchosen := h.src_chosen hnet hsrc ht
    rw [hi] at hchosen
    refine h.of_learn rfl hchosen rfl ?_ ?_ rfl rfl
    · intro i hne
      rw [List.lookup_cons, show (i == l.core.instanceID) = false from beq_false_of_ne hne]
    · intro r hrec
      rw [List.lookup_cons_self, Option.some.injEq] at hrec
      subst hrec
      exact hchosen
  | advance hlearned =>
    exact h.of_advance hlearned ⟨[_, _], rfl⟩ (by simp) (by simp) rfl rfl rfl rfl
  | clearAllLog => exact absurd List.mem_cons_self (hr.steady.noClear n)
  | restart _ _ _ hstart => exact absurd hstart.restart_mem (hr.steady.noRestart n _ _)
  | restartFail _ hstart => exact absurd hstart.restart_mem (hr.steady.noRestart n _ _)
  | newValue | startPrepare | countPromise | startAccept | succeed | nextInstanceMsg | executeFail
  | updateSystemVariables | checksumLogicFail | initSystemVariables =>
    exact h.of_step ⟨[_], rfl⟩ (by simp) (by simp) rfl rfl rfl (fun h => ⟨h, rfl⟩) hself
  | _ => exact h.of_step List.suffix_rfl id id rfl rfl rfl (fun h => ⟨h, rfl⟩) hself

theorem ValuesChosen.act (hnet : ValuesChosen G l.net l.hist) (h : Learns G n l)
    (hact : Act P (inNetwork.Can l.net n) n l l') : ValuesChosen G l'.net l'.hist := by
  intro x hx d hd ht
  rcases hact.sent.1 x hx with hx | hx
  · exact (hnet x hx d hd ht).mono hact.hist_suffix.subset
  · exact (h.sent_chosen (hx d hd).2 ht).mono hact.hist_suffix.subset

end Step

/-- Steps of other nodes leave learner and log alone. -/
theorem Learns.other {k : NodeID} {l : Loc} (h : Learns G k l) {net : List Envelope} {obs : List Obs}
    (hobs : ∀ o ∈ obs, o.node ≠ k) : Learns G k ⟨l.core, net, obs ++ l.hist⟩ := by
  have hmem {i v how} (hm : .learn k i v how ∈ obs ++ l.hist) : .learn k i v how ∈ l.hist :=
    (List.mem_append.mp hm).resolve_left fun ho => hobs _ ho rfl
  refine h.of_step (List.suffix_append _ _) hmem ?_ rfl rfl rfl (fun h => ⟨h, rfl⟩) h.toSelf
  intro i v how older hp
  exact (Past.append_iff hobs (by rfl)).mp hp

theorem Stepping.learns {s : Abs} (hs : Stepping P inNetwork G s) (hr : Regular G s.hist) (n : NodeID) :
    ValuesChosen G s.net s.hist ∧ Learns G n (s.loc n) := by
  refine hs.forall_loc (Regular G) Regular.suffix (I := fun n l => ValuesChosen G l.net l.hist ∧ Learns G n l)
    ?_ ?_ ?_ hr n
  · intro n
    refine ⟨fun x hx => absurd hx List.not_mem_nil, ?_⟩
    exact ⟨fun hlt => absurd hlt (Nat.not_lt_zero _), fun _ => rfl, nofun, nofun, fun hm => absurd hm List.not_mem_nil,
      fun hp => absurd hp Past.nil_iff, nofun⟩
  · intro s n l hs hg ih hact
    have hold : Regular G s.hist := hg.suffix hact.hist_suffix
    obtain ⟨hl, hst⟩ := hs.sound hold.steady n
    refine ⟨(ih n).1.act (ih n).2 hact, (ih n).2.act (ih n).1 hl hst (hs.votes hold.steady n) ?_ hact hg⟩
    exact hs.chosen_of_success hold.steady hold.ownPromiseFirst
  · intro s n l k hs hg ih hact hk
    have hnet : ValuesChosen G l.net l.hist := (ih n).1.act (ih n).2 hact
    obtain ⟨obs, hh, hobs⟩ := hact.obs
    refine ⟨hnet, ?_⟩
    rw [hh]
    exact (ih k).2.other fun o ho => (hobs o ho).trans_ne hk.symm

/-- **Learned implies chosen**: in a regular run, whatever a node learns for an instance, in whichever way, a majority of
the members had accepted before with one ballot. -/
theorem learned_chosen {s : Sys} (hs : Reachable P inNetwork G s) (hr : Regular G s.hist) {n : NodeID} {i : Nat}
    {v : Bytes} {how : LearnBy} {older : List Obs} (h : Past s.hist (.learn n i v how) older) : Chosen G older i v :=
  (hs.stepping.learns hr n).2.chosen h

/-- After `acceptRun`, node 2 accepts, and node 1 passes the accept phase and tells node 2. -/
def learnRun : List Event :=
  acceptRun ++ [deliver 2 (acceptMsg 1 0 1 (packPaxosValue [7] 0) 0), deliver 1 (replyMsg 2 .paxosAcceptReply 0 1 0),
    deliver 2 (successMsg 1 0 1 0)]

theorem learned_chosen_learnRun : ∃ older,
    Past (Sys.run .plain learnRun (Sys.init .plain (.ofList [1, 2, 3]))).hist
      (.learn 2 0 (packPaxosValue [7] 0) (.success ⟨1, 1⟩)) older ∧
    Chosen (.ofList [1, 2, 3]) older 0 (packPaxosValue [7] 0) := by
  obtain ⟨older, hpast⟩ : ∃ older, Past (Sys.run .plain learnRun (Sys.init .plain (.ofList [1, 2, 3]))).hist
      (.learn 2 0 (packPaxosValue [7] 0) (.success ⟨1, 1⟩)) older := Past.exists_of_mem (by decide +kernel)
  exact ⟨older, hpast, learned_chosen (.of_run .plain .init (by decide +kernel))
    (Regular.of_pastAll (by decide +kernel)) hpast⟩

/-! ## The violation -/

/-- Node 1 of five proposes 7 with the promises of 2 and 3, and node 2 accepts it. Node 4 gets 9 chosen with 3 and 5 in a
higher ballot. Node 1 learns this from node 4, goes on to instance 1, and as nobody has rejected it, skips the prepare
phase there. Its Accept reaches node 2, which is still at instance 0. -/
def keptBallotRun : List Event :=
  proposeEvents 1 0 [7] ++ [deliver 2 (prepareMsg 1 0 1), deliver 3 (prepareMsg 1 0 1), deliver 1 (promiseMsg 2 0 1 {}),
    deliver 1 (promiseMsg 3 0 1 {}), deliver 2 (acceptMsg 1 0 1 (packPaxosValue [7] 0) 0)] ++
  proposeEvents 4 0 [9] ++ [deliver 3 (prepareMsg 4 0 1), deliver 5 (prepareMsg 4 0 1), deliver 4 (promiseMsg 3 0 1 {}),
    deliver 4 (promiseMsg 5 0 1 {}), deliver 3 (acceptMsg 4 0 1 (packPaxosValue [9] 0) 0),
    deliver 5 (acceptMsg 4 0 1 (packPaxosValue [9] 0) 0), deliver 4 (replyMsg 3 .paxosAcceptReply 0 1 0),
    deliver 4 (replyMsg 5 .paxosAcceptReply 0 1 0),
    ⟨1, .timeout 1, {}⟩, deliver 4 { msgType := .learnerAskforLearn, nodeID := 1 },
    deliver 1 { msgType := .learnerSendNowInstanceID, nodeID := 4, nowInstanceID := 1 },
    deliver 4 { msgType := .learnerComfirmAskforLearn, nodeID := 1 }, ⟨4, .sendLearnedValue, {}⟩, ⟨4, .sendOne, {}⟩,
    deliver 1 (learnValueMsg 4 0 ⟨1, 4⟩ (packPaxosValue [9] 0) 0 sendLearnValueNeedAck),
    ⟨1, .getResult 0, {}⟩, ⟨1, .lock 0, {}⟩, ⟨1, .checkNewValue, {}⟩,
    deliver 2 (acceptMsg 1 1 1 (packPaxosValue [7] 0) (crc32 0 (packPaxosValue [9] 0)))]

/-- No one but nodes 1 and 2 accepted `v` for instance 0. -/
def onlyTwoAccepted (v : Bytes) (h : List Obs) : Bool :=
  h.all fun
    | .accepted m i _ w => !decide (i = 0 ∧ w = v) || decide (m ∈ ({1, 2} : Finset NodeID))
    | _ => true

theorem not_chosen_of_onlyTwoAccepted {v : Bytes} {h : List Obs} (hall : onlyTwoAccepted v h = true) :
    ¬ Chosen (.ofList [1, 2, 3, 4, 5]) h 0 v := by
  rintro ⟨b, Q, ⟨-, hcard⟩, hacc⟩
  have hsub : Q ⊆ {1, 2} := by
    intro m hm
    have := List.all_eq_true.mp hall _ (hacc m hm)
    simpa using this
  have hle := Finset.card_le_card hsub
  have h₁ : (Group.ofList [1, 2, 3, 4, 5]).members.card = 5 := by decide
  have h₂ : ({1, 2} : Finset NodeID).card = 2 := by decide
  omega

/-- Node 2 has learned 7 for instance 0, and a majority never accepted it. -/
theorem learned_not_chosen : ∃ s, Reachable .plain inNetwork (.ofList [1, 2, 3, 4, 5]) s ∧
    Steady (.ofList [1, 2, 3, 4, 5]) s.hist ∧ PutsSucceed s.hist ∧
    .learn 2 0 (packPaxosValue [7] 0) (.success ⟨1, 1⟩) ∈ s.hist ∧
    ¬ Chosen (.ofList [1, 2, 3, 4, 5]) s.hist 0 (packPaxosValue [7] 0) := by
  refine ⟨Sys.run .plain keptBallotRun (Sys.init .plain (.ofList [1, 2, 3, 4, 5])),
    .of_run .plain .init (by decide +kernel), .of_all (by decide +kernel), ?_, ?_, ?_⟩
  · refine PutsSucceed.of_all ?_
    decide +kernel
  · decide +kernel
  · refine not_chosen_of_onlyTwoAccepted ?_
    decide +kernel

end PhxPaxos
