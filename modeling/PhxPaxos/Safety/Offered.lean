import PhxPaxos.Safety.Learned

/-!
# What is accepted was proposed

While no process is started again, a value that an acceptor accepts in an instance is one that some node gave to its
proposer in this very instance (`Offered`): what a proposer takes over comes from promises of the same instance, and the
next instance starts with an empty proposer and an empty acceptor. So a chosen value was proposed in the instance it is
chosen in (`chosen_offered`).
-/

namespace PhxPaxos

variable {P : Params} {G : Group}

/-- No process was started again. -/
def NoRestart (h : List Obs) : Prop := ∀ n i cp, .restart n i cp ∉ h

theorem NoRestart.suffix {h h' : List Obs} (hsuf : h <:+ h') (hno : NoRestart h') : NoRestart h :=
  fun n i cp hm => hno n i cp (hsuf.subset hm)

/-- The value is empty, or some node proposed it in instance `i`. -/
def Offered (h : List Obs) (i : Nat) (v : Bytes) : Prop := v = [] ∨ ∃ m, .newValue m i v ∈ h

theorem Offered.mono {h h' : List Obs} (hsub : h ⊆ h') {i : Nat} {v : Bytes} (ho : Offered h i v) : Offered h' i v :=
  ho.imp_right (Exists.imp fun _ hm => hsub hm)

theorem Offered.of_eq {h : List Obs} {i : Nat} {v w : Bytes} (ho : Offered h i v) (heq : w = v) : Offered h i w := by
  rw [heq]
  exact ho

/-- The value that is accepted was proposed. -/
def Obs.Offers (h : List Obs) : Obs → Prop
  | .accept _ i _ v _ | .setAccepted _ i _ v | .accepted _ i _ v => Offered h i v
  | _ => True

theorem Obs.Offers.mono {h h' : List Obs} (hsub : h ⊆ h') {o : Obs} (ho : o.Offers h) : o.Offers h' := by
  cases o with
  | accept | setAccepted | accepted => exact Offered.mono hsub ho
  | _ => exact ho

/-- The value that the message carries to an acceptor or to a proposer was proposed. -/
structure PaxosMsg.Offers (h : List Obs) (msg : PaxosMsg) : Prop where
  accept : msg.msgType = .paxosAccept → Offered h msg.instanceID msg.value
  promise : msg.msgType = .paxosPrepareReply → Offered h msg.instanceID msg.value

theorem PaxosMsg.Offers.mono {h h' : List Obs} (hsub : h ⊆ h') {msg : PaxosMsg} (ho : msg.Offers h) : msg.Offers h' :=
  ⟨fun ht => (ho.accept ht).mono hsub, fun ht => (ho.promise ht).mono hsub⟩

theorem PaxosMsg.Offers.of_type {h : List Obs} {msg : PaxosMsg} (h₁ : msg.msgType ≠ .paxosAccept)
    (h₂ : msg.msgType ≠ .paxosPrepareReply) : msg.Offers h :=
  ⟨fun ht => absurd ht h₁, fun ht => absurd ht h₂⟩

/-- All values at a node and on their way were proposed. -/
structure Offering (l : Loc) : Prop where
  hist : ∀ o ∈ l.hist, o.Offers l.hist
  net : ∀ x ∈ l.net, ∀ d ∈ x.dst, x.msg.Offers l.hist
  toSelf : ∀ msg, l.core.toSelf = some msg → msg.Offers l.hist
  proposer : Offered l.hist l.core.instanceID l.core.proposer.value
  acceptor : Offered l.hist l.core.instanceID l.core.acceptor.acceptedValue

section Step

variable {n : NodeID} {l l' : Loc}

theorem Offering.src (h : Offering l) {msg : PaxosMsg} (hsrc : Src (inNetwork.Can l.net n) l msg) : msg.Offers l.hist := by
  rcases hsrc with ⟨-, gid, x, hx, hd, -, rfl⟩ | hself
  · exact h.net x hx n hd
  · exact h.toSelf msg hself

theorem Offering.sent (h : Offering l) {can : PaxosMsg → Prop} {hist : List Obs} (hsub : l.hist ⊆ hist)
    (hhist : ∀ o ∈ hist, o.Offers hist) {d : NodeID} {msg : PaxosMsg} (hs : Sent can n l hist d msg) : msg.Offers hist := by
  cases hs with
  | own hsend =>
    cases hsend with
    | plain hplain => exact .of_type hplain.2.2.1 hplain.2.1
    | _ => exact .of_type (fun ht => by cases ht) fun ht => by cases ht
  | promise =>
    refine ⟨(fun ht => by cases ht), fun _ => ?_⟩
    change Offered hist l.core.instanceID (if _ then l.core.acceptor.acceptedValue else [])
    split
    · exact h.acceptor.mono hsub
    · exact Or.inl rfl
  | reject => exact ⟨fun _ => Or.inl rfl, fun _ => Or.inl rfl⟩
  | accept hm => exact ⟨fun _ => hhist _ hm, fun ht => by cases ht⟩
  | _ => exact .of_type (fun ht => by cases ht) fun ht => by cases ht

theorem Offering.of_step (h : Offering l) {can : PaxosMsg → Prop} (hact : Act P can n l l')
    (obs : List Obs) (hh : l'.hist = obs ++ l.hist) (hobs : ∀ o ∈ obs, o.Offers l'.hist)
    (hp : Offered l'.hist l'.core.instanceID l'.core.proposer.value)
    (ha : Offered l'.hist l'.core.instanceID l'.core.acceptor.acceptedValue) : Offering l' := by
  have hsub : l.hist ⊆ l'.hist := hact.hist_suffix.subset
  have hhist : ∀ o ∈ l'.hist, o.Offers l'.hist := by
    intro o ho
    rw [hh] at ho
    rcases List.mem_append.mp ho with ho | ho
    · exact hobs o ho
    · exact (h.hist o ho).mono hsub
  refine ⟨hhist, ?_, ?_, hp, ha⟩
  · intro x hx d hd
    rcases hact.sent.1 x hx with hx | hx
    · exact (h.net x hx d hd).mono hsub
    · exact h.sent hsub hhist (hx d hd).2
  · intro msg hm
    rcases hact.sent.2 msg hm with hm | hsent
    · exact (h.toSelf msg hm).mono hsub
    · exact h.sent hsub hhist hsent

theorem addPreAcceptValue_value (p : ProposerState) (b : BallotNumber) (v : Bytes) :
    (p.addPreAcceptValue b v).value = p.value ∨ (p.addPreAcceptValue b v).value = v := by
  unfold ProposerState.addPreAcceptValue
  split
  · exact Or.inl rfl
  · split
    · exact Or.inr rfl
    · exact Or.inl rfl

theorem Offering.act (h : Offering l) (hact : Act P (inNetwork.Can l.net n) n l l') (hno : NoRestart l'.hist) :
    Offering l' := by
  have hsub : l.hist ⊆ l'.hist := hact.hist_suffix.subset
  have hp := h.proposer.mono hsub
  have ha := h.acceptor.mono hsub
  have hstep := h.of_step hact
  have vote {msg : PaxosMsg} (hsrc : Src (inNetwork.Can l.net n) l msg) (ht : msg.msgType = .paxosAccept)
      (hi : msg.instanceID = l.core.instanceID) : Offered l'.hist l.core.instanceID msg.value := by
    rw [← hi]
    exact ((h.src hsrc).accept ht).mono hsub
  cases hact with
  | promise => exact hstep [_, _] rfl (by simp [Obs.Offers]) hp ha
  | accept hsrc ht hi =>
    have hv := vote hsrc ht hi
    refine hstep [_, _, _] rfl (fun o ho => ?_) hp hv
    simp only [List.mem_cons, List.not_mem_nil, or_false] at ho
    rcases ho with rfl | rfl | rfl
    · exact hv
    · trivial
    · exact hv
  | acceptFail hsrc ht hi =>
    have hv := vote hsrc ht hi
    refine hstep [_, _] rfl (fun o ho => ?_) hp hv
    simp only [List.mem_cons, List.not_mem_nil, or_false] at ho
    rcases ho with rfl | rfl
    · trivial
    · exact hv
  | @newValue v =>
    refine hstep [_] rfl (by simp [Obs.Offers]) ?_ ha
    change Offered _ l.core.instanceID (if _ then v else l.core.proposer.value)
    split
    · exact Or.inr ⟨n, List.mem_cons_self⟩
    · exact hp
  | startPrepare =>
    refine hstep [_] rfl (by simp [Obs.Offers]) ?_ ha
    change Offered _ l.core.instanceID l.core.nextRound.value
    rw [nextRound_value]
    exact hp
  | countPromise hsrc ht hi =>
    refine hstep [_] rfl (by simp [Obs.Offers]) ?_ ha
    rcases addPreAcceptValue_value l.core.proposer _ _ with heq | heq
    · exact hp.of_eq heq
    · have hv := ((h.src hsrc).promise ht).mono hsub
      rw [hi] at hv
      exact hv.of_eq heq
  | noteReject =>
    refine hstep [] rfl (by simp) ?_ ha
    exact hp.of_eq (setOtherProposalID_value _ _).1
  | startAccept =>
    refine hstep [_] rfl (fun o ho => ?_) hp ha
    obtain rfl := List.mem_singleton.mp ho
    exact hp
  | advance => exact hstep [_, _] rfl (by simp [Obs.Offers]) (Or.inl rfl) (Or.inl rfl)
  | restart _ _ _ hstart => exact absurd hstart.restart_mem (hno n _ _)
  | restartFail _ hstart => exact absurd hstart.restart_mem (hno n _ _)
  | promiseFail | succeed | nextInstanceMsg | learnBySuccess | learnValue | executeFail | updateSystemVariables
  | checksumLogicFail | initSystemVariables | clearAllLog =>
    exact hstep [_] rfl (by simp [Obs.Offers]) hp ha
  | _ => exact hstep [] rfl (by simp) hp ha

end Step

theorem Stepping.offering {s : Abs} (hs : Stepping P inNetwork G s) (hno : NoRestart s.hist) (n : NodeID) :
    Offering (s.loc n) := by
  refine hs.forall_loc NoRestart NoRestart.suffix (I := fun _ l => Offering l) ?_ ?_ ?_ hno n
  · intro n
    constructor
    · exact fun o ho => absurd ho List.not_mem_nil
    · exact fun x hx => absurd hx List.not_mem_nil
    · exact fun msg hm => by cases hm
    · exact Or.inl rfl
    · exact Or.inl rfl
  · exact fun _ hg ih hact => (ih _).act hact hg
  · intro s n l k _ hg ih hact _
    have hown := (ih n).act hact hg
    have hsub : s.hist ⊆ l.hist := hact.hist_suffix.subset
    constructor
    · exact hown.hist
    · exact hown.net
    · exact fun msg hm => ((ih k).toSelf msg hm).mono hsub
    · exact (ih k).proposer.mono hsub
    · exact (ih k).acceptor.mono hsub

/-- A chosen value was proposed in the instance it is chosen in. -/
theorem Stepping.chosen_offered {s : Abs} (hs : Stepping P inNetwork G s) (hno : NoRestart s.hist) {i : Nat} {v : Bytes}
    (hv : v ≠ []) (hchosen : Chosen G s.hist i v) : ∃ m, .newValue m i v ∈ s.hist := by
  obtain ⟨b, Q, ⟨-, hcard⟩, hacc⟩ := hchosen
  have hpos : 0 < Q.card := by omega
  obtain ⟨m, hm⟩ := Finset.card_pos.mp hpos
  have hoffered : Offered s.hist i v := (hs.offering hno m).hist _ (hacc m hm)
  exact hoffered.resolve_left hv

end PhxPaxos
