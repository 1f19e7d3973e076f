import PhxPaxos.Steps.Core

/-!
# Handlers as chains of steps: sending and the acceptor

A handler of node `n` takes `w.loc s`, the node while it sends `s` to itself, to the `loc none` of its result by steps of
`Core.lean` (`onPrepare_chain`, `onAccept_chain`). What it sends to itself it hands to `self`, which works by steps up
to a rank of the message (`SelfOk`).
-/

namespace PhxPaxos

/-- How often the process of node `n` was started again. -/
def starts (n : NodeID) (h : List Obs) : Nat :=
  h.countP fun
    | .restart m _ _ => m = n
    | _ => false

/-- A chain of steps of node `n`, all of one process. -/
def Chain (P : Params) (can : PaxosMsg → Prop) (n : NodeID) : Loc → Loc → Prop :=
  Relation.ReflTransGen fun l l' => Act P can n l l' ∧ starts n l'.hist = starts n l.hist

variable {P : Params} {can : PaxosMsg → Prop} {n : NodeID}

namespace Chain

variable {l l' l'' : Loc}

@[refl] theorem refl : Chain P can n l l := Relation.ReflTransGen.refl

theorem trans (h : Chain P can n l l') (h' : Chain P can n l' l'') : Chain P can n l l'' := Relation.ReflTransGen.trans h h'

theorem single (h : Act P can n l l') (hs : starts n l'.hist = starts n l.hist) : Chain P can n l l' :=
  Relation.ReflTransGen.single ⟨h, hs⟩

theorem head (h : Act P can n l l') (hs : starts n l'.hist = starts n l.hist) (h' : Chain P can n l' l'') :
    Chain P can n l l'' :=
  (single h hs).trans h'

theorem tail (h : Chain P can n l l') (h' : Act P can n l' l'') (hs : starts n l''.hist = starts n l'.hist) :
    Chain P can n l l'' :=
  h.trans (single h' hs)

theorem of_eq (h : l = l') : Chain P can n l l' := h ▸ refl

/-- What each step of a process keeps, the chain keeps. -/
theorem keeps {I : Loc → Prop}
    (step : ∀ {l l'}, I l → Act P can n l l' → starts n l'.hist = starts n l.hist → I l') (h : Chain P can n l l')
    (hl : I l) : I l' := by
  induction h with
  | refl => exact hl
  | tail _ ha ih => exact step ih ha.1 ha.2

/-- The steps of the chain, whatever they are. -/
theorem acts (h : Chain P can n l l') : Relation.ReflTransGen (Act P can n) l l' :=
  Relation.ReflTransGen.mono (fun _ _ => And.left) l l' h

end Chain

/-! ## What all steps keep -/

theorem Act.me {l l' : Loc} (h : Act P can n l l') : l'.core.me = l.core.me := by
  cases h <;> rfl

theorem Chain.me {l l' : Loc} (h : Chain P can n l l') : l'.core.me = l.core.me :=
  Chain.keeps (I := fun k => k.core.me = l.core.me) (fun hl ha _ => ha.me.trans hl) h rfl

theorem Chain.me_eq {w w' : Proc} {s s' : Option PaxosMsg} (h : Chain P can n (w.loc s) (w'.loc s')) (hw : w.me = n) :
    w'.me = n :=
  (Chain.me h).trans hw

section Started

variable {i cp : Nat} {played : List Execution} {ok : Bool} {h h' : List Obs}

/-- A start adds history of the node alone, which tells of no message and no write. -/
theorem Started.obs (hs : Started n i cp played ok h h') : ∃ obs, h' = obs ++ h ∧ ∀ o ∈ obs,
    o = .playLog n played ok ∨ o = .restart n i cp ∨ ∃ i S, o = .updateSystemVariables n i S := by
  obtain ⟨obs, hobs, rfl⟩ := hs
  refine ⟨.playLog n played ok :: (obs ++ [.restart n i cp]), by simp, ?_⟩
  intro o ho
  rcases List.mem_cons.mp ho with rfl | ho
  · exact Or.inl rfl
  · rcases List.mem_append.mp ho with ho | ho
    · exact Or.inr (Or.inr (hobs o ho))
    · exact Or.inr (Or.inl (List.mem_singleton.mp ho))

theorem Started.suffix (hs : Started n i cp played ok h h') : h <:+ h' := by
  obtain ⟨obs, rfl, -⟩ := hs.obs
  exact List.suffix_append _ _

theorem Started.restart_mem (hs : Started n i cp played ok h h') : .restart n i cp ∈ h' := by
  obtain ⟨obs, -, rfl⟩ := hs
  exact List.mem_cons_of_mem _ (List.mem_append_right _ List.mem_cons_self)

/-- Anything else was there before. -/
theorem Started.mem_of (hs : Started n i cp played ok h h') {o : Obs} (ho : o ∈ h') (h₁ : o ≠ .playLog n played ok)
    (h₂ : o ≠ .restart n i cp) (h₃ : ∀ i S, o ≠ .updateSystemVariables n i S) : o ∈ h := by
  obtain ⟨obs, rfl, hobs⟩ := hs.obs
  refine (List.mem_append.mp ho).resolve_left fun ho => ?_
  rcases hobs o ho with heq | heq | ⟨i, S, heq⟩
  · exact h₁ heq
  · exact h₂ heq
  · exact h₃ i S heq

/-- A start counts. -/
theorem Started.starts_ne (hs : Started n i cp played ok h h') : starts n h' ≠ starts n h := by
  obtain ⟨obs, -, rfl⟩ := hs
  have hle : starts n (.restart n i cp :: h) ≤ starts n (.playLog n played ok :: (obs ++ .restart n i cp :: h)) := by
    refine List.Sublist.countP_le ?_
    exact (List.sublist_append_right _ _).trans (List.sublist_cons_self _ _)
  have hone : starts n (.restart n i cp :: h) = starts n h + 1 := by simp [starts]
  omega

end Started

/-- The history only grows. -/
theorem Act.hist_suffix {l l' : Loc} (h : Act P can n l l') : l.hist <:+ l'.hist := by
  cases h with
  | restart _ _ _ hstart => exact hstart.suffix
  | restartFail _ hstart => exact hstart.suffix
  | accept => exact ⟨[_, _, _], rfl⟩
  | promise => exact ⟨[_, _], rfl⟩
  | acceptFail => exact ⟨[_, _], rfl⟩
  | advance => exact ⟨[_, _], rfl⟩
  | _ => first | exact ⟨[], rfl⟩ | exact ⟨[_], rfl⟩

theorem Chain.hist_suffix {l l' : Loc} (h : Chain P can n l l') : l.hist <:+ l'.hist :=
  Chain.keeps (I := fun k => l.hist <:+ k.hist) (fun hl ha _ => hl.trans ha.hist_suffix) h List.suffix_rfl

/-! ## Messages to itself -/

/-- How many levels of messages to itself the handling of a message can use, itself included. -/
def MsgType.rank : MsgType → Nat
  | .paxosPrepare => 5
  | .paxosPrepareReply => 4
  | .paxosAccept => 3
  | .paxosAcceptReply => 2
  | .learnerProposerSendSuccess => 1
  | _ => 0

/-- A message that a node sends to itself, with `d` levels left. -/
structure ToSelf (d : Nat) (w : Proc) (msg : PaxosMsg) : Prop where
  rank : msg.msgType.rank ≤ d
  instanceID_le : msg.instanceID ≤ w.node.instanceID
  own : msg.msgType = .paxosPrepare ∨ msg.msgType = .paxosAccept →
    msg.nodeID = w.me ∧ msg.instanceID = w.node.instanceID ∧
      (msg.lastChecksum = 0 ∨ msg.lastChecksum = w.node.lastChecksum)

theorem ToSelf.of_ne {d : Nat} {w : Proc} {msg : PaxosMsg} (hr : msg.msgType.rank ≤ d)
    (hi : msg.instanceID ≤ w.node.instanceID) (h₁ : msg.msgType ≠ .paxosPrepare) (h₂ : msg.msgType ≠ .paxosAccept) :
    ToSelf d w msg :=
  ⟨hr, hi, fun h => h.elim (absurd · h₁) (absurd · h₂)⟩

/-- `self` handles the messages of `n` to itself by steps, up to rank `d`. -/
def SelfOk (P : Params) (can : PaxosMsg → Prop) (n : NodeID) (d : Nat) (self : Self) : Prop :=
  ∀ msg w, w.me = n → ToSelf d w msg → Chain P can n (w.loc (some msg)) ((self msg w).1.loc none)

theorem SelfOk.mono {d d' : Nat} {self : Self} (h : SelfOk P can n d' self) (hd : d ≤ d') : SelfOk P can n d self :=
  fun msg w hw hm => h msg w hw ⟨hm.rank.trans hd, hm.instanceID_le, hm.own⟩

/-- The message is at hand for `w`, which sends `s` to itself. -/
def AtHand (can : PaxosMsg → Prop) (d : Nat) (s : Option PaxosMsg) (w : Proc) (msg : PaxosMsg) : Prop :=
  s = none ∧ can msg ∨ s = some msg ∧ ToSelf d w msg

theorem AtHand.src {d : Nat} {s : Option PaxosMsg} {w : Proc} {msg : PaxosMsg} (h : AtHand can d s w msg) :
    Src can (w.loc s) msg := by
  rcases h with ⟨rfl, h⟩ | ⟨rfl, -⟩
  · exact Or.inl ⟨rfl, h⟩
  · exact Or.inr rfl

/-- A message that is not heeded. -/
theorem AtHand.drop {d : Nat} {s : Option PaxosMsg} {w : Proc} {msg : PaxosMsg} (h : AtHand can d s w msg)
    (hd : ToSelf d w msg → msg.msgType = .paxosPrepare ∨ msg.msgType = .paxosAccept →
      ¬ (w.node.core s).HeedsItself n) :
    Chain P can n (w.loc s) (w.loc none) := by
  rcases h with ⟨rfl, -⟩ | ⟨rfl, h⟩
  · exact .refl
  · exact .single (Act.dropSelf (l := w.loc (some msg)) rfl (hd h)) rfl

theorem AtHand.drop_of_ne {d : Nat} {s : Option PaxosMsg} {w : Proc} {msg : PaxosMsg} (h : AtHand can d s w msg)
    (h₁ : msg.msgType ≠ .paxosPrepare) (h₂ : msg.msgType ≠ .paxosAccept) :
    Chain P can n (w.loc s) (w.loc none) :=
  h.drop fun _ h => absurd h (by simp [h₁, h₂])

section Self

variable {d : Nat} {self : Self} (hself : SelfOk P can n d self)
include hself

theorem self_chain {l : Loc} {w : Proc} {msg : PaxosMsg} (hl : l = w.loc (some msg)) (hw : w.me = n)
    (hm : ToSelf d w msg) : Chain P can n l ((self msg w).1.loc none) := by
  subst hl
  exact hself msg w hw hm

/-- `Base::BroadcastMessage`, to itself first. -/
theorem broadcastFirst_chain {l : Loc} {w : Proc} {msg : PaxosMsg} (hl : l = w.loc (some msg)) (hw : w.me = n)
    (hm : ToSelf d w msg)
    (hsend : ∀ w' : Proc, w'.me = n → w.hist <:+ w'.hist → Sendable n (w'.loc none) w'.others msg) :
    Chain P can n l ((w.broadcastMessage self .first msg).loc none) := by
  subst hl
  have h := hself msg w hw hm
  unfold Proc.broadcastMessage
  simp only []
  split
  · exact h
  · exact h.tail (Act.emit (l := (self msg w).1.loc none) (hsend _ (h.me_eq hw) h.hist_suffix)) rfl

/-- `Base::SendMessage` -/
theorem send_chain {l : Loc} {w : Proc} {dst : NodeID} {msg : PaxosMsg} (hl : l = w.loc none) (hw : w.me = n)
    (hm : dst = n → ToSelf d w msg) :
    Chain P can n (l.send n dst msg) ((w.sendMessage self dst msg).loc none) := by
  subst hl
  unfold Proc.sendMessage
  by_cases hdst : dst = n
  · rw [if_pos (hdst.trans hw.symm)]
    have : (w.loc none).send n dst msg = w.loc (some msg) := by simp [Loc.send, hdst, Proc.loc, Node.core]
    exact self_chain hself this hw (hm hdst)
  · rw [if_neg (by rwa [hw])]
    have : (w.loc none).send n dst msg = (w.emit {dst} msg).loc none := by
      simp [Loc.send, hdst, Proc.loc, Proc.emit, Node.core, Core.gid, Config.getGid]
    rw [this]

end Self

/-! ## The acceptor -/

section Acceptor

variable {d : Nat} {self : Self} {w : Proc} {s : Option PaxosMsg} {msg : PaxosMsg}

theorem writeState_true (hp : w.nextPut = true) (i : Nat) (r : AcceptorStateData) :
    w.writeState i r = ({ w with env.puts := w.env.puts.tail, node.storage := w.node.storage.put i r }, 0) := by
  rw [Proc.writeState, if_pos hp]

theorem writeState_false (hp : w.nextPut = false) (i : Nat) (r : AcceptorStateData) :
    w.writeState i r = ({ w with env.puts := w.env.puts.tail }, -1) := by
  rw [Proc.writeState, if_neg (by simp [hp])]

/-- `AcceptorState::Persist` when the write succeeds. -/
theorem persist_true (hp : w.nextPut = true) :
    AcceptorState.persist P w =
      let a := { w.node.acceptor with checksum := (w.node.core none).persistChecksum P w.node.acceptor.acceptedValue }
      ({ w with
          node.acceptor := a
          node.storage := w.node.storage.put w.node.instanceID (a.record w.node.instanceID)
          env.puts := w.env.puts.tail
          hist := .persist w.me w.node.instanceID w.node.acceptor.acceptedValue true :: w.hist }, 0) := by
  unfold AcceptorState.persist
  simp only []
  rw [writeState_true (by exact hp)]
  rfl

/-- `AcceptorState::Persist` when the write fails. -/
theorem persist_false (hp : w.nextPut = false) :
    AcceptorState.persist P w =
      ({ w with
          node.acceptor.checksum := (w.node.core none).persistChecksum P w.node.acceptor.acceptedValue
          env.puts := w.env.puts.tail
          hist := .persist w.me w.node.instanceID w.node.acceptor.acceptedValue false :: w.hist }, -1) := by
  unfold AcceptorState.persist
  simp only []
  rw [writeState_false (by exact hp)]
  rfl

/-- `Acceptor::OnPrepare` -/
theorem onPrepare_chain (hself : SelfOk P can n d self) (hw : w.me = n) (h : AtHand can (d + 1) s w msg)
    (hd : 4 ≤ d) (ht : msg.msgType = .paxosPrepare) (hi : msg.instanceID = w.node.instanceID) :
    Chain P can n (w.loc s) ((onPrepare P self msg w).1.loc none) := by
  unfold onPrepare
  simp only []
  by_cases hb : msg.ballot.ge w.node.acceptor.promiseBallot = true
  · rw [if_pos hb]
    rw [BallotNumber.ge_iff] at hb
    cases hp : w.nextPut with
    | true =>
      rw [persist_true (by exact hp)]
      simp only [ne_eq, not_true_eq_false, if_false]
      refine .head (Act.promise h.src ht hi hb) rfl ?_
      subst hw
      exact send_chain hself rfl rfl fun _ => .of_ne hd le_rfl nofun nofun
    | false =>
      rw [persist_false (by exact hp)]
      simp only [ne_eq, reduceCtorEq, not_false_eq_true, if_true]
      subst hw
      exact .single (Act.promiseFail h.src ht hi hb) rfl
  · rw [if_neg hb]
    rw [BallotNumber.ge_iff, not_le] at hb
    subst hw
    refine .head (Act.rejectPrepare h.src ht hi hb) rfl ?_
    exact send_chain hself rfl rfl fun _ => .of_ne hd le_rfl nofun nofun

/-- `Acceptor::OnAccept` -/
theorem onAccept_chain (hself : SelfOk P can n d self) (hw : w.me = n) (h : AtHand can (d + 1) s w msg)
    (hd : 2 ≤ d) (ht : msg.msgType = .paxosAccept) (hi : msg.instanceID = w.node.instanceID) :
    Chain P can n (w.loc s) ((onAccept P self msg w).loc none) := by
  unfold onAccept
  simp only []
  by_cases hb : msg.ballot.ge w.node.acceptor.promiseBallot = true
  · rw [if_pos hb]
    rw [BallotNumber.ge_iff] at hb
    cases hp : w.nextPut with
    | true =>
      rw [persist_true (by exact hp)]
      simp only [ne_eq, not_true_eq_false, if_false]
      refine .head (Act.accept h.src ht hi hb) rfl ?_
      subst hw
      exact send_chain hself rfl rfl fun _ => .of_ne hd le_rfl nofun nofun
    | false =>
      rw [persist_false (by exact hp)]
      simp only [ne_eq, reduceCtorEq, not_false_eq_true, if_true]
      subst hw
      exact .single (Act.acceptFail h.src ht hi hb) rfl
  · rw [if_neg hb]
    rw [BallotNumber.ge_iff, not_le] at hb
    subst hw
    refine .head (Act.rejectAccept h.src ht hi hb) rfl ?_
    exact send_chain hself rfl rfl fun _ => .of_ne hd le_rfl nofun nofun

end Acceptor

end PhxPaxos
