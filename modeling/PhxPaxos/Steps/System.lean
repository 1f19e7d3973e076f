import PhxPaxos.Steps.RefineNode

/-!
# The group as a transition system of steps

`Abs` is the group seen through the cores of its nodes, `Stepping P D G` its reachable states when one node takes one
step (`Act`) at a time. Every state that the model reaches is, seen so, a state of this system
(`Reachable.stepping`), with the same network and the same history. `Stepping.forall_loc` is the induction rule by
which invariants are proved from then on: what the steps of a node do to its own part, and that a node keeps its part
while others act.
-/

namespace PhxPaxos

variable {P : Params} {D : Deliver} {G : Group}

/-! ## States -/

structure Abs where
  core : NodeID → Core
  net : List Envelope
  hist : List Obs

namespace Abs

/-- Node `n` with its surroundings. -/
def loc (s : Abs) (n : NodeID) : Loc := ⟨s.core n, s.net, s.hist⟩

/-- Node `n` has taken a step to `l`. -/
def update (s : Abs) (n : NodeID) (l : Loc) : Abs := ⟨Function.update s.core n l.core, l.net, l.hist⟩

@[simp] theorem update_loc_self (s : Abs) (n : NodeID) (l : Loc) : (s.update n l).loc n = l := by
  simp [loc, update]

theorem update_loc_ne (s : Abs) {n k : NodeID} (h : k ≠ n) (l : Loc) :
    (s.update n l).loc k = ⟨s.core k, l.net, l.hist⟩ := by
  simp [loc, update, h]

@[simp] theorem update_hist (s : Abs) (n : NodeID) (l : Loc) : (s.update n l).hist = l.hist := rfl

@[simp] theorem update_loc (s : Abs) (n : NodeID) : s.update n (s.loc n) = s := by
  simp [loc, update]

@[simp] theorem update_update (s : Abs) (n : NodeID) (l l' : Loc) : (s.update n l).update n l' = s.update n l' := by
  simp [update]

end Abs

/-- The group of the model as the steps see it. -/
def Sys.abs (s : Sys) : Abs := ⟨fun n => (s.node n).core none, s.net, s.hist⟩

/-- The core of node `n` after `Instance::Init` on an empty log. -/
def Group.core (G : Group) (n : NodeID) : Core where
  me := n
  isIMFollower := (G.config n).isIMFollower
  nodeInfoList := (G.config n).nodeInfoList
  systemVSM := SystemVSM.init none (G.config n).nodeInfoList
  records := []
  storedSystemVariables := none
  storedMinChosen := none
  maxChosenInstanceID := 0
  instanceID := 0
  lastChecksum := 0
  acceptor := {}
  learner := {}
  sendInstanceID := 0
  sendChecksum := 0
  proposer := {}
  counted := ∅
  isPreparing := false
  isAccepting := false
  canSkipPrepare := false
  wasRejectBySomeone := false
  armed := false
  timeoutInstanceID := 0
  commitCtx := {}
  calls := []
  retryQueue := []
  toSelf := none

def Group.abs (G : Group) : Abs := ⟨G.core, [], []⟩

theorem Sys.init_abs : (Sys.init P G).abs = G.abs := by
  unfold Sys.abs Group.abs
  congr 1
  funext n
  calc ((Sys.init P G).node n).core none = { G.core n with me := (G.config n).myNodeID } := rfl
    _ = G.core n := by rw [G.myNodeID n]; rfl

/-! ## Steps -/

/-- The messages that may arrive at node `n`. -/
def Deliver.Can (D : Deliver) (net : List Envelope) (n : NodeID) (msg : PaxosMsg) : Prop := ∃ gid, D.May net n gid msg

/-- The states that the group reaches by steps of its nodes. -/
inductive Stepping (P : Params) (D : Deliver) (G : Group) : Abs → Prop
  | init : Stepping P D G G.abs
  | act {s n l} : Stepping P D G s → Act P (D.Can s.net n) n (s.loc n) l → Stepping P D G (s.update n l)

/-- Messages stay in the network. -/
theorem Act.net_suffix {can : PaxosMsg → Prop} {n : NodeID} {l l' : Loc} (h : Act P can n l l') :
    l.net <:+ l'.net := by
  have hsend (dst : NodeID) (msg : PaxosMsg) (l : Loc) : l.net <:+ (l.send n dst msg).net := by
    unfold Loc.send
    split
    · exact List.suffix_rfl
    · exact List.suffix_cons _ _
  cases h with
  | sendTo | promise | rejectPrepare | accept | rejectAccept | sendOne => exact hsend _ _ _
  | emit | startAccept => exact List.suffix_cons _ _
  | _ => exact List.suffix_rfl

/-- The node that an observation is about. -/
def Obs.node : Obs → NodeID
  | newValue n _ _ | initSystemVariables n _ _ | prepare n _ _ _ | promise n _ _ _ _ | countPromise n _ _ _ _ _ _
  | accept n _ _ _ _ | setAccepted n _ _ _ | persist n _ _ _ | accepted n _ _ _ | success n _ _ _ _
  | nextInstanceMsg n _ _ _ | learn n _ _ _ | execute n _ _ _ _ | playLog n _ _ | newInstance n _ _ | updateSystemVariables n _ _
  | checksumLogicFail n _ | clearAllLog n | restart n _ _ => n

/-- A step of node `n` writes history of node `n`. -/
theorem Act.obs {can : PaxosMsg → Prop} {n : NodeID} {l l' : Loc} (h : Act P can n l l') :
    ∃ obs, l'.hist = obs ++ l.hist ∧ ∀ o ∈ obs, o.node = n := by
  have one (o : Obs) (ho : o.node = n) : ∃ obs, o :: l.hist = obs ++ l.hist ∧ ∀ o ∈ obs, o.node = n :=
    ⟨[o], rfl, by simpa using ho⟩
  have start {i cp : Nat} {played : List Execution} {ok : Bool} {h : List Obs}
      (hs : Started n i cp played ok l.hist h) : ∃ obs, h = obs ++ l.hist ∧ ∀ o ∈ obs, o.node = n := by
    obtain ⟨obs, hh, hobs⟩ := hs.obs
    refine ⟨obs, hh, fun o ho => ?_⟩
    rcases hobs o ho with rfl | rfl | ⟨i, S, rfl⟩ <;> rfl
  cases h with
  | promise | acceptFail | advance =>
    refine ⟨[_, _], rfl, ?_⟩
    simp [Obs.node]
  | accept =>
    refine ⟨[_, _, _], rfl, ?_⟩
    simp [Obs.node]
  | restart _ _ _ hstart => exact start hstart
  | restartFail _ hstart => exact start hstart
  | promiseFail | newValue | startPrepare | countPromise | startAccept | succeed | nextInstanceMsg | learnBySuccess
  | learnValue | executeFail | updateSystemVariables | checksumLogicFail | initSystemVariables | clearAllLog =>
    exact one _ rfl
  | _ => exact ⟨[], rfl, by simp⟩

/-- More messages may arrive: the step is still possible. -/
theorem Act.mono {can can' : PaxosMsg → Prop} {n : NodeID} {l l' : Loc} (hcan : ∀ msg, can msg → can' msg)
    (h : Act P can n l l') : Act P can' n l l' := by
  have hsrc {l : Loc} {msg : PaxosMsg} : Src can l msg → Src can' l msg := Or.imp_left (And.imp_right (hcan msg))
  have hor {l : Loc} {msg : PaxosMsg} : (can msg ∨ l.core.toSelf = some msg) → (can' msg ∨ l.core.toSelf = some msg) :=
    Or.imp_left (hcan msg)
  cases h with
  | dropSelf h₁ h₂ => exact .dropSelf h₁ h₂
  | sendTo h₁ h₂ h₃ => exact .sendTo h₁ h₂ h₃
  | emit h => exact .emit h
  | promise h h₁ h₂ h₃ => exact .promise (hsrc h) h₁ h₂ h₃
  | promiseFail h h₁ h₂ h₃ => exact .promiseFail (hsrc h) h₁ h₂ h₃
  | rejectPrepare h h₁ h₂ h₃ => exact .rejectPrepare (hsrc h) h₁ h₂ h₃
  | accept h h₁ h₂ h₃ => exact .accept (hsrc h) h₁ h₂ h₃
  | acceptFail h h₁ h₂ h₃ => exact .acceptFail (hsrc h) h₁ h₂ h₃
  | rejectAccept h h₁ h₂ h₃ => exact .rejectAccept (hsrc h) h₁ h₂ h₃
  | newValue h₁ h₂ h₃ h₄ => exact .newValue h₁ h₂ h₃ h₄
  | startPrepare h₁ h₂ => exact .startPrepare h₁ h₂
  | countPromise h h₁ h₂ h₃ h₄ h₅ h₆ => exact .countPromise (hsrc h) h₁ h₂ h₃ h₄ h₅ h₆
  | noteReject h h₁ h₂ => exact .noteReject (hsrc h) h₁ h₂
  | startAccept h₁ h₂ => exact .startAccept h₁ h₂
  | countAccept h h₁ h₂ h₃ h₄ h₅ h₆ => exact .countAccept (hsrc h) h₁ h₂ h₃ h₄ h₅ h₆
  | succeed h₁ h₂ h₃ h₄ => exact .succeed h₁ h₂ h₃ h₄
  | disarm h => exact .disarm h
  | rearm h => exact .rearm h
  | nextInstanceMsg h h₁ h₂ => exact .nextInstanceMsg (hcan _ h) h₁ h₂
  | learnBySuccess h h₁ h₂ h₃ => exact .learnBySuccess (hsrc h) h₁ h₂ h₃
  | learnValue h h₁ h₂ => exact .learnValue (hsrc h) h₁ h₂
  | learnValueFail h h₁ h₂ => exact .learnValueFail (hsrc h) h₁ h₂
  | executeFail h h₁ => exact .executeFail h h₁
  | advance h₁ h₂ h₃ => exact .advance h₁ h₂ h₃
  | updateSystemVariables h => exact .updateSystemVariables h
  | adoptChecksum h h₁ h₂ h₃ h₄ => exact .adoptChecksum (hor h) h₁ h₂ h₃ h₄
  | checksumLogicFail h h₁ h₂ h₃ h₄ => exact .checksumLogicFail (hor h) h₁ h₂ h₃ h₄
  | retry h => exact .retry fun msg hm => (h msg hm).imp_right (hcan msg)
  | sendStart => exact .sendStart
  | sendOne h₁ h₂ h₃ => exact .sendOne h₁ h₂ h₃
  | commitRefused h₁ h₂ => exact .commitRefused h₁ h₂
  | startCommit h₁ h₂ h₃ => exact .startCommit h₁ h₂ h₃
  | initSystemVariables h => exact .initSystemVariables h
  | commitTimeout h₁ h₂ => exact .commitTimeout h₁ h₂
  | newCall h₁ h₂ => exact .newCall h₁ h₂
  | lock h₁ h₂ h₃ => exact .lock h₁ h₂ h₃
  | lockFail h₁ h₂ h₃ => exact .lockFail h₁ h₂ h₃
  | getResult h₁ h₂ h₃ => exact .getResult h₁ h₂ h₃
  | clearAllLog stored h => exact .clearAllLog stored h
  | setMinChosen minChosen => exact .setMinChosen minChosen
  | restart h₁ h₂ h₃ h₄ h₅ h₆ h₇ => exact .restart h₁ h₂ h₃ h₄ h₅ h₆ h₇
  | restartFail h₁ h₂ h₃ => exact .restartFail h₁ h₂ h₃

theorem Deliver.Can.mono {net net' : List Envelope} (hsub : net ⊆ net') {n : NodeID} {msg : PaxosMsg}
    (h : D.Can net n msg) : D.Can net' n msg :=
  h.imp fun _ => D.mono hsub

/-- A chain of steps of one node, with the messages that could arrive when it began. -/
theorem Stepping.chain {s : Abs} {n : NodeID} {l : Loc} (hs : Stepping P D G s)
    (h : Relation.ReflTransGen (Act P (D.Can s.net n) n) (s.loc n) l) : Stepping P D G (s.update n l) := by
  have hboth : Stepping P D G (s.update n l) ∧ s.net <:+ l.net := by
    induction h with
    | refl => exact ⟨by simpa using hs, List.suffix_rfl⟩
    | tail _ hact ih =>
      refine ⟨?_, ih.2.trans hact.net_suffix⟩
      have hact' := hact.mono fun _ => Deliver.Can.mono ih.2.subset
      have := Stepping.act ih.1 (by rw [Abs.update_loc_self]; exact hact')
      simpa using this
  exact hboth.1

/-! ## The induction rule -/

/-- **Induction over the steps.** `I n` speaks about node `n` with its surroundings, in runs whose history is `Good`.
It is shown to hold at the start, to be kept by the steps of node `n` and by those of every other node. -/
theorem Stepping.forall_loc (Good : List Obs → Prop) (hgood : ∀ {h h'}, h <:+ h' → Good h' → Good h)
    {I : NodeID → Loc → Prop} (init : ∀ n, I n (G.abs.loc n))
    (own : ∀ {s n l}, Stepping P D G s → Good l.hist → (∀ k, I k (s.loc k)) → Act P (D.Can s.net n) n (s.loc n) l → I n l)
    (other : ∀ {s n l k}, Stepping P D G s → Good l.hist → (∀ k, I k (s.loc k)) →
      Act P (D.Can s.net n) n (s.loc n) l → k ≠ n → I k ⟨s.core k, l.net, l.hist⟩)
    {s : Abs} (hs : Stepping P D G s) (hg : Good s.hist) : ∀ n, I n (s.loc n) := by
  induction hs with
  | init => exact init
  | @act s n l hs hact ih =>
    have ih := ih (hgood hact.hist_suffix hg)
    intro k
    by_cases hk : k = n
    · subst hk
      rw [Abs.update_loc_self]
      exact own hs hg ih hact
    · rw [Abs.update_loc_ne _ hk]
      exact other hs hg ih hact hk

/-! ## The model refines the steps -/

/-- What an event needs of a node to be a chain of its steps. -/
structure Ready (D : Deliver) (n : NodeID) (l : Loc) : Prop where
  me : l.core.me = n
  /-- A message of the retry queue arrived once, so it may arrive again. -/
  retryQueue : ∀ m ∈ l.core.retryQueue, D.Can l.net n m
  /-- The value of a commit carries the id of its state machine. -/
  commit : ∀ v, l.core.commitCtx.value = some v → v ≠ []

theorem CommitCtx.setResult_value {c : CommitCtx} {ret : PaxosTryCommitRet} {i : Option Nat} {v w : Bytes}
    (h : (c.setResult ret i v).value = some w) : c.value = some w := by
  unfold setResult at h
  split at h
  · exact h
  · cases h

theorem packPaxosValue_ne_nil (v : Bytes) (smid : Nat) : packPaxosValue v smid ≠ [] := by
  simp [packPaxosValue]

theorem Ready.act {n : NodeID} {s : Abs} {l : Loc} (h : Ready D n (s.loc n))
    (hact : Act P (D.Can s.net n) n (s.loc n) l) : Ready D n l := by
  have hold : ∀ m ∈ (s.core n).retryQueue, D.Can l.net n m :=
    fun m hm => (h.retryQueue m hm).mono hact.net_suffix.subset
  refine ⟨hact.me.trans h.me, ?_, ?_⟩
  · cases hact with
    | retry hq =>
      intro m hm
      exact (hq m hm).elim (h.retryQueue m) id
    | restart =>
      intro m hm
      cases hm
    | _ => exact hold
  · cases hact with
    | executeFail | advance | commitRefused | commitTimeout => exact fun v hv => h.commit v (CommitCtx.setResult_value hv)
    | startCommit hnew hv hv' =>
      intro v'' heq
      cases heq
      rcases hv' with rfl | ⟨-, hv'⟩
      · exact h.commit _ hv
      · exact hv' (h.commit _ hv)
    | lock =>
      intro v hv
      cases hv
      exact packPaxosValue_ne_nil _ _
    | restart =>
      intro v hv
      cases hv
    | _ => exact h.commit

theorem Stepping.ready {s : Abs} (hs : Stepping P D G s) (n : NodeID) : Ready D n (s.loc n) := by
  refine hs.forall_loc (fun _ => True) (fun _ _ => trivial) (I := Ready D) ?_ ?_ ?_ trivial n
  · exact fun n => ⟨rfl, by simp [Group.abs, Abs.loc, Group.core], by simp [Group.abs, Abs.loc, Group.core]⟩
  · exact fun _ _ h hact => (h _).act hact
  · intro s n l k _ _ h hact _
    exact ⟨(h k).me, fun m hm => ((h k).retryQueue m hm).mono hact.net_suffix.subset, (h k).commit⟩

theorem Sys.proc_loc (s : Sys) (n : NodeID) (env : Env) : (s.proc n env).loc none = s.abs.loc n := rfl

theorem Sys.step_abs (s : Sys) (e : Event) :
    (s.step P e).abs = s.abs.update e.node ((handle P e.kind (s.proc e.node e.env)).loc none) := by
  unfold Sys.step Sys.abs Abs.update
  congr 1
  funext n
  by_cases h : n = e.node
  · subst h
    simp [Proc.loc]
  · simp [h]

/-- **The model refines the steps**: every state that the group reaches, the steps reach. -/
theorem Reachable.stepping {s : Sys} (h : Reachable P D G s) : Stepping P D G s.abs := by
  induction h with
  | init =>
    rw [Sys.init_abs]
    exact .init
  | @step s e _ hcan ih =>
    rw [Sys.step_abs]
    have hready := ih.ready e.node
    refine ih.chain ?_
    rw [← Sys.proc_loc s e.node e.env]
    exact handle_acts (w := s.proc e.node e.env) hready.me (fun gid msg hk => ⟨gid, hcan gid msg hk⟩) hready.retryQueue hready.commit

end PhxPaxos
