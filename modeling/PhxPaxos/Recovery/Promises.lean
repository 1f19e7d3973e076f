import PhxPaxos.Invariants.Messages
import PhxPaxos.Model.Run

/-!
# Promises and restarts

A process that starts again reads its promise back from the record of the largest instance. The acceptor writes its
promise into that record, but so does the learner with the ballot of the value it learns, however low, and a checkpoint
transfer clears the log. As long as no restart finds the log in such a state (`RestartsHeld`), promises survive
(`promises_survive_restart`) and a node never goes below what it promised (`pledges_ordered`).
-/

namespace PhxPaxos

variable {P : Params} {D : Deliver} {G : Group}

/-! ## Pledges and writes -/

/-- The ballot that node `n` promises or accepts at this moment. -/
def Obs.pledge (n : NodeID) : Obs → Option BallotNumber
  | .promise m _ b _ _ | .setAccepted m _ b _ => if m = n then some b else none
  | _ => none

/-- The ballots that node `n` has promised or accepted. -/
def pledges (n : NodeID) (h : List Obs) : List BallotNumber := h.filterMap (Obs.pledge n)

/-- A change of the record from which the promise is read back. -/
inductive LogWrite
  /-- The acceptor wrote its state. -/
  | persist
  /-- The learner wrote a value with the ballot `b`. -/
  | learnValue (b : BallotNumber)
  | clearAllLog

def Obs.logWrite (n : NodeID) : Obs → Option LogWrite
  | .persist m _ _ true => if m = n then some .persist else none
  | .learn m _ _ (.value b _) => if m = n then some (.learnValue b) else none
  | .clearAllLog m => if m = n then some .clearAllLog else none
  | _ => none

/-- The last change of the log of node `n`. -/
def lastWrite (n : NodeID) (h : List Obs) : Option LogWrite := h.findSome? (Obs.logWrite n)

/-- The last write to the log of node `n` is neither a learned value with a ballot below one that the node has promised
or accepted, nor the clearing of the log after a promise. -/
def Held (n : NodeID) (h : List Obs) : Prop :=
  match lastWrite n h with
  | some (.learnValue b) => ∀ c ∈ pledges n h, c ≤ b
  | some .clearAllLog => pledges n h = []
  | _ => True

instance (n : NodeID) (h : List Obs) : Decidable (Held n h) := by
  unfold Held
  split <;> infer_instance

/-- Every restart finds the log so. -/
def RestartsHeld (h : List Obs) : Prop := ∀ {n i cp older}, Past h (.restart n i cp) older → Held n older

theorem RestartsHeld.suffix {h h' : List Obs} (hsuf : h <:+ h') (hr : RestartsHeld h') : RestartsHeld h :=
  fun hp => hr (hp.mono hsuf)

section Read

variable {n : NodeID} {o : Obs} {obs h : List Obs}

@[simp] theorem pledges_cons : pledges n (o :: h) = (o.pledge n).toList ++ pledges n h := by
  unfold pledges
  rw [List.filterMap_cons]
  cases o.pledge n <;> rfl

@[simp] theorem lastWrite_cons : lastWrite n (o :: h) = (o.logWrite n).or (lastWrite n h) := by
  unfold lastWrite
  rw [List.findSome?_cons]
  cases o.logWrite n <;> rfl

theorem Obs.pledge_of_ne (ho : o.node ≠ n) : o.pledge n = none := by
  cases o with
  | promise | setAccepted => exact if_neg ho
  | _ => rfl

theorem Obs.logWrite_of_ne (ho : o.node ≠ n) : o.logWrite n = none := by
  cases o with
  | persist m i v ok =>
    cases ok with
    | true => exact if_neg ho
    | false => rfl
  | learn m i v how =>
    cases how with
    | success => rfl
    | value => exact if_neg ho
  | clearAllLog => exact if_neg ho
  | _ => rfl

theorem pledges_append (hobs : ∀ o ∈ obs, o.pledge n = none) : pledges n (obs ++ h) = pledges n h := by
  unfold pledges
  rw [List.filterMap_append, List.filterMap_eq_nil_iff.mpr hobs, List.nil_append]

theorem lastWrite_append (hobs : ∀ o ∈ obs, o.logWrite n = none) : lastWrite n (obs ++ h) = lastWrite n h := by
  unfold lastWrite
  rw [List.findSome?_append, List.findSome?_eq_none_iff.mpr hobs, Option.none_or]

/-- A start promises and writes nothing. -/
theorem pledges_started {i cp : Nat} {played : List Execution} {ok : Bool} {h' : List Obs}
    (hs : Started n i cp played ok h h') : pledges n h' = pledges n h := by
  obtain ⟨obs, rfl, hobs⟩ := hs.obs
  refine pledges_append fun o ho => ?_
  rcases hobs o ho with rfl | rfl | ⟨i, S, rfl⟩ <;> rfl

theorem lastWrite_started {i cp : Nat} {played : List Execution} {ok : Bool} {h' : List Obs}
    (hs : Started n i cp played ok h h') : lastWrite n h' = lastWrite n h := by
  obtain ⟨obs, rfl, hobs⟩ := hs.obs
  refine lastWrite_append fun o ho => ?_
  rcases hobs o ho with rfl | rfl | ⟨i, S, rfl⟩ <;> rfl

theorem mem_pledges_of_promise {i b acc v} (hm : .promise n i b acc v ∈ h) : b ∈ pledges n h :=
  List.mem_filterMap.mpr ⟨_, hm, if_pos rfl⟩

theorem mem_pledges_of_setAccepted {i b v} (hm : .setAccepted n i b v ∈ h) : b ∈ pledges n h :=
  List.mem_filterMap.mpr ⟨_, hm, if_pos rfl⟩

theorem mem_pledges_mono {h h' : List Obs} (hsub : h ⊆ h') {b : BallotNumber} (hm : b ∈ pledges n h) :
    b ∈ pledges n h' := by
  obtain ⟨o, ho, hb⟩ := List.mem_filterMap.mp hm
  exact List.mem_filterMap.mpr ⟨o, hsub ho, hb⟩

end Read

/-! ## Reading the log back -/

/-- The promise in the latest record. -/
def loggedPromise : List (Nat × AcceptorStateData) → BallotNumber
  | [] => {}
  | x :: _ => x.2.promiseBallot

/-- No record is of a larger instance than the latest one. -/
def Sorted (records : List (Nat × AcceptorStateData)) : Prop := records.Pairwise fun x y => y.1 ≤ x.1

/-- The promise that `Acceptor::Init` reads back is that of the latest record. -/
theorem Acceptor.init_promise {records : List (Nat × AcceptorStateData)} (hs : Sorted records) :
    (Acceptor.init { records := records }).2.promiseBallot = loggedPromise records := by
  cases records with
  | nil => rfl
  | cons x xs =>
    have hmax : ((x :: xs).map Prod.fst).max? = some x.1 := by
      rw [List.max?_eq_some_iff]
      refine ⟨List.mem_cons_self, ?_⟩
      intro i hi
      obtain ⟨y, hy, rfl⟩ := List.mem_map.mp hi
      rcases List.mem_cons.mp hy with rfl | hy
      · exact le_rfl
      · exact List.rel_of_pairwise_cons hs hy
    have hget : (x :: xs).lookup x.1 = some x.2 := List.lookup_cons_self
    unfold Acceptor.init LogStorage.getMaxInstanceID LogStorage.get
    simp only [hmax, hget]
    rfl

theorem Acceptor.init_records_le {records : List (Nat × AcceptorStateData)} {x : Nat × AcceptorStateData}
    (hx : x ∈ records) : x.1 ≤ (Acceptor.init { records := records }).1 := by
  have hm : x.1 ∈ records.map Prod.fst := List.mem_map.mpr ⟨x, hx, rfl⟩
  unfold Acceptor.init LogStorage.getMaxInstanceID LogStorage.get
  cases hmax : (records.map Prod.fst).max? with
  | none =>
    rw [List.max?_eq_none_iff] at hmax
    rw [hmax] at hm
    cases hm
  | some i =>
    have hle : x.1 ≤ i := (List.max?_eq_some_iff.mp hmax).2 _ hm
    simp only []
    split <;> exact hle

/-! ## The steps of the log -/

/-- What a step does to the promise, the log and what is read off the history. -/
inductive LogStep (n : NodeID) (l l' : Loc) : Prop
  | same : l.core.instanceID ≤ l'.core.instanceID →
      l'.core.acceptor.promiseBallot = l.core.acceptor.promiseBallot → l'.core.records = l.core.records →
      pledges n l'.hist = pledges n l.hist → lastWrite n l'.hist = lastWrite n l.hist → LogStep n l l'
  | pledge (r : AcceptorStateData) : l.core.acceptor.promiseBallot ≤ r.promiseBallot →
      l'.core.instanceID = l.core.instanceID → l'.core.acceptor.promiseBallot = r.promiseBallot →
      l'.core.records = (l.core.instanceID, r) :: l.core.records →
      pledges n l'.hist = r.promiseBallot :: pledges n l.hist → lastWrite n l'.hist = some .persist → LogStep n l l'
  | learnValue (r : AcceptorStateData) : l'.core.instanceID = l.core.instanceID →
      l'.core.acceptor.promiseBallot = l.core.acceptor.promiseBallot →
      l'.core.records = (l.core.instanceID, r) :: l.core.records →
      pledges n l'.hist = pledges n l.hist → lastWrite n l'.hist = some (.learnValue r.promiseBallot) → LogStep n l l'
  | clearAllLog : l'.core.instanceID = l.core.instanceID →
      l'.core.acceptor.promiseBallot = l.core.acceptor.promiseBallot → l'.core.records = [] →
      pledges n l'.hist = pledges n l.hist → lastWrite n l'.hist = some .clearAllLog → LogStep n l l'
  | restart (cp : Nat) (played : List Execution) :
      (Acceptor.init { records := l.core.records }).1 ≤ l'.core.instanceID →
      l'.core.acceptor.promiseBallot = (Acceptor.init { records := l.core.records }).2.promiseBallot →
      l'.core.records = l.core.records → Started n l.core.instanceID cp played true l.hist l'.hist → LogStep n l l'

section Step

variable {can : PaxosMsg → Prop} {n : NodeID} {l l' : Loc}

theorem Act.logStep (h : Act P can n l l') (hputs : ∀ i v, .persist n i v false ∉ l'.hist) : LogStep n l l' := by
  cases h with
  | @promise msg _ _ _ hb =>
    refine .pledge ((l.core.promised P msg.ballot).record l.core.instanceID) hb rfl rfl rfl ?_ ?_
    · simp [Obs.pledge, AcceptorState.record, AcceptorStateData.promiseBallot, Core.promised]
    · simp [Obs.logWrite]
  | promiseFail => exact absurd List.mem_cons_self (hputs _ _)
  | @accept msg _ _ _ hb =>
    refine .pledge ((l.core.acceptedWith P msg.ballot msg.value).record l.core.instanceID) hb rfl rfl rfl ?_ ?_
    · simp [Obs.pledge, AcceptorState.record, AcceptorStateData.promiseBallot, Core.acceptedWith]
    · simp [Obs.logWrite]
  | acceptFail => exact absurd List.mem_cons_self (hputs _ _)
  | learnValue =>
    refine .learnValue (learnedRecord l.core.instanceID _ _ _) rfl rfl rfl ?_ ?_
    · simp [Obs.pledge]
    · simp [Obs.logWrite, learnedRecord, AcceptorStateData.promiseBallot]
  | clearAllLog =>
    refine .clearAllLog rfl rfl rfl ?_ ?_
    · simp [Obs.pledge]
    · simp [Obs.logWrite]
  | @restart cp i a checksum _ _ _ _ played _ _ hplace _ hstart =>
    have hcase : (Acceptor.init { records := l.core.records }).1 ≤ i ∧
        a.promiseBallot = (Acceptor.init { records := l.core.records }).2.promiseBallot := by
      rcases hplace with heq | ⟨hlt, -, rfl⟩
      · rw [← heq]
        exact ⟨le_rfl, rfl⟩
      · exact ⟨hlt.le, rfl⟩
    exact .restart cp played hcase.1 hcase.2 rfl hstart
  | restartFail _ hstart => exact .same le_rfl rfl rfl (pledges_started hstart) (lastWrite_started hstart)
  | advance =>
    refine .same (Nat.le_succ _) rfl rfl ?_ ?_
    · simp [Obs.pledge]
    · simp [Obs.logWrite]
  | newValue | startPrepare | countPromise | startAccept | succeed | nextInstanceMsg | learnBySuccess | executeFail
  | updateSystemVariables | checksumLogicFail | initSystemVariables =>
    refine .same le_rfl rfl rfl ?_ ?_
    · simp [Obs.pledge]
    · simp [Obs.logWrite]
  | _ => exact .same le_rfl rfl rfl rfl rfl

end Step

/-! ## The log and the history -/

/-- The promise and the log of node `n` against what it has promised and accepted. -/
structure Durable (n : NodeID) (l : Loc) : Prop where
  records_le : ∀ x ∈ l.core.records, x.1 ≤ l.core.instanceID
  sorted : Sorted l.core.records
  le_promise : ∀ b ∈ pledges n l.hist, b ≤ l.core.acceptor.promiseBallot
  unwritten : lastWrite n l.hist = none → pledges n l.hist = []
  persisted : lastWrite n l.hist = some .persist → ∀ b ∈ pledges n l.hist, b ≤ loggedPromise l.core.records
  learned : ∀ b, lastWrite n l.hist = some (.learnValue b) → loggedPromise l.core.records = b
  /-- What was promised or accepted later is no lower. -/
  ordered : (pledges n l.hist).Pairwise fun b c => c ≤ b

namespace Durable

variable {n : NodeID} {l l' : Loc}

theorem sorted_cons (hd : Durable n l) (r : AcceptorStateData) : Sorted ((l.core.instanceID, r) :: l.core.records) :=
  List.pairwise_cons.mpr ⟨hd.records_le, hd.sorted⟩

theorem records_cons_le (hd : Durable n l) (r : AcceptorStateData) :
    ∀ x ∈ (l.core.instanceID, r) :: l.core.records, x.1 ≤ l.core.instanceID := by
  intro x hx
  rcases List.mem_cons.mp hx with rfl | hx
  · exact le_rfl
  · exact hd.records_le x hx

/-- What the log holds of the promise is enough when it was held. -/
theorem le_logged (hd : Durable n l) (hheld : Held n l.hist) : ∀ b ∈ pledges n l.hist, b ≤ loggedPromise l.core.records := by
  intro b hb
  unfold Held at hheld
  cases hw : lastWrite n l.hist with
  | none =>
    rw [hd.unwritten hw] at hb
    cases hb
  | some w =>
    rw [hw] at hheld
    cases w with
    | persist => exact hd.persisted hw b hb
    | learnValue c =>
      rw [hd.learned c hw]
      exact hheld b hb
    | clearAllLog =>
      rw [show pledges n l.hist = [] from hheld] at hb
      cases hb

theorem of_same (hd : Durable n l) (hi : l.core.instanceID ≤ l'.core.instanceID)
    (hb : l'.core.acceptor.promiseBallot = l.core.acceptor.promiseBallot) (hr : l'.core.records = l.core.records)
    (hp : pledges n l'.hist = pledges n l.hist) (hw : lastWrite n l'.hist = lastWrite n l.hist) : Durable n l' := by
  refine ⟨?_, by rw [hr]; exact hd.sorted, by rw [hp, hb]; exact hd.le_promise, by rw [hp, hw]; exact hd.unwritten,
    by rw [hp, hw, hr]; exact hd.persisted, by rw [hw, hr]; exact hd.learned, by rw [hp]; exact hd.ordered⟩
  rw [hr]
  exact fun x hx => (hd.records_le x hx).trans hi

theorem step (hd : Durable n l) (h : LogStep n l l')
    (hheld : ∀ cp played, Started n l.core.instanceID cp played true l.hist l'.hist → Held n l.hist) :
    Durable n l' := by
  cases h with
  | same hi hb hr hp hw => exact hd.of_same hi hb hr hp hw
  | pledge r hle hi hb hr hp hw =>
    have hall : ∀ b ∈ r.promiseBallot :: pledges n l.hist, b ≤ r.promiseBallot := by
      intro b hm
      rcases List.mem_cons.mp hm with rfl | hm
      · exact le_rfl
      · exact (hd.le_promise b hm).trans hle
    refine ⟨?_, ?_, by rw [hp, hb]; exact hall, by simp [hw], ?_, by simp [hw], ?_⟩
    · rw [hr, hi]
      exact hd.records_cons_le r
    · rw [hr]
      exact hd.sorted_cons r
    · rw [hp, hr]
      exact fun _ => hall
    · rw [hp]
      exact List.pairwise_cons.mpr ⟨fun c hc => hall c (List.mem_cons_of_mem _ hc), hd.ordered⟩
  | learnValue r hi hb hr hp hw =>
    refine ⟨?_, ?_, by rw [hp, hb]; exact hd.le_promise, by simp [hw], by simp [hw], ?_, by rw [hp]; exact hd.ordered⟩
    · rw [hr, hi]
      exact hd.records_cons_le r
    · rw [hr]
      exact hd.sorted_cons r
    · intro b hb'
      rw [hw, Option.some.injEq, LogWrite.learnValue.injEq] at hb'
      rw [hr]
      exact hb'
  | clearAllLog hi hb hr hp hw =>
    refine ⟨by simp [hr], by rw [hr]; exact List.Pairwise.nil, by rw [hp, hb]; exact hd.le_promise, by simp [hw],
      by simp [hw], by simp [hw], by rw [hp]; exact hd.ordered⟩
  | restart cp played hi hb hr hh =>
    have hp : pledges n l'.hist = pledges n l.hist := pledges_started hh
    have hw : lastWrite n l'.hist = lastWrite n l.hist := lastWrite_started hh
    refine ⟨?_, by rw [hr]; exact hd.sorted, ?_, by rw [hp, hw]; exact hd.unwritten,
      by rw [hp, hw, hr]; exact hd.persisted, by rw [hw, hr]; exact hd.learned, by rw [hp]; exact hd.ordered⟩
    · rw [hr]
      exact fun x hx => (Acceptor.init_records_le hx).trans hi
    · rw [hp, hb, Acceptor.init_promise hd.sorted]
      exact hd.le_logged (hheld cp played hh)

end Durable

/-- Every write of the acceptor of node `n` succeeded. -/
def NodePutsSucceed (n : NodeID) (h : List Obs) : Prop := ∀ i v, .persist n i v false ∉ h

/-- The runs in which promises survive: every write succeeds, and no restart finds them lost. -/
structure KeepsPromises (h : List Obs) : Prop where
  puts : ∀ n, NodePutsSucceed n h
  restarts : RestartsHeld h

theorem KeepsPromises.suffix {h h' : List Obs} (hsuf : h <:+ h') (hk : KeepsPromises h') : KeepsPromises h where
  puts n i v hm := hk.puts n i v (hsuf.subset hm)
  restarts := RestartsHeld.suffix hsuf hk.restarts

theorem Stepping.durable {s : Abs} (hs : Stepping P D G s) (hk : KeepsPromises s.hist) (n : NodeID) :
    Durable n (s.loc n) := by
  refine hs.forall_loc KeepsPromises KeepsPromises.suffix (I := Durable) ?_ ?_ ?_ hk n
  · intro n
    exact ⟨by simp [Group.abs, Abs.loc, Group.core], List.Pairwise.nil, by simp [Group.abs, Abs.loc, pledges],
      fun _ => rfl, nofun, nofun, List.Pairwise.nil⟩
  · intro s n l _ hg ih hact
    refine (ih n).step (hact.logStep (hg.puts n)) fun cp played hh => ?_
    obtain ⟨obs, -, hh⟩ := hh
    exact hg.restarts (hh ▸ (Past.head.mono (List.suffix_append obs _)).of_cons)
  · intro s n l k _ _ ih hact hk
    obtain ⟨obs, hh, hobs⟩ := hact.obs
    have hp : pledges k l.hist = pledges k s.hist := by
      rw [hh]
      exact pledges_append fun o ho => Obs.pledge_of_ne ((hobs o ho).trans_ne hk.symm)
    have hw : lastWrite k l.hist = lastWrite k s.hist := by
      rw [hh]
      exact lastWrite_append fun o ho => Obs.logWrite_of_ne ((hobs o ho).trans_ne hk.symm)
    exact (ih k).of_same le_rfl rfl rfl hp hw

/-! ## Own proposals -/

/-- What node `n` has put into its own Prepare and Accept messages. -/
structure Owns (n : NodeID) (l : Loc) : Prop where
  follower : l.core.isIMFollower = true → l.core.proposer.value = [] ∧ l.core.isPreparing = false ∧
    l.core.isAccepting = false ∧ l.core.canSkipPrepare = false ∧ l.core.armed = false
  prepared : l.core.isPreparing = true ∨ l.core.canSkipPrepare = true →
    ∃ i S, .prepare n i l.core.proposer.proposalID S ∈ l.hist
  accept : ∀ {i p v S}, .accept n i p v S ∈ l.hist → ∃ j S', .prepare n j p S' ∈ l.hist
  /-- The own acceptor has promised the ballot of a Prepare or a higher one, or is about to take the Prepare. -/
  covered : ∀ {i p S}, .prepare n i p S ∈ l.hist → (∃ b ∈ pledges n l.hist, p ≤ b.proposalID) ∨
    l.core.toSelf = some (prepareMsg n i p) ∧ l.core.HeedsItself n ∧ p = l.core.proposer.proposalID ∧
      i ≤ l.core.instanceID
  fresh : l.core.acceptor.promiseBallot ∈ pledges n l.hist ∨
    l.core.acceptor.promiseBallot.proposalID < l.core.proposer.proposalID

section Own

variable {can : PaxosMsg → Prop} {n : NodeID} {l l' : Loc}

/-- What becomes of the own Prepare: it waits, or the own acceptor promises it or has promised more. -/
theorem Act.own_prepare (h : Act P can n l l') (hputs : NodePutsSucceed n l'.hist) {i p : Nat}
    (hself : l.core.toSelf = some (prepareMsg n i p)) (hheeds : l.core.HeedsItself n) (hi : i ≤ l.core.instanceID) :
    l'.core.toSelf = some (prepareMsg n i p) ∧ l'.core.HeedsItself n ∧
        l'.core.proposer.proposalID = l.core.proposer.proposalID ∧ i ≤ l'.core.instanceID ∨
      (⟨p, n⟩ : BallotNumber) ∈ pledges n l'.hist ∨ (⟨p, n⟩ : BallotNumber) < l.core.acceptor.promiseBallot := by
  have hsrc {msg : PaxosMsg} (h : Src can l msg) : msg = prepareMsg n i p := by
    rcases h with ⟨hnone, -⟩ | h
    · rw [hself] at hnone
      cases hnone
    · rw [hself, Option.some.injEq] at h
      exact h.symm
  have hbusy {q : Prop} (hnone : l.core.toSelf = none) : q := by
    rw [hself] at hnone
    cases hnone
  cases h with
  | dropSelf hm hno =>
    rw [hself, Option.some.injEq] at hm
    exact absurd hheeds (hno (Or.inl (by rw [← hm]; rfl)))
  | promise hm =>
    cases hsrc hm
    exact Or.inr (Or.inl (mem_pledges_of_promise List.mem_cons_self))
  | promiseFail => exact absurd List.mem_cons_self (hputs _ _)
  | rejectPrepare hm _ _ hlt =>
    cases hsrc hm
    exact Or.inr (Or.inr hlt)
  | accept hm ht | acceptFail hm ht | rejectAccept hm ht =>
    cases hsrc hm
    cases ht
  | countPromise hm ht | countAccept hm ht | learnValue hm ht | learnValueFail hm ht =>
    cases hsrc hm
    cases ht
  | noteReject hm _ ht =>
    cases hsrc hm
    rcases ht with ht | ht <;> cases ht
  | learnBySuccess hm _ _ ht =>
    cases hsrc hm
    rcases ht with ⟨ht, -⟩ | ⟨-, heq, -⟩
    · cases ht
    · have heq : i = l.core.instanceID + 1 := heq
      omega
  | sendTo hnone | newValue hnone | startPrepare hnone | startAccept hnone | succeed hnone | sendOne hnone
  | commitTimeout hnone | updateSystemVariables hnone | restart hnone | restartFail hnone => exact hbusy hnone
  | advance => exact Or.inl ⟨hself, hheeds, rfl, hi.trans (Nat.le_succ _)⟩
  | _ => exact Or.inl ⟨hself, hheeds, rfl, hi⟩

theorem Owns.act_follower (ho : Owns n l) (h : Act P can n l l') : l'.core.isIMFollower = true →
    l'.core.proposer.value = [] ∧ l'.core.isPreparing = false ∧ l'.core.isAccepting = false ∧
      l'.core.canSkipPrepare = false ∧ l'.core.armed = false := by
  have hno {q : Prop} (hf : l.core.isIMFollower = true) (hb : l.core.isPreparing = true ∨ l.core.isAccepting = true ∨
      l.core.canSkipPrepare = true) : q := by
    obtain ⟨-, h₁, h₂, h₃, -⟩ := ho.follower hf
    simp [h₁, h₂, h₃] at hb
  have harmed {armed : Bool} (hf : l.core.isIMFollower = true) (ha : armed = true → l.core.armed = true) :
      armed = false := Bool.eq_false_iff.mpr fun h => by simpa [(ho.follower hf).2.2.2.2] using ha h
  cases h with
  | newValue _ hf => exact fun h => absurd (hf.symm.trans h) Bool.false_ne_true
  | startPrepare _ hstart =>
    intro hf
    obtain ⟨hv, -, -, -, ha⟩ := ho.follower hf
    rcases hstart with h | ⟨h, -⟩
    · exact absurd hv h
    · rw [ha] at h
      cases h
  | countPromise _ _ _ hp => exact fun hf => hno hf (Or.inl hp)
  | noteReject => exact fun hf => ⟨(setOtherProposalID_value _ _).1.trans (ho.follower hf).1, (ho.follower hf).2⟩
  | startAccept _ hstart => exact fun hf => hno hf (hstart.imp And.left fun h => Or.inr h.1)
  | succeed _ hacc => exact fun hf => hno hf (Or.inr (Or.inl hacc))
  | disarm ha => exact fun hf => ⟨(ho.follower hf).1, (ho.follower hf).2.1, (ho.follower hf).2.2.1,
      (ho.follower hf).2.2.2.1, harmed hf ha⟩
  | rearm hbusy => exact fun hf => hno hf (hbusy.imp_right Or.inl)
  | executeFail => exact fun hf => ⟨(ho.follower hf).1, (ho.follower hf).2.1, (ho.follower hf).2.2.1, rfl,
      (ho.follower hf).2.2.2.2⟩
  | advance _ ha => exact fun hf => ⟨rfl, rfl, rfl, (ho.follower hf).2.2.2.1, harmed hf ha⟩
  | commitTimeout _ ha => exact fun hf => ⟨(ho.follower hf).1, rfl, rfl, (ho.follower hf).2.2.2.1, harmed hf ha⟩
  | restart => exact fun _ => ⟨rfl, rfl, rfl, rfl, rfl⟩
  | _ => exact ho.follower

theorem Owns.act_prepared (ho : Owns n l) (h : Act P can n l l') :
    (l'.core.isPreparing = true ∨ l'.core.canSkipPrepare = true →
      ∃ i S, .prepare n i l'.core.proposer.proposalID S ∈ l'.hist) ∧
    ∀ {i p v S}, .accept n i p v S ∈ l'.hist → ∃ j S', .prepare n j p S' ∈ l'.hist := by
  have hsub : l.hist ⊆ l'.hist := h.hist_suffix.subset
  have hprep (hb : l.core.isPreparing = true ∨ l.core.canSkipPrepare = true) :
      ∃ i S, .prepare n i l.core.proposer.proposalID S ∈ l'.hist := by
    obtain ⟨i, S, hm⟩ := ho.prepared hb
    exact ⟨i, S, hsub hm⟩
  have hacc {i p v S} (hm : .accept n i p v S ∈ l.hist) : ∃ j S', .prepare n j p S' ∈ l'.hist := by
    obtain ⟨j, S', hm⟩ := ho.accept hm
    exact ⟨j, S', hsub hm⟩
  cases h with
  | startPrepare => exact ⟨fun _ => ⟨_, _, List.mem_cons_self⟩, fun hm => hacc (by simpa using hm)⟩
  | countPromise =>
    rw [addPreAcceptValue_proposalID]
    exact ⟨hprep, fun hm => hacc (by simpa using hm)⟩
  | noteReject =>
    rw [(setOtherProposalID_value _ _).2]
    exact ⟨hprep, hacc⟩
  | startAccept _ hstart =>
    have hp := hprep (hstart.imp And.left And.left)
    refine ⟨fun _ => hp, ?_⟩
    intro i p v S hm
    rcases List.mem_cons.mp hm with heq | hm
    · cases heq
      exact hp
    · exact hacc hm
  | executeFail => exact ⟨fun h => hprep (h.imp_right nofun), fun hm => hacc (by simpa using hm)⟩
  | advance => exact ⟨fun h => hprep (Or.inr (h.resolve_left nofun)), fun hm => hacc (by simpa using hm)⟩
  | commitTimeout => exact ⟨fun h => hprep (Or.inr (h.resolve_left nofun)), hacc⟩
  | restart _ _ _ hstart =>
    exact ⟨fun h => by simp [Core.restarted] at h, fun hm => hacc (hstart.mem_of hm nofun nofun nofun)⟩
  | restartFail _ hstart => exact ⟨hprep, fun hm => hacc (hstart.mem_of hm nofun nofun nofun)⟩
  | _ => exact ⟨hprep, fun hm => hacc (by simpa using hm)⟩

theorem Owns.act_fresh (ho : Owns n l) (h : Act P can n l l') (hputs : NodePutsSucceed n l'.hist) :
    l'.core.acceptor.promiseBallot ∈ pledges n l'.hist ∨
      l'.core.acceptor.promiseBallot.proposalID < l'.core.proposer.proposalID := by
  have hkeep {p : Nat} (hp : l.core.proposer.proposalID ≤ p) : l.core.acceptor.promiseBallot ∈ pledges n l'.hist ∨
      l.core.acceptor.promiseBallot.proposalID < p :=
    ho.fresh.imp (mem_pledges_mono h.hist_suffix.subset) fun hlt => hlt.trans_le hp
  cases h with
  | promise => exact Or.inl (mem_pledges_of_promise List.mem_cons_self)
  | promiseFail => exact absurd List.mem_cons_self (hputs _ _)
  | accept =>
    exact Or.inl (mem_pledges_of_setAccepted (List.mem_cons_of_mem _ (List.mem_cons_of_mem _ List.mem_cons_self)))
  | acceptFail => exact absurd List.mem_cons_self (hputs _ _)
  | startPrepare => exact hkeep (le_nextRound _)
  | countPromise => exact hkeep (addPreAcceptValue_proposalID _ _ _).ge
  | noteReject => exact hkeep (setOtherProposalID_value _ _).2.ge
  | restart => exact Or.inr (Nat.lt_succ_self _)
  | _ => exact hkeep le_rfl

/-- A member that is no follower takes its own Prepare. -/
theorem Core.heedsItself {c : Core} (hf : c.isIMFollower = false) (hm : n ∈ c.members) : c.HeedsItself n := by
  refine ⟨hf, ?_⟩
  unfold SystemVSM.isValidNodeID
  split
  · rfl
  · exact decide_eq_true hm

theorem Owns.act_covered (ho : Owns n l) (h : Act P can n l l') (hputs : NodePutsSucceed n l'.hist)
    (hmember : ∀ {i p S}, .prepare n i p S ∈ l'.hist → n ∈ S) {i p : Nat} {S : Finset NodeID}
    (hm : .prepare n i p S ∈ l'.hist) :
    (∃ b ∈ pledges n l'.hist, p ≤ b.proposalID) ∨ l'.core.toSelf = some (prepareMsg n i p) ∧
      l'.core.HeedsItself n ∧ p = l'.core.proposer.proposalID ∧ i ≤ l'.core.instanceID := by
  have hsub {b : BallotNumber} (hb : b ∈ pledges n l.hist) : b ∈ pledges n l'.hist :=
    mem_pledges_mono h.hist_suffix.subset hb
  -- a Prepare of before
  have hold (hm : .prepare n i p S ∈ l.hist) : (∃ b ∈ pledges n l'.hist, p ≤ b.proposalID) ∨
      l'.core.toSelf = some (prepareMsg n i p) ∧ l'.core.HeedsItself n ∧ p = l'.core.proposer.proposalID ∧
        i ≤ l'.core.instanceID := by
    rcases ho.covered hm with ⟨b, hb, hle⟩ | ⟨hself, hheeds, hp, hi⟩
    · exact Or.inl ⟨b, hsub hb, hle⟩
    · rcases h.own_prepare hputs hself hheeds hi with ⟨h₁, h₂, h₃, h₄⟩ | hb | hlt
      · exact Or.inr ⟨h₁, h₂, hp.trans h₃.symm, h₄⟩
      · exact Or.inl ⟨_, hb, le_rfl⟩
      · have hle : p ≤ l.core.acceptor.promiseBallot.proposalID := BallotNumber.proposalID_le hlt.le
        rcases ho.fresh with hb | hlt
        · exact Or.inl ⟨_, hsub hb, hle⟩
        · omega
  have hfollower := ho.follower
  cases h with
  | startPrepare _ hstart =>
    rcases List.mem_cons.mp hm with heq | hm
    · cases heq
      have hf : l.core.isIMFollower = false := by
        refine Bool.eq_false_iff.mpr fun hf => ?_
        obtain ⟨hv, -, -, -, ha⟩ := hfollower hf
        rcases hstart with h | ⟨h, -⟩
        · exact h hv
        · rw [ha] at h
          cases h
      exact Or.inr ⟨rfl, Core.heedsItself hf (hmember hm), rfl, le_rfl⟩
    · exact hold hm
  | restart _ _ _ hstart => exact hold (hstart.mem_of hm nofun nofun nofun)
  | restartFail _ hstart => exact hold (hstart.mem_of hm nofun nofun nofun)
  | _ => exact hold (by simpa using hm)

end Own

/-- The runs in which a node does not prepare while it is no member. -/
structure KeepsPromisesAsMember (h : List Obs) : Prop extends KeepsPromises h where
  member : ∀ {n i p S}, .prepare n i p S ∈ h → n ∈ S

theorem KeepsPromisesAsMember.suffix {h h' : List Obs} (hsuf : h <:+ h') (hk : KeepsPromisesAsMember h') :
    KeepsPromisesAsMember h where
  toKeepsPromises := hk.toKeepsPromises.suffix hsuf
  member hm := hk.member (hsuf.subset hm)

/-- The check of `KeepsPromisesAsMember` for one observation. -/
def Obs.keepsPromises (o : Obs) (older : List Obs) : Bool :=
  match o with
  | .restart n _ _ => decide (Held n older)
  | .persist _ _ _ false => false
  | .prepare n _ _ S => decide (n ∈ S)
  | _ => true

theorem KeepsPromisesAsMember.of_pastAll {h : List Obs} (hall : pastAll Obs.keepsPromises h = true) :
    KeepsPromisesAsMember h := by
  have hcheck := pastAll_iff.mp hall
  have hputs : ∀ n, NodePutsSucceed n h := by
    intro n i v hm
    obtain ⟨older, hp⟩ := Past.exists_of_mem hm
    exact absurd (hcheck _ older hp) (by simp [Obs.keepsPromises])
  have hrestarts : RestartsHeld h := fun {_ _ _ older} hp => of_decide_eq_true (hcheck _ older hp)
  refine ⟨⟨hputs, @hrestarts⟩, ?_⟩
  intro n i p S hm
  obtain ⟨older, hp⟩ := Past.exists_of_mem hm
  exact of_decide_eq_true (hcheck _ older hp)

theorem Stepping.owns {s : Abs} (hs : Stepping P D G s) (hk : KeepsPromisesAsMember s.hist) (n : NodeID) :
    Owns n (s.loc n) := by
  refine hs.forall_loc KeepsPromisesAsMember KeepsPromisesAsMember.suffix (I := Owns) ?_ ?_ ?_ hk n
  · intro n
    exact ⟨fun _ => ⟨rfl, rfl, rfl, rfl, rfl⟩, nofun, fun hm => absurd hm List.not_mem_nil,
      fun hm => absurd hm List.not_mem_nil, Or.inr Nat.one_pos⟩
  · intro s n l _ hg ih hact
    exact ⟨(ih n).act_follower hact, ((ih n).act_prepared hact).1, ((ih n).act_prepared hact).2,
      (ih n).act_covered hact (hg.puts n) hg.member, (ih n).act_fresh hact (hg.puts n)⟩
  · intro s n l k _ _ ih hact hk
    obtain ⟨obs, hh, hobs⟩ := hact.obs
    have hsub : s.hist ⊆ l.hist := hact.hist_suffix.subset
    have hback {o : Obs} (ho : o.node = k) (hm : o ∈ l.hist) : o ∈ s.hist := by
      rw [hh] at hm
      exact (List.mem_append.mp hm).resolve_left fun hm => hk (ho.symm.trans (hobs o hm))
    refine ⟨(ih k).follower, ?_, ?_, ?_, (ih k).fresh.imp_left (mem_pledges_mono hsub)⟩
    · exact fun hb => ((ih k).prepared hb).imp fun _ => Exists.imp fun _ hm => hsub hm
    · exact fun hm => ((ih k).accept (hback rfl hm)).imp fun _ => Exists.imp fun _ hm => hsub hm
    · intro i p S hm
      exact ((ih k).covered (hback rfl hm)).imp_left (Exists.imp fun _ => And.imp_left (mem_pledges_mono hsub))

/-! ## After a restart -/

/-- A process that has started proposes above its promise. -/
theorem restart_proposalID {cp : Nat} {w : Proc} (hup : (restart P cp w).node.stopped = false) :
    (restart P cp w).node.proposer.state.proposalID =
      (restart P cp w).node.acceptor.promiseBallot.proposalID + 1 := by
  revert hup
  unfold restart instanceInit
  simp only []
  generalize CheckpointMgr.init cp _ = r₁
  generalize initNowInstanceID P cp r₁.1 = r₂
  by_cases h₁ : r₁.2 = 0
  · by_cases h₂ : r₂.2 = 0
    · simp only [h₁, h₂, ne_eq, not_true_eq_false, if_false]
      intro _
      generalize hw : ({ r₂.1 with
        node.proposer.state.proposalID := r₂.1.node.acceptor.promiseBallot.proposalID + 1
        node.checkpointMgr.maxChosenInstanceID := r₂.1.node.instanceID } : Proc) = w₃
      obtain ⟨checksum, hchecksum, -⟩ := initLastCheckSum_eq w₃
      obtain ⟨timers, now, k, -, he⟩ := resetAskforLearnNoop_eq (initLastCheckSum w₃)
      rw [he, hchecksum, ← hw]
      rfl
    · simp [h₁, h₂]
  · simp [h₁]

/-- **Promises and ballots survive a restart**: when the process is up again, its promise is at least every ballot that
the node ever promised or accepted, and its first proposal id is above every one that it ever put into a Prepare or
Accept. -/
theorem promises_survive_restart {s : Sys} (hs : Reachable P anyMessage G s) {n : NodeID} {cp : Nat} {env : Env}
    (hk : KeepsPromisesAsMember (s.step P ⟨n, .restart cp, env⟩).hist)
    (hup : ((s.step P ⟨n, .restart cp, env⟩).node n).stopped = false) :
    (∀ b ∈ pledges n (s.step P ⟨n, .restart cp, env⟩).hist,
      b ≤ ((s.step P ⟨n, .restart cp, env⟩).node n).acceptor.promiseBallot) ∧
    (∀ i p S, .prepare n i p S ∈ (s.step P ⟨n, .restart cp, env⟩).hist →
      p < ((s.step P ⟨n, .restart cp, env⟩).node n).proposer.state.proposalID) ∧
    ∀ i p v S, .accept n i p v S ∈ (s.step P ⟨n, .restart cp, env⟩).hist →
      p < ((s.step P ⟨n, .restart cp, env⟩).node n).proposer.state.proposalID := by
  have hs' : Reachable P anyMessage G (s.step P ⟨n, .restart cp, env⟩) := .step _ hs nofun
  have hnode : (s.step P ⟨n, .restart cp, env⟩).node n = (restart P cp (s.proc n env)).node := by
    simp [Sys.step, handle]
  have hid := @restart_proposalID P cp (s.proc n env) (by rwa [← hnode])
  rw [← hnode] at hid
  generalize s.step P ⟨n, .restart cp, env⟩ = s' at *
  have hle : ∀ b ∈ pledges n s'.hist, b ≤ (s'.node n).acceptor.promiseBallot :=
    (hs'.stepping.durable hk.toKeepsPromises n).le_promise
  have howns := hs'.stepping.owns hk n
  have hprepare {i p S} (hm : .prepare n i p S ∈ s'.hist) : p < (s'.node n).proposer.state.proposalID := by
    rcases howns.covered hm with ⟨b, hb, hpb⟩ | ⟨hself, -⟩
    · have := BallotNumber.proposalID_le (hle b hb)
      omega
    · cases hself
  refine ⟨hle, fun i p S hm => hprepare hm, fun i p v S hm => ?_⟩
  obtain ⟨j, S', hm⟩ := howns.accept hm
  exact hprepare hm

/-- Node 1 proposes, and its Prepare gets lost; then it promises a ballot of node 2. -/
def promiseRun : List Event := proposeEvents 1 0 [7] ++ [deliver 1 (prepareMsg 2 0 5)]

theorem promises_survive_restart_promiseRun :
    (⟨5, 2⟩ : BallotNumber) ≤ (((Sys.run .plain promiseRun (Sys.init .plain (.ofList [1, 2, 3]))).step .plain
      ⟨1, .restart 0, {}⟩).node 1).acceptor.promiseBallot ∧
    1 < (((Sys.run .plain promiseRun (Sys.init .plain (.ofList [1, 2, 3]))).step .plain
      ⟨1, .restart 0, {}⟩).node 1).proposer.state.proposalID := by
  obtain ⟨hpledge, hprepare, -⟩ := @promises_survive_restart .plain (.ofList [1, 2, 3])
    (Sys.run .plain promiseRun (Sys.init .plain (.ofList [1, 2, 3]))) (.of_run_any .plain .init) 1 0 {}
    (.of_pastAll (by decide +kernel)) (by decide +kernel)
  exact ⟨hpledge _ (by decide +kernel), hprepare 0 1 {1, 2, 3} (by decide +kernel)⟩

/-- Node 1 promises a ballot of node 2 and then learns the value of a lower one. -/
def learnBelowPromiseRun : List Event :=
  [deliver 1 (prepareMsg 2 0 5), deliver 1 (learnValueMsg 3 0 ⟨1, 3⟩ (packPaxosValue [7] 0) 0 0)]

/-- The promise is gone after a restart. -/
theorem promise_lost : ∃ s, Reachable .plain anyMessage (.ofList [1, 2, 3]) s ∧
    (∀ n, NodePutsSucceed n (s.step .plain ⟨1, .restart 0, {}⟩).hist) ∧
    ((s.step .plain ⟨1, .restart 0, {}⟩).node 1).stopped = false ∧
    ⟨5, 2⟩ ∈ pledges 1 (s.step .plain ⟨1, .restart 0, {}⟩).hist ∧
    ((s.step .plain ⟨1, .restart 0, {}⟩).node 1).acceptor.promiseBallot = ⟨1, 3⟩ := by
  refine ⟨Sys.run .plain learnBelowPromiseRun (Sys.init .plain (.ofList [1, 2, 3])), .of_run_any .plain .init, ?_, ?_⟩
  · intro n i v hm
    have hall : ((Sys.run .plain learnBelowPromiseRun (Sys.init .plain (.ofList [1, 2, 3]))).step .plain
        ⟨1, .restart 0, {}⟩).hist.all (fun | .persist _ _ _ false => false | _ => true) = true := by decide +kernel
    exact absurd (List.all_eq_true.mp hall _ hm) (by simp)
  · decide +kernel

/-! ## After a checkpoint transfer -/

/-- **Installing a checkpoint keeps promises** as long as no restart finds the log cleared: whatever a node promises or
accepts is no lower than what it promised or accepted before. -/
theorem pledges_ordered {s : Sys} (hs : Reachable P anyMessage G s) (hk : KeepsPromises s.hist) {n : NodeID} {o : Obs}
    {older : List Obs} {b c : BallotNumber} (hp : Past s.hist o older) (hb : o.pledge n = some b)
    (hc : c ∈ pledges n older) : c ≤ b := by
  have hsub : pledges n (o :: older) <:+ pledges n s.hist := by
    obtain ⟨newer, hn⟩ := hp
    exact ⟨pledges n newer, by rw [← hn, pledges, pledges, pledges, List.filterMap_append]⟩
  have hordered := (hs.stepping.durable hk n).ordered.sublist hsub.sublist
  rw [pledges_cons, hb] at hordered
  exact List.rel_of_pairwise_cons hordered hc

/-- After `promiseRun`, node 1 is restarted and promises a higher ballot of node 3. -/
def promiseAgainRun : List Event := promiseRun ++ [⟨1, .restart 0, {}⟩, deliver 1 (prepareMsg 3 0 6)]

theorem pledges_ordered_promiseAgainRun : ∃ older,
    Past (Sys.run .plain promiseAgainRun (Sys.init .plain (.ofList [1, 2, 3]))).hist
      (.promise 1 0 ⟨6, 3⟩ {} []) older ∧
    ∀ c ∈ pledges 1 older, c ≤ ⟨6, 3⟩ := by
  obtain ⟨older, hpast⟩ : ∃ older, Past (Sys.run .plain promiseAgainRun (Sys.init .plain (.ofList [1, 2, 3]))).hist
      (.promise 1 0 ⟨6, 3⟩ {} []) older := Past.exists_of_mem (by decide +kernel)
  refine ⟨older, hpast, fun c hc => ?_⟩
  exact pledges_ordered (P := .plain) (G := .ofList [1, 2, 3]) (.of_run_any .plain .init)
    (KeepsPromisesAsMember.of_pastAll (by decide +kernel)).toKeepsPromises hpast (n := 1) (by decide) hc

/-- Node 1 promises a ballot of node 2, starts to receive a checkpoint, is killed before any file arrives and started
again, and promises a lower ballot of node 3 for the same instance. -/
def checkpointBeginRun : List Event :=
  [deliver 1 (prepareMsg 2 0 5),
    deliver 1 { msgType := .learnerSendNowInstanceID, nodeID := 2, nowInstanceID := 10, minChosenInstanceID := 5 },
    deliver 1 { msgType := .learnerSendNowInstanceID, nodeID := 3, nowInstanceID := 10, minChosenInstanceID := 5 },
    ⟨1, .receiveCheckpoint 0 { nodeID := 2, flag := .begin, uuid := 1, sequence := 0, checkpointInstanceID := 9 }, {}⟩,
    ⟨1, .restart 0, {}⟩, deliver 1 (prepareMsg 3 0 1)]

/-- Node 1 has promised a lower ballot for instance 0 after a higher one. -/
theorem pledges_unordered : ∃ s, Reachable .plain anyMessage (.ofList [1, 2, 3]) s ∧
    Past s.hist (.promise 1 0 ⟨1, 3⟩ {} []) s.hist.tail ∧ .promise 1 0 ⟨5, 2⟩ {} [] ∈ s.hist.tail := by
  refine ⟨Sys.run .plain checkpointBeginRun (Sys.init .plain (.ofList [1, 2, 3])), .of_run_any .plain .init, ?_, ?_⟩
  · decide +kernel
  · decide +kernel

end PhxPaxos
