import PhxPaxos.Abstract.History
import PhxPaxos.Steps.System

/-!
# What an acceptor has promised and accepted

In runs without crash and with fixed members (`Steady`) the state of an acceptor can be read off the history: the
promise is above everything it promised or accepted, the accepted pair is the last it set (`Votes`), and each promise
reported what the acceptor had accepted at that time.
-/

namespace PhxPaxos

variable {P : Params} {D : Deliver} {G : Group}

/-! ## Steady runs -/

/-- No process was started again, no log was cleared for a checkpoint, and the members stayed the same. -/
structure Steady (G : Group) (h : List Obs) : Prop where
  noRestart : ∀ n i cp, .restart n i cp ∉ h
  noClear : ∀ n, .clearAllLog n ∉ h
  members : ∀ n i S, .updateSystemVariables n i S ∈ h → S = G.members

theorem Steady.suffix {h h' : List Obs} (hsuf : h <:+ h') (hs : Steady G h') : Steady G h where
  noRestart n i cp hm := hs.noRestart n i cp (hsuf.subset hm)
  noClear n hm := hs.noClear n (hsuf.subset hm)
  members n i S hm := hs.members n i S (hsuf.subset hm)

/-- The observation may be part of a steady run. -/
def Obs.isSteady (members : Finset NodeID) : Obs → Bool
  | .restart _ _ _ | .clearAllLog _ => false
  | .updateSystemVariables _ _ S => decide (S = members)
  | _ => true

theorem Steady.of_all {h : List Obs} (hall : h.all (Obs.isSteady G.members) = true) : Steady G h := by
  rw [List.all_eq_true] at hall
  refine ⟨?_, ?_, ?_⟩
  · exact fun n i cp hm => absurd (hall _ hm) (by simp [Obs.isSteady])
  · exact fun n hm => absurd (hall _ hm) (by simp [Obs.isSteady])
  · exact fun n i S hm => by simpa [Obs.isSteady] using hall _ hm

/-! ## The last accepted pair -/

/-- The pair that node `n` accepts for instance `i` at this moment, if it does. -/
def Obs.acceptedAt (n : NodeID) (i : Nat) : Obs → Option (BallotNumber × Bytes)
  | .setAccepted m j b v => if m = n ∧ j = i then some (b, v) else none
  | _ => none

/-- The pair that node `n` accepted last for instance `i`. -/
def lastAccepted (n : NodeID) (i : Nat) (h : List Obs) : Option (BallotNumber × Bytes) :=
  h.findSome? (Obs.acceptedAt n i)

section LastAccepted

variable {n : NodeID} {i : Nat} {h : List Obs}

theorem Obs.acceptedAt_eq_some {o : Obs} {b : BallotNumber} {v : Bytes} :
    o.acceptedAt n i = some (b, v) ↔ o = .setAccepted n i b v := by
  unfold acceptedAt
  split
  · simp only [Option.ite_none_right_eq_some, Option.some.injEq, Prod.mk.injEq, setAccepted.injEq]
    tauto
  · rename_i hne
    simp only [reduceCtorEq, false_iff]
    rintro rfl
    exact hne _ _ _ _ rfl

theorem mem_of_lastAccepted {b : BallotNumber} {v : Bytes} (hl : lastAccepted n i h = some (b, v)) :
    .setAccepted n i b v ∈ h := by
  obtain ⟨o, ho, heq⟩ := List.exists_of_findSome?_eq_some hl
  rwa [Obs.acceptedAt_eq_some.mp heq] at ho

theorem lastAccepted_eq_none (hnone : ∀ b v, .setAccepted n i b v ∉ h) : lastAccepted n i h = none := by
  rw [lastAccepted, List.findSome?_eq_none_iff]
  intro o ho
  cases hcase : o.acceptedAt n i with
  | none => rfl
  | some x =>
    rw [Obs.acceptedAt_eq_some.mp hcase] at ho
    exact absurd ho (hnone _ _)

theorem exists_lastAccepted {b : BallotNumber} {v : Bytes} (hm : .setAccepted n i b v ∈ h) :
    ∃ c w, lastAccepted n i h = some (c, w) := by
  cases hcase : lastAccepted n i h with
  | some x => exact ⟨x.1, x.2, rfl⟩
  | none =>
    rw [lastAccepted, List.findSome?_eq_none_iff] at hcase
    have := hcase _ hm
    simp [Obs.acceptedAt] at this

@[simp] theorem lastAccepted_cons (o : Obs) (h : List Obs) :
    lastAccepted n i (o :: h) = (o.acceptedAt n i).or (lastAccepted n i h) := by
  unfold lastAccepted
  rw [List.findSome?_cons]
  cases o.acceptedAt n i <;> rfl

theorem lastAccepted_append {obs : List Obs} (hobs : ∀ b v, .setAccepted n i b v ∉ obs) :
    lastAccepted n i (obs ++ h) = lastAccepted n i h := by
  have hnone := lastAccepted_eq_none hobs
  unfold lastAccepted at *
  rw [List.findSome?_append, hnone, Option.none_or]

end LastAccepted

/-! ## The steps of an acceptor -/

/-- The observations that an acceptor's votes and promises are read off. -/
def Obs.IsVote (o : Obs) : Prop := (∃ n i b acc v, o = .promise n i b acc v) ∨ ∃ n i b v, o = .setAccepted n i b v

@[simp] theorem Obs.isVote_promise {n i b acc v} : (Obs.promise n i b acc v).IsVote := Or.inl ⟨_, _, _, _, _, rfl⟩

@[simp] theorem Obs.isVote_setAccepted {n i b v} : (Obs.setAccepted n i b v).IsVote := Or.inr ⟨_, _, _, _, rfl⟩

/-- What a step does to the acceptor, while the process is not started again. -/
inductive AcceptorStep (P : Params) (n : NodeID) (l l' : Loc) : Prop
  | same (obs : List Obs) : l'.core.instanceID = l.core.instanceID → l'.core.acceptor = l.core.acceptor →
      l'.hist = obs ++ l.hist → (∀ o ∈ obs, ¬ o.IsVote) → AcceptorStep P n l l'
  | promise (b : BallotNumber) : l.core.acceptor.promiseBallot ≤ b → l'.core.instanceID = l.core.instanceID →
      l'.core.acceptor = l.core.promised P b →
      l'.hist = .promise n l.core.instanceID b l.core.acceptor.acceptedBallot l.core.acceptor.acceptedValue ::
        .persist n l.core.instanceID l.core.acceptor.acceptedValue true :: l.hist → AcceptorStep P n l l'
  | promiseFail (b : BallotNumber) : l.core.acceptor.promiseBallot ≤ b → l'.core.instanceID = l.core.instanceID →
      l'.core.acceptor = l.core.promised P b →
      l'.hist = .persist n l.core.instanceID l.core.acceptor.acceptedValue false :: l.hist → AcceptorStep P n l l'
  | accept (b : BallotNumber) (v : Bytes) (obs : List Obs) : l.core.acceptor.promiseBallot ≤ b →
      l'.core.instanceID = l.core.instanceID → l'.core.acceptor = l.core.acceptedWith P b v →
      l'.hist = obs ++ .setAccepted n l.core.instanceID b v :: l.hist → (∀ o ∈ obs, ¬ o.IsVote) →
      AcceptorStep P n l l'
  | advance (obs : List Obs) : l'.core.instanceID = l.core.instanceID + 1 →
      l'.core.acceptor = l.core.acceptor.init → l'.hist = obs ++ l.hist → (∀ o ∈ obs, ¬ o.IsVote) →
      AcceptorStep P n l l'

theorem Act.acceptorStep {can : PaxosMsg → Prop} {n : NodeID} {l l' : Loc} (h : Act P can n l l')
    (hs : Steady G l'.hist) : AcceptorStep P n l l' := by
  have one {l' : Loc} (o : Obs) (hi : l'.core.instanceID = l.core.instanceID)
      (ha : l'.core.acceptor = l.core.acceptor) (hh : l'.hist = o :: l.hist) (ho : ¬ o.IsVote) :
      AcceptorStep P n l l' :=
    .same [o] hi ha hh (by simpa using ho)
  cases h with
  | promise _ _ _ hb => exact .promise _ hb rfl rfl rfl
  | promiseFail _ _ _ hb => exact .promiseFail _ hb rfl rfl rfl
  | accept _ _ _ hb => exact .accept _ _ [_, _] hb rfl rfl rfl (by simp [Obs.IsVote])
  | acceptFail _ _ _ hb => exact .accept _ _ [_] hb rfl rfl rfl (by simp [Obs.IsVote])
  | advance => exact .advance [_, _] rfl rfl rfl (by simp [Obs.IsVote])
  | clearAllLog => exact absurd List.mem_cons_self (hs.noClear n)
  | restart _ _ _ hstart => exact absurd hstart.restart_mem (hs.noRestart n _ _)
  | restartFail _ hstart => exact absurd hstart.restart_mem (hs.noRestart n _ _)
  | newValue | startPrepare | countPromise | startAccept | succeed | nextInstanceMsg | learnBySuccess | learnValue
  | executeFail | updateSystemVariables | checksumLogicFail | initSystemVariables =>
    exact one _ rfl rfl rfl (by simp [Obs.IsVote])
  | _ => exact .same [] rfl rfl rfl (by simp)

/-! ## The acceptor and the history -/

/-- The acceptor of node `n` read off the history. -/
structure Votes (n : NodeID) (l : Loc) : Prop where
  promise_le : ∀ {i b acc v}, .promise n i b acc v ∈ l.hist →
    i ≤ l.core.instanceID ∧ b ≤ l.core.acceptor.promiseBallot
  vote_le : ∀ {i b v}, .setAccepted n i b v ∈ l.hist → i ≤ l.core.instanceID ∧ b ≤ l.core.acceptor.promiseBallot
  last : (l.core.acceptor.acceptedBallot, l.core.acceptor.acceptedValue) =
    (lastAccepted n l.core.instanceID l.hist).getD ({}, [])
  /-- A promise reports the pair accepted last, and is no lower than any ballot accepted before. -/
  report : ∀ {i b acc v older}, Past l.hist (.promise n i b acc v) older →
    (acc, v) = (lastAccepted n i older).getD ({}, []) ∧
      ∀ {j c w}, .setAccepted n j c w ∈ older → j ≤ i ∧ c ≤ b
  /-- A vote is no lower than any promise and any vote before. -/
  vote : ∀ {i c w older}, Past l.hist (.setAccepted n i c w) older →
    (∀ {j b acc v}, .promise n j b acc v ∈ older → j ≤ i ∧ b ≤ c) ∧
      ∀ {j b v}, .setAccepted n j b v ∈ older → j ≤ i ∧ b ≤ c

namespace Votes

variable {n : NodeID} {l l' : Loc}

/-- Observations that are no votes of node `n` change nothing that is read off the history. -/
theorem frame {obs : List Obs} (hobs : ∀ o ∈ obs, o.IsVote → o.node ≠ n) (h : List Obs) :
    (∀ {i b acc v}, .promise n i b acc v ∈ obs ++ h ↔ .promise n i b acc v ∈ h) ∧
      (∀ {i b v}, .setAccepted n i b v ∈ obs ++ h ↔ .setAccepted n i b v ∈ h) ∧
      (∀ {i b acc v older}, Past (obs ++ h) (.promise n i b acc v) older ↔ Past h (.promise n i b acc v) older) ∧
      (∀ {i b v older}, Past (obs ++ h) (.setAccepted n i b v) older ↔ Past h (.setAccepted n i b v) older) ∧
      ∀ {i}, lastAccepted n i (obs ++ h) = lastAccepted n i h := by
  have hno : ∀ o ∈ obs, ¬ (o.IsVote ∧ o.node = n) := fun o ho hv => hobs o ho hv.1 hv.2
  refine ⟨?_, ?_, ?_, ?_, ?_⟩
  · intro i b acc v
    rw [List.mem_append, or_iff_right fun hm => hno _ hm ⟨by simp, rfl⟩]
  · intro i b v
    rw [List.mem_append, or_iff_right fun hm => hno _ hm ⟨by simp, rfl⟩]
  · intro i b acc v older
    exact Past.append_iff hno ⟨by simp, rfl⟩
  · intro i b v older
    exact Past.append_iff hno ⟨by simp, rfl⟩
  · intro i
    exact lastAccepted_append fun b v hm => hno _ hm ⟨by simp, rfl⟩

theorem of_frame (hv : Votes n l) (hi : l'.core.instanceID = l.core.instanceID)
    (ha : l'.core.acceptor = l.core.acceptor) (obs : List Obs) (hh : l'.hist = obs ++ l.hist)
    (hobs : ∀ o ∈ obs, o.IsVote → o.node ≠ n) : Votes n l' := by
  obtain ⟨hp, hs, hpp, hps, hl⟩ := frame hobs l.hist
  refine ⟨?_, ?_, ?_, ?_, ?_⟩
  · rw [hh, hi, ha]
    exact fun hm => hv.promise_le (hp.mp hm)
  · rw [hh, hi, ha]
    exact fun hm => hv.vote_le (hs.mp hm)
  · rw [hh, hi, ha, hl]
    exact hv.last
  · rw [hh]
    exact fun hm => hv.report (hpp.mp hm)
  · rw [hh]
    exact fun hm => hv.vote (hps.mp hm)

/-- The acceptor promised `b`. -/
theorem of_promise (hv : Votes n l) {b : BallotNumber} (hb : l.core.acceptor.promiseBallot ≤ b)
    (hi : l'.core.instanceID = l.core.instanceID) (ha : l'.core.acceptor = l.core.promised P b)
    (hh : l'.hist = .promise n l.core.instanceID b l.core.acceptor.acceptedBallot l.core.acceptor.acceptedValue ::
      .persist n l.core.instanceID l.core.acceptor.acceptedValue true :: l.hist) : Votes n l' := by
  have hvote {j c w} : .setAccepted n j c w ∈ l.hist → j ≤ l.core.instanceID ∧ c ≤ b :=
    fun hm => ⟨(hv.vote_le hm).1, (hv.vote_le hm).2.trans hb⟩
  refine ⟨?_, ?_, ?_, ?_, ?_⟩
  · rw [hh, hi, ha]
    intro i c acc v hm
    simp only [List.mem_cons, Obs.promise.injEq, reduceCtorEq, false_or] at hm
    rcases hm with ⟨-, rfl, rfl, -⟩ | hm
    · exact ⟨le_rfl, le_rfl⟩
    · exact ⟨(hv.promise_le hm).1, (hv.promise_le hm).2.trans hb⟩
  · rw [hh, hi, ha]
    intro i c v hm
    simp only [List.mem_cons, reduceCtorEq, false_or] at hm
    exact hvote hm
  · rw [hh, hi, ha]
    simpa [Obs.acceptedAt, Core.promised] using hv.last
  · rw [hh]
    intro i c acc v older hp
    simp only [Past.cons_iff, Obs.promise.injEq, reduceCtorEq, false_and, false_or] at hp
    rcases hp with ⟨⟨-, rfl, rfl, rfl, rfl⟩, rfl⟩ | hp
    · refine ⟨by simpa [Obs.acceptedAt] using hv.last, ?_⟩
      intro j c w hm
      simp only [List.mem_cons, reduceCtorEq, false_or] at hm
      exact hvote hm
    · exact hv.report hp
  · rw [hh]
    intro i c w older hp
    simp only [Past.cons_iff, reduceCtorEq, false_and, false_or] at hp
    exact hv.vote hp

/-- The promise is raised in memory only. -/
theorem of_promiseFail (hv : Votes n l) {b : BallotNumber} (hb : l.core.acceptor.promiseBallot ≤ b)
    (hi : l'.core.instanceID = l.core.instanceID) (ha : l'.core.acceptor = l.core.promised P b)
    (hh : l'.hist = l.hist) : Votes n l' := by
  refine ⟨?_, ?_, ?_, ?_, ?_⟩
  · rw [hh, hi, ha]
    exact fun hm => ⟨(hv.promise_le hm).1, (hv.promise_le hm).2.trans hb⟩
  · rw [hh, hi, ha]
    exact fun hm => ⟨(hv.vote_le hm).1, (hv.vote_le hm).2.trans hb⟩
  · rw [hh, hi, ha]
    exact hv.last
  · rw [hh]
    exact hv.report
  · rw [hh]
    exact hv.vote

/-- The acceptor accepted `v` with `b`. -/
theorem of_accept (hv : Votes n l) {b : BallotNumber} {v : Bytes} (hb : l.core.acceptor.promiseBallot ≤ b)
    (hi : l'.core.instanceID = l.core.instanceID) (ha : l'.core.acceptor = l.core.acceptedWith P b v)
    (hh : l'.hist = .setAccepted n l.core.instanceID b v :: l.hist) : Votes n l' := by
  have hpromise {j c acc w} : .promise n j c acc w ∈ l.hist → j ≤ l.core.instanceID ∧ c ≤ b :=
    fun hm => ⟨(hv.promise_le hm).1, (hv.promise_le hm).2.trans hb⟩
  have hvote {j c w} : .setAccepted n j c w ∈ l.hist → j ≤ l.core.instanceID ∧ c ≤ b :=
    fun hm => ⟨(hv.vote_le hm).1, (hv.vote_le hm).2.trans hb⟩
  refine ⟨?_, ?_, ?_, ?_, ?_⟩
  · rw [hh, hi, ha]
    intro i c acc w hm
    simp only [List.mem_cons, reduceCtorEq, false_or] at hm
    exact hpromise hm
  · rw [hh, hi, ha]
    intro i c w hm
    simp only [List.mem_cons, Obs.setAccepted.injEq] at hm
    rcases hm with ⟨-, rfl, rfl, -⟩ | hm
    · exact ⟨le_rfl, le_rfl⟩
    · exact hvote hm
  · rw [hh, hi, ha]
    simp [Obs.acceptedAt, Core.acceptedWith]
  · rw [hh]
    intro i c acc w older hp
    simp only [Past.cons_iff, reduceCtorEq, false_and, false_or] at hp
    exact hv.report hp
  · rw [hh]
    intro i c w older hp
    simp only [Past.cons_iff, Obs.setAccepted.injEq] at hp
    rcases hp with ⟨⟨-, rfl, rfl, rfl⟩, rfl⟩ | hp
    · exact ⟨hpromise, hvote⟩
    · exact hv.vote hp

/-- The acceptor goes on to the next instance. -/
theorem of_advance (hv : Votes n l) (hi : l'.core.instanceID = l.core.instanceID + 1)
    (ha : l'.core.acceptor = l.core.acceptor.init) (hh : l'.hist = l.hist) : Votes n l' := by
  refine ⟨?_, ?_, ?_, ?_, ?_⟩
  · rw [hh, hi, ha]
    exact fun hm => ⟨(hv.promise_le hm).1.trans (Nat.le_succ _), (hv.promise_le hm).2⟩
  · rw [hh, hi, ha]
    exact fun hm => ⟨(hv.vote_le hm).1.trans (Nat.le_succ _), (hv.vote_le hm).2⟩
  · have hnone : lastAccepted n (l.core.instanceID + 1) l.hist = none :=
      lastAccepted_eq_none fun b v hm => absurd (hv.vote_le hm).1 (Nat.not_succ_le_self _)
    rw [hh, hi, ha, hnone]
    rfl
  · rw [hh]
    exact hv.report
  · rw [hh]
    exact hv.vote

theorem step (hv : Votes n l) (h : AcceptorStep P n l l') : Votes n l' := by
  have hother {obs : List Obs} (hobs : ∀ o ∈ obs, ¬ o.IsVote) : ∀ o ∈ obs, o.IsVote → o.node ≠ n :=
    fun o ho hvote => absurd hvote (hobs o ho)
  cases h with
  | same obs hi ha hh hobs => exact hv.of_frame hi ha obs hh (hother hobs)
  | promise b hb hi ha hh => exact hv.of_promise hb hi ha hh
  | promiseFail b hb hi ha hh =>
    have hv' : Votes n { l' with hist := l.hist } := hv.of_promiseFail hb hi ha rfl
    exact hv'.of_frame rfl rfl [_] hh (by simp [Obs.IsVote])
  | accept b v obs hb hi ha hh hobs =>
    have hv' : Votes n { l' with hist := .setAccepted n l.core.instanceID b v :: l.hist } := hv.of_accept hb hi ha rfl
    exact hv'.of_frame rfl rfl obs hh (hother hobs)
  | advance obs hi ha hh hobs =>
    have hv' : Votes n { l' with hist := l.hist } := hv.of_advance hi ha rfl
    exact hv'.of_frame rfl rfl obs hh (hother hobs)

end Votes

theorem Stepping.votes {s : Abs} (hs : Stepping P D G s) (hsteady : Steady G s.hist) (n : NodeID) :
    Votes n (s.loc n) := by
  refine hs.forall_loc (Steady G) Steady.suffix (I := Votes) ?_ ?_ ?_ hsteady n
  · intro n
    refine ⟨?_, ?_, rfl, ?_, ?_⟩
    · exact fun hm => absurd hm (List.not_mem_nil)
    · exact fun hm => absurd hm (List.not_mem_nil)
    · exact fun hp => absurd hp Past.nil_iff
    · exact fun hp => absurd hp Past.nil_iff
  · exact fun _ hg hv hact => (hv _).step (hact.acceptorStep hg)
  · intro s n l k _ _ hv hact hk
    obtain ⟨obs, hh, hobs⟩ := hact.obs
    exact (hv k).of_frame rfl rfl obs hh fun o ho _ => (hobs o ho).trans_ne hk.symm

end PhxPaxos
