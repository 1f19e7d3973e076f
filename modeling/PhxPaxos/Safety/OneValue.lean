import PhxPaxos.Safety.SafeValue

/-!
# One value in a ballot

A proposer that times out without having been rejected runs its prepare phase again with the same ballot, also when it
has already broadcast an Accept with it. The promises of the second round may then report a pair that another proposer
left, and `AddPreAcceptValue` replaces the value that went out with the first Accept (`one_value_violated`).

This cannot happen as long as the proposer has counted its own promise before (`OwnPromiseFirst`): its own acceptor then
reports the pair of the first Accept, whose ballot no other report exceeds. Under this condition all Accepts of a ballot
carry one value (`one_value`).
-/

namespace PhxPaxos

variable {P : Params} {G : Group}

/-- When node `n` counts another node's promise that reports a value other than the one it has already broadcast with
the same ballot for the instance, it has counted its own promise in this round. -/
def OwnPromiseFirst (h : List Obs) : Prop :=
  ∀ {n i p m acc v counted older w S}, Past h (.countPromise n i p m acc v counted) older → m ≠ n →
    acc.isnull = false → .accept n i p w S ∈ older → v ≠ w → n ∈ counted

theorem OwnPromiseFirst.suffix {h h' : List Obs} (hsuf : h <:+ h') (ho : OwnPromiseFirst h') : OwnPromiseFirst h :=
  fun hp => ho (hp.mono hsuf)

/-- The check of `OwnPromiseFirst` for one observation. -/
def Obs.ownPromiseFirst (o : Obs) (older : List Obs) : Bool :=
  match o with
  | .countPromise n i p m acc v counted =>
    decide (m = n) || acc.isnull || decide (n ∈ counted) || older.all fun
      | .accept n' i' p' w _ => !decide (n' = n ∧ i' = i ∧ p' = p) || decide (v = w)
      | _ => true
  | _ => true

theorem OwnPromiseFirst.of_pastAll {h : List Obs} (hall : pastAll Obs.ownPromiseFirst h = true) : OwnPromiseFirst h := by
  intro n i p m acc v counted older w S hp hm hacc haccept hne
  have := pastAll_iff.mp hall _ _ hp
  simp only [Obs.ownPromiseFirst, hm, hacc, decide_false, Bool.false_or, Bool.or_eq_true, decide_eq_true_eq,
    List.all_eq_true] at this
  refine this.resolve_right fun hother => ?_
  have := hother _ haccept
  simp [hne] at this

/-! ## The proposer's own vote -/

/-- The ballot of the proposer of node `n`. -/
def Core.ballot (c : Core) (n : NodeID) : BallotNumber := ⟨c.proposer.proposalID, n⟩

/-- The acceptor of node `n` and its own Accept with the value `w`: it has promised a higher ballot, is about to take
the Accept, or has accepted it. -/
def OwnVote (n : NodeID) (w : Bytes) (c : Core) : Prop :=
  c.ballot n < c.acceptor.promiseBallot ∨
    (∃ checksum, c.toSelf = some (acceptMsg n c.instanceID c.proposer.proposalID w checksum)) ∨
    c.acceptor.acceptedBallot = c.ballot n ∧ c.acceptor.acceptedValue = w ∧ c.acceptor.promiseBallot = c.ballot n

/-- Node `n` and the Accepts that it has broadcast. -/
structure SameValue (n : NodeID) (l : Loc) : Prop where
  one : ∀ {i p v w S S'}, .accept n i p v S ∈ l.hist → .accept n i p w S' ∈ l.hist → v = w
  value : ∀ {w S}, .accept n l.core.instanceID l.core.proposer.proposalID w S ∈ l.hist → l.core.proposer.value = w
  own : ∀ {w S}, .accept n l.core.instanceID l.core.proposer.proposalID w S ∈ l.hist → OwnVote n w l.core
  /-- Once the own promise is counted, no report with a lower ballot counts. -/
  counted : ∀ {w S}, .accept n l.core.instanceID l.core.proposer.proposalID w S ∈ l.hist → l.core.isPreparing = true →
    n ∈ l.core.counted → l.core.ballot n ≤ l.core.proposer.highestOtherPreAcceptBallot
  /-- The own promise reports the own vote. -/
  reply : ∀ {w S}, .accept n l.core.instanceID l.core.proposer.proposalID w S ∈ l.hist → ∀ {msg},
    l.core.toSelf = some msg → msg.msgType = .paxosPrepareReply → msg.rejectByPromiseID = 0 →
    msg.proposalID = l.core.proposer.proposalID → msg.preAcceptBallot = l.core.ballot n ∧ msg.value = w

section Step

variable {n : NodeID} {l l' : Loc}

/-- The own vote stays when the message to itself, if there is one, is not the Accept. -/
theorem OwnVote.of_other {c c' : Core} {w : Bytes} (h : OwnVote n w c) (hi : c'.instanceID = c.instanceID)
    (hp : c'.proposer.proposalID = c.proposer.proposalID) (ha : c'.acceptor = c.acceptor)
    (hself : ∀ msg, c.toSelf = some msg → msg.msgType = .paxosAccept → msg.instanceID = c.instanceID →
      c'.toSelf = some msg) : OwnVote n w c' := by
  unfold OwnVote Core.ballot
  rw [hi, hp, ha]
  rcases h with h | ⟨checksum, h⟩ | h
  · exact Or.inl h
  · exact Or.inr (Or.inl ⟨checksum, hself _ h rfl rfl⟩)
  · exact Or.inr (Or.inr h)

/-- A step within the instance and the ballot that broadcasts no Accept. -/
theorem SameValue.of_step (hs : SameValue n l)
    (hmem : ∀ {i p w S}, .accept n i p w S ∈ l'.hist → .accept n i p w S ∈ l.hist)
    (hi : l'.core.instanceID = l.core.instanceID)
    (hp : l'.core.proposer.proposalID = l.core.proposer.proposalID)
    (hvalue : ∀ {w S}, .accept n l.core.instanceID l.core.proposer.proposalID w S ∈ l.hist →
      l'.core.proposer.value = l.core.proposer.value)
    (hown : ∀ {w S}, .accept n l.core.instanceID l.core.proposer.proposalID w S ∈ l.hist → OwnVote n w l'.core)
    (hcounted : l'.core.isPreparing = true → n ∈ l'.core.counted → l.core.isPreparing = true ∧
      n ∈ l.core.counted ∧
      l'.core.proposer.highestOtherPreAcceptBallot = l.core.proposer.highestOtherPreAcceptBallot)
    (hreply : ∀ {w S}, .accept n l.core.instanceID l.core.proposer.proposalID w S ∈ l.hist → ∀ {msg},
      l'.core.toSelf = some msg → msg.msgType = .paxosPrepareReply → msg.rejectByPromiseID = 0 →
      msg.proposalID = l.core.proposer.proposalID → msg.preAcceptBallot = l.core.ballot n ∧ msg.value = w) :
    SameValue n l' := by
  refine ⟨fun h₁ h₂ => hs.one (hmem h₁) (hmem h₂), ?_, ?_, ?_, ?_⟩
  · rw [hi, hp]
    intro w S hm
    rw [hvalue (hmem hm)]
    exact hs.value (hmem hm)
  · rw [hi, hp]
    exact fun hm => hown (hmem hm)
  · rw [hi, hp]
    intro w S hm h₁ h₂
    obtain ⟨h₁, h₂, hb⟩ := hcounted h₁ h₂
    unfold Core.ballot
    rw [hp, hb]
    exact hs.counted (hmem hm) h₁ h₂
  · rw [hi, hp]
    intro w S hm msg hself ht hr hpid
    unfold Core.ballot
    rw [hp]
    exact hreply (hmem hm) hself ht hr hpid

/-- A step after which no Accept has been broadcast in the instance with the ballot. -/
theorem SameValue.of_fresh (hs : SameValue n l)
    (hmem : ∀ {i p w S}, .accept n i p w S ∈ l'.hist → .accept n i p w S ∈ l.hist)
    (hfresh : ∀ {w S}, .accept n l'.core.instanceID l'.core.proposer.proposalID w S ∉ l.hist) : SameValue n l' :=
  ⟨fun h₁ h₂ => hs.one (hmem h₁) (hmem h₂), fun hm => absurd (hmem hm) hfresh, fun hm => absurd (hmem hm) hfresh,
    fun hm => absurd (hmem hm) hfresh, fun hm => absurd (hmem hm) hfresh⟩

/-- A message at hand that is no Accept of this instance is not the one the node sends to itself. -/
theorem not_self_accept {can : PaxosMsg → Prop} {msg : PaxosMsg} (hsrc : Src can l msg)
    (hne : msg.msgType ≠ .paxosAccept ∨ msg.instanceID ≠ l.core.instanceID) {m : PaxosMsg}
    (hm : l.core.toSelf = some m) (ht : m.msgType = .paxosAccept) : m.instanceID ≠ l.core.instanceID := by
  intro hi
  rcases hsrc with ⟨hnone, -⟩ | hself
  · rw [hnone] at hm
    cases hm
  · rw [hself, Option.some.injEq] at hm
    subst hm
    exact hne.elim (fun h => h ht) fun h => h hi

/-- The acceptor promised a ballot: a higher one, or again that of the own vote. -/
theorem OwnVote.of_promise {can : PaxosMsg → Prop} {msg : PaxosMsg} {w : Bytes} {c' : Core}
    (h : OwnVote n w l.core) (hsrc : Src can l msg) (ht : msg.msgType = .paxosPrepare)
    (hb : l.core.acceptor.promiseBallot ≤ msg.ballot) (hp : c'.proposer.proposalID = l.core.proposer.proposalID)
    (ha : c'.acceptor = l.core.promised P msg.ballot) : OwnVote n w c' := by
  unfold OwnVote Core.ballot
  rw [hp, ha]
  rcases h with h | ⟨checksum, h⟩ | ⟨hacc, hvalue, hpromise⟩
  · exact Or.inl (h.trans_le hb)
  · exact absurd rfl (not_self_accept hsrc (Or.inl (by simp [ht])) h rfl)
  · rw [hpromise] at hb
    rcases hb.eq_or_lt with heq | hlt
    · exact Or.inr (Or.inr ⟨hacc, hvalue, heq.symm⟩)
    · exact Or.inl hlt

/-- The reply to the own Prepare reports the own vote. -/
theorem OwnVote.reply {can : PaxosMsg → Prop} {msg : PaxosMsg} {w : Bytes} (h : OwnVote n w l.core)
    (hsrc : Src can l msg) (ht : msg.msgType = .paxosPrepare) (hpos : 1 ≤ l.core.proposer.proposalID)
    (hb : l.core.acceptor.promiseBallot ≤ l.core.ballot n) {p : Nat} :
    (promiseMsg n l.core.instanceID p l.core.acceptor).preAcceptBallot = l.core.ballot n ∧
      (promiseMsg n l.core.instanceID p l.core.acceptor).value = w := by
  rcases h with h | ⟨checksum, h⟩ | ⟨hacc, hvalue, -⟩
  · exact absurd h (not_lt.mpr hb)
  · exact absurd rfl (not_self_accept hsrc (Or.inl (by simp [ht])) h rfl)
  · refine ⟨hacc, ?_⟩
    have hpos' : l.core.acceptor.acceptedBallot.proposalID > 0 := by
      rw [hacc]
      exact hpos
    exact (if_pos hpos').trans hvalue

/-- The acceptor took an Accept: the own one, or one with a higher ballot. -/
theorem OwnVote.of_accept {can : PaxosMsg → Prop} {msg : PaxosMsg} {w : Bytes} {c' : Core}
    (h : OwnVote n w l.core) (hsrc : Src can l msg) (hb : l.core.acceptor.promiseBallot ≤ msg.ballot)
    (hp : c'.proposer.proposalID = l.core.proposer.proposalID)
    (ha : c'.acceptor = l.core.acceptedWith P msg.ballot msg.value)
    (hsame : msg.ballot = l.core.ballot n → msg.value = w) : OwnVote n w c' := by
  have hcase (hle : l.core.ballot n ≤ msg.ballot) : OwnVote n w c' := by
    unfold OwnVote Core.ballot
    rw [hp, ha]
    rcases hle.eq_or_lt with heq | hlt
    · exact Or.inr (Or.inr ⟨heq.symm, hsame heq.symm, heq.symm⟩)
    · exact Or.inl hlt
  rcases h with h | ⟨checksum, h⟩ | ⟨-, -, hpromise⟩
  · exact hcase (h.le.trans hb)
  · rcases hsrc with ⟨hnone, -⟩ | hself
    · rw [hnone] at h
      cases h
    · rw [hself, Option.some.injEq] at h
      subst h
      exact hcase le_rfl
  · exact hcase (hpromise ▸ hb)

/-- The acceptor rejected a message: if it was the own Accept, because of a higher promise. -/
theorem OwnVote.of_reject {can : PaxosMsg → Prop} {msg : PaxosMsg} {w : Bytes} {c' : Core}
    (h : OwnVote n w l.core) (hsrc : Src can l msg) (hb : msg.ballot < l.core.acceptor.promiseBallot)
    (hp : c'.proposer.proposalID = l.core.proposer.proposalID) (ha : c'.acceptor = l.core.acceptor) :
    OwnVote n w c' := by
  unfold OwnVote Core.ballot
  rw [hp, ha]
  rcases h with h | ⟨checksum, h⟩ | h
  · exact Or.inl h
  · rcases hsrc with ⟨hnone, -⟩ | hself
    · rw [hnone] at h
      cases h
    · rw [hself, Option.some.injEq] at h
      subst h
      exact Or.inl hb
  · exact Or.inr (Or.inr h)

/-! ## The steps -/

/-- The own Accept is always heeded. -/
theorem Steers.heedsItself (hst : Steers G n l) (hne : l.core.proposer.value ≠ []) : l.core.HeedsItself n := by
  obtain ⟨hf, hm⟩ := hst.value hne
  refine ⟨hf, ?_⟩
  rw [← hst.members] at hm
  unfold SystemVSM.isValidNodeID
  split
  · rfl
  · exact decide_eq_true hm

theorem SameValue.of_startPrepare (hs : SameValue n l) (hst : Steers G n l) (hnone : l.core.toSelf = none)
    (hi : l'.core.instanceID = l.core.instanceID) (hp : l'.core.proposer = l.core.nextRound)
    (ha : l'.core.acceptor = l.core.acceptor) (hc : l'.core.counted = ∅)
    (hself : l'.core.toSelf = some (prepareMsg n l.core.instanceID l.core.nextRound.proposalID))
    (hh : l'.hist = .prepare n l.core.instanceID l.core.nextRound.proposalID l.core.members :: l.hist) :
    SameValue n l' := by
  have hmem {i p w S} : .accept n i p w S ∈ l'.hist → .accept n i p w S ∈ l.hist := by
    rw [hh]
    exact fun hm => by simpa using hm
  by_cases hreject : l.core.wasRejectBySomeone = true
  · -- a new ballot
    refine hs.of_fresh hmem ?_
    intro w S hm
    have hlt : l.core.proposer.proposalID < l'.core.proposer.proposalID := by
      rw [hp]
      simp only [Core.nextRound, hreject, if_true, ProposerState.newPrepare,
        ProposerState.resetHighestOtherPreAcceptBallot]
      omega
    exact absurd (hst.accept_le hm).2 (Nat.not_le.mpr hlt)
  · -- the same ballot once more
    have hp' : l'.core.proposer.proposalID = l.core.proposer.proposalID := by
      rw [hp]
      simp only [Core.nextRound, hreject, ProposerState.resetHighestOtherPreAcceptBallot]
      rfl
    refine hs.of_step hmem hi hp' (fun _ => by rw [hp, nextRound_value]) ?_ ?_ ?_
    · intro w S hm
      refine (hs.own hm).of_other hi hp' ha ?_
      intro msg h
      rw [hnone] at h
      cases h
    · intro _ hmem
      rw [hc] at hmem
      exact absurd hmem (Finset.notMem_empty n)
    · intro w S _ msg h ht
      rw [hself, Option.some.injEq] at h
      subst h
      cases ht

/-- A promise is counted: its report changes neither the value nor, once the own promise is counted, the ballot. -/
theorem SameValue.countPromise_value (hs : SameValue n l) (hreport : ∀ {m i b acc v}, .promise m i b acc v ∈ l.hist → acc ≤ b)
    (hl : Ledger G l.net l.hist) (hst : Steers G n l) {msg : PaxosMsg} (hsrc : Src (inNetwork.Can l.net n) l msg)
    (ht : msg.msgType = .paxosPrepareReply) (hp : msg.proposalID = l.core.proposer.proposalID)
    (hreject : msg.rejectByPromiseID = 0) (hpreparing : l.core.isPreparing = true) {w : Bytes} {S : Finset NodeID}
    (hfirst : msg.nodeID ≠ n → msg.preAcceptBallot.isnull = false → msg.value ≠ w → n ∈ l.core.counted)
    (haccept : .accept n l.core.instanceID l.core.proposer.proposalID w S ∈ l.hist) :
    (l.core.proposer.addPreAcceptValue msg.preAcceptBallot msg.value).value = l.core.proposer.value := by
  obtain ⟨htold, hown⟩ := hst.told hl hsrc
  obtain ⟨v, hm, -⟩ := htold.promise ht hreject
  have hle : msg.preAcceptBallot ≤ l.core.ballot n := by
    have := hreport hm
    rwa [hp] at this
  unfold ProposerState.addPreAcceptValue
  split
  · rfl
  · rename_i hnull
    split
    · rename_i hgt
      have hgt : l.core.proposer.highestOtherPreAcceptBallot < msg.preAcceptBallot := by simpa using hgt
      have hval : msg.value = w := by
        by_cases hself : msg.nodeID = n
        · exact (hs.reply haccept (hown hself) ht hreject hp).2
        · by_contra hne
          have hn := hfirst hself (Bool.eq_false_iff.mpr hnull) hne
          exact absurd (hgt.trans_le hle) (not_lt.mpr (hs.counted haccept hpreparing hn))
      exact hval.trans (hs.value haccept).symm
    · rfl

/-- The highest reported ballot does not go down, and is at least the one just reported. -/
theorem le_addPreAcceptValue (p : ProposerState) (b : BallotNumber) (v : Bytes) :
    p.highestOtherPreAcceptBallot ≤ (p.addPreAcceptValue b v).highestOtherPreAcceptBallot ∧
      (b.isnull = false → b ≤ (p.addPreAcceptValue b v).highestOtherPreAcceptBallot) := by
  unfold ProposerState.addPreAcceptValue
  split
  · rename_i h
    exact ⟨le_rfl, fun h' => absurd h (Bool.eq_false_iff.mp h')⟩
  · split
    · rename_i h
      have h : p.highestOtherPreAcceptBallot < b := by simpa using h
      exact ⟨h.le, fun _ => le_rfl⟩
    · rename_i h
      have h : b ≤ p.highestOtherPreAcceptBallot := by simpa using h
      exact ⟨le_rfl, fun _ => h⟩

theorem SameValue.of_countPromise (hs : SameValue n l)
    (hreport : ∀ {m i b acc v}, .promise m i b acc v ∈ l.hist → acc ≤ b)
    (hl : Ledger G l.net l.hist) (hst : Steers G n l) {msg : PaxosMsg} (hsrc : Src (inNetwork.Can l.net n) l msg)
    (ht : msg.msgType = .paxosPrepareReply) (hp : msg.proposalID = l.core.proposer.proposalID)
    (hreject : msg.rejectByPromiseID = 0) (hpreparing : l.core.isPreparing = true)
    (hfirst : OwnPromiseFirst (.countPromise n l.core.instanceID msg.proposalID msg.nodeID msg.preAcceptBallot msg.value
      l.core.counted :: l.hist)) :
    SameValue n
      { core := { l.core with
          toSelf := none
          counted := insert msg.nodeID l.core.counted
          proposer := l.core.proposer.addPreAcceptValue msg.preAcceptBallot msg.value }
        net := l.net
        hist := .countPromise n l.core.instanceID msg.proposalID msg.nodeID msg.preAcceptBallot msg.value
          l.core.counted :: l.hist } := by
  have hpid := addPreAcceptValue_proposalID l.core.proposer msg.preAcceptBallot msg.value
  have hval {w S} (haccept : .accept n l.core.instanceID l.core.proposer.proposalID w S ∈ l.hist) :
      (l.core.proposer.addPreAcceptValue msg.preAcceptBallot msg.value).value = l.core.proposer.value := by
    refine hs.countPromise_value hreport hl hst hsrc ht hp hreject hpreparing ?_ haccept
    exact fun h₁ h₂ h₃ => hfirst Past.head h₁ h₂ (hp ▸ haccept) h₃
  refine ⟨fun h₁ h₂ => hs.one (by simpa using h₁) (by simpa using h₂), ?_, ?_, ?_, nofun⟩
  · intro w S hm
    simp only [List.mem_cons, reduceCtorEq, false_or, hpid] at hm
    exact (hval hm).trans (hs.value hm)
  · intro w S hm
    simp only [List.mem_cons, reduceCtorEq, false_or, hpid] at hm
    refine (hs.own hm).of_other rfl hpid rfl ?_
    intro m hm' ht' hi'
    exact absurd hi' (not_self_accept hsrc (Or.inl (by simp [ht])) hm' ht')
  · intro w S hm _ hcounted
    simp only [List.mem_cons, reduceCtorEq, false_or, hpid] at hm
    unfold Core.ballot
    simp only [hpid]
    by_cases hself : msg.nodeID = n
    · -- the own promise
      have hb := (hs.reply hm ((hst.told hl hsrc).2 hself) ht hreject hp).1
      have hnull : msg.preAcceptBallot.isnull = false := by
        refine Bool.eq_false_iff.mpr fun h => ?_
        rw [BallotNumber.isnull_iff, hb] at h
        exact absurd h (Nat.ne_of_gt hst.proposalID_pos)
      exact hb.ge.trans ((le_addPreAcceptValue l.core.proposer msg.preAcceptBallot msg.value).2 hnull)
    · have hn : n ∈ l.core.counted := (Finset.mem_insert.mp hcounted).resolve_left (Ne.symm hself)
      exact (hs.counted hm hpreparing hn).trans (le_addPreAcceptValue _ _ _).1

theorem SameValue.of_startAccept (hs : SameValue n l) (hnew : l'.core.toSelf =
      some (acceptMsg n l.core.instanceID l.core.proposer.proposalID l.core.proposer.value l.core.lastChecksum))
    (hi : l'.core.instanceID = l.core.instanceID) (hp : l'.core.proposer = l.core.proposer)
    (hpreparing : l'.core.isPreparing = false)
    (hh : l'.hist = .accept n l.core.instanceID l.core.proposer.proposalID l.core.proposer.value l.core.members ::
      l.hist) : SameValue n l' := by
  have hvalue {w S} (hm : .accept n l.core.instanceID l.core.proposer.proposalID w S ∈ l'.hist) :
      l.core.proposer.value = w := by
    rw [hh] at hm
    rcases List.mem_cons.mp hm with heq | hm
    · cases heq
      rfl
    · exact hs.value hm
  refine ⟨?_, ?_, ?_, ?_, ?_⟩
  · rw [hh]
    intro i p v w S S' h₁ h₂
    rcases List.mem_cons.mp h₁ with heq₁ | h₁ <;> rcases List.mem_cons.mp h₂ with heq₂ | h₂
    · cases heq₁
      cases heq₂
      rfl
    · cases heq₁
      exact hs.value h₂
    · cases heq₂
      exact (hs.value h₁).symm
    · exact hs.one h₁ h₂
  · rw [hi, hp]
    exact fun hm => hvalue hm
  · rw [hi, hp]
    intro w S hm
    refine Or.inr (Or.inl ⟨l.core.lastChecksum, ?_⟩)
    rw [hnew, hi, hp, hvalue hm]
  · intro w S _ h
    rw [hpreparing] at h
    cases h
  · intro w S _ msg h ht
    rw [hnew, Option.some.injEq] at h
    subst h
    cases ht

/-- What a node with nothing to send to itself sends to itself. -/
theorem send_toSelf {dst : NodeID} {m msg : PaxosMsg} (hnone : l.core.toSelf = none)
    (h : (l.send n dst m).core.toSelf = some msg) : dst = n ∧ m = msg := by
  rw [Loc.send_core] at h
  simp only [hnone, Option.ite_none_right_eq_some, Option.some.injEq] at h
  exact h

/-- A step that keeps the acceptor and the round, and sends no promise. -/
theorem SameValue.of_quiet (hs : SameValue n l)
    (hmem : ∀ {i p w S}, .accept n i p w S ∈ l'.hist → .accept n i p w S ∈ l.hist)
    (hi : l'.core.instanceID = l.core.instanceID) (ha : l'.core.acceptor = l.core.acceptor)
    (hp : l'.core.proposer.proposalID = l.core.proposer.proposalID ∧ l'.core.proposer.highestOtherPreAcceptBallot =
      l.core.proposer.highestOtherPreAcceptBallot)
    (hvalue : l.core.proposer.value ≠ [] → l'.core.proposer.value = l.core.proposer.value)
    (hcounted : l'.core.isPreparing = true → l.core.isPreparing = true ∧ l'.core.counted = l.core.counted)
    (hne : ∀ {i p w S}, .accept n i p w S ∈ l.hist → w ≠ [])
    (hold : l.core.proposer.value ≠ [] → ∀ msg, l.core.toSelf = some msg → msg.msgType = .paxosAccept →
      msg.instanceID = l.core.instanceID → l'.core.toSelf = some msg)
    (hnew : ∀ msg, l'.core.toSelf = some msg → msg.msgType = .paxosPrepareReply → msg.rejectByPromiseID = 0 →
      l.core.toSelf = some msg) : SameValue n l' := by
  refine hs.of_step hmem hi hp.1 ?_ ?_ ?_ ?_
  · exact fun hm => hvalue (hs.value hm ▸ hne hm)
  · exact fun hm => (hs.own hm).of_other hi hp.1 ha (hold (hs.value hm ▸ hne hm))
  · intro h hn
    obtain ⟨h', hc⟩ := hcounted h
    exact ⟨h', hc ▸ hn, hp.2⟩
  · intro w S hm msg hself ht hr hpid
    exact hs.reply hm (hnew msg hself ht hr) ht hr hpid

/-- The promise that a node sends itself reports its own vote. -/
theorem SameValue.of_promise (hs : SameValue n l) (hst : Steers G n l) {msg : PaxosMsg}
    (hsrc : Src (inNetwork.Can l.net n) l msg) (ht : msg.msgType = .paxosPrepare)
    (hb : l.core.acceptor.promiseBallot ≤ msg.ballot) {c : Core} (hc : c =
      { l.core with toSelf := c.toSelf, acceptor := l.core.promised P msg.ballot, records := c.records })
    (hself : ∀ m, c.toSelf = some m →
      msg.nodeID = n ∧ promiseMsg n l.core.instanceID msg.proposalID l.core.acceptor = m)
    (obs : List Obs) {net : List Envelope} (hobs : ∀ {i p w S}, .accept n i p w S ∉ obs) :
    SameValue n ⟨c, net, obs ++ l.hist⟩ := by
  have hmem {i p w S} (hm : .accept n i p w S ∈ obs ++ l.hist) : .accept n i p w S ∈ l.hist :=
    (List.mem_append.mp hm).resolve_left hobs
  refine hs.of_step hmem (by rw [hc]) (by rw [hc]) (fun _ => by rw [hc]) ?_ ?_ ?_
  · exact fun hm => (hs.own hm).of_promise hsrc ht hb (by rw [hc]) (by rw [hc])
  · intro h₁ h₂
    rw [hc] at h₁ h₂
    exact ⟨h₁, h₂, by rw [hc]⟩
  · intro w S hm m h _ _ hp
    obtain ⟨hn, rfl⟩ := hself m h
    refine (hs.own hm).reply hsrc ht hst.proposalID_pos ?_
    rwa [show msg.ballot = l.core.ballot n from by rw [PaxosMsg.ballot, hn, show msg.proposalID = _ from hp]; rfl] at hb

/-- An Accept that the acceptor takes is the own one, or is another node's. -/
theorem SameValue.of_accept (hs : SameValue n l) (hl : Ledger G l.net l.hist) (hst : Steers G n l) {msg : PaxosMsg}
    (hsrc : Src (inNetwork.Can l.net n) l msg) (ht : msg.msgType = .paxosAccept)
    (hi : msg.instanceID = l.core.instanceID) (hb : l.core.acceptor.promiseBallot ≤ msg.ballot) {c : Core} (hc : c =
      { l.core with toSelf := c.toSelf, acceptor := l.core.acceptedWith P msg.ballot msg.value, records := c.records })
    (hself : ∀ m, c.toSelf = some m → m.msgType ≠ .paxosPrepareReply)
    (obs : List Obs) {net : List Envelope} (hobs : ∀ {i p w S}, .accept n i p w S ∉ obs) :
    SameValue n ⟨c, net, obs ++ l.hist⟩ := by
  have hmem {i p w S} (hm : .accept n i p w S ∈ obs ++ l.hist) : .accept n i p w S ∈ l.hist :=
    (List.mem_append.mp hm).resolve_left hobs
  refine hs.of_step hmem (by rw [hc]) (by rw [hc]) (fun _ => by rw [hc]) ?_ ?_ ?_
  · intro w S hm
    refine (hs.own hm).of_accept hsrc hb (by rw [hc]) (by rw [hc]) ?_
    intro heq
    obtain ⟨-, S', haccept⟩ := (hst.told hl hsrc).1.accept ht
    simp only [PaxosMsg.ballot, Core.ballot, BallotNumber.mk.injEq] at heq
    rw [hi, heq.1, heq.2] at haccept
    exact hs.one haccept hm
  · intro h₁ h₂
    rw [hc] at h₁ h₂
    exact ⟨h₁, h₂, by rw [hc]⟩
  · exact fun _ m h ht => absurd ht (hself m h)

/-- The acceptor rejected a message, and tells so. -/
theorem SameValue.of_reject (hs : SameValue n l) (hst : Steers G n l) {msg : PaxosMsg} {type : MsgType}
    (hsrc : Src (inNetwork.Can l.net n) l msg) (hb : msg.ballot < l.core.acceptor.promiseBallot) :
    SameValue n (l.take.send n msg.nodeID (replyMsg n type l.core.instanceID msg.proposalID
      l.core.acceptor.promiseBallot.proposalID)) := by
  refine hs.of_step id rfl rfl (fun _ => rfl) ?_ (fun h₁ h₂ => ⟨h₁, h₂, rfl⟩) ?_
  · exact fun hm => (hs.own hm).of_reject hsrc hb rfl rfl
  · intro w S _ m hm _ hreject hp
    obtain ⟨-, rfl⟩ := send_toSelf rfl hm
    have hle : msg.proposalID ≤ l.core.acceptor.promiseBallot.proposalID := BallotNumber.proposalID_le hb.le
    have hpos := hst.proposalID_pos
    simp only [replyMsg] at hreject hp
    omega

theorem SameValue.act (hs : SameValue n l) (hreport : ∀ {m i b acc v}, .promise m i b acc v ∈ l.hist → acc ≤ b)
    (hl : Ledger G l.net l.hist) (hst : Steers G n l) (hr : Rounds G n l)
    (hact : Act P (inNetwork.Can l.net n) n l l') (hsteady : Steady G l'.hist) (hfirst : OwnPromiseFirst l'.hist) :
    SameValue n l' := by
  have hne {i p w S} (hm : .accept n i p w S ∈ l.hist) : w ≠ [] := (hl.obs (.accept n i p w S) hm).2.1
  have hsame : l.core.isPreparing = true → l.core.isPreparing = true ∧ l.core.counted = l.core.counted :=
    fun h => ⟨h, rfl⟩
  have hnothing (hnone : l.core.toSelf = none) {P : PaxosMsg → Prop} : l.core.proposer.value ≠ [] → ∀ msg,
      l.core.toSelf = some msg → msg.msgType = .paxosAccept → msg.instanceID = l.core.instanceID → P msg :=
    fun _ msg h => absurd (hnone.symm.trans h) nofun
  have htaken {msg : PaxosMsg} (hsrc : Src (inNetwork.Can l.net n) l msg)
      (hother : msg.msgType ≠ .paxosAccept ∨ msg.instanceID ≠ l.core.instanceID) {P : PaxosMsg → Prop} :
      l.core.proposer.value ≠ [] → ∀ msg, l.core.toSelf = some msg → msg.msgType = .paxosAccept →
        msg.instanceID = l.core.instanceID → P msg :=
    fun _ msg h ht hi => absurd hi (not_self_accept hsrc hother h ht)
  cases hact with
  | dropSelf hself hheed =>
    refine hs.of_quiet id rfl rfl ⟨rfl, rfl⟩ (fun _ => rfl) hsame hne ?_ nofun
    intro hvalue m hm ht hi
    rw [hself, Option.some.injEq] at hm
    subst hm
    exact absurd (hst.heedsItself hvalue) (hheed (Or.inr ht))
  | sendTo hnone _ hself =>
    refine hs.of_quiet id rfl rfl ⟨rfl, rfl⟩ (fun _ => rfl) hsame hne (hnothing hnone) ?_
    intro m hm ht
    obtain ⟨hd, rfl⟩ := send_toSelf hnone hm
    obtain ⟨-, -, -, -, dst, hsend⟩ := hself hd
    cases hsend with
    | plain hplain => exact absurd ht hplain.2.1
    | _ => cases ht
  | promise hsrc ht hi hb =>
    exact hs.of_promise hst hsrc ht hb rfl (fun m hm => send_toSelf rfl hm) [_, _] (by simp)
  | promiseFail hsrc ht hi hb =>
    exact hs.of_promise hst hsrc ht hb rfl (fun m hm => by cases hm) [_] (by simp)
  | rejectPrepare hsrc _ _ hb => exact hs.of_reject hst hsrc hb
  | accept hsrc ht hi hb =>
    refine hs.of_accept hl hst hsrc ht hi hb rfl ?_ [_, _, _] (by simp)
    intro m hm
    obtain ⟨-, rfl⟩ := send_toSelf rfl hm
    simp [replyMsg]
  | acceptFail hsrc ht hi hb =>
    exact hs.of_accept hl hst hsrc ht hi hb rfl (fun m hm => by cases hm) [_, _] (by simp)
  | rejectAccept hsrc _ _ hb => exact hs.of_reject hst hsrc hb
  | newValue =>
    exact hs.of_quiet (by simp) rfl rfl ⟨rfl, rfl⟩ (fun h => if_neg fun h0 => h (List.length_eq_zero_iff.mp h0)) hsame hne
      (fun _ _ h _ _ => h) (fun _ h _ _ => h)
  | startPrepare hnone => exact hs.of_startPrepare hst hnone rfl rfl rfl rfl rfl rfl
  | countPromise hsrc ht hi hpreparing hp hreject =>
    exact hs.of_countPromise hreport hl hst hsrc ht hp hreject hpreparing hfirst
  | @noteReject msg hsrc _ ht =>
    have hother : msg.msgType ≠ .paxosAccept := by
      rcases ht with ht | ht <;> simp [ht]
    have hset := setOtherProposalID_value l.core.proposer msg.rejectByPromiseID
    refine hs.of_quiet id rfl rfl ⟨hset.2, ?_⟩ (fun _ => hset.1) hsame hne (htaken hsrc (Or.inl hother)) nofun
    unfold ProposerState.setOtherProposalID
    split <;> rfl
  | startAccept => exact hs.of_startAccept rfl rfl rfl rfl rfl
  | countAccept hsrc ht _ haccepting =>
    refine hs.of_quiet id rfl rfl ⟨rfl, rfl⟩ (fun _ => rfl) ?_ hne (htaken hsrc (Or.inl (by simp [ht]))) nofun
    exact fun h => absurd haccepting (Bool.eq_false_iff.mp (hr.preparing h).1.2)
  | succeed hnone =>
    refine hs.of_quiet (by simp) rfl rfl ⟨rfl, rfl⟩ (fun _ => rfl) hsame hne (hnothing hnone) ?_
    intro m hm ht
    cases hm
    cases ht
  | @learnBySuccess msg hsrc _ _ hcase =>
    have hother : msg.msgType ≠ .paxosAccept ∨ msg.instanceID ≠ l.core.instanceID := by
      rcases hcase with ⟨ht, -⟩ | ⟨-, hi, -⟩
      · exact Or.inl (by simp [ht])
      · exact Or.inr (by omega)
    exact hs.of_quiet (by simp) rfl rfl ⟨rfl, rfl⟩ (fun _ => rfl) hsame hne (htaken hsrc hother) nofun
  | learnValue hsrc ht =>
    exact hs.of_quiet (by simp) rfl rfl ⟨rfl, rfl⟩ (fun _ => rfl) hsame hne (htaken hsrc (Or.inl (by simp [ht]))) nofun
  | learnValueFail hsrc ht =>
    exact hs.of_quiet id rfl rfl ⟨rfl, rfl⟩ (fun _ => rfl) hsame hne (htaken hsrc (Or.inl (by simp [ht]))) nofun
  | advance =>
    refine hs.of_fresh (by simp) ?_
    exact fun hm => absurd (hst.accept_le hm).1 (Nat.not_succ_le_self _)
  | sendOne hnone =>
    refine hs.of_quiet id rfl rfl ⟨rfl, rfl⟩ (fun _ => rfl) hsame hne (hnothing hnone) ?_
    intro m hm ht
    obtain ⟨-, rfl⟩ := send_toSelf hnone hm
    cases ht
  | restart _ _ _ hstart => exact absurd hstart.restart_mem (hsteady.noRestart n _ _)
  | restartFail _ hstart => exact absurd hstart.restart_mem (hsteady.noRestart n _ _)
  | commitTimeout hnone =>
    exact hs.of_quiet id rfl rfl ⟨rfl, rfl⟩ (fun _ => rfl) nofun hne (fun _ _ h _ _ => h) (fun _ h _ _ => h)
  | _ => exact hs.of_quiet (by simp) rfl rfl ⟨rfl, rfl⟩ (fun _ => rfl) hsame hne (fun _ _ h _ _ => h) (fun _ h _ _ => h)

end Step

/-- Steps of other nodes leave the Accepts of node `k` alone. -/
theorem SameValue.other {k : NodeID} {l : Loc} (hs : SameValue k l) {net : List Envelope} {obs : List Obs}
    (hobs : ∀ o ∈ obs, o.node ≠ k) : SameValue k ⟨l.core, net, obs ++ l.hist⟩ := by
  have hmem {i p w S} (hm : .accept k i p w S ∈ obs ++ l.hist) : .accept k i p w S ∈ l.hist :=
    (List.mem_append.mp hm).resolve_left fun ho => hobs _ ho rfl
  exact ⟨fun h₁ h₂ => hs.one (hmem h₁) (hmem h₂), fun hm => hs.value (hmem hm), fun hm => hs.own (hmem hm),
    fun hm => hs.counted (hmem hm), fun hm => hs.reply (hmem hm)⟩

/-- A promise reports a ballot that is no higher than its own. -/
theorem Stepping.report_le {D : Deliver} {s : Abs} (hs : Stepping P D G s) (hsteady : Steady G s.hist) {m : NodeID}
    {i : Nat} {b acc : BallotNumber} {v : Bytes} (hm : .promise m i b acc v ∈ s.hist) : acc ≤ b := by
  obtain ⟨older, hpast⟩ := Past.exists_of_mem hm
  obtain ⟨hlast, hle⟩ := (hs.votes hsteady m).report hpast
  cases hcase : lastAccepted m i older with
  | none =>
    rw [hcase, Option.getD_none, Prod.mk.injEq] at hlast
    rw [hlast.1]
    exact BallotNumber.null_le b
  | some x =>
    rw [hcase, Option.getD_some] at hlast
    have hvote : .setAccepted m i x.1 x.2 ∈ older := mem_of_lastAccepted hcase
    rw [← hlast] at hvote
    exact (hle hvote).2

theorem Stepping.sameValue {s : Abs} (hs : Stepping P inNetwork G s) (hsteady : Steady G s.hist)
    (hfirst : OwnPromiseFirst s.hist) (n : NodeID) : SameValue n (s.loc n) := by
  refine hs.forall_loc (fun h => Steady G h ∧ OwnPromiseFirst h) (fun hsuf => And.imp (.suffix hsuf) (.suffix hsuf))
    (I := SameValue) ?_ ?_ ?_ ⟨hsteady, hfirst⟩ n
  · intro n
    exact ⟨fun hm => absurd hm List.not_mem_nil, fun hm => absurd hm List.not_mem_nil,
      fun hm => absurd hm List.not_mem_nil, fun hm => absurd hm List.not_mem_nil, fun hm => absurd hm List.not_mem_nil⟩
  · intro s n l hs hg ih hact
    have hold := hg.1.suffix hact.hist_suffix
    obtain ⟨hl, hst⟩ := hs.sound hold n
    exact (ih n).act (hs.report_le hold) hl hst (hs.rounds hold n) hact hg.1 hg.2
  · intro s n l k _ _ ih hact hk
    obtain ⟨obs, hh, hobs⟩ := hact.obs
    rw [hh]
    exact (ih k).other fun o ho => (hobs o ho).trans_ne hk.symm

/-! ## Accept messages -/

/-- Every Accept in the network was broadcast by its proposer. -/
theorem Act.accept_sent {can : PaxosMsg → Prop} {n : NodeID} {l l' : Loc} (hact : Act P can n l l') {x : Envelope}
    (hx : x ∈ l'.net) (ht : x.msg.msgType = .paxosAccept) :
    x ∈ l.net ∨ ∃ S, .accept x.msg.nodeID x.msg.instanceID x.msg.proposalID x.msg.value S ∈ l'.hist := by
  have hsendable {dst} {msg : PaxosMsg} (h : Sendable n l dst msg) : msg.msgType ≠ .paxosAccept := by
    cases h with
    | plain hplain => exact hplain.2.2.1
    | _ => exact fun htype => by cases htype
  have hsend {l₀ : Loc} {dst : NodeID} {msg : PaxosMsg} (hx : x ∈ (l₀.send n dst msg).net)
      (hne : dst ≠ n → msg.msgType ≠ .paxosAccept) : x ∈ l₀.net := by
    by_cases hd : dst = n
    · simpa [Loc.send, hd] using hx
    · simp only [Loc.send, hd, if_false, List.mem_cons] at hx
      rcases hx with rfl | hx
      · exact absurd ht (hne hd)
      · exact hx
  cases hact with
  | sendTo _ hdst => exact Or.inl (hsend hx fun hd => hsendable (hdst hd))
  | emit h =>
    rcases List.mem_cons.mp hx with rfl | hx
    · exact absurd ht (hsendable h)
    · exact Or.inl hx
  | promise => exact Or.inl (hsend hx fun _ htype => by cases htype)
  | rejectPrepare => exact Or.inl (hsend hx fun _ htype => by cases htype)
  | accept => exact Or.inl (hsend hx fun _ htype => by cases htype)
  | rejectAccept => exact Or.inl (hsend hx fun _ htype => by cases htype)
  | sendOne => exact Or.inl (hsend hx fun _ htype => by cases htype)
  | startAccept =>
    rcases List.mem_cons.mp hx with rfl | hx
    · exact Or.inr ⟨_, List.mem_cons_self⟩
    · exact Or.inl hx
  | _ => exact Or.inl hx

theorem Stepping.accept_sent {D : Deliver} {s : Abs} (hs : Stepping P D G s) {x : Envelope} (hx : x ∈ s.net)
    (ht : x.msg.msgType = .paxosAccept) :
    ∃ S, .accept x.msg.nodeID x.msg.instanceID x.msg.proposalID x.msg.value S ∈ s.hist := by
  induction hs with
  | init => cases hx
  | act _ hact ih =>
    rcases hact.accept_sent hx ht with hx | h
    · obtain ⟨S, hm⟩ := ih hx
      exact ⟨S, hact.hist_suffix.subset hm⟩
    · exact h

/-- **One ballot, one value**: as long as proposers count their own promise before those that report another value, all
Accepts that a node broadcasts for an instance with a proposal id carry the same value. -/
theorem one_value {s : Sys} (hs : Reachable P inNetwork G s) (hsteady : Steady G s.hist) (hfirst : OwnPromiseFirst s.hist)
    {x y : Envelope} (hx : x ∈ s.net) (hy : y ∈ s.net) (hxt : x.msg.msgType = .paxosAccept)
    (hyt : y.msg.msgType = .paxosAccept) (hn : x.msg.nodeID = y.msg.nodeID) (hi : x.msg.instanceID = y.msg.instanceID)
    (hp : x.msg.proposalID = y.msg.proposalID) : x.msg.value = y.msg.value := by
  obtain ⟨S, hmx⟩ := hs.stepping.accept_sent hx hxt
  obtain ⟨S', hmy⟩ := hs.stepping.accept_sent hy hyt
  rw [hn, hi, hp] at hmx
  exact (hs.stepping.sameValue hsteady hfirst y.msg.nodeID).one hmx hmy

/-- After its Accept of `acceptRun`, node 1 times out, prepares again with the same ballot, counts the old promise of
node 2 once more and broadcasts its Accept again. -/
def acceptAgainRun : List Event := acceptRun ++ [⟨1, .timeout 4, {}⟩, deliver 1 (promiseMsg 2 0 1 {})]

/-- The Accept of node `n` in instance 0. -/
def accept0 (n : NodeID) (dst : Finset NodeID) (v : Bytes) : Envelope := ⟨dst, 0, acceptMsg n 0 1 (packPaxosValue v 0) 0⟩

theorem one_value_acceptAgainRun : accept0 1 {2, 3} [7] ∈
      (Sys.run .plain acceptAgainRun (Sys.init .plain (.ofList [1, 2, 3]))).net ∧
    ∀ y ∈ (Sys.run .plain acceptAgainRun (Sys.init .plain (.ofList [1, 2, 3]))).net, y.msg.msgType = .paxosAccept →
      y.msg.nodeID = 1 → y.msg.instanceID = 0 → y.msg.proposalID = 1 → y.msg.value = packPaxosValue [7] 0 := by
  have hx : accept0 1 {2, 3} [7] ∈ (Sys.run .plain acceptAgainRun (Sys.init .plain (.ofList [1, 2, 3]))).net := by
    decide +kernel
  refine ⟨hx, fun y hy ht hn hi hp => ?_⟩
  exact one_value (.of_run .plain .init (by decide +kernel)) (.of_all (by decide +kernel))
    (OwnPromiseFirst.of_pastAll (by decide +kernel)) hy hx ht rfl hn hi hp

/-! ## The violation -/

/-- Nodes 1, 4 and 5 of five propose. Node 1 gets the promises of 2 and 3 and accepts its value 7 alone; node 4 gets the
promises of 2 and 3 and accepts its value 9 alone, then promises the higher ballot of node 5 and times out. No one has
rejected it, so it prepares again with the same ballot; its own acceptor rejects that, but 1, 2 and 3 promise, and 1 reports
the value 7. -/
def reprepareRun : List Event :=
  proposeEvents 1 0 [7] ++ [deliver 2 (prepareMsg 1 0 1), deliver 3 (prepareMsg 1 0 1), deliver 1 (promiseMsg 2 0 1 {}),
    deliver 1 (promiseMsg 3 0 1 {})] ++
  proposeEvents 4 0 [9] ++ [deliver 2 (prepareMsg 4 0 1), deliver 3 (prepareMsg 4 0 1), deliver 4 (promiseMsg 2 0 1 {}),
    deliver 4 (promiseMsg 3 0 1 {})] ++
  proposeEvents 5 0 [8] ++ [deliver 4 (prepareMsg 5 0 1), ⟨4, .timeout 3, {}⟩, deliver 1 (prepareMsg 4 0 1),
    deliver 4 (promiseMsg 1 0 1 { acceptedBallot := ⟨1, 1⟩, acceptedValue := packPaxosValue [7] 0 }),
    deliver 4 (promiseMsg 2 0 1 {}), deliver 4 (promiseMsg 3 0 1 {})]

/-- Node 4 has broadcast two Accepts for instance 0 with proposal id 1, for 9 and for 7. -/
theorem one_value_violated : ∃ s, Reachable .plain inNetwork (.ofList [1, 2, 3, 4, 5]) s ∧
    Steady (.ofList [1, 2, 3, 4, 5]) s.hist ∧ accept0 4 {1, 2, 3, 5} [9] ∈ s.net ∧ accept0 4 {1, 2, 3, 5} [7] ∈ s.net := by
  refine ⟨Sys.run .plain reprepareRun (Sys.init .plain (.ofList [1, 2, 3, 4, 5])),
    .of_run .plain .init (by decide +kernel), .of_all (by decide +kernel), ?_, ?_⟩
  · decide +kernel
  · decide +kernel

end PhxPaxos
