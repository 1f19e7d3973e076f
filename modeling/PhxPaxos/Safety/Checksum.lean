import PhxPaxos.Recovery.Readable
import PhxPaxos.Safety.Learned

/-!
# The checksums and the log

The checksum of an instance is taken over its value and the checksum of the instance before it (`checksumAt`); `0` says that
it is not known. A node computes it when it writes a record, adopts it from a message, hands it on to others and reads it
back when it starts.

In the runs of `Consistent` all of these fit together (`Chained`): so the assertion of `ChecksumLogic` never fails, and the
record of an instance that a node has left holds what it executed there.
-/

namespace PhxPaxos

variable {P : Params} {G : Group} {values : Nat → Bytes}

/-! ## The chain of checksums -/

/-- The checksum after instance `i`, which started with `last` and has the value `v`. -/
def nextChecksum (P : Params) (i last : Nat) (v : Bytes) : Nat := if i > 0 ∧ last = 0 then 0 else P.crc32 last v

/-- The checksum that instance `i` starts with, when the instances have the given values. -/
def checksumAt (P : Params) (values : Nat → Bytes) : Nat → Nat
  | 0 => 0
  | i + 1 => nextChecksum P i (checksumAt P values i) (values i)

/-- The checksum is not known, or the right one. -/
def ChecksumOk (right checksum : Nat) : Prop := checksum = 0 ∨ checksum = right

theorem ChecksumOk.next {i last : Nat} (h : ChecksumOk (checksumAt P values i) last) (v : Bytes) :
    ChecksumOk (nextChecksum P i (checksumAt P values i) v) (nextChecksum P i last v) := by
  rcases h with rfl | rfl
  · cases i with
    | zero => exact Or.inr rfl
    | succ i => simp [ChecksumOk, nextChecksum]
  · exact Or.inr rfl

theorem persistChecksum_eq (P : Params) (c : Core) {v : Bytes} (hv : v ≠ []) :
    c.persistChecksum P v = nextChecksum P c.instanceID c.lastChecksum v := by
  simp [Core.persistChecksum, nextChecksum, List.length_pos_iff.mpr hv]

theorem learnChecksum_eq (P : Params) (c : Core) {v : Bytes} (hv : v ≠ []) :
    c.learnChecksum P v = nextChecksum P c.instanceID c.lastChecksum v := by
  simp [Core.learnChecksum, nextChecksum, List.length_pos_iff.mpr hv]

/-! ## What the history tells of a node -/

/-- The value that node `n` has learned and not executed, after the observation. -/
def Obs.pending (n : NodeID) : Obs → Option Bytes → Option Bytes
  | .learn m _ v _, x => if m = n then some v else x
  | .newInstance m _ _, x => if m = n then none else x
  | .playLog m _ true, x => if m = n then none else x
  | _, x => x

/-- The value that node `n` has learned for the instance it is at, and not executed yet. -/
def pendingValue (n : NodeID) (h : List Obs) : Option Bytes := h.foldr (Obs.pending n) none

/-- Whether the acceptor of node `n` has written a record for the instance it is at, after the observation. -/
def Obs.wrote (n : NodeID) : Obs → Bool → Bool
  | .persist m _ _ true, x => if m = n then true else x
  | .newInstance m _ _, x => if m = n then false else x
  | .clearAllLog m, x => if m = n then false else x
  | _, x => x

/-- The acceptor of node `n` has written a record since the last instance and since the log was cleared. -/
def hasWritten (n : NodeID) (h : List Obs) : Bool := h.foldr (Obs.wrote n) false

@[simp] theorem pendingValue_cons (n : NodeID) (o : Obs) (h : List Obs) :
    pendingValue n (o :: h) = o.pending n (pendingValue n h) := rfl

@[simp] theorem hasWritten_cons (n : NodeID) (o : Obs) (h : List Obs) :
    hasWritten n (o :: h) = o.wrote n (hasWritten n h) := rfl

/-- The observation changes neither. -/
def Obs.Aside (n : NodeID) (o : Obs) : Prop := (∀ x, o.pending n x = x) ∧ ∀ x, o.wrote n x = x

theorem Obs.aside_of_ne {n : NodeID} {o : Obs} (ho : o.node ≠ n) : o.Aside n := by
  cases o with
  | learn | newInstance | clearAllLog => exact ⟨fun x => by simp_all [pending, node], fun x => by simp_all [wrote, node]⟩
  | persist m i v ok => cases ok <;> exact ⟨fun x => rfl, fun x => by simp_all [wrote, node]⟩
  | playLog m played ok => cases ok <;> exact ⟨fun x => by simp_all [pending, node], fun x => rfl⟩
  | _ => exact ⟨fun x => rfl, fun x => rfl⟩

theorem aside_append {n : NodeID} {obs : List Obs} (hobs : ∀ o ∈ obs, o.Aside n) (h : List Obs) :
    pendingValue n (obs ++ h) = pendingValue n h ∧ hasWritten n (obs ++ h) = hasWritten n h := by
  induction obs with
  | nil => exact ⟨rfl, rfl⟩
  | cons o obs ih =>
    obtain ⟨hpending, hwritten⟩ := ih fun o ho => hobs o (List.mem_cons_of_mem _ ho)
    have ho := hobs o List.mem_cons_self
    simp only [List.cons_append, pendingValue_cons, hasWritten_cons, hpending, hwritten]
    exact ⟨ho.1 _, ho.2 _⟩

/-- A start of node `n` leaves nothing to execute, and what the acceptor wrote. -/
theorem Started.pending {n : NodeID} {i cp : Nat} {played : List Execution} {ok : Bool} {h h' : List Obs}
    (hs : Started n i cp played ok h h') :
    pendingValue n h' = (if ok = true then none else pendingValue n h) ∧ hasWritten n h' = hasWritten n h := by
  obtain ⟨obs, hobs, rfl⟩ := hs
  have haside : ∀ o ∈ obs ++ [.restart n i cp], o.Aside n := by
    intro o ho
    rcases List.mem_append.mp ho with ho | ho
    · obtain ⟨j, S, rfl⟩ := hobs o ho
      exact ⟨fun _ => rfl, fun _ => rfl⟩
    · obtain rfl := List.mem_singleton.mp ho
      exact ⟨fun _ => rfl, fun _ => rfl⟩
  obtain ⟨hpending, hwritten⟩ := aside_append haside h
  rw [List.append_assoc, List.singleton_append] at hpending hwritten
  cases ok <;> simp [Obs.pending, Obs.wrote, hpending, hwritten]

/-! ## Conditions on a run -/

/-- What the acceptor writes while a learned value waits for its execution is this value. -/
def KeepsLearned (h : List Obs) : Prop :=
  ∀ {n i w v older}, Past h (.persist n i w true) older → pendingValue n older = some v → w = v

/-- When a node starts with a checkpoint that is ahead of it, its log was cleared and the acceptor has written nothing
since. -/
def LoadsCleared (h : List Obs) : Prop :=
  ∀ {n i cp older}, Past h (.restart n i cp) older → i < cp → hasWritten n older = false

/-- The runs in which the checksums fit: all writes of the acceptor succeed, and nothing but `values` is learned. -/
structure Consistent (values : Nat → Bytes) (h : List Obs) : Prop where
  puts : PutsSucceed h
  learned : ∀ {n i v how}, .learn n i v how ∈ h → v = values i ∧ v ≠ []
  keepsLearned : KeepsLearned h
  loadsCleared : LoadsCleared h

theorem Consistent.suffix {h h' : List Obs} (hsuf : h <:+ h') (hc : Consistent values h') : Consistent values h where
  puts n i v hm := hc.puts n i v (hsuf.subset hm)
  learned hm := hc.learned (hsuf.subset hm)
  keepsLearned hp := hc.keepsLearned (hp.mono hsuf)
  loadsCleared hp := hc.loadsCleared (hp.mono hsuf)

/-! ## The invariant -/

/-- A message carries the right checksum or none, and a value message the value of its instance. -/
structure PaxosMsg.Fits (P : Params) (values : Nat → Bytes) (msg : PaxosMsg) : Prop where
  checksum : ChecksumOk (checksumAt P values msg.instanceID) msg.lastChecksum
  value : msg.msgType = .learnerSendLearnValue → msg.value = values msg.instanceID ∧ msg.value ≠ []

/-- The record holds the value of instance `i`. -/
structure AcceptorStateData.Holds (P : Params) (values : Nat → Bytes) (i : Nat) (r : AcceptorStateData) : Prop where
  value : r.acceptedValue = values i
  ne_nil : r.acceptedValue ≠ []
  checksum : ChecksumOk (checksumAt P values (i + 1)) r.checksum

/-- The record holds what the acceptor has accepted. -/
structure AcceptorStateData.Mirrors (P : Params) (values : Nat → Bytes) (i : Nat) (a : AcceptorState) (r : AcceptorStateData) :
    Prop where
  value : r.acceptedValue = a.acceptedValue
  checksum : r.acceptedValue ≠ [] → ChecksumOk (nextChecksum P i (checksumAt P values i) r.acceptedValue) r.checksum

/-- All checksums of node `n` are the right ones, and its log holds what was learned. -/
structure Chained (P : Params) (values : Nat → Bytes) (n : NodeID) (l : Loc) : Prop where
  last : ChecksumOk (checksumAt P values l.core.instanceID) l.core.lastChecksum
  sender : ChecksumOk (checksumAt P values l.core.sendInstanceID) l.core.sendChecksum
  acceptor : l.core.acceptor.acceptedValue ≠ [] →
    ChecksumOk (nextChecksum P l.core.instanceID (checksumAt P values l.core.instanceID) l.core.acceptor.acceptedValue)
      l.core.acceptor.checksum
  log : ∀ {i r}, i < l.core.instanceID → l.core.records.lookup i = some r → r.Holds P values i
  above : ∀ {i}, l.core.instanceID < i → l.core.records.lookup i = none
  current : ∀ {r}, l.core.records.lookup l.core.instanceID = some r → l.core.learner.isLearned = false →
    r.Mirrors P values l.core.instanceID l.core.acceptor
  learned : l.core.learner.isLearned = true →
    l.core.learner.learnedValue = values l.core.instanceID ∧ l.core.learner.learnedValue ≠ [] ∧
      ChecksumOk (checksumAt P values (l.core.instanceID + 1)) l.core.learner.newChecksum ∧
      ∀ {r}, l.core.records.lookup l.core.instanceID = some r → r.Holds P values l.core.instanceID
  /-- Without a record of the acceptor, the one of the instance comes from a value message. -/
  fresh : hasWritten n l.hist = false → ∀ {r}, l.core.records.lookup l.core.instanceID = some r →
    r.Holds P values l.core.instanceID
  pending : pendingValue n l.hist = if l.core.learner.isLearned = true then some l.core.learner.learnedValue else none
  success : ∀ {i p S checksum}, .success n i p S checksum ∈ l.hist → ChecksumOk (checksumAt P values i) checksum
  agrees : ∀ i, .checksumLogicFail n i ∉ l.hist

section Step

variable {n : NodeID} {l l' : Loc}

theorem Chained.newChecksum (h : Chained P values n l) (hl : l.core.learner.isLearned = true) :
    ChecksumOk (checksumAt P values (l.core.instanceID + 1)) l.core.learner.newChecksum :=
  (h.learned hl).2.2.1

/-- The checksum of any record is the one for its value. -/
theorem Chained.record (h : Chained P values n l) {i : Nat} {r : AcceptorStateData} (hi : i ≤ l.core.instanceID)
    (hr : l.core.records.lookup i = some r) (hne : r.acceptedValue ≠ []) :
    ChecksumOk (nextChecksum P i (checksumAt P values i) r.acceptedValue) r.checksum := by
  have holds (hr : r.Holds P values i) :
      ChecksumOk (nextChecksum P i (checksumAt P values i) r.acceptedValue) r.checksum := by
    rw [hr.value]
    exact hr.checksum
  rcases Nat.lt_or_eq_of_le hi with hlt | rfl
  · exact holds (h.log hlt hr)
  · cases hl : l.core.learner.isLearned with
    | true => exact holds ((h.learned hl).2.2.2 hr)
    | false => exact (h.current hr hl).checksum hne

/-- What a node sends fits. -/
theorem Chained.sent (h : Chained P values n l) {can : PaxosMsg → Prop} {hist : List Obs} {d : NodeID} {msg : PaxosMsg}
    (hs : Sent can n l hist d msg) : msg.Fits P values := by
  have value {i : Nat} {r : AcceptorStateData} (hi : i < l.core.instanceID) (hr : l.core.records.lookup i = some r) :
      r.acceptedValue = values i ∧ r.acceptedValue ≠ [] := ⟨(h.log hi hr).value, (h.log hi hr).ne_nil⟩
  cases hs with
  | own hsend =>
    cases hsend with
    | plain hplain hzero => exact ⟨Or.inl hzero, fun ht => absurd ht hplain.2.2.2.2.1⟩
    | prepare => exact ⟨Or.inl rfl, fun ht => by cases ht⟩
    | success hm => exact ⟨h.success hm, fun ht => by cases ht⟩
    | record hr hi => exact ⟨Or.inl rfl, fun _ => value hi hr⟩
    | transmit hl hv =>
      obtain ⟨hvalue, hne, -⟩ := h.learned hl
      rw [hv] at hvalue hne
      exact ⟨h.last, fun _ => ⟨hvalue, hne⟩⟩
  | accept => exact ⟨h.last, fun ht => by cases ht⟩
  | success => exact ⟨h.last, fun ht => by cases ht⟩
  | record hr hi => exact ⟨h.sender, fun _ => value hi hr⟩
  | reject type _ _ htype => exact ⟨Or.inl rfl, fun ht => by rcases htype with rfl | rfl <;> cases ht⟩
  | prepare | promise | accepted => exact ⟨Or.inl rfl, fun ht => by cases ht⟩

/-- A step that writes no record, learns nothing and stays in the instance. -/
theorem Chained.of_same (h : Chained P values n l) (obs : List Obs) (hh : l'.hist = obs ++ l.hist)
    (hobs : ∀ o ∈ obs, o.Aside n)
    (hsuccess : ∀ {i p S checksum}, .success n i p S checksum ∈ obs → ChecksumOk (checksumAt P values i) checksum)
    (hfail : ∀ i, .checksumLogicFail n i ∉ obs) (hi : l'.core.instanceID = l.core.instanceID)
    (hlast : ChecksumOk (checksumAt P values l.core.instanceID) l'.core.lastChecksum)
    (hsender : ChecksumOk (checksumAt P values l'.core.sendInstanceID) l'.core.sendChecksum)
    (ha : l'.core.acceptor = l.core.acceptor) (hrec : l'.core.records = l.core.records)
    (hlearned : l'.core.learner.isLearned = l.core.learner.isLearned)
    (hvalue : l'.core.learner.learnedValue = l.core.learner.learnedValue)
    (hnew : l'.core.learner.isLearned = true →
      ChecksumOk (checksumAt P values (l.core.instanceID + 1)) l'.core.learner.newChecksum) : Chained P values n l' := by
  obtain ⟨hpending, hwritten⟩ := aside_append hobs l.hist
  rw [← hh] at hpending hwritten
  constructor
  · rw [hi]
    exact hlast
  · exact hsender
  · rw [hi, ha]
    exact h.acceptor
  · rw [hi, hrec]
    exact h.log
  · rw [hi, hrec]
    exact h.above
  · rw [hi, hrec, ha, hlearned]
    exact h.current
  · intro hl
    have hold := h.learned (hlearned.symm.trans hl)
    rw [hi, hvalue, hrec]
    exact ⟨hold.1, hold.2.1, hnew hl, hold.2.2.2⟩
  · rw [hi, hrec, hwritten]
    exact h.fresh
  · rw [hpending, hlearned, hvalue]
    exact h.pending
  · intro i p S checksum hm
    rw [hh] at hm
    rcases List.mem_append.mp hm with hm | hm
    · exact hsuccess hm
    · exact h.success hm
  · intro i hm
    rw [hh] at hm
    rcases List.mem_append.mp hm with hm | hm
    · exact hfail i hm
    · exact h.agrees i hm

/-- The acceptor writes its record. -/
theorem Chained.of_write (h : Chained P values n l) (hpending : pendingValue n l'.hist = pendingValue n l.hist)
    (hwritten : hasWritten n l'.hist = true)
    (hsuccess : ∀ {i p S checksum}, .success n i p S checksum ∈ l'.hist → .success n i p S checksum ∈ l.hist)
    (hfail : ∀ {i}, .checksumLogicFail n i ∈ l'.hist → .checksumLogicFail n i ∈ l.hist)
    (hkeeps : ∀ {v}, pendingValue n l.hist = some v → l'.core.acceptor.acceptedValue = v)
    (hi : l'.core.instanceID = l.core.instanceID) (hlast : l'.core.lastChecksum = l.core.lastChecksum)
    (hsend : l'.core.sendInstanceID = l.core.sendInstanceID) (hsender : l'.core.sendChecksum = l.core.sendChecksum)
    (hl : l'.core.learner = l.core.learner)
    (hrec : l'.core.records = (l.core.instanceID, l'.core.acceptor.record l.core.instanceID) :: l.core.records)
    (ha : l'.core.acceptor.checksum = l.core.persistChecksum P l'.core.acceptor.acceptedValue) : Chained P values n l' := by
  have hchecksum (hne : l'.core.acceptor.acceptedValue ≠ []) :
      ChecksumOk (nextChecksum P l.core.instanceID (checksumAt P values l.core.instanceID) l'.core.acceptor.acceptedValue)
        l'.core.acceptor.checksum := by
    rw [ha, persistChecksum_eq P _ hne]
    exact h.last.next _
  have hlookup {i : Nat} (hne : i ≠ l.core.instanceID) : l'.core.records.lookup i = l.core.records.lookup i := by
    rw [hrec, List.lookup_cons, beq_false_of_ne hne]
  have hwrote {r : AcceptorStateData} (hr : l'.core.records.lookup l.core.instanceID = some r) :
      l'.core.acceptor.record l.core.instanceID = r := by
    rwa [hrec, List.lookup_cons_self, Option.some.injEq] at hr
  constructor
  · rw [hi, hlast]
    exact h.last
  · rw [hsend, hsender]
    exact h.sender
  · rw [hi]
    exact hchecksum
  · rw [hi]
    intro i r hlt hr
    exact h.log hlt (hlookup hlt.ne ▸ hr)
  · rw [hi]
    intro i hlt
    rw [hlookup hlt.ne']
    exact h.above hlt
  · rw [hi]
    intro r hr _
    obtain rfl := hwrote hr
    exact ⟨rfl, hchecksum⟩
  · rw [hi, hl]
    intro hlearned
    obtain ⟨hvalue, hne, hnew, -⟩ := h.learned hlearned
    refine ⟨hvalue, hne, hnew, fun hr => ?_⟩
    obtain rfl := hwrote hr
    have hsame : l'.core.acceptor.acceptedValue = l.core.learner.learnedValue :=
      hkeeps (h.pending.trans (if_pos hlearned))
    have hne' : l'.core.acceptor.acceptedValue ≠ [] := hsame ▸ hne
    have hright := hchecksum hne'
    rw [hsame, hvalue] at hright
    exact ⟨hsame.trans hvalue, hne', hright⟩
  · intro hnone
    rw [hwritten] at hnone
    cases hnone
  · rw [hpending, hl]
    exact h.pending
  · exact fun hm => h.success (hsuccess hm)
  · exact fun i hm => h.agrees i (hfail hm)

/-- The learner learns the value of the instance, and its record holds it. -/
theorem Chained.of_learn (h : Chained P values n l) {v : Bytes} {how : LearnBy}
    (hh : l'.hist = .learn n l.core.instanceID v how :: l.hist) (hv : v = values l.core.instanceID ∧ v ≠ [])
    (hi : l'.core.instanceID = l.core.instanceID) (hlast : l'.core.lastChecksum = l.core.lastChecksum)
    (hsend : l'.core.sendInstanceID = l.core.sendInstanceID) (hsender : l'.core.sendChecksum = l.core.sendChecksum)
    (ha : l'.core.acceptor = l.core.acceptor) (hlearned : l'.core.learner.isLearned = true)
    (hvalue : l'.core.learner.learnedValue = v)
    (hnew : ChecksumOk (checksumAt P values (l.core.instanceID + 1)) l'.core.learner.newChecksum)
    (hlog : ∀ {i}, i ≠ l.core.instanceID → l'.core.records.lookup i = l.core.records.lookup i)
    (hcurrent : ∀ {r}, l'.core.records.lookup l.core.instanceID = some r → r.Holds P values l.core.instanceID) :
    Chained P values n l' := by
  constructor
  · rw [hi, hlast]
    exact h.last
  · rw [hsend, hsender]
    exact h.sender
  · rw [hi, ha]
    exact h.acceptor
  · rw [hi]
    intro i r hlt hr
    exact h.log hlt (hlog hlt.ne ▸ hr)
  · rw [hi]
    intro i hlt
    rw [hlog hlt.ne']
    exact h.above hlt
  · intro r _ hnot
    rw [hlearned] at hnot
    cases hnot
  · rw [hi, hvalue]
    exact fun _ => ⟨hv.1, hv.2, hnew, hcurrent⟩
  · rw [hi]
    exact fun _ => hcurrent
  · rw [hh, hlearned, hvalue]
    simp [Obs.pending]
  · rw [hh]
    exact fun hm => h.success (List.mem_of_ne_of_mem (by simp) hm)
  · rw [hh]
    exact fun i hm => h.agrees i (List.mem_of_ne_of_mem (by simp) hm)

/-- The node goes on to the next instance. -/
theorem Chained.of_advance (h : Chained P values n l) (hlearned : l.core.learner.isLearned = true) {v : Bytes}
    {calls : List SMCall}
    (hh : l'.hist = .newInstance n l.core.instanceID v :: .execute n l.core.instanceID v true calls :: l.hist)
    (hi : l'.core.instanceID = l.core.instanceID + 1) (hlast : l'.core.lastChecksum = l.core.learner.newChecksum)
    (hsend : l'.core.sendInstanceID = l.core.sendInstanceID) (hsender : l'.core.sendChecksum = l.core.sendChecksum)
    (ha : l'.core.acceptor.acceptedValue = []) (hrec : l'.core.records = l.core.records) (hl : l'.core.learner = {}) :
    Chained P values n l' := by
  obtain ⟨-, -, hnew, hholds⟩ := h.learned hlearned
  have hnone : l.core.records.lookup (l.core.instanceID + 1) = none := h.above (Nat.lt_succ_self _)
  constructor
  · rw [hi, hlast]
    exact hnew
  · rw [hsend, hsender]
    exact h.sender
  · exact fun hne => absurd ha hne
  · rw [hi, hrec]
    intro i r hlt hr
    rcases Nat.lt_succ_iff_lt_or_eq.mp hlt with hlt | rfl
    · exact h.log hlt hr
    · exact hholds hr
  · rw [hi, hrec]
    exact fun hlt => h.above (by omega)
  · rw [hi, hrec, hnone]
    exact fun hr => by cases hr
  · rw [hl]
    exact fun hnot => by cases hnot
  · rw [hi, hrec, hnone]
    exact fun _ _ hr => by cases hr
  · rw [hh, hl]
    simp [Obs.pending]
  · rw [hh]
    exact fun hm => h.success (List.mem_of_ne_of_mem (by simp) (List.mem_of_ne_of_mem (by simp) hm))
  · rw [hh]
    exact fun i hm => h.agrees i (List.mem_of_ne_of_mem (by simp) (List.mem_of_ne_of_mem (by simp) hm))

/-- What `AcceptorState::Load` reads. -/
theorem Acceptor.init_get (s : LogStorage) :
    (∀ r, s.get (Acceptor.init s).1 = some r →
      (Acceptor.init s).2.acceptedValue = r.acceptedValue ∧ (Acceptor.init s).2.checksum = r.checksum) ∧
      (s.get (Acceptor.init s).1 = none → (Acceptor.init s).2.acceptedValue = []) := by
  unfold Acceptor.init
  cases hmax : s.getMaxInstanceID with
  | none =>
    have hempty : s.records = [] := by
      simpa [LogStorage.getMaxInstanceID, List.max?_eq_none_iff] using hmax
    simp [LogStorage.get, hempty]
  | some i =>
    cases hget : s.get i with
    | none => simp [hget]
    | some r => simp [hget]

/-- The process is started again on its log. -/
theorem Chained.of_restart (h : Chained P values n l) {cp i checksum : Nat} {a : AcceptorState} {played : List Execution}
    {h' : List Obs} (hs : Started n l.core.instanceID cp played true l.hist h') (hc : Consistent values h')
    (hinit : (i, a) = Acceptor.init { records := l.core.records } ∨
      (Acceptor.init { records := l.core.records }).1 < i ∧ i = cp ∧
        a = (Acceptor.init { records := l.core.records }).2.init)
    (hchecksum : checksum = 0 ∨ 0 < i ∧ ∃ r, l.core.records.lookup (i - 1) = some r ∧ checksum = r.checksum)
    (hi : l'.core.instanceID = i) (ha : l'.core.acceptor = a) (hlast : l'.core.lastChecksum = checksum)
    (hsender : l'.core.sendChecksum = 0) (hrec : l'.core.records = l.core.records) (hl : l'.core.learner = {})
    (hh : l'.hist = h') : Chained P values n l' := by
  replace hinit : (i = (Acceptor.init { records := l.core.records }).1 ∧ a = (Acceptor.init { records := l.core.records }).2) ∨
      (Acceptor.init { records := l.core.records }).1 < i ∧ i = cp ∧
        a = (Acceptor.init { records := l.core.records }).2.init :=
    hinit.imp_left fun heq => ⟨congrArg Prod.fst heq, congrArg Prod.snd heq⟩
  have hle : ∀ x ∈ l.core.records, x.1 ≤ l.core.instanceID := by
    intro x hx
    by_contra hlt
    obtain ⟨r, hr⟩ := Files.lookup_of_mem hx
    rw [h.above (by omega)] at hr
    cases hr
  have hstart : (Acceptor.init { records := l.core.records }).1 ≤ l.core.instanceID := Acceptor.init_le hle
  have hmax {j : Nat} {r : AcceptorStateData} (hr : l.core.records.lookup j = some r) :
      j ≤ (Acceptor.init { records := l.core.records }).1 :=
    (Acceptor.init_max (s := { records := l.core.records }) (Option.isSome_iff_exists.mpr ⟨r, hr⟩)).1
  -- a checkpoint that is ahead of the node covers no record of the acceptor alone
  have hholds {j : Nat} {r : AcceptorStateData} (hlt : j < i) (hr : l.core.records.lookup j = some r) :
      r.Holds P values j := by
    have hj := hmax hr
    rcases hinit with ⟨rfl, -⟩ | ⟨-, rfl, -⟩
    · exact h.log (by omega) hr
    · rcases Nat.lt_or_eq_of_le (hj.trans hstart) with hlt' | rfl
      · exact h.log hlt' hr
      · obtain ⟨obs, -, rfl⟩ := hs
        exact h.fresh (hc.loadsCleared ((Past.head.mono (List.suffix_append _ _)).of_cons) hlt) hr
  obtain ⟨hpending, hwritten⟩ := hs.pending
  have hold {o : Obs} (ho : o ∈ h') (h₁ : ∀ ok, o ≠ .playLog n played ok) (h₂ : o ≠ .restart n l.core.instanceID cp)
      (h₃ : ∀ i S, o ≠ .updateSystemVariables n i S) : o ∈ l.hist := hs.mem_of ho (h₁ true) h₂ h₃
  obtain ⟨hget, hgetnone⟩ := Acceptor.init_get { records := l.core.records }
  constructor
  · rw [hi, hlast]
    rcases hchecksum with rfl | ⟨hpos, r, hr, rfl⟩
    · exact Or.inl rfl
    · have hright := (hholds (by omega) hr).checksum
      rwa [Nat.sub_add_cancel hpos] at hright
  · exact Or.inl hsender
  · rw [hi, ha]
    intro hne
    rcases hinit with ⟨rfl, rfl⟩ | ⟨-, -, rfl⟩
    · cases hr : l.core.records.lookup (Acceptor.init { records := l.core.records }).1 with
      | none => exact absurd (hgetnone hr) hne
      | some r =>
        obtain ⟨hvalue, hsum⟩ := hget r hr
        rw [hvalue, hsum]
        exact h.record hstart hr (hvalue ▸ hne)
    · exact absurd rfl hne
  · rw [hi, hrec]
    exact hholds
  · rw [hi, hrec]
    intro j hlt
    cases hr : l.core.records.lookup j with
    | none => rfl
    | some r =>
      have hj := hmax hr
      rcases hinit with ⟨rfl, -⟩ | ⟨hlt', -, -⟩ <;> omega
  · rw [hi, hrec, ha]
    intro r hr _
    rcases hinit with ⟨rfl, rfl⟩ | ⟨hlt, -, -⟩
    · exact ⟨(hget r hr).1.symm, h.record hstart hr⟩
    · have hj := hmax hr
      omega
  · rw [hl]
    exact fun hnot => by cases hnot
  · rw [hh, hwritten, hi, hrec]
    intro hnone r hr
    rcases hinit with ⟨rfl, -⟩ | ⟨hlt, -, -⟩
    · rcases Nat.lt_or_eq_of_le hstart with hlt | heq
      · exact h.log hlt hr
      · rw [heq] at hr ⊢
        exact h.fresh hnone hr
    · have hj := hmax hr
      omega
  · rw [hh, hl, hpending]
    simp
  · rw [hh]
    exact fun hm => h.success (hold hm (by simp) (by simp) (by simp))
  · rw [hh]
    exact fun i hm => h.agrees i (hold hm (by simp) (by simp) (by simp))

/-- The log was cleared for a checkpoint. -/
theorem Chained.of_clear (h : Chained P values n l) (hh : l'.hist = .clearAllLog n :: l.hist)
    (hi : l'.core.instanceID = l.core.instanceID) (hlast : l'.core.lastChecksum = l.core.lastChecksum)
    (hsend : l'.core.sendInstanceID = l.core.sendInstanceID) (hsender : l'.core.sendChecksum = l.core.sendChecksum)
    (ha : l'.core.acceptor = l.core.acceptor) (hl : l'.core.learner = l.core.learner) (hrec : l'.core.records = []) :
    Chained P values n l' := by
  constructor
  · rw [hi, hlast]
    exact h.last
  · rw [hsend, hsender]
    exact h.sender
  · rw [hi, ha]
    exact h.acceptor
  · rw [hrec]
    exact fun _ hr => by cases hr
  · rw [hrec]
    exact fun _ => rfl
  · rw [hrec]
    exact fun hr => by cases hr
  · rw [hi, hl, hrec]
    intro hlearned
    obtain ⟨hvalue, hne, hnew, -⟩ := h.learned hlearned
    exact ⟨hvalue, hne, hnew, fun hr => by cases hr⟩
  · rw [hrec]
    exact fun _ _ hr => by cases hr
  · rw [hh, hl]
    exact h.pending
  · rw [hh]
    exact fun hm => h.success (List.mem_of_ne_of_mem (by simp) hm)
  · rw [hh]
    exact fun i hm => h.agrees i (List.mem_of_ne_of_mem (by simp) hm)

theorem Chained.act (h : Chained P values n l)
    (hfits : ∀ {msg}, inNetwork.Can l.net n msg ∨ l.core.toSelf = some msg → msg.Fits P values)
    (hact : Act P (inNetwork.Can l.net n) n l l') (hc : Consistent values l'.hist) : Chained P values n l' := by
  have same {l' : Loc} (hh : l'.hist = l.hist) (hi : l'.core.instanceID = l.core.instanceID)
      (hlast : ChecksumOk (checksumAt P values l.core.instanceID) l'.core.lastChecksum)
      (hsender : ChecksumOk (checksumAt P values l'.core.sendInstanceID) l'.core.sendChecksum)
      (ha : l'.core.acceptor = l.core.acceptor) (hrec : l'.core.records = l.core.records)
      (hl : l'.core.learner = l.core.learner) : Chained P values n l' :=
    h.of_same [] hh (by simp) (by simp) (by simp) hi hlast hsender ha hrec (by rw [hl]) (by rw [hl])
      (by rw [hl]; exact h.newChecksum)
  have one {l' : Loc} (o : Obs) (hh : l'.hist = o :: l.hist) (ho : o.Aside n)
      (hsuccess : ∀ {i p S checksum}, Obs.success n i p S checksum = o → ChecksumOk (checksumAt P values i) checksum)
      (hfail : ∀ i, Obs.checksumLogicFail n i ≠ o) (hi : l'.core.instanceID = l.core.instanceID)
      (hlast : l'.core.lastChecksum = l.core.lastChecksum) (hsend : l'.core.sendInstanceID = l.core.sendInstanceID)
      (hsender : l'.core.sendChecksum = l.core.sendChecksum) (ha : l'.core.acceptor = l.core.acceptor)
      (hrec : l'.core.records = l.core.records) (hl : l'.core.learner = l.core.learner) : Chained P values n l' :=
    h.of_same [o] hh (by simpa using ho) (fun hm => hsuccess (List.mem_singleton.mp hm))
      (fun i hm => hfail i (List.mem_singleton.mp hm)) hi (hlast ▸ h.last) (by rw [hsend, hsender]; exact h.sender) ha hrec
      (by rw [hl]) (by rw [hl]) (by rw [hl]; exact h.newChecksum)
  have src {msg : PaxosMsg} (hsrc : Src (inNetwork.Can l.net n) l msg) : msg.Fits P values :=
    hfits (hsrc.imp_left And.right)
  cases hact with
  | promise =>
    refine h.of_write rfl (if_pos rfl) (by simp) (by simp) (fun hv => ?_) rfl rfl rfl rfl rfl rfl rfl
    exact hc.keepsLearned Past.head.of_cons hv
  | promiseFail => exact absurd List.mem_cons_self (hc.puts n _ _)
  | accept =>
    refine h.of_write rfl (if_pos rfl) (by simp) (by simp) (fun hv => ?_) rfl rfl rfl rfl rfl rfl rfl
    exact hc.keepsLearned Past.head.of_cons hv
  | acceptFail => exact absurd List.mem_cons_self (hc.puts n _ _)
  | learnBySuccess =>
    obtain ⟨hvalue, hne⟩ := hc.learned List.mem_cons_self
    have hnew := h.acceptor hne
    have hright : nextChecksum P l.core.instanceID (checksumAt P values l.core.instanceID) l.core.acceptor.acceptedValue =
        checksumAt P values (l.core.instanceID + 1) := by rw [hvalue]; rfl
    refine h.of_learn rfl ⟨hvalue, hne⟩ rfl rfl rfl rfl rfl rfl rfl (hright ▸ hnew) (fun _ => rfl) (fun {r} hr => ?_)
    cases hl : l.core.learner.isLearned with
    | true => exact (h.learned hl).2.2.2 hr
    | false =>
      have hmirrors := h.current hr hl
      have hchecksum := hmirrors.checksum (hmirrors.value ▸ hne)
      rw [hmirrors.value, hright] at hchecksum
      exact ⟨hmirrors.value.trans hvalue, hmirrors.value ▸ hne, hchecksum⟩
  | @learnValue msg =>
    obtain ⟨hvalue, hne⟩ := hc.learned List.mem_cons_self
    have hnew : ChecksumOk (checksumAt P values (l.core.instanceID + 1)) (l.core.learnChecksum P msg.value) := by
      rw [learnChecksum_eq P _ hne, hvalue]
      exact h.last.next _
    refine h.of_learn rfl ⟨hvalue, hne⟩ rfl rfl rfl rfl rfl rfl rfl hnew (fun hi => ?_) (fun hr => ?_)
    · rw [List.lookup_cons, beq_false_of_ne hi]
    · rw [List.lookup_cons_self, Option.some.injEq] at hr
      subst hr
      exact ⟨hvalue, hne, hnew⟩
  | @learnValueFail msg hsrc ht hi =>
    obtain ⟨hvalue, hne⟩ := (src hsrc).value ht
    rw [hi] at hvalue
    refine h.of_same [] rfl (by simp) (by simp) (by simp) rfl h.last h.sender rfl rfl rfl rfl (fun _ => ?_)
    show ChecksumOk _ (l.core.learnChecksum P msg.value)
    rw [learnChecksum_eq P _ hne, hvalue]
    exact h.last.next _
  | advance hlearned => exact h.of_advance hlearned rfl rfl rfl rfl rfl rfl rfl rfl
  | adoptChecksum hm _ hi =>
    exact same rfl rfl (hi ▸ (hfits hm).checksum) h.sender rfl rfl rfl
  | @checksumLogicFail msg hm hne hi hunknown hother =>
    -- both checksums are known, so both are the right one
    exfalso
    have hmsg := ((hfits hm).checksum).resolve_left hne
    rw [hi] at hmsg
    rcases h.last with hzero | hlast
    · have hstart : l.core.instanceID = 0 := by
        by_contra hpos
        exact hunknown ⟨Nat.pos_of_ne_zero hpos, hzero⟩
      rw [hstart] at hmsg
      exact hne hmsg
    · exact hother (hmsg.trans hlast.symm)
  | succeed =>
    exact one _ rfl ⟨fun _ => rfl, fun _ => rfl⟩ (fun heq => by cases heq; exact h.last) (by simp) rfl rfl rfl rfl rfl rfl rfl
  | sendStart => exact same rfl rfl h.last (Or.inl rfl) rfl rfl rfl
  | sendOne _ hr hlt => exact same rfl rfl h.last (h.log hlt hr).checksum rfl rfl rfl
  | clearAllLog => exact h.of_clear rfl rfl rfl rfl rfl rfl rfl rfl
  | restart _ hinit hchecksum hs => exact h.of_restart hs hc hinit hchecksum rfl rfl rfl rfl rfl rfl rfl
  | restartFail _ hs =>
    obtain ⟨obs, hh, hobs⟩ := hs.obs
    refine h.of_same obs hh ?_ ?_ ?_ rfl h.last h.sender rfl rfl rfl rfl h.newChecksum
    · intro o ho
      rcases hobs o ho with rfl | rfl | ⟨i, S, rfl⟩ <;> exact ⟨fun _ => rfl, fun _ => rfl⟩
    · intro i p S checksum hm
      rcases hobs _ hm with heq | heq | ⟨i, S, heq⟩ <;> cases heq
    · intro i hm
      rcases hobs _ hm with heq | heq | ⟨i, S, heq⟩ <;> cases heq
  | newValue | startPrepare | countPromise | startAccept | nextInstanceMsg | executeFail | updateSystemVariables
  | initSystemVariables =>
    exact one _ rfl ⟨fun _ => rfl, fun _ => rfl⟩ (by simp) (by simp) rfl rfl rfl rfl rfl rfl rfl
  | _ => exact same rfl rfl h.last h.sender rfl rfl rfl

/-- Steps of other nodes leave the checksums and the log alone. -/
theorem Chained.other {l : Loc} (h : Chained P values n l) {net : List Envelope} {obs : List Obs}
    (hobs : ∀ o ∈ obs, o.node ≠ n) : Chained P values n ⟨l.core, net, obs ++ l.hist⟩ := by
  refine h.of_same obs rfl (fun o ho => Obs.aside_of_ne (hobs o ho)) ?_ ?_ rfl h.last h.sender rfl rfl rfl rfl h.newChecksum
  · exact fun hm => absurd rfl (hobs _ hm)
  · exact fun i hm => absurd rfl (hobs _ hm)

/-- All messages of the node's network and the one to itself fit. -/
structure Loc.Fits (P : Params) (values : Nat → Bytes) (l : Loc) : Prop where
  net : ∀ x ∈ l.net, ∀ d ∈ x.dst, x.msg.Fits P values
  toSelf : ∀ msg, l.core.toSelf = some msg → msg.Fits P values

theorem Loc.Fits.can (h : l.Fits P values) {msg : PaxosMsg} (hcan : inNetwork.Can l.net n msg) : msg.Fits P values := by
  obtain ⟨gid, x, hx, hd, -, rfl⟩ := hcan
  exact h.net x hx n hd

theorem Loc.Fits.act (h : l.Fits P values) (hc : Chained P values n l) (hact : Act P (inNetwork.Can l.net n) n l l') :
    l'.Fits P values := by
  constructor
  · intro x hx d hd
    rcases hact.sent.1 x hx with hx | hx
    · exact h.net x hx d hd
    · exact hc.sent (hx d hd).2
  · intro msg hm
    rcases hact.sent.2 msg hm with hm | hsent
    · exact h.toSelf msg hm
    · exact hc.sent hsent

end Step

/-- In the runs of `Consistent` all checksums and all messages fit. -/
theorem Stepping.chained {s : Abs} (hs : Stepping P inNetwork G s) (hc : Consistent values s.hist) (n : NodeID) :
    (s.loc n).Fits P values ∧ Chained P values n (s.loc n) := by
  refine hs.forall_loc (Consistent values) Consistent.suffix (I := fun n l => l.Fits P values ∧ Chained P values n l)
    ?_ ?_ ?_ hc n
  · intro n
    refine ⟨⟨fun x hx => absurd hx List.not_mem_nil, fun msg hm => by cases hm⟩, ?_⟩
    constructor
    · exact Or.inl rfl
    · exact Or.inl rfl
    · exact fun hne => absurd rfl hne
    · exact fun hlt => absurd hlt (Nat.not_lt_zero _)
    · exact fun _ => rfl
    · exact fun hr => by cases hr
    · exact fun hl => by cases hl
    · exact fun _ _ hr => by cases hr
    · rfl
    · exact fun hm => absurd hm List.not_mem_nil
    · exact fun i hm => absurd hm List.not_mem_nil
  · intro s n l hs hg ih hact
    obtain ⟨hfits, hchained⟩ := ih n
    refine ⟨hfits.act hchained hact, hchained.act ?_ hact hg⟩
    rintro msg (hcan | hself)
    · exact hfits.can hcan
    · exact hfits.toSelf msg hself
  · intro s n l k _ _ ih hact hk
    obtain ⟨hfits, hchained⟩ := ih k
    have hnet := ((ih n).1.act (ih n).2 hact).net
    obtain ⟨obs, hh, hobs⟩ := hact.obs
    refine ⟨⟨hnet, hfits.toSelf⟩, ?_⟩
    rw [hh]
    exact hchained.other fun o ho => (hobs o ho).trans_ne hk.symm

end PhxPaxos
