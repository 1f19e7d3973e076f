import PhxPaxos.Timers.Shift

/-!
# Which timers are armed

The ids of timers are fresh, and each id that a node keeps belongs to a timer of its own kind. A prepare timer is armed exactly
while the node prepares and an accept timer exactly while it accepts, never both, and they belong to the instance the node is at
(`Gear.Good`). Every move keeps this (`Move.good`).
-/

namespace PhxPaxos

open TimerType

/-- A timer of the proposer. -/
def TimerType.OfProposer (type : TimerType) : Prop := type = proposerPrepareTimeout ∨ type = proposerAcceptTimeout

namespace Gear

/-- What holds of the timers of a node. -/
structure Good (g : Gear) : Prop where
  pos : ∀ t ∈ g.timers, 0 < t.1
  lt : ∀ t ∈ g.timers, t.1 < g.nowTimerID
  nodup : (g.timers.map Prod.fst).Nodup
  now_pos : 0 < g.nowTimerID
  prepareTimerID_lt : g.prepareTimerID < g.nowTimerID
  acceptTimerID_lt : g.acceptTimerID < g.nowTimerID
  noopTimerID_lt : g.noopTimerID < g.nowTimerID
  commitTimerID_lt : g.commitTimerID < g.nowTimerID
  prepare : ∀ timerID, (timerID, proposerPrepareTimeout) ∈ g.timers ↔ g.isPreparing = true ∧ timerID = g.prepareTimerID
  accept : ∀ timerID, (timerID, proposerAcceptTimeout) ∈ g.timers ↔ g.isAccepting = true ∧ timerID = g.acceptTimerID
  noop : ∀ type, (g.noopTimerID, type) ∈ g.timers → type = learnerAskforlearnNoop
  commit : ∀ type, (g.commitTimerID, type) ∈ g.timers → type = instanceCommitTimeout
  prepareTimerID_zero : g.isPreparing = false → g.prepareTimerID = 0
  acceptTimerID_zero : g.isAccepting = false → g.acceptTimerID = 0
  apart : g.isPreparing = true → g.isAccepting = false
  timeout : g.isPreparing = true ∨ g.isAccepting = true → g.timeoutInstanceID = g.instanceID

/-! ## Removing and adding -/

theorem mem_removeTimer {g : Gear} {timerID : Nat} {t : Nat × TimerType} :
    t ∈ (g.removeTimer timerID).timers ↔ t ∈ g.timers ∧ t.1 ≠ timerID := by
  unfold removeTimer
  rw [List.mem_filter, decide_eq_true_eq]

/-- No timer has the id `0`. -/
theorem mem_dropTimer {g : Gear} {timerID : Nat} {t : Nat × TimerType} (hpos : 0 < t.1) :
    t ∈ (g.dropTimer timerID).timers ↔ t ∈ g.timers ∧ t.1 ≠ timerID := by
  unfold dropTimer
  by_cases h : timerID > 0
  · rw [if_pos h]
    exact mem_removeTimer
  · rw [if_neg h]
    exact ⟨fun ht => ⟨ht, by omega⟩, And.left⟩

theorem dropTimer_subset {g : Gear} {timerID : Nat} : (g.dropTimer timerID).timers ⊆ g.timers := by
  unfold dropTimer
  split
  · exact List.filter_sublist.subset
  · exact List.Subset.refl _

theorem filter_filter_ne (timers : List (Nat × TimerType)) (timerID : Nat) :
    (timers.filter fun t => t.1 ≠ timerID).filter (fun t => t.1 ≠ timerID) = timers.filter fun t => t.1 ≠ timerID := by
  rw [List.filter_filter]
  simp

theorem nodup_removeTimer {g : Gear} (h : (g.timers.map Prod.fst).Nodup) (timerID : Nat) :
    ((g.removeTimer timerID).timers.map Prod.fst).Nodup :=
  h.sublist ((List.filter_sublist).map _)

theorem nodup_dropTimer {g : Gear} (h : (g.timers.map Prod.fst).Nodup) (timerID : Nat) :
    ((g.dropTimer timerID).timers.map Prod.fst).Nodup := by
  unfold dropTimer
  split
  · exact nodup_removeTimer h timerID
  · exact h

/-- An id has one type. -/
theorem Good.type_eq {g : Gear} (hg : g.Good) {timerID : Nat} {type type' : TimerType} (h : (timerID, type) ∈ g.timers)
    (h' : (timerID, type') ∈ g.timers) : type = type' := by
  have hinj := List.inj_on_of_nodup_map hg.nodup h h' rfl
  exact (Prod.mk.inj hinj).2

theorem mem_of_lookup {g : Gear} {timerID : Nat} {type : TimerType} (h : g.timers.lookup timerID = some type) :
    (timerID, type) ∈ g.timers := by
  obtain ⟨l, r, heq, -⟩ := List.lookup_eq_some_iff.mp h
  rw [heq]
  exact List.mem_append_right l List.mem_cons_self

section Good

variable {g : Gear} (hg : g.Good)
include hg

/-- A timer that is not the proposer's may go. -/
theorem Good.dropTimer {timerID : Nat} (h : ∀ type, (timerID, type) ∈ g.timers → ¬ type.OfProposer) :
    (g.dropTimer timerID).Good := by
  have hmem {t : Nat × TimerType} (ht : t ∈ g.timers) : t ∈ (g.dropTimer timerID).timers ↔ t.1 ≠ timerID :=
    (mem_dropTimer (hg.pos t ht)).trans (and_iff_right ht)
  have hsub : (g.dropTimer timerID).timers ⊆ g.timers := dropTimer_subset
  refine { hg with
    pos := fun t ht => hg.pos t (hsub ht)
    lt := fun t ht => hg.lt t (hsub ht)
    nodup := nodup_dropTimer hg.nodup timerID
    prepare := fun id => Iff.trans ?_ (hg.prepare id)
    accept := fun id => Iff.trans ?_ (hg.accept id)
    noop := fun type ht => hg.noop type (hsub ht)
    commit := fun type ht => hg.commit type (hsub ht) }
  · exact ⟨fun ht => hsub ht, fun ht => (hmem ht).mpr fun he => h _ (he ▸ ht) (Or.inl rfl)⟩
  · exact ⟨fun ht => hsub ht, fun ht => (hmem ht).mpr fun he => h _ (he ▸ ht) (Or.inr rfl)⟩

/-- A timer that is not the proposer's may come. -/
theorem Good.addTimer {type : TimerType} (h : ¬ type.OfProposer) : (g.addTimer type).Good := by
  have hne (t : Nat × TimerType) (ht : t ∈ g.timers) : t.1 ≠ g.nowTimerID := Nat.ne_of_lt (hg.lt t ht)
  have hkeep (id : Nat) (type' : TimerType) (htype : type ≠ type') :
      (id, type') ∈ (g.addTimer type).timers ↔ (id, type') ∈ g.timers := by
    refine ⟨fun ht => ?_, fun ht => List.mem_cons_of_mem _ ht⟩
    rcases List.mem_cons.mp ht with he | ht
    · exact absurd (Prod.mk.inj he).2.symm htype
    · exact ht
  have hold (id : Nat) (type' : TimerType) (hid : id < g.nowTimerID) (ht : (id, type') ∈ (g.addTimer type).timers) :
      (id, type') ∈ g.timers := by
    rcases List.mem_cons.mp ht with he | ht
    · exact absurd (Prod.mk.inj he).1 (Nat.ne_of_lt hid)
    · exact ht
  refine { hg with
    pos := ?_
    lt := ?_
    nodup := List.nodup_cons.mpr ⟨?_, hg.nodup⟩
    now_pos := Nat.succ_pos _
    prepareTimerID_lt := Nat.lt_succ_of_lt hg.prepareTimerID_lt
    acceptTimerID_lt := Nat.lt_succ_of_lt hg.acceptTimerID_lt
    noopTimerID_lt := Nat.lt_succ_of_lt hg.noopTimerID_lt
    commitTimerID_lt := Nat.lt_succ_of_lt hg.commitTimerID_lt
    prepare := fun id => (hkeep id _ fun he => h (Or.inl he)).trans (hg.prepare id)
    accept := fun id => (hkeep id _ fun he => h (Or.inr he)).trans (hg.accept id)
    noop := fun type' ht => hg.noop type' (hold _ _ hg.noopTimerID_lt ht)
    commit := fun type' ht => hg.commit type' (hold _ _ hg.commitTimerID_lt ht) }
  · intro t ht
    rcases List.mem_cons.mp ht with rfl | ht
    · exact hg.now_pos
    · exact hg.pos t ht
  · intro t ht
    rcases List.mem_cons.mp ht with rfl | ht
    · exact Nat.lt_succ_self _
    · exact Nat.lt_succ_of_lt (hg.lt t ht)
  · intro hm
    obtain ⟨t, ht, he⟩ := List.mem_map.mp hm
    exact hne t ht he

/-- The timer that was added last is of the type it was added with. -/
theorem Good.addTimer_type {type type' : TimerType} (h : (g.nowTimerID, type') ∈ (g.addTimer type).timers) :
    type' = type := by
  rcases List.mem_cons.mp h with he | h
  · exact (Prod.mk.inj he).2
  · exact absurd rfl (Nat.ne_of_lt (hg.lt _ h))

theorem Good.resetNoop : g.resetNoop.Good := by
  have hdrop : (g.dropTimer g.noopTimerID).Good :=
    hg.dropTimer fun type ht => (hg.noop type ht) ▸ fun h => h.elim nofun nofun
  have hadd : ((g.dropTimer g.noopTimerID).addTimer learnerAskforlearnNoop).Good :=
    hdrop.addTimer fun h => h.elim nofun nofun
  exact { hadd with
    noopTimerID_lt := Nat.lt_succ_self _
    noop := fun type ht => hdrop.addTimer_type ht }

theorem Good.armCommitTimer : g.armCommitTimer.Good := by
  unfold Gear.armCommitTimer
  split
  · have hadd : (g.addTimer instanceCommitTimeout).Good := hg.addTimer fun h => h.elim nofun nofun
    exact { hadd with
      commitTimerID_lt := Nat.lt_succ_self _
      commit := fun type ht => hg.addTimer_type ht }
  · exact hg

theorem Good.dropCommitTimer : g.dropCommitTimer.Good := by
  have hdrop : (g.dropTimer g.commitTimerID).Good :=
    hg.dropTimer fun type ht => (hg.commit type ht) ▸ fun h => h.elim nofun nofun
  exact { hdrop with
    commitTimerID_lt := hg.now_pos
    commit := fun type ht => absurd (hdrop.pos _ ht) (Nat.lt_irrefl 0) }

/-! ## Phases -/

theorem Good.exitPrepare_timers {t : Nat × TimerType} :
    t ∈ g.exitPrepare.timers ↔ t ∈ g.timers ∧ t.1 ≠ g.prepareTimerID := by
  show t ∈ (if g.isPreparing then (g.removeTimer g.prepareTimerID).timers else g.timers) ↔ _
  cases hp : g.isPreparing with
  | true => exact mem_removeTimer
  | false => exact ⟨fun ht => ⟨ht, hg.prepareTimerID_zero hp ▸ (hg.pos t ht).ne'⟩, And.left⟩

theorem Good.exitAccept_timers {t : Nat × TimerType} :
    t ∈ g.exitAccept.timers ↔ t ∈ g.timers ∧ t.1 ≠ g.acceptTimerID := by
  show t ∈ (if g.isAccepting then (g.removeTimer g.acceptTimerID).timers else g.timers) ↔ _
  cases hp : g.isAccepting with
  | true => exact mem_removeTimer
  | false => exact ⟨fun ht => ⟨ht, hg.acceptTimerID_zero hp ▸ (hg.pos t ht).ne'⟩, And.left⟩

theorem Good.exitPrepare_zero : g.exitPrepare.prepareTimerID = 0 := by
  show (if g.isPreparing then 0 else g.prepareTimerID) = 0
  cases hp : g.isPreparing with
  | true => rfl
  | false => exact hg.prepareTimerID_zero hp

theorem Good.exitAccept_zero : g.exitAccept.acceptTimerID = 0 := by
  show (if g.isAccepting then 0 else g.acceptTimerID) = 0
  cases hp : g.isAccepting with
  | true => rfl
  | false => exact hg.acceptTimerID_zero hp

/-- The timers of the two phases are different ones. -/
theorem Good.ne_prepareTimerID {timerID : Nat} (h : (timerID, proposerAcceptTimeout) ∈ g.timers) :
    timerID ≠ g.prepareTimerID := by
  rintro rfl
  have hacc := ((hg.accept _).mp h).1
  have hprep : g.isPreparing = false := by
    cases hp : g.isPreparing with
    | true => exact absurd hacc (by rw [hg.apart hp]; exact Bool.false_ne_true)
    | false => rfl
  exact absurd (hg.pos _ h) (hg.prepareTimerID_zero hprep ▸ Nat.lt_irrefl 0)

theorem Good.ne_acceptTimerID {timerID : Nat} (h : (timerID, proposerPrepareTimeout) ∈ g.timers) :
    timerID ≠ g.acceptTimerID := by
  rintro rfl
  have hacc := hg.apart ((hg.prepare _).mp h).1
  exact absurd (hg.pos _ h) (hg.acceptTimerID_zero hacc ▸ Nat.lt_irrefl 0)

theorem Good.exitPrepare : g.exitPrepare.Good := by
  have hsub {t : Nat × TimerType} (ht : t ∈ g.exitPrepare.timers) : t ∈ g.timers := (hg.exitPrepare_timers.mp ht).1
  refine { hg with
    pos := fun t ht => hg.pos t (hsub ht)
    lt := fun t ht => hg.lt t (hsub ht)
    nodup := ?_
    prepareTimerID_lt := hg.exitPrepare_zero ▸ hg.now_pos
    prepare := fun id => iff_of_false (fun ht => ?_) (fun h => Bool.false_ne_true h.1)
    accept := fun id => Iff.trans ⟨hsub, fun ht => ?_⟩ (hg.accept id)
    noop := fun type ht => hg.noop type (hsub ht)
    commit := fun type ht => hg.commit type (hsub ht)
    prepareTimerID_zero := fun _ => hg.exitPrepare_zero
    apart := fun h => absurd h Bool.false_ne_true
    timeout := fun h => hg.timeout (Or.inr (h.resolve_left Bool.false_ne_true)) }
  · show ((if g.isPreparing then (g.removeTimer g.prepareTimerID).timers else g.timers).map Prod.fst).Nodup
    split
    · exact nodup_removeTimer hg.nodup _
    · exact hg.nodup
  · obtain ⟨ht, hne⟩ := hg.exitPrepare_timers.mp ht
    exact hne ((hg.prepare id).mp ht).2
  · exact hg.exitPrepare_timers.mpr ⟨ht, hg.ne_prepareTimerID ht⟩

theorem Good.exitAccept : g.exitAccept.Good := by
  have hsub {t : Nat × TimerType} (ht : t ∈ g.exitAccept.timers) : t ∈ g.timers := (hg.exitAccept_timers.mp ht).1
  refine { hg with
    pos := fun t ht => hg.pos t (hsub ht)
    lt := fun t ht => hg.lt t (hsub ht)
    nodup := ?_
    acceptTimerID_lt := hg.exitAccept_zero ▸ hg.now_pos
    prepare := fun id => Iff.trans ⟨hsub, fun ht => ?_⟩ (hg.prepare id)
    accept := fun id => iff_of_false (fun ht => ?_) (fun h => Bool.false_ne_true h.1)
    noop := fun type ht => hg.noop type (hsub ht)
    commit := fun type ht => hg.commit type (hsub ht)
    acceptTimerID_zero := fun _ => hg.exitAccept_zero
    apart := fun _ => rfl
    timeout := fun h => hg.timeout (Or.inl (h.resolve_right Bool.false_ne_true)) }
  · show ((if g.isAccepting then (g.removeTimer g.acceptTimerID).timers else g.timers).map Prod.fst).Nodup
    split
    · exact nodup_removeTimer hg.nodup _
    · exact hg.nodup
  · exact hg.exitAccept_timers.mpr ⟨ht, hg.ne_acceptTimerID ht⟩
  · obtain ⟨ht, hne⟩ := hg.exitAccept_timers.mp ht
    exact hne ((hg.accept id).mp ht).2

/-- The timer of the prepare phase is replaced. -/
theorem Good.prepare_timers (h : g.isAccepting = false) : g.prepare.Good := by
  have hold : ∀ t ∈ (g.dropTimer g.prepareTimerID).timers, t ∈ g.timers ∧ t.1 ≠ g.prepareTimerID := by
    intro t ht
    exact (mem_dropTimer (hg.pos t (dropTimer_subset ht))).mp ht
  have hlt : ∀ t ∈ (g.dropTimer g.prepareTimerID).timers, t.1 < g.nowTimerID := fun t ht => hg.lt t (hold t ht).1
  have hstored (id : Nat) (hid : id < g.nowTimerID) (type : TimerType) (ht : (id, type) ∈ g.prepare.timers) :
      (id, type) ∈ g.timers := by
    rcases List.mem_cons.mp ht with he | ht
    · exact absurd (Prod.mk.inj he).1 hid.ne
    · exact (hold _ ht).1
  exact {
    pos := fun t ht => (List.mem_cons.mp ht).elim (fun he => he ▸ hg.now_pos) fun ht => hg.pos t (hold t ht).1
    lt := fun t ht => (List.mem_cons.mp ht).elim (fun he => he ▸ Nat.lt_succ_self _) fun ht => Nat.lt_succ_of_lt (hlt t ht)
    nodup := by
      refine List.nodup_cons.mpr ⟨fun hm => ?_, nodup_dropTimer hg.nodup _⟩
      obtain ⟨t, ht, he⟩ := List.mem_map.mp hm
      exact absurd he (hlt t ht).ne
    now_pos := Nat.succ_pos _
    prepareTimerID_lt := Nat.lt_succ_self _
    acceptTimerID_lt := Nat.lt_succ_of_lt hg.acceptTimerID_lt
    noopTimerID_lt := Nat.lt_succ_of_lt hg.noopTimerID_lt
    commitTimerID_lt := Nat.lt_succ_of_lt hg.commitTimerID_lt
    prepare := fun id => by
      refine ⟨fun ht => ⟨rfl, ?_⟩, fun ht => ht.2 ▸ List.mem_cons_self⟩
      rcases List.mem_cons.mp ht with he | ht
      · exact (Prod.mk.inj he).1
      · exact absurd ((hg.prepare id).mp (hold _ ht).1).2 (hold _ ht).2
    accept := fun id => by
      refine iff_of_false (fun ht => ?_) (fun ht => absurd ht.1 (by rw [show g.prepare.isAccepting = false from h]; exact Bool.false_ne_true))
      rcases List.mem_cons.mp ht with he | ht
      · exact nomatch (Prod.mk.inj he).2
      · have hacc := ((hg.accept id).mp (hold _ ht).1).1
        rw [h] at hacc
        exact Bool.false_ne_true hacc
    noop := fun type ht => hg.noop type (hstored _ hg.noopTimerID_lt type ht)
    commit := fun type ht => hg.commit type (hstored _ hg.commitTimerID_lt type ht)
    prepareTimerID_zero := fun h => absurd h.symm Bool.false_ne_true
    acceptTimerID_zero := fun _ => hg.acceptTimerID_zero h
    apart := fun _ => h
    timeout := fun _ => rfl }

/-- The timer of the accept phase is replaced. -/
theorem Good.accept_timers (h : g.isPreparing = false) : g.accept.Good := by
  have hold : ∀ t ∈ (g.dropTimer g.acceptTimerID).timers, t ∈ g.timers ∧ t.1 ≠ g.acceptTimerID := by
    intro t ht
    exact (mem_dropTimer (hg.pos t (dropTimer_subset ht))).mp ht
  have hlt : ∀ t ∈ (g.dropTimer g.acceptTimerID).timers, t.1 < g.nowTimerID := fun t ht => hg.lt t (hold t ht).1
  have hstored (id : Nat) (hid : id < g.nowTimerID) (type : TimerType) (ht : (id, type) ∈ g.accept.timers) :
      (id, type) ∈ g.timers := by
    rcases List.mem_cons.mp ht with he | ht
    · exact absurd (Prod.mk.inj he).1 hid.ne
    · exact (hold _ ht).1
  exact {
    pos := fun t ht => (List.mem_cons.mp ht).elim (fun he => he ▸ hg.now_pos) fun ht => hg.pos t (hold t ht).1
    lt := fun t ht => (List.mem_cons.mp ht).elim (fun he => he ▸ Nat.lt_succ_self _) fun ht => Nat.lt_succ_of_lt (hlt t ht)
    nodup := by
      refine List.nodup_cons.mpr ⟨fun hm => ?_, nodup_dropTimer hg.nodup _⟩
      obtain ⟨t, ht, he⟩ := List.mem_map.mp hm
      exact absurd he (hlt t ht).ne
    now_pos := Nat.succ_pos _
    prepareTimerID_lt := Nat.lt_succ_of_lt hg.prepareTimerID_lt
    acceptTimerID_lt := Nat.lt_succ_self _
    noopTimerID_lt := Nat.lt_succ_of_lt hg.noopTimerID_lt
    commitTimerID_lt := Nat.lt_succ_of_lt hg.commitTimerID_lt
    prepare := fun id => by
      refine iff_of_false (fun ht => ?_) (fun ht => absurd ht.1 (by rw [show g.accept.isPreparing = false from h]; exact Bool.false_ne_true))
      rcases List.mem_cons.mp ht with he | ht
      · exact nomatch (Prod.mk.inj he).2
      · have hprep := ((hg.prepare id).mp (hold _ ht).1).1
        rw [h] at hprep
        exact Bool.false_ne_true hprep
    accept := fun id => by
      refine ⟨fun ht => ⟨rfl, ?_⟩, fun ht => ht.2 ▸ List.mem_cons_self⟩
      rcases List.mem_cons.mp ht with he | ht
      · exact (Prod.mk.inj he).1
      · exact absurd ((hg.accept id).mp (hold _ ht).1).2 (hold _ ht).2
    noop := fun type ht => hg.noop type (hstored _ hg.noopTimerID_lt type ht)
    commit := fun type ht => hg.commit type (hstored _ hg.commitTimerID_lt type ht)
    prepareTimerID_zero := fun _ => hg.prepareTimerID_zero h
    acceptTimerID_zero := fun h => absurd h.symm Bool.false_ne_true
    apart := fun hp => absurd hp (by rw [show g.accept.isPreparing = false from h]; exact Bool.false_ne_true)
    timeout := fun _ => rfl }

/-- Arming the timer of a phase again is the same as beginning the phase again. -/
theorem Good.addPrepareTimer_eq (h : g.isPreparing = true) : g.addPrepareTimer = g.prepare := by
  unfold Gear.prepare
  rw [← hg.timeout (Or.inl h), ← h]
  rfl

theorem Good.addAcceptTimer_eq (h : g.isAccepting = true) : g.addAcceptTimer = g.accept := by
  unfold Gear.accept
  rw [← hg.timeout (Or.inr h), ← h]
  rfl

theorem Good.isPreparing_false (h : g.isAccepting = true) : g.isPreparing = false := by
  cases hp : g.isPreparing with
  | true => exact absurd h (by rw [hg.apart hp]; exact Bool.false_ne_true)
  | false => rfl

/-- The timer of a phase is removed again when the next round begins. -/
theorem Good.removeTimer_exitAccept_prepare {timerID : Nat} {type : TimerType} (h : (timerID, type) ∈ g.timers)
    (htype : type.OfProposer) : (g.removeTimer timerID).exitAccept.prepare = g.exitAccept.prepare := by
  have htwice := filter_filter_ne g.timers timerID
  rcases htype with rfl | rfl
  · obtain ⟨hprep, rfl⟩ := (hg.prepare timerID).mp h
    have hacc := hg.apart hprep
    have hpos : g.prepareTimerID > 0 := hg.pos _ h
    simp only [Gear.prepare, Gear.exitAccept, Gear.addPrepareTimer, Gear.dropTimer, Gear.addTimer, removeTimer, hacc, hpos,
      if_true, Bool.false_eq_true, if_false]
    rw [htwice]
  · obtain ⟨hacc, rfl⟩ := (hg.accept timerID).mp h
    simp only [Gear.prepare, Gear.exitAccept, Gear.addPrepareTimer, Gear.dropTimer, Gear.addTimer, removeTimer, hacc, if_true]
    rw [htwice]

theorem Good.onProposerTimeout {timerID : Nat} {type : TimerType} (h : (timerID, type) ∈ g.timers)
    (htype : type.OfProposer) : (g.removeTimer timerID).onProposerTimeout.Good := by
  have hphase : g.isPreparing = true ∨ g.isAccepting = true := by
    rcases htype with rfl | rfl
    · exact Or.inl ((hg.prepare timerID).mp h).1
    · exact Or.inr ((hg.accept timerID).mp h).1
  have hinstance : (g.removeTimer timerID).instanceID = (g.removeTimer timerID).timeoutInstanceID := (hg.timeout hphase).symm
  unfold Gear.onProposerTimeout
  rw [if_neg (not_not.mpr hinstance), hg.removeTimer_exitAccept_prepare h htype]
  exact hg.exitAccept.prepare_timers rfl

/-- A timer of another kind fires. -/
theorem Good.removeTimer {timerID : Nat} {type : TimerType} (h : (timerID, type) ∈ g.timers) (htype : ¬ type.OfProposer) :
    (g.removeTimer timerID).Good := by
  have hdrop : (g.dropTimer timerID).Good := hg.dropTimer fun type' h' => hg.type_eq h h' ▸ htype
  unfold Gear.dropTimer at hdrop
  rw [if_pos (hg.pos _ h)] at hdrop
  exact hdrop

theorem Good.newInstance : g.newInstance.Good := by
  -- the phases end first, then the instance is another one
  have hexit := hg.exitPrepare.exitAccept
  have heq : g.newInstance = { g.exitPrepare.exitAccept with instanceID := g.instanceID + 1 } := rfl
  rw [heq]
  exact { hexit with timeout := fun h => h.elim (fun h => absurd h Bool.false_ne_true) fun h => absurd h Bool.false_ne_true }

end Good

end Gear

/-- Every move keeps what holds of the timers. -/
theorem Move.good {a : Allow} {g g' : Gear} (hg : g.Good) (h : Move a g g') : g'.Good := by
  cases h with
  | exitPrepare => exact hg.exitPrepare
  | exitAccept => exact hg.exitAccept
  | prepare h => exact hg.prepare_timers h
  | accept h => exact hg.accept_timers h
  | waitPrepare h => exact hg.addPrepareTimer_eq h ▸ hg.prepare_timers (hg.apart h)
  | waitAccept h => exact hg.addAcceptTimer_eq h ▸ hg.accept_timers (hg.isPreparing_false h)
  | proposerTimeout h htype => exact hg.onProposerTimeout (Gear.mem_of_lookup h) htype
  | noopTimeout h _ =>
    have hfired := hg.removeTimer (Gear.mem_of_lookup h) fun h => h.elim nofun nofun
    exact { hfired.resetNoop with }
  | commitTimeout h =>
    have hfired := hg.removeTimer (Gear.mem_of_lookup h) fun h => h.elim nofun nofun
    exact { hfired.exitPrepare.exitAccept with }
  | resetNoop => exact hg.resetNoop
  | ask _ => exact { hg with }
  | clear _ => exact { hg with }
  | retry _ => exact { hg with }
  | executeFail _ => exact { hg with }
  | @learned value =>
    have hend : (g.setResult .ok value).Good := { hg with }
    exact hend.dropCommitTimer.newInstance
  | refuse _ => exact { hg with }
  | startCommit _ _ =>
    have hstart : ({ g with commitCtx := g.commitCtx.startCommit g.instanceID } : Gear).Good := { hg with }
    exact hstart.armCommitTimer
  | changeValue _ => exact { hg with }
  | newCall _ _ => exact { hg with }
  | lock _ _ _ => exact { hg with }
  | lockFail _ _ _ => exact { hg with }
  | getResult _ _ _ _ => exact { hg with }

theorem Moved.good {a : Allow} {g g' : Gear} (hg : g.Good) (h : Moved a g g') : g'.Good := h.keeps Move.good hg

/-! ## From one state to a later one -/

/-- Timers that were armed before were there before, and those of the proposer do not outlive the instance. -/
structure Gear.Since (g g' : Gear) : Prop where
  now_le : g.nowTimerID ≤ g'.nowTimerID
  instanceID_le : g.instanceID ≤ g'.instanceID
  old : ∀ t ∈ g'.timers, t.1 < g.nowTimerID → t ∈ g.timers
  kept : ∀ t ∈ g'.timers, t.1 < g.nowTimerID → t.2.OfProposer → g'.instanceID = g.instanceID

namespace Gear

theorem Since.refl (g : Gear) : g.Since g := ⟨le_rfl, le_rfl, fun _ ht _ => ht, fun _ _ _ _ => rfl⟩

theorem Since.trans {a b c : Gear} (h : a.Since b) (h' : b.Since c) : a.Since c where
  now_le := h.now_le.trans h'.now_le
  instanceID_le := h.instanceID_le.trans h'.instanceID_le
  old t ht hlt := h.old t (h'.old t ht (hlt.trans_le h.now_le)) hlt
  kept t ht hlt htype :=
    (h'.kept t ht (hlt.trans_le h.now_le) htype).trans (h.kept t (h'.old t ht (hlt.trans_le h.now_le)) hlt htype)

/-- Timers go. -/
theorem Since.of_subset {g g' : Gear} (hsub : g'.timers ⊆ g.timers) (hnow : g'.nowTimerID = g.nowTimerID)
    (hid : g'.instanceID = g.instanceID) : g.Since g' :=
  ⟨hnow.ge, hid.ge, fun _ ht _ => hsub ht, fun _ _ _ _ => hid⟩

/-- One timer comes, with a new id. -/
theorem Since.of_cons {g g' : Gear} {type : TimerType} (hsub : g'.timers ⊆ (g.nowTimerID, type) :: g.timers)
    (hnow : g'.nowTimerID = g.nowTimerID + 1) (hid : g'.instanceID = g.instanceID) : g.Since g' := by
  refine ⟨hnow ▸ Nat.le_succ _, hid.ge, fun t ht hlt => ?_, fun _ _ _ _ => hid⟩
  rcases List.mem_cons.mp (hsub ht) with rfl | ht
  · exact absurd hlt (Nat.lt_irrefl _)
  · exact ht

theorem removeTimer_subset (g : Gear) (timerID : Nat) : (g.removeTimer timerID).timers ⊆ g.timers :=
  List.filter_sublist.subset

theorem exitPrepare_subset (g : Gear) : g.exitPrepare.timers ⊆ g.timers := by
  show (if g.isPreparing then (g.removeTimer g.prepareTimerID).timers else g.timers) ⊆ g.timers
  split
  · exact g.removeTimer_subset _
  · exact List.Subset.refl _

theorem exitAccept_subset (g : Gear) : g.exitAccept.timers ⊆ g.timers := by
  show (if g.isAccepting then (g.removeTimer g.acceptTimerID).timers else g.timers) ⊆ g.timers
  split
  · exact g.removeTimer_subset _
  · exact List.Subset.refl _

theorem since_removeTimer (g : Gear) (timerID : Nat) : g.Since (g.removeTimer timerID) :=
  .of_subset (g.removeTimer_subset timerID) rfl rfl

theorem since_exitPrepare (g : Gear) : g.Since g.exitPrepare := .of_subset g.exitPrepare_subset rfl rfl

theorem since_exitAccept (g : Gear) : g.Since g.exitAccept := .of_subset g.exitAccept_subset rfl rfl

theorem since_addPrepareTimer (g : Gear) : g.Since g.addPrepareTimer :=
  .of_cons (List.cons_subset_cons _ dropTimer_subset) rfl rfl

theorem since_addAcceptTimer (g : Gear) : g.Since g.addAcceptTimer :=
  .of_cons (List.cons_subset_cons _ dropTimer_subset) rfl rfl

theorem since_prepare (g : Gear) : g.Since g.prepare := .of_cons (List.cons_subset_cons _ dropTimer_subset) rfl rfl

theorem since_accept (g : Gear) : g.Since g.accept := .of_cons (List.cons_subset_cons _ dropTimer_subset) rfl rfl

theorem since_resetNoop (g : Gear) : g.Since g.resetNoop := .of_cons (List.cons_subset_cons _ dropTimer_subset) rfl rfl

theorem since_onProposerTimeout (g : Gear) : g.Since g.onProposerTimeout := by
  unfold onProposerTimeout
  split
  · exact .refl g
  · exact (since_exitAccept g).trans (since_prepare _)

theorem since_armCommitTimer (g : Gear) : g.Since g.armCommitTimer := by
  unfold armCommitTimer
  split
  · exact .of_cons (List.Subset.refl _) rfl rfl
  · exact .refl g

/-- No timer of the proposer comes over to the next instance. -/
theorem Good.since_newInstance {g : Gear} (hg : g.Good) : g.Since g.newInstance := by
  have hgood := hg.newInstance
  have hexit := (since_exitPrepare g).trans (since_exitAccept _)
  refine ⟨le_rfl, Nat.le_succ _, hexit.old, fun t ht _ htype => ?_⟩
  obtain ⟨timerID, type⟩ := t
  rcases htype with htype | htype
  · obtain rfl : type = proposerPrepareTimeout := htype
    exact absurd ((hgood.prepare timerID).mp ht).1 Bool.false_ne_true
  · obtain rfl : type = proposerAcceptTimeout := htype
    exact absurd ((hgood.accept timerID).mp ht).1 Bool.false_ne_true

end Gear

theorem Move.since {a : Allow} {g g' : Gear} (hg : g.Good) (h : Move a g g') : g.Since g' := by
  have hsame {g'' : Gear} (ht : g''.timers = g.timers) (hnow : g''.nowTimerID = g.nowTimerID)
      (hid : g''.instanceID = g.instanceID) : g.Since g'' := .of_subset (ht ▸ List.Subset.refl _) hnow hid
  cases h with
  | exitPrepare => exact g.since_exitPrepare
  | exitAccept => exact g.since_exitAccept
  | prepare _ => exact g.since_prepare
  | accept _ => exact g.since_accept
  | waitPrepare _ => exact g.since_addPrepareTimer
  | waitAccept _ => exact g.since_addAcceptTimer
  | proposerTimeout _ _ => exact (g.since_removeTimer _).trans (Gear.since_onProposerTimeout _)
  | @noopTimeout timerID _ _ =>
    have h := (g.since_removeTimer timerID).trans (Gear.since_resetNoop _)
    exact { h with }
  | @commitTimeout timerID _ =>
    have h := ((g.since_removeTimer timerID).trans (Gear.since_exitPrepare _)).trans (Gear.since_exitAccept _)
    exact { h with }
  | resetNoop => exact g.since_resetNoop
  | @learned value =>
    have hend : (g.setResult .ok value).dropCommitTimer.Good :=
      Gear.Good.dropCommitTimer (g := g.setResult .ok value) { hg with }
    have hdrop : g.Since (g.setResult .ok value).dropCommitTimer := .of_subset Gear.dropTimer_subset rfl rfl
    exact hdrop.trans hend.since_newInstance
  | startCommit _ _ =>
    have h := Gear.since_armCommitTimer { g with commitCtx := g.commitCtx.startCommit g.instanceID }
    exact { h with }
  | _ => exact hsame rfl rfl rfl

theorem Moved.since {a : Allow} {g g' : Gear} (hg : g.Good) (h : Moved a g g') : g.Since g' := by
  have hboth : g'.Good ∧ g.Since g' :=
    h.keeps (I := fun g'' => g''.Good ∧ g.Since g'') (fun hi hmove => ⟨hmove.good hi.1, hi.2.trans (hmove.since hi.1)⟩)
      ⟨hg, .refl g⟩
  exact hboth.2

end PhxPaxos
