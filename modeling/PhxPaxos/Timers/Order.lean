import PhxPaxos.Model.Run
import PhxPaxos.Model.TimerLoop
import PhxPaxos.Timers.Runs

/-!
# Timers are dispatched once and in order

The event loop keeps a lawful history of its timers (`TimerLoop.Reachable.kept`): what it dispatches exists, is due and is the
first of all that exist. What it does to them is what the loop of a node does (`TimerLoop.Refines`). The proposer has a timer armed
exactly in its phases, and none comes over to another instance (`timers_in_order`).
-/

namespace PhxPaxos

/-! ## The heap -/

/-- What the heap is ordered by. -/
def TimerObj.key (t : TimerObj) : Lex (Int × Nat) := Alarms.key (t.timerID, t.absTime)

theorem TimerObj.less_iff {t obj : TimerObj} : t.less obj = true ↔ obj.key < t.key := by
  unfold less key Alarms.key
  rw [Prod.Lex.toLex_lt_toLex]
  by_cases h : obj.absTime = t.absTime
  · rw [if_pos h, decide_eq_true_eq]
    exact ⟨fun hlt => Or.inr ⟨h, hlt⟩, fun hlt => hlt.elim (fun hlt => absurd h hlt.ne) And.right⟩
  · rw [if_neg h, decide_eq_true_eq]
    exact ⟨Or.inl, fun hlt => hlt.resolve_right fun he => h he.1⟩

namespace Timer

theorem pushHeap_perm (t : TimerObj) (heap : List TimerObj) : (pushHeap t heap).Perm (t :: heap) := by
  induction heap with
  | nil => exact .refl _
  | cons obj heap ih =>
    unfold pushHeap
    split
    · exact .refl _
    · exact (ih.cons obj).trans (.swap t obj heap)

theorem pushHeap_sorted (t : TimerObj) {heap : List TimerObj} (h : heap.Pairwise fun a b => a.key ≤ b.key) :
    (pushHeap t heap).Pairwise fun a b => a.key ≤ b.key := by
  induction heap with
  | nil => exact List.pairwise_singleton _ _
  | cons obj heap ih =>
    obtain ⟨hfirst, hrest⟩ := List.pairwise_cons.mp h
    unfold pushHeap
    split
    · rename_i hless
      have hlt := TimerObj.less_iff.mp hless
      refine List.pairwise_cons.mpr ⟨fun a ha => ?_, h⟩
      rcases List.mem_cons.mp ha with rfl | ha
      · exact hlt.le
      · exact hlt.le.trans (hfirst a ha)
    · rename_i hless
      have hle : obj.key ≤ t.key := not_lt.mp fun hlt => hless (TimerObj.less_iff.mpr hlt)
      refine List.pairwise_cons.mpr ⟨fun a ha => ?_, ih hrest⟩
      rcases List.mem_cons.mp ((pushHeap_perm t heap).subset ha) with rfl | ha
      · exact hle
      · exact hfirst a ha

end Timer

/-! ## The loop -/

namespace TimerLoop

/-- The timer exists, and is due then. -/
def Exists (l : TimerLoop) (timerID : Nat) (due : Int) : Prop :=
  timerID ∈ l.timerIDExist ∧ ∃ obj ∈ l.timer.timerHeap, obj.timerID = timerID ∧ obj.absTime = due

/-- What holds of the heap, the map of ids and the history. -/
structure Kept (l : TimerLoop) : Prop where
  sorted : l.timer.timerHeap.Pairwise fun a b => a.key ≤ b.key
  lt : ∀ obj ∈ l.timer.timerHeap, obj.timerID < l.timer.nowTimerID
  nodup : (l.timer.timerHeap.map TimerObj.timerID).Nodup
  armed : ∀ timerID due, (timerID, due) ∈ Alarms.armed l.hist ↔ l.Exists timerID due
  set_lt : ∀ {timerID due now}, .set timerID due now ∈ l.hist → timerID < l.timer.nowTimerID
  ring_le : ∀ {timerID now}, .ring timerID now ∈ l.hist → now ≤ (l.now : Int)
  lawful : Alarms.Lawful l.hist

variable {l l' : TimerLoop}

theorem kept_start (now : Nat) : Kept { now := now } where
  sorted := List.Pairwise.nil
  lt := nofun
  nodup := List.nodup_nil
  armed _ _ := iff_of_false List.not_mem_nil fun h => Finset.notMem_empty _ h.1
  set_lt := nofun
  ring_le := nofun
  lawful := Alarms.lawful_nil

section Kept

variable (hl : l.Kept)
include hl

theorem Kept.addTimer (timeout : Int) (type : TimerType) (timerID : Nat) : (l.addTimer timeout type timerID).1.Kept := by
  unfold TimerLoop.addTimer
  split
  · exact hl
  · let obj : TimerObj := ⟨l.timer.nowTimerID, l.now + timeout, type⟩
    have hperm := Timer.pushHeap_perm obj l.timer.timerHeap
    have hmem {o : TimerObj} : o ∈ Timer.pushHeap obj l.timer.timerHeap ↔ o = obj ∨ o ∈ l.timer.timerHeap :=
      hperm.mem_iff.trans List.mem_cons
    refine {
      sorted := Timer.pushHeap_sorted obj hl.sorted
      lt := fun o ho => ?_
      nodup := ?_
      armed := fun id due => ?_
      set_lt := fun h => ?_
      ring_le := fun h => hl.ring_le ((List.mem_cons.mp h).resolve_left fun he => by cases he)
      lawful := hl.lawful.cons ⟨fun id due now h => hl.set_lt h, fun id now h => hl.ring_le h⟩ }
    · rcases hmem.mp ho with rfl | ho
      · exact Nat.lt_succ_self _
      · exact Nat.lt_succ_of_lt (hl.lt o ho)
    · refine (hperm.map TimerObj.timerID).nodup_iff.mpr (List.nodup_cons.mpr ⟨fun h => ?_, hl.nodup⟩)
      obtain ⟨o, ho, he⟩ := List.mem_map.mp h
      exact absurd he (hl.lt o ho).ne
    · constructor
      · intro h
        rcases List.mem_cons.mp h with he | h
        · obtain ⟨rfl, rfl⟩ := Prod.mk.inj he
          exact ⟨Finset.mem_insert_self _ _, obj, hmem.mpr (Or.inl rfl), rfl, rfl⟩
        · obtain ⟨hid, o, ho, heq⟩ := (hl.armed id due).mp h
          exact ⟨Finset.mem_insert_of_mem hid, o, hmem.mpr (Or.inr ho), heq⟩
      · rintro ⟨hid, o, ho, rfl, rfl⟩
        rcases hmem.mp ho with rfl | ho
        · exact List.mem_cons_self
        · have hne : o.timerID ≠ l.timer.nowTimerID := (hl.lt o ho).ne
          exact List.mem_cons_of_mem _ ((hl.armed _ _).mpr ⟨Finset.mem_of_mem_insert_of_ne hid hne, o, ho, rfl, rfl⟩)
    · rcases List.mem_cons.mp h with he | h
      · exact (Alarms.Event.set.inj he).1 ▸ Nat.lt_succ_self _
      · exact Nat.lt_succ_of_lt (hl.set_lt h)

/-- An id that is gone is not armed any more. -/
theorem Kept.erase (timerID : Nat) {e : Alarms.Event Nat Int}
    (he : e = .cancel timerID ∨ ∃ now, e = .ring timerID now ∧ now ≤ l.now) (hlaw : Alarms.Event.Lawful l.hist e) (point : LoopPoint) : Kept { l with
      timerIDExist := l.timerIDExist.erase timerID, point := point, hist := e :: l.hist } := by
  have harmed : Alarms.armed (e :: l.hist) = (Alarms.armed l.hist).filter fun a => a.1 ≠ timerID := by
    rcases he with rfl | ⟨now, rfl, -⟩ <;> rfl
  refine { hl with
    armed := fun id due => ?_
    set_lt := fun h => ?_
    ring_le := fun h => ?_
    lawful := hl.lawful.cons hlaw }
  · show (id, due) ∈ Alarms.armed (e :: l.hist) ↔ _
    rw [harmed, List.mem_filter, decide_eq_true_eq, hl.armed]
    unfold Exists
    rw [Finset.mem_erase]
    exact ⟨fun ⟨⟨hid, hobj⟩, hne⟩ => ⟨⟨hne, hid⟩, hobj⟩, fun ⟨⟨hne, hid⟩, hobj⟩ => ⟨⟨hid, hobj⟩, hne⟩⟩
  · refine hl.set_lt (List.mem_of_ne_of_mem ?_ h)
    rcases he with rfl | ⟨now, rfl, -⟩ <;> exact fun he => by cases he
  · rcases List.mem_cons.mp h with heq | h
    · rcases he with rfl | ⟨now, rfl, hle⟩
      · cases heq
      · exact (Alarms.Event.ring.inj heq).2 ▸ hle
    · exact hl.ring_le h

theorem Kept.removeTimer (timerID : Nat) : (l.removeTimer timerID).1.Kept := hl.erase timerID (Or.inl rfl) trivial l.point

/-- The first timer of the heap goes, which does not exist. -/
theorem Kept.drop {obj : TimerObj} {heap : List TimerObj} (hheap : l.timer.timerHeap = obj :: heap)
    (hid : obj.timerID ∉ l.timerIDExist) : Kept { l with timer := { l.timer with timerHeap := heap } } := by
  have hsub {o : TimerObj} (ho : o ∈ heap) : o ∈ l.timer.timerHeap := hheap ▸ List.mem_cons_of_mem obj ho
  refine { hl with
    sorted := (List.pairwise_cons.mp (hheap ▸ hl.sorted)).2
    lt := fun o ho => hl.lt o (hsub ho)
    nodup := (List.nodup_cons.mp (hheap ▸ hl.nodup)).2
    armed := fun id due => (hl.armed id due).trans ⟨?_, fun ⟨he, o, ho, heq⟩ => ⟨he, o, hsub ho, heq⟩⟩ }
  rintro ⟨he, o, ho, heq, hdue⟩
  rcases List.mem_cons.mp (hheap ▸ ho) with rfl | ho
  · exact absurd (heq ▸ he) hid
  · exact ⟨he, o, ho, heq, hdue⟩

/-- The first timer of the heap is dispatched, which exists and is due. -/
theorem Kept.dispatch {obj : TimerObj} {heap : List TimerObj} (hheap : l.timer.timerHeap = obj :: heap)
    (hid : obj.timerID ∈ l.timerIDExist) (hdue : obj.absTime ≤ l.now) :
    Alarms.Event.Lawful l.hist (.ring obj.timerID l.now) := by
  have hmem : obj ∈ l.timer.timerHeap := hheap ▸ List.mem_cons_self
  refine ⟨obj.absTime, hdue, (hl.armed _ _).mpr ⟨hid, obj, hmem, rfl, rfl⟩, fun a ha => ?_⟩
  obtain ⟨-, o, ho, hao, hadue⟩ := (hl.armed a.1 a.2).mp ha
  have hkey : Alarms.key a = o.key := by
    unfold TimerObj.key
    rw [hao, hadue]
  rw [hkey]
  rcases List.mem_cons.mp (hheap ▸ ho) with rfl | ho
  · exact le_rfl
  · exact (List.pairwise_cons.mp (hheap ▸ hl.sorted)).1 o ho

theorem Kept.pop : l.pop.Kept := by
  unfold TimerLoop.pop Timer.popTimeout
  cases hheap : l.timer.timerHeap with
  | nil => exact { hl with }
  | cons obj heap =>
    dsimp only
    by_cases hdue : obj.absTime > l.now
    · rw [if_pos hdue]
      exact { hl with }
    · rw [if_neg hdue]
      dsimp only
      unfold dealwithTimeoutOne
      split
      · rename_i hid
        have hkept := hl.erase obj.timerID (Or.inr ⟨_, rfl, le_rfl⟩) (hl.dispatch hheap hid (not_lt.mp hdue))
          (.onTimeout obj.timerID obj.type)
        exact hkept.drop hheap (Finset.notMem_erase _ _)
      · have hkept := hl.drop hheap ‹_›
        exact { hkept with }

end Kept

theorem Step.kept (h : Step l l') (hl : l.Kept) : l'.Kept := by
  cases h with
  | tick ms => exact { hl with ring_le := fun h => (hl.ring_le h).trans (Int.ofNat_le.mpr (Nat.le_add_right _ _)) }
  | addTimer timeout type timerID _ => exact hl.addTimer timeout type timerID
  | removeTimer timerID _ => exact hl.removeTimer timerID
  | dealwithTimeout _ => exact { hl with }
  | pop _ => exact hl.pop
  | onTimeout _ => exact { hl with }
  | next _ => exact { hl with }

theorem Reachable.kept (h : Reachable l) : l.Kept := by
  induction h with
  | start now => exact kept_start now
  | step _ hstep ih => exact hstep.kept ih

/-! ## The loop of a node -/

/-- The timers that exist are those of the loop of a node. -/
structure Refines (l : TimerLoop) (io : IOLoop) : Prop where
  nowTimerID : io.nowTimerID = l.timer.nowTimerID
  timers : ∀ timerID type, (timerID, type) ∈ io.timers ↔
    timerID ∈ l.timerIDExist ∧ ∃ obj ∈ l.timer.timerHeap, obj.timerID = timerID ∧ obj.type = type

/-- What can happen to the timers of a node; one of them may fire at any time. -/
inductive NodeStep : IOLoop → IOLoop → Prop
  | same {io : IOLoop} : NodeStep io io
  | addTimer {io : IOLoop} (type : TimerType) : NodeStep io (io.addTimer type)
  | removeTimer {io : IOLoop} (timerID : Nat) : NodeStep io (io.removeTimer timerID)
  | timeout {io : IOLoop} {timerID : Nat} {type : TimerType} : (timerID, type) ∈ io.timers → NodeStep io (io.removeTimer timerID)

section Refines

variable {io : IOLoop} (hr : l.Refines io)
include hr

theorem Refines.of_eq (htimer : l'.timer = l.timer) (hexist : l'.timerIDExist = l.timerIDExist) : l'.Refines io :=
  ⟨htimer ▸ hr.nowTimerID, fun id type => htimer ▸ hexist ▸ hr.timers id type⟩

theorem Refines.addTimer (hl : l.Kept) {timeout : Int} (ht : timeout ≠ -1) (type : TimerType) (timerID : Nat) :
    (l.addTimer timeout type timerID).1.Refines (io.addTimer type) := by
  unfold TimerLoop.addTimer
  rw [if_neg ht]
  let obj : TimerObj := ⟨l.timer.nowTimerID, l.now + timeout, type⟩
  have hmem {o : TimerObj} : o ∈ Timer.pushHeap obj l.timer.timerHeap ↔ o = obj ∨ o ∈ l.timer.timerHeap :=
    (Timer.pushHeap_perm obj l.timer.timerHeap).mem_iff.trans List.mem_cons
  refine ⟨congrArg (· + 1) hr.nowTimerID, fun id type' => ?_⟩
  constructor
  · intro h
    rcases List.mem_cons.mp h with he | h
    · obtain ⟨hid, rfl⟩ := Prod.mk.inj he
      rw [hid, hr.nowTimerID]
      exact ⟨Finset.mem_insert_self _ _, obj, hmem.mpr (Or.inl rfl), rfl, rfl⟩
    · obtain ⟨hid, o, ho, heq⟩ := (hr.timers id type').mp h
      exact ⟨Finset.mem_insert_of_mem hid, o, hmem.mpr (Or.inr ho), heq⟩
  · rintro ⟨hid, o, ho, rfl, rfl⟩
    rcases hmem.mp ho with rfl | ho
    · exact List.mem_cons.mpr (Or.inl (Prod.ext hr.nowTimerID.symm rfl))
    · have hne : o.timerID ≠ l.timer.nowTimerID := (hl.lt o ho).ne
      exact List.mem_cons_of_mem _ ((hr.timers _ _).mpr ⟨Finset.mem_of_mem_insert_of_ne hid hne, o, ho, rfl, rfl⟩)

/-- An id that is gone is gone from the node. -/
theorem Refines.erase {timerID : Nat} (htimer : l'.timer = l.timer) (hexist : l'.timerIDExist = l.timerIDExist.erase timerID) :
    l'.Refines (io.removeTimer timerID) := by
  refine ⟨htimer ▸ hr.nowTimerID, fun id type => ?_⟩
  unfold IOLoop.removeTimer
  rw [List.mem_filter, decide_eq_true_eq, hr.timers, htimer, hexist, Finset.mem_erase]
  exact ⟨fun ⟨⟨hid, hobj⟩, hne⟩ => ⟨⟨hne, hid⟩, hobj⟩, fun ⟨⟨hne, hid⟩, hobj⟩ => ⟨⟨hid, hobj⟩, hne⟩⟩

/-- The first timer of the heap goes, which does not exist. -/
theorem Refines.drop {obj : TimerObj} {heap : List TimerObj} (hheap : l.timer.timerHeap = obj :: heap)
    (hid : obj.timerID ∉ l.timerIDExist) : Refines { l with timer := { l.timer with timerHeap := heap } } io := by
  refine ⟨hr.nowTimerID, fun id type => (hr.timers id type).trans ⟨?_, fun ⟨he, o, ho, heq⟩ => ?_⟩⟩
  · rintro ⟨he, o, ho, heq, htype⟩
    rcases List.mem_cons.mp (hheap ▸ ho) with rfl | ho
    · exact absurd (heq ▸ he) hid
    · exact ⟨he, o, ho, heq, htype⟩
  · exact ⟨he, o, hheap ▸ List.mem_cons_of_mem obj ho, heq⟩

theorem Refines.pop : ∃ io', NodeStep io io' ∧ l.pop.Refines io' := by
  unfold TimerLoop.pop Timer.popTimeout
  cases hheap : l.timer.timerHeap with
  | nil => exact ⟨io, .same, hr.of_eq rfl rfl⟩
  | cons obj heap =>
    dsimp only
    by_cases hdue : obj.absTime > l.now
    · rw [if_pos hdue]
      exact ⟨io, .same, hr.of_eq rfl rfl⟩
    · rw [if_neg hdue]
      dsimp only
      unfold dealwithTimeoutOne
      split
      · rename_i hid
        have hmem : (obj.timerID, obj.type) ∈ io.timers :=
          (hr.timers _ _).mpr ⟨hid, obj, hheap ▸ List.mem_cons_self, rfl, rfl⟩
        have herase : Refines { l with timerIDExist := l.timerIDExist.erase obj.timerID } (io.removeTimer obj.timerID) :=
          hr.erase rfl rfl
        have hdrop := herase.drop hheap (Finset.notMem_erase _ _)
        exact ⟨_, .timeout hmem, hdrop.of_eq rfl rfl⟩
      · have hdrop := hr.drop hheap ‹_›
        exact ⟨io, .same, hdrop.of_eq rfl rfl⟩

end Refines

/-- **The loop of a node is that of the library with the clock left out.** -/
theorem Step.refines {io : IOLoop} (h : Step l l') (hl : l.Kept) (hr : l.Refines io) :
    ∃ io', NodeStep io io' ∧ l'.Refines io' := by
  cases h with
  | tick _ => exact ⟨io, .same, hr.of_eq rfl rfl⟩
  | addTimer timeout type timerID _ =>
    by_cases ht : timeout = -1
    · refine ⟨io, .same, ?_⟩
      unfold TimerLoop.addTimer
      rw [if_pos ht]
      exact hr
    · exact ⟨_, .addTimer type, hr.addTimer hl ht type timerID⟩
  | removeTimer timerID _ => exact ⟨_, .removeTimer timerID, hr.erase rfl rfl⟩
  | dealwithTimeout _ => exact ⟨io, .same, hr.of_eq rfl rfl⟩
  | pop _ => exact hr.pop
  | onTimeout _ => exact ⟨io, .same, hr.of_eq rfl rfl⟩
  | next _ => exact ⟨io, .same, hr.of_eq rfl rfl⟩

end TimerLoop

/-! ## The timers of a proposer -/

/-- The timers of one type, when there is at most one. -/
theorem filter_type {timers : List (Nat × TimerType)} {type : TimerType} {phase : Bool} {timerID : Nat}
    (hnodup : (timers.map Prod.fst).Nodup) (hiff : ∀ id, (id, type) ∈ timers ↔ phase = true ∧ id = timerID) :
    timers.filter (fun t => t.2 = type) = if phase then [(timerID, type)] else [] := by
  have hmem {t : Nat × TimerType} : t ∈ timers.filter (fun t => t.2 = type) ↔ phase = true ∧ t = (timerID, type) := by
    obtain ⟨id, type'⟩ := t
    rw [List.mem_filter, decide_eq_true_eq, Prod.mk.injEq]
    constructor
    · rintro ⟨ht, rfl⟩
      exact ⟨((hiff id).mp ht).1, ((hiff id).mp ht).2, rfl⟩
    · rintro ⟨hp, rfl, rfl⟩
      exact ⟨(hiff id).mpr ⟨hp, rfl⟩, rfl⟩
  cases phase with
  | false => exact List.eq_nil_iff_forall_not_mem.mpr fun t ht => Bool.false_ne_true (hmem.mp ht).1
  | true =>
    have hsub : (timers.filter fun t => t.2 = type).Nodup := (List.Nodup.of_map _ hnodup).filter _
    have hperm : (timers.filter fun t => t.2 = type).Perm [(timerID, type)] :=
      (List.perm_ext_iff_of_nodup hsub (List.nodup_singleton _)).mpr fun t => by
        rw [hmem, List.mem_singleton]
        exact ⟨And.right, fun h => ⟨rfl, h⟩⟩
    exact List.perm_singleton.mp hperm

/-- A proposer has a timer armed in each phase that is running, and no other. -/
structure Node.OneTimerAPhase (n : Node) : Prop where
  prepare : n.ioLoop.timers.filter (fun t => t.2 = .proposerPrepareTimeout) =
    if n.proposer.isPreparing then [(n.proposer.prepareTimerID, .proposerPrepareTimeout)] else []
  accept : n.ioLoop.timers.filter (fun t => t.2 = .proposerAcceptTimeout) =
    if n.proposer.isAccepting then [(n.proposer.acceptTimerID, .proposerAcceptTimeout)] else []

theorem Gear.Good.oneTimerAPhase {n : Node} (h : n.gear.Good) : n.OneTimerAPhase :=
  ⟨filter_type h.nodup h.prepare, filter_type h.nodup h.accept⟩

/-- A timer of the proposer of an instance that has ended does nothing when it fires. -/
theorem onTimeout_old {P : Params} {n n' : Node} {timerID : Nat} {type : TimerType} (hgood : n.gear.Good)
    (hsince : n.gear.Since n'.gear) (hlt : n.instanceID < n'.instanceID) (ht : (timerID, type) ∈ n.ioLoop.timers)
    (htype : type.OfProposer) {w : Proc} (hw : w.node = n') : onTimeout P timerID w = w := by
  have hnone : w.node.ioLoop.timers.lookup timerID = none := by
    cases hlookup : w.node.ioLoop.timers.lookup timerID with
    | none => rfl
    | some type' =>
      have hmem : (timerID, type') ∈ n'.gear.timers := hw ▸ Gear.mem_of_lookup hlookup
      have hid : timerID < n.gear.nowTimerID := hgood.lt _ ht
      obtain rfl : type = type' := hgood.type_eq ht (hsince.old _ hmem hid)
      exact absurd (hsince.kept _ hmem hid htype) hlt.ne'
  unfold onTimeout
  rw [hnone]

/-! ## Both -/

/-- **Timers fire at most once, in order, and never when cancelled or stale**: in every run of the event loop each timer is
dispatched at most once, when it is due and not after it was removed, in the order of due time and id; and in every run of a
proposer one timer is armed in each phase that is running and no other, and a timer of an earlier instance does nothing. -/
theorem timers_in_order (P : Params) :
    (∀ l, TimerLoop.Reachable l → Alarms.InOrder l.hist) ∧
    ∀ n₀ n, n₀.gear.Started → ProposerRun P n₀ n →
      n.OneTimerAPhase ∧
      ∀ n', ProposerRun P n n' → n.instanceID < n'.instanceID →
        ∀ timerID type, (timerID, type) ∈ n.ioLoop.timers → type.OfProposer →
          ∀ w, w.node = n' → onTimeout P timerID w = w := by
  refine ⟨fun l hl => hl.kept.lawful.inOrder, fun n₀ n hstart hrun => ?_⟩
  have hgood := (hrun.good_since hstart.good).1
  refine ⟨hgood.oneTimerAPhase, fun n' hrun' hlt timerID type ht htype w hw => ?_⟩
  exact onTimeout_old hgood (hrun'.good_since hgood).2 hlt ht htype hw

/-- A timer that is added at 0 for 5 and dispatched at 10. -/
def dispatchedLoop : TimerLoop :=
  { { ({ } : TimerLoop).addTimer 5 .learnerAskforlearnNoop 0 |>.1 with now := 10 } with point := .popping }.pop

theorem dispatchedLoop_reachable : TimerLoop.Reachable dispatchedLoop := by
  have hstart : TimerLoop.Reachable {} := .start 0
  have hadd := hstart.step (.addTimer 5 .learnerAskforlearnNoop 0 (Or.inl rfl))
  have htick := hadd.step (.tick 10)
  have hdeal := htick.step (.dealwithTimeout rfl)
  exact hdeal.step (.pop rfl)

/-- Node 1 of three prepares a value. -/
def preparingProc : Proc := newValue (toSelf .plain) [7] ((Sys.init .plain (.ofList [1, 2, 3])).proc 1 {})

theorem timers_in_order_preparing :
    (∀ now', (.ring 1 now' : Alarms.Event Nat Int) ∉ dispatchedLoop.hist.tail) ∧ preparingProc.node.OneTimerAPhase ∧
      onTimeout .plain 2 (newInstance preparingProc) = newInstance preparingProc := by
  obtain ⟨hloop, hproposer⟩ := timers_in_order .plain
  have hring : Past dispatchedLoop.hist (.ring 1 10) dispatchedLoop.hist.tail := by decide +kernel
  have hstart : ((Sys.init .plain (.ofList [1, 2, 3])).node 1).gear.Started := instanceInit_started 0 (Node.new_isNew _ _)
  obtain ⟨hone, hold⟩ := hproposer _ preparingProc.node hstart (.single (.newValue [7] _))
  have hrun : ProposerRun .plain preparingProc.node (newInstance preparingProc).node := .single (.newInstance _)
  refine ⟨(hloop _ dispatchedLoop_reachable).once hring, hone, ?_⟩
  exact hold _ hrun (by decide +kernel) 2 .proposerPrepareTimeout (by decide +kernel) (Or.inl rfl) _ rfl

end PhxPaxos
