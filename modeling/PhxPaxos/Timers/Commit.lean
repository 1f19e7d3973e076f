import PhxPaxos.Model.Run
import PhxPaxos.Steps.Core
import PhxPaxos.Timers.Runs

/-!
# Commit timers

A commit that has a timeout is given a timer when it is started. Where every execution that fails finds no commit timer armed, a
commit timer is armed only while the commit it was armed for runs (`CommitRun.own_timer`). A failed execution ends the commit
and leaves the timer behind, which then times out another commit (`other_timed_out`).
-/

namespace PhxPaxos

open TimerType

/-! ## Commits -/

namespace CommitCtx

/-- A result is set and the commit has ended, or nothing happens: the commit had ended, or it is not of this instance. -/
theorem setResult_cases (c : CommitCtx) (ret : PaxosTryCommitRet) (i : Option Nat) (v : Bytes) :
    (c.setResult ret i v = c ∧ (c.isCommitEnd = true ∨ c.instanceID ≠ i)) ∨
      ((c.setResult ret i v).isCommitEnd = true ∧ (c.setResult ret i v).value = none ∧
        (c.setResult ret i v).instanceID = c.instanceID) := by
  unfold setResult
  by_cases h : (c.isCommitEnd || decide (c.instanceID ≠ i)) = true
  · rw [if_pos h]
    rw [Bool.or_eq_true, decide_eq_true_eq] at h
    exact Or.inl ⟨rfl, h⟩
  · rw [if_neg h]
    exact Or.inr ⟨rfl, rfl, rfl⟩

end CommitCtx

namespace Gear

/-- A commit was started and has not ended. -/
def Running (g : Gear) : Prop := g.commitCtx.instanceID.isSome = true ∧ g.commitCtx.isCommitEnd = false

/-- What holds of the commit context: a call waits for the commit, which is about the instance the node is at. -/
structure Committing (g : Gear) : Prop where
  calls : (g.calls.map Call.callID).Nodup
  waiting : g.commitCtx.value.isSome = true → ∃ c ∈ g.calls, c.phase = .getResult
  ended : g.commitCtx.isCommitEnd = true → g.commitCtx.value = none
  value : g.commitCtx.instanceID.isSome = true → g.commitCtx.isCommitEnd = false → g.commitCtx.value.isSome = true
  current : ∀ i, g.commitCtx.instanceID = some i → g.commitCtx.value.isSome = true → i = g.instanceID

def NoCommitTimer (g : Gear) : Prop := ∀ timerID, (timerID, instanceCommitTimeout) ∉ g.timers

/-- A commit timer that is armed is that of the running commit. -/
def OwnTimer (g : Gear) : Prop :=
  ∀ timerID, (timerID, instanceCommitTimeout) ∈ g.timers → timerID = g.commitTimerID ∧ g.Running

theorem NoCommitTimer.ownTimer {g : Gear} (h : g.NoCommitTimer) : g.OwnTimer := fun id hid => absurd hid (h id)

theorem OwnTimer.noCommitTimer {g : Gear} (h : g.OwnTimer) (hr : ¬ g.Running) : g.NoCommitTimer :=
  fun id hid => hr (h id hid).2

/-- Fewer commit timers of the same commit. -/
theorem OwnTimer.mono {g g' : Gear} (h : g.OwnTimer)
    (hsub : ∀ timerID, (timerID, instanceCommitTimeout) ∈ g'.timers → (timerID, instanceCommitTimeout) ∈ g.timers)
    (hid : g'.commitTimerID = g.commitTimerID) (hctx : g'.commitCtx = g.commitCtx) : g'.OwnTimer := by
  intro id ht
  obtain ⟨heq, hrun⟩ := h id (hsub id ht)
  unfold Running
  rw [hid, hctx]
  exact ⟨heq, hrun⟩

theorem NoCommitTimer.mono {g g' : Gear} (h : g.NoCommitTimer)
    (hsub : ∀ timerID, (timerID, instanceCommitTimeout) ∈ g'.timers → (timerID, instanceCommitTimeout) ∈ g.timers) :
    g'.NoCommitTimer := fun id ht => h id (hsub id ht)

/-- A new commit is not running. -/
theorem not_running_of_new {g : Gear} (h : g.commitCtx.isNewCommit = true) : ¬ g.Running := by
  intro hr
  unfold CommitCtx.isNewCommit at h
  rw [Bool.and_eq_true, Option.isNone_iff_eq_none] at h
  have hsome := hr.1
  rw [h.1] at hsome
  exact absurd hsome Bool.false_ne_true

theorem map_setCall (g : Gear) (c : Call) :
    (g.calls.map fun d => if d.callID = c.callID then c else d).map Call.callID = g.calls.map Call.callID := by
  rw [List.map_map]
  refine List.map_congr_left fun d _ => ?_
  show (if d.callID = c.callID then c else d).callID = d.callID
  split
  · exact (‹d.callID = c.callID›).symm
  · rfl

section Committing

variable {g : Gear} (hg : g.Committing)
include hg

/-- While no call waits, no commit is running. -/
theorem Committing.not_running_of_free (h : ∀ c ∈ g.calls, c.phase ≠ .getResult) : ¬ g.Running := by
  intro hr
  obtain ⟨c, hc, hphase⟩ := hg.waiting (hg.value hr.1 hr.2)
  exact h c hc hphase

theorem Committing.setResult (ret : PaxosTryCommitRet) (v : Bytes) : (g.setResult ret v).Committing := by
  unfold Gear.setResult
  rcases g.commitCtx.setResult_cases ret (some g.instanceID) v with ⟨heq, -⟩ | ⟨hend, hvalue, hid⟩
  · rw [heq]
    exact hg
  · exact { hg with
      waiting := fun h => absurd h (by rw [hvalue]; exact Bool.false_ne_true)
      ended := fun _ => hvalue
      value := fun _ h => absurd hend (by rw [h]; exact Bool.false_ne_true)
      current := fun _ _ h => absurd h (by rw [hvalue]; exact Bool.false_ne_true) }

/-- A result for the instance ends the commit that was started. -/
theorem Committing.setResult_not_running (ret : PaxosTryCommitRet) (v : Bytes) : ¬ (g.setResult ret v).Running := by
  intro hr
  unfold Running Gear.setResult at hr
  rcases g.commitCtx.setResult_cases ret (some g.instanceID) v with ⟨heq, hcase⟩ | ⟨hend, -, -⟩
  · dsimp only at hr
    rw [heq] at hr
    rcases hcase with hend | hne
    · rw [hr.2] at hend
      exact Bool.false_ne_true hend
    · obtain ⟨i, hi⟩ := Option.isSome_iff_exists.mp hr.1
      have hcurrent := hg.current i hi (hg.value hr.1 hr.2)
      rw [hi, hcurrent] at hne
      exact hne rfl
  · rw [hr.2] at hend
    exact Bool.false_ne_true hend

theorem Committing.refuse (ret : PaxosTryCommitRet) :
    ({ g with commitCtx := g.commitCtx.setResultOnlyRet ret } : Gear).Committing := by
  unfold CommitCtx.setResultOnlyRet
  rcases g.commitCtx.setResult_cases ret none [] with ⟨heq, -⟩ | ⟨hend, hvalue, hid⟩
  · rw [heq]
    exact hg
  · exact { hg with
      waiting := fun h => absurd h (by rw [hvalue]; exact Bool.false_ne_true)
      ended := fun _ => hvalue
      value := fun _ h => absurd hend (by rw [h]; exact Bool.false_ne_true)
      current := fun _ _ h => absurd h (by rw [hvalue]; exact Bool.false_ne_true) }

theorem Committing.startCommit (h : g.commitCtx.isNewCommit = true) :
    ({ g with commitCtx := g.commitCtx.startCommit g.instanceID } : Gear).Committing := by
  unfold CommitCtx.isNewCommit at h
  rw [Bool.and_eq_true] at h
  exact { hg with
    value := fun _ _ => h.2
    current := fun i hi _ => (Option.some.inj hi).symm }

/-- Replacing a call that does not wait for a result. -/
theorem Committing.setCall {c c' : Call} (hc : c ∈ g.calls) (hphase : c.phase = .waitLock) (hid : c'.callID = c.callID) :
    (g.setCall c').Committing := by
  refine { hg with
    calls := g.map_setCall c' ▸ hg.calls
    waiting := fun hvalue => ?_ }
  obtain ⟨d, hd, hwait⟩ := hg.waiting hvalue
  refine ⟨d, List.mem_map.mpr ⟨d, hd, if_neg fun he => ?_⟩, hwait⟩
  have hdc : d = c := List.inj_on_of_nodup_map hg.calls hd hc (he.trans hid)
  rw [hdc, hphase] at hwait
  exact nomatch hwait

end Committing

end Gear

/-! ## Moves -/

theorem Move.committing {a : Allow} {g g' : Gear} (hg : g.Committing) (h : Move a g g') : g'.Committing := by
  cases h with
  | exitPrepare => exact { hg with }
  | exitAccept => exact { hg with }
  | prepare _ => exact { hg with }
  | accept _ => exact { hg with }
  | waitPrepare _ => exact { hg with }
  | waitAccept _ => exact { hg with }
  | proposerTimeout _ _ =>
    unfold Gear.onProposerTimeout
    split
    · exact { hg with }
    · exact { hg with }
  | noopTimeout _ _ => exact { hg with }
  | @commitTimeout timerID _ =>
    have hexit : (g.removeTimer timerID).exitPrepare.exitAccept.Committing := { hg with }
    exact hexit.setResult .timeout []
  | resetNoop => exact { hg with }
  | ask _ => exact { hg with }
  | clear _ => exact { hg with }
  | retry _ => exact { hg with }
  | executeFail _ => exact hg.setResult .executeFail _
  | @learned value =>
    have hend := hg.setResult .ok value
    refine { hend with current := fun i hi hvalue => absurd ⟨Option.isSome_of_eq_some hi, ?_⟩ (hg.setResult_not_running .ok value) }
    cases he : (g.setResult .ok value).commitCtx.isCommitEnd with
    | false => rfl
    | true =>
      rw [show (g.learned value).commitCtx.value = none from hend.ended he] at hvalue
      exact absurd hvalue Bool.false_ne_true
  | refuse _ => exact hg.refuse _
  | startCommit hnew _ =>
    have hstart := hg.startCommit hnew
    unfold Gear.startCommit Gear.armCommitTimer
    split
    · exact { hstart with }
    · exact hstart
  | changeValue hvalue =>
    exact { hg with
      waiting := fun _ => hg.waiting hvalue
      ended := fun he => absurd hvalue (by rw [hg.ended he]; exact Bool.false_ne_true)
      value := fun _ _ => rfl
      current := fun i hi _ => hg.current i hi hvalue }
  | @newCall c hid hphase =>
    refine { hg with
      calls := List.nodup_cons.mpr ⟨fun hm => ?_, hg.calls⟩
      waiting := fun hvalue => ?_ }
    · obtain ⟨d, hd, he⟩ := List.mem_map.mp hm
      exact hid d hd he
    · obtain ⟨d, hd, hwait⟩ := hg.waiting hvalue
      exact ⟨d, List.mem_cons_of_mem c hd, hwait⟩
  | @lock c timeoutMs hc hphase _ =>
    have hset : (g.setCall { c with phase := .getResult }).Committing := hg.setCall hc hphase rfl
    exact {
      calls := hset.calls
      waiting := fun _ => ⟨_, List.mem_map.mpr ⟨c, hc, if_pos rfl⟩, rfl⟩
      ended := fun h => absurd h Bool.false_ne_true
      value := fun h => absurd h Bool.false_ne_true
      current := fun _ h => nomatch h }
  | lockFail hc hphase hid => exact hg.setCall hc hphase hid
  | @getResult c c' _ _ hend hid =>
    exact { hg with
      calls := g.map_setCall c' ▸ hg.calls
      waiting := fun hvalue => absurd hvalue (by
        rw [show (g.setCall c').commitCtx.value = none from hg.ended hend]
        exact Bool.false_ne_true) }

namespace Gear

section Commit

variable {g : Gear} {timerID : Nat}

/-- The timer that came is not a commit timer. -/
theorem commit_of_cons {timers : List (Nat × TimerType)} {n : Nat} {type : TimerType} (htype : type ≠ instanceCommitTimeout)
    (h : (timerID, instanceCommitTimeout) ∈ (n, type) :: timers) : (timerID, instanceCommitTimeout) ∈ timers :=
  (List.mem_cons.mp h).resolve_left fun he => htype (Prod.mk.inj he).2.symm

theorem commit_prepare (h : (timerID, instanceCommitTimeout) ∈ g.prepare.timers) :
    (timerID, instanceCommitTimeout) ∈ g.timers := dropTimer_subset (commit_of_cons (by decide) h)

theorem commit_accept (h : (timerID, instanceCommitTimeout) ∈ g.accept.timers) :
    (timerID, instanceCommitTimeout) ∈ g.timers := dropTimer_subset (commit_of_cons (by decide) h)

theorem commit_resetNoop (h : (timerID, instanceCommitTimeout) ∈ g.resetNoop.timers) :
    (timerID, instanceCommitTimeout) ∈ g.timers := dropTimer_subset (commit_of_cons (by decide) h)

theorem commit_onProposerTimeout (h : (timerID, instanceCommitTimeout) ∈ g.onProposerTimeout.timers) :
    (timerID, instanceCommitTimeout) ∈ g.timers := by
  unfold onProposerTimeout at h
  split at h
  · exact h
  · exact g.exitAccept_subset (commit_prepare h)

theorem onProposerTimeout_commitTimerID : g.onProposerTimeout.commitTimerID = g.commitTimerID := by
  unfold onProposerTimeout
  split <;> rfl

theorem onProposerTimeout_commitCtx : g.onProposerTimeout.commitCtx = g.commitCtx := by
  unfold onProposerTimeout
  split <;> rfl

end Commit

end Gear

/-- No commit timer comes without a new one being armed. -/
theorem Move.noCommitTimer {a : Allow} {g g' : Gear} (harm : ¬ a.arm) (hg : g.NoCommitTimer) (h : Move a g g') :
    g'.NoCommitTimer := by
  cases h with
  | exitPrepare => exact hg.mono fun _ ht => g.exitPrepare_subset ht
  | exitAccept => exact hg.mono fun _ ht => g.exitAccept_subset ht
  | prepare _ => exact hg.mono fun _ => Gear.commit_prepare
  | accept _ => exact hg.mono fun _ => Gear.commit_accept
  | waitPrepare _ => exact hg.mono fun _ => Gear.commit_prepare
  | waitAccept _ => exact hg.mono fun _ => Gear.commit_accept
  | proposerTimeout _ _ => exact hg.mono fun _ ht => g.removeTimer_subset _ (Gear.commit_onProposerTimeout ht)
  | noopTimeout _ _ => exact hg.mono fun _ ht => g.removeTimer_subset _ (Gear.commit_resetNoop ht)
  | commitTimeout _ =>
    exact hg.mono fun _ ht => g.removeTimer_subset _ (Gear.exitPrepare_subset _ (Gear.exitAccept_subset _ ht))
  | resetNoop => exact hg.mono fun _ => Gear.commit_resetNoop
  | learned => exact hg.mono fun _ ht => Gear.dropTimer_subset (Gear.exitPrepare_subset _ (Gear.exitAccept_subset _ ht))
  | startCommit _ ha =>
    unfold Gear.startCommit Gear.armCommitTimer
    split
    · exact absurd (ha ‹_›) harm
    · exact hg
  | _ => exact hg

/-- A commit timer stays that of the running commit, unless an execution fails. -/
theorem Move.ownTimer {a : Allow} {g g' : Gear} (hfail : ¬ a.fail) (hgood : g.Good) (hc : g.Committing) (hg : g.OwnTimer)
    (h : Move a g g') : g'.OwnTimer := by
  cases h with
  | exitPrepare => exact hg.mono (fun _ ht => g.exitPrepare_subset ht) rfl rfl
  | exitAccept => exact hg.mono (fun _ ht => g.exitAccept_subset ht) rfl rfl
  | prepare _ => exact hg.mono (fun _ => Gear.commit_prepare) rfl rfl
  | accept _ => exact hg.mono (fun _ => Gear.commit_accept) rfl rfl
  | waitPrepare _ => exact hg.mono (fun _ => Gear.commit_prepare) rfl rfl
  | waitAccept _ => exact hg.mono (fun _ => Gear.commit_accept) rfl rfl
  | proposerTimeout _ _ =>
    exact hg.mono (fun _ ht => g.removeTimer_subset _ (Gear.commit_onProposerTimeout ht))
      Gear.onProposerTimeout_commitTimerID Gear.onProposerTimeout_commitCtx
  | noopTimeout _ _ => exact hg.mono (fun _ ht => g.removeTimer_subset _ (Gear.commit_resetNoop ht)) rfl rfl
  | @commitTimeout timerID hfired =>
    -- the only commit timer has fired
    refine Gear.NoCommitTimer.ownTimer fun id ht => ?_
    have hold := Gear.exitPrepare_subset _ (Gear.exitAccept_subset _ ht)
    obtain ⟨hmem, hne⟩ := Gear.mem_removeTimer.mp hold
    exact hne ((hg id hmem).1.trans (hg timerID (Gear.mem_of_lookup hfired)).1.symm)
  | resetNoop => exact hg.mono (fun _ => Gear.commit_resetNoop) rfl rfl
  | ask _ => exact hg
  | clear _ => exact hg
  | retry _ => exact hg
  | executeFail ha => exact absurd ha hfail
  | @learned value =>
    -- the only commit timer is removed
    refine Gear.NoCommitTimer.ownTimer fun id ht => ?_
    have hold := Gear.exitPrepare_subset _ (Gear.exitAccept_subset _ ht)
    have hmem : (id, instanceCommitTimeout) ∈ g.timers := Gear.dropTimer_subset hold
    have hdrop := (Gear.mem_dropTimer (g := g.setResult .ok value) (hgood.pos _ hmem)).mp hold
    exact hdrop.2 (hg id hmem).1
  | refuse hnew =>
    have hnone := hg.noCommitTimer (Gear.not_running_of_new hnew)
    exact fun id ht => absurd ht (hnone id)
  | startCommit hnew _ =>
    have hnone := hg.noCommitTimer (Gear.not_running_of_new hnew)
    unfold Gear.startCommit Gear.armCommitTimer
    split
    · intro id ht
      have hid : id = g.nowTimerID :=
        (List.mem_cons.mp ht).elim (fun he => (Prod.mk.inj he).1) fun hm => absurd hm (hnone id)
      refine ⟨hid, rfl, ?_⟩
      cases he : g.commitCtx.isCommitEnd with
      | false => exact he
      | true =>
        unfold CommitCtx.isNewCommit at hnew
        rw [hc.ended he, Bool.and_eq_true] at hnew
        exact absurd hnew.2 Bool.false_ne_true
    · exact Gear.NoCommitTimer.ownTimer hnone
  | changeValue _ => exact hg
  | newCall _ _ => exact hg
  | lock _ _ hfree => exact Gear.NoCommitTimer.ownTimer (hg.noCommitTimer (hc.not_running_of_free hfree))
  | lockFail _ _ _ => exact hg
  | getResult _ _ _ _ => exact hg

/-! ## Which commit a timer was armed for -/

/-- The call is given the lock, and its commit replaces the one before. -/
def beginsCommit (kind : EventKind) (w : Proc) : Bool :=
  match kind with
  | .lock callID =>
    match findCall callID w with
    | none => false
    | some c => !w.node.stopped && c.phase == .waitLock && !w.node.calls.any fun d => d.phase == .getResult
  | _ => false

/-- The number of the commit that the commit context holds, and for each timer the commit during which it was armed. -/
structure CommitTrack where
  commitNo : Nat := 0
  owner : Nat → Nat := fun _ => 0

/-- The timers that the event arms have the ids from `nowTimerID` on. -/
def CommitTrack.after (kind : EventKind) (w : Proc) (t : CommitTrack) : CommitTrack :=
  let commitNo := if beginsCommit kind w then t.commitNo + 1 else t.commitNo
  { commitNo := commitNo, owner := fun id => if id < w.node.ioLoop.nowTimerID then t.owner id else commitNo }

abbrev CommitTracks := NodeID → CommitTrack

variable (P : Params)

def CommitTracks.after (s : Sys) (e : Event) (t : CommitTracks) : CommitTracks :=
  Function.update t e.node ((t e.node).after e.kind (s.proc e.node e.env))

/-- The runs of a group with the commits of its nodes numbered, in which every step meets `Ok`. -/
inductive CommitRun (D : Deliver) (G : Group) (Ok : Sys → Event → Prop) : Sys → CommitTracks → Prop
  | init : CommitRun D G Ok (Sys.init P G) fun _ => {}
  | step {s : Sys} {t : CommitTracks} (e : Event) : CommitRun D G Ok s t → e.CanHappen D s → Ok s e →
      CommitRun D G Ok (s.step P e) (t.after s e)

/-- An execution that fails at the event finds no commit timer armed, and the event arms none. -/
def FailsUntimed (s : Sys) (e : Event) : Prop :=
  ∀ new, (s.step P e).hist = new ++ s.hist → Fails new →
    (∀ timerID, (timerID, instanceCommitTimeout) ∉ (s.node e.node).ioLoop.timers) ∧
      (e.kind = .checkNewValue → (s.node e.node).commitCtx.timeoutMs = -1)

variable {P : Params} {D : Deliver} {G : Group}

/-- A commit timer that is armed is that of the running commit, which armed it. -/
structure CommitTrack.Owns (t : CommitTrack) (g : Gear) : Prop where
  good : g.Good
  committing : g.Committing
  ownTimer : g.OwnTimer
  owner : ∀ timerID, (timerID, instanceCommitTimeout) ∈ g.timers → t.owner timerID = t.commitNo

namespace Gear

theorem committing_new (instanceID : Nat) (minimum : Nat × Option Nat) : (Gear.new instanceID minimum).Committing where
  calls := List.nodup_nil
  waiting := fun h => absurd h Bool.false_ne_true
  ended := fun _ => rfl
  value := fun h _ => absurd h Bool.false_ne_true
  current := fun _ h => nomatch h

/-- A process starts without a commit. -/
theorem Started.committing {g : Gear} (h : g.Started) : g.Committing ∧ g.NoCommitTimer := by
  obtain ⟨i, m, rfl | rfl⟩ := h
  · exact ⟨committing_new i m, fun _ => List.not_mem_nil⟩
  · exact ⟨{ committing_new i m with }, fun id h => List.not_mem_nil (commit_resetNoop h)⟩

theorem Started.owns {g : Gear} (h : g.Started) (t : CommitTrack) : t.Owns g where
  good := h.good
  committing := h.committing.1
  ownTimer := h.committing.2.ownTimer
  owner id hid := absurd hid (h.committing.2 id)

end Gear

/-- The commit that is replaced is not running. -/
theorem not_running_of_begins {kind : EventKind} {w : Proc} (hc : w.gear.Committing) (h : beginsCommit kind w = true) :
    ¬ w.gear.Running := by
  unfold beginsCommit at h
  split at h
  · split at h
    · exact absurd h Bool.false_ne_true
    · rw [Bool.and_eq_true, Bool.not_eq_true', List.any_eq_false] at h
      exact hc.not_running_of_free fun c hmem hphase => h.2 c hmem (beq_iff_eq.mpr hphase)
  · exact absurd h Bool.false_ne_true

/-- The timers of the process keep their commits, and a new one is of the current commit. -/
theorem CommitTrack.Owns.owner_after {kind : EventKind} {w : Proc} {t : CommitTrack} (ht : t.Owns w.gear) {g : Gear}
    (hsince : w.gear.Since g) {timerID : Nat} (hid : (timerID, instanceCommitTimeout) ∈ g.timers) :
    (t.after kind w).owner timerID = (t.after kind w).commitNo := by
  show (if timerID < w.node.ioLoop.nowTimerID then t.owner timerID else (t.after kind w).commitNo) = _
  split
  · have hold : (timerID, instanceCommitTimeout) ∈ w.gear.timers := hsince.old _ hid ‹_›
    have hbegins : beginsCommit kind w = false := by
      by_contra h
      exact not_running_of_begins ht.committing (Bool.not_eq_false _ ▸ h) (ht.ownTimer timerID hold).2
    have hno : (t.after kind w).commitNo = t.commitNo := by
      show (if beginsCommit kind w = true then t.commitNo + 1 else t.commitNo) = t.commitNo
      rw [hbegins, if_neg Bool.false_ne_true]
    rw [hno]
    exact ht.owner timerID hold
  · rfl

/-- One event keeps each commit timer with its commit. -/
theorem CommitTrack.Owns.handle {kind : EventKind} {w : Proc} {t : CommitTrack} (ht : t.Owns w.gear)
    (hkind : ∀ cp, kind ≠ .restart cp)
    (hfail : ∀ new, (handle P kind w).hist = new ++ w.hist → Fails new →
      w.gear.NoCommitTimer ∧ (kind = .checkNewValue → w.node.commitCtx.timeoutMs = -1)) :
    (t.after kind w).Owns (handle P kind w).gear := by
  obtain ⟨new, hnew, hall⟩ := handle_shift_all (P := P) hkind w
  have hcommitting : (PhxPaxos.handle P kind w).gear.Committing := hall.keeps (fun hg hm => hm.committing hg) ht.committing
  by_cases hf : Fails new
  · -- no commit timer is armed before, and none is after
    obtain ⟨hnone, huntimed⟩ := hfail new hnew hf
    obtain ⟨new', -, hm⟩ := handle_shift (P := P) (a := ⟨True, False, True, False⟩) hkind w (Or.inl trivial)
      (fun hk ht => ht (huntimed hk)) fun _ _ _ => trivial
    have hnone' := hm.keeps (I := Gear.NoCommitTimer) (fun hg hmove => hmove.noCommitTimer not_false hg) hnone
    exact ⟨hall.good ht.good, hcommitting, hnone'.ownTimer, fun id hid => absurd hid (hnone' id)⟩
  · -- no execution fails
    have hown := hall.keeps (I := fun g => g.Good ∧ g.Committing ∧ g.OwnTimer)
      (fun hg hmove => ⟨hmove.good hg.1, hmove.committing hg.2.1, hmove.ownTimer hf hg.1 hg.2.1 hg.2.2⟩)
      ⟨ht.good, ht.committing, ht.ownTimer⟩
    exact ⟨hown.1, hown.2.1, hown.2.2, fun _ hid => ht.owner_after (hall.since ht.good) hid⟩

theorem CommitTrack.Owns.restart {cp : Nat} {w : Proc} {t : CommitTrack} (ht : t.Owns w.gear) :
    (t.after (.restart cp) w).Owns (restart P cp w).gear := by
  rcases restart_gear P cp w with hs | ⟨m, hm⟩
  · exact hs.owns _
  · rw [hm]
    have hsince : w.gear.Since { w.gear with minimum := m } := .of_subset (List.Subset.refl _) rfl rfl
    exact ⟨{ ht.good with }, { ht.committing with }, ht.ownTimer, fun _ hid => ht.owner_after hsince hid⟩

theorem CommitRun.owns {s : Sys} {t : CommitTracks} (h : CommitRun P D G (FailsUntimed P) s t) (n : NodeID) :
    (t n).Owns (s.node n).gear := by
  induction h with
  | init => exact (instanceInit_started 0 (Node.new_isNew _ _)).owns _
  | @step s t e _ _ hok ih =>
    by_cases hn : n = e.node
    · subst hn
      have hpost : ((t e.node).after e.kind (s.proc e.node e.env)).Owns (handle P e.kind (s.proc e.node e.env)).gear := by
        by_cases hkind : ∃ cp, e.kind = .restart cp
        · obtain ⟨cp, hcp⟩ := hkind
          rw [hcp]
          exact ih.restart
        · exact ih.handle (fun cp hcp => hkind ⟨cp, hcp⟩) hok
      unfold Sys.step CommitTracks.after
      simp only [Function.update_self]
      exact hpost
    · unfold Sys.step CommitTracks.after
      simp only [Function.update_of_ne hn]
      exact ih

/-- **A commit is timed out only by its own timer**, in every run in which an execution that fails finds no commit timer armed:
whatever commit timer a node has, its commit is running, and the timer was armed for it; so when one fires it ends that
commit and no other. -/
theorem CommitRun.own_timer {s : Sys} {t : CommitTracks} (h : CommitRun P D G (FailsUntimed P) s t) (n : NodeID) :
    (∀ timerID, (timerID, instanceCommitTimeout) ∈ (s.node n).ioLoop.timers →
      (s.node n).gear.Running ∧ timerID = (s.node n).commitTimerID) ∧
    ∀ timerID, (s.node n).ioLoop.timers.lookup timerID = some instanceCommitTimeout →
      (t n).owner timerID = (t n).commitNo := by
  have howns := h.owns n
  refine ⟨fun id hid => ?_, fun id hfires => howns.owner id (Gear.mem_of_lookup hfires)⟩
  exact ⟨(howns.ownTimer id hid).2, (howns.ownTimer id hid).1⟩

/-! ## A commit that another timer ends -/

/-- The commits along a run that is given by its events. -/
def CommitTracks.run (P : Params) : List Event → Sys → CommitTracks → CommitTracks
  | [], _, t => t
  | e :: es, s, t => run P es (s.step P e) (t.after s e)

theorem CommitRun.of_run {Ok : Sys → Event → Prop} {es : List Event} : ∀ {s : Sys} {t : CommitTracks},
    CommitRun P inNetwork G Ok s t → s.canRun P es = true →
    (∀ k e, es[k]? = some e → Ok (s.run P (es.take k)) e) →
    CommitRun P inNetwork G Ok (s.run P es) (CommitTracks.run P es s t) := by
  induction es with
  | nil => exact fun hs _ _ => hs
  | cons e es ih =>
    intro s t hs h hok
    rw [Sys.canRun, Bool.and_eq_true] at h
    exact ih (.step e hs (Sys.canHappen_sound h.1) (hok 0 e rfl)) h.2 fun k e' he => hok (k + 1) e' he

theorem FailsUntimed.of_all {s : Sys} {e : Event}
    (h : (s.step P e).hist.all (fun | .execute _ _ _ false _ => false | _ => true) = true) : FailsUntimed P s e := by
  rintro new hnew ⟨n, i, v, calls, hm⟩
  have hfails := List.all_eq_true.mp h _ (hnew ▸ List.mem_append_left _ hm)
  exact absurd hfails Bool.false_ne_true

/-- A library with one state machine of the user. -/
def oneSM : Params := { Params.plain with smids := [1] }

/-- Node 1 proposes a value for the state machine with a timeout. -/
def timedProposeEvents (callID : Nat) (v : Bytes) : List Event :=
  [⟨1, .newValueGetID callID v 1, {}⟩, ⟨1, .lock callID, { timeoutMs := 1000 }⟩, ⟨1, .checkNewValue, {}⟩]

/-- Node 1 arms the timer 2 for its first commit, whose execution fails, and then starts a second commit with the timer 5. -/
def failedCommitRun : List Event :=
  timedProposeEvents 0 [7] ++
  [deliver 2 (prepareMsg 1 0 1), deliver 1 (promiseMsg 2 0 1 {}), deliver 2 (acceptMsg 1 0 1 (packPaxosValue [7] 1) 0),
    ⟨1, .receive 0 (replyMsg 2 .paxosAcceptReply 0 1 0), { executes := [false] }⟩, ⟨1, .getResult 0, {}⟩] ++
  timedProposeEvents 1 [8]

theorem own_timer_proposed :
    ((Sys.run oneSM (timedProposeEvents 0 [7]) (Sys.init oneSM (.ofList [1, 2]))).node 1).gear.Running ∧
      (CommitTracks.run oneSM (timedProposeEvents 0 [7]) (Sys.init oneSM (.ofList [1, 2])) (fun _ => {}) 1).owner 2 =
        (CommitTracks.run oneSM (timedProposeEvents 0 [7]) (Sys.init oneSM (.ofList [1, 2])) (fun _ => {}) 1).commitNo := by
  have hr : CommitRun oneSM inNetwork (.ofList [1, 2]) (FailsUntimed oneSM)
      (Sys.run oneSM (timedProposeEvents 0 [7]) (Sys.init oneSM (.ofList [1, 2])))
      (CommitTracks.run oneSM (timedProposeEvents 0 [7]) (Sys.init oneSM (.ofList [1, 2])) fun _ => {}) := by
    refine .of_run .init (by decide +kernel) fun k e he => .of_all ?_
    match k, he with
    | 0, rfl => decide +kernel
    | 1, rfl => decide +kernel
    | 2, rfl => decide +kernel
  obtain ⟨hrunning, howner⟩ := hr.own_timer 1
  exact ⟨(hrunning 2 (by decide +kernel)).1, howner 2 (by decide +kernel)⟩

/-- The timer of the first commit ends the second one, whose own timer stays. -/
theorem other_timed_out : ∃ s t, CommitRun oneSM inNetwork (.ofList [1, 2]) (fun _ _ => True) s t ∧
    (s.node 1).ioLoop.timers.lookup 2 = some instanceCommitTimeout ∧ (t 1).owner 2 ≠ (t 1).commitNo ∧
    (s.node 1).commitCtx.isCommitEnd = false ∧ (s.node 1).commitTimerID = 5 ∧
    ((s.step oneSM ⟨1, .timeout 2, {}⟩).node 1).commitCtx.isCommitEnd = true ∧
    ((s.step oneSM ⟨1, .timeout 2, {}⟩).node 1).commitCtx.commitRet = .timeout ∧
    (5, instanceCommitTimeout) ∈ ((s.step oneSM ⟨1, .timeout 2, {}⟩).node 1).ioLoop.timers := by
  have hr : CommitRun oneSM inNetwork (.ofList [1, 2]) (fun _ _ => True)
      (Sys.run oneSM failedCommitRun (Sys.init oneSM (.ofList [1, 2])))
      (CommitTracks.run oneSM failedCommitRun (Sys.init oneSM (.ofList [1, 2])) fun _ => {}) :=
    .of_run .init (by decide +kernel) fun _ _ _ => trivial
  exact ⟨_, _, hr, by decide +kernel⟩

end PhxPaxos
