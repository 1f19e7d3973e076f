import Mathlib.Logic.Relation
import PhxPaxos.Model.Network

/-!
# The timers of a node and what they serve

`Gear` is the part of a node that its timers, the phases of its proposer, its commits and its checkpoint mode turn on, and
`Move` lists what can happen to it; what a node handles is a sequence of such moves (`Shift`). `Allow` says which of the
rarer moves a sequence may contain.
-/

namespace PhxPaxos

structure Gear where
  timers : List (Nat × TimerType)
  nowTimerID : Nat
  isPreparing : Bool
  isAccepting : Bool
  prepareTimerID : Nat
  acceptTimerID : Nat
  noopTimerID : Nat
  commitTimerID : Nat
  timeoutInstanceID : Nat
  instanceID : Nat
  commitCtx : CommitCtx
  calls : List Call
  setNeedAsk : Finset NodeID
  lastAskTime : Nat
  inAskMode : Bool
  retryQueue : List PaxosMsg
  minimum : Nat × Option Nat

def Node.gear (n : Node) : Gear where
  timers := n.ioLoop.timers
  nowTimerID := n.ioLoop.nowTimerID
  isPreparing := n.proposer.isPreparing
  isAccepting := n.proposer.isAccepting
  prepareTimerID := n.proposer.prepareTimerID
  acceptTimerID := n.proposer.acceptTimerID
  noopTimerID := n.learner.askforlearnNoopTimerID
  commitTimerID := n.commitTimerID
  timeoutInstanceID := n.proposer.timeoutInstanceID
  instanceID := n.instanceID
  commitCtx := n.commitCtx
  calls := n.calls
  setNeedAsk := n.checkpointMgr.setNeedAsk
  lastAskTime := n.checkpointMgr.lastAskforCheckpointTime
  inAskMode := n.checkpointMgr.inAskforCheckpointMode
  retryQueue := n.ioLoop.retryQueue
  minimum := (n.checkpointMgr.minChosenInstanceID, n.storage.minChosenInstanceID)

abbrev Proc.gear (w : Proc) : Gear := w.node.gear

/-! ## Moves -/

namespace Gear

def removeTimer (g : Gear) (timerID : Nat) : Gear := { g with timers := g.timers.filter fun t => t.1 ≠ timerID }

def addTimer (g : Gear) (type : TimerType) : Gear :=
  { g with timers := (g.nowTimerID, type) :: g.timers, nowTimerID := g.nowTimerID + 1 }

/-- Remove the timer, if there ever was one. -/
def dropTimer (g : Gear) (timerID : Nat) : Gear :=
  { g with timers := if timerID > 0 then (g.removeTimer timerID).timers else g.timers }

def exitPrepare (g : Gear) : Gear :=
  { g with
    timers := if g.isPreparing then (g.removeTimer g.prepareTimerID).timers else g.timers
    isPreparing := false
    prepareTimerID := if g.isPreparing then 0 else g.prepareTimerID }

def exitAccept (g : Gear) : Gear :=
  { g with
    timers := if g.isAccepting then (g.removeTimer g.acceptTimerID).timers else g.timers
    isAccepting := false
    acceptTimerID := if g.isAccepting then 0 else g.acceptTimerID }

def addPrepareTimer (g : Gear) : Gear :=
  { (g.dropTimer g.prepareTimerID).addTimer .proposerPrepareTimeout with prepareTimerID := g.nowTimerID }

def addAcceptTimer (g : Gear) : Gear :=
  { (g.dropTimer g.acceptTimerID).addTimer .proposerAcceptTimeout with acceptTimerID := g.nowTimerID }

/-- The prepare phase begins. -/
def prepare (g : Gear) : Gear := { g.addPrepareTimer with isPreparing := true, timeoutInstanceID := g.instanceID }

/-- The accept phase begins. -/
def accept (g : Gear) : Gear := { g.addAcceptTimer with isAccepting := true, timeoutInstanceID := g.instanceID }

def resetNoop (g : Gear) : Gear :=
  { (g.dropTimer g.noopTimerID).addTimer .learnerAskforlearnNoop with noopTimerID := g.nowTimerID }

def onProposerTimeout (g : Gear) : Gear :=
  if g.instanceID ≠ g.timeoutInstanceID then g else g.exitAccept.prepare

def setResult (g : Gear) (ret : PaxosTryCommitRet) (value : Bytes) : Gear :=
  { g with commitCtx := g.commitCtx.setResult ret (some g.instanceID) value }

def onCommitTimeout (g : Gear) : Gear := g.exitPrepare.exitAccept.setResult .timeout []

/-- The commit timer, if the commit has a timeout. -/
def armCommitTimer (g : Gear) : Gear :=
  if g.commitCtx.timeoutMs ≠ -1 then { g.addTimer .instanceCommitTimeout with commitTimerID := g.nowTimerID } else g

def startCommit (g : Gear) : Gear := { g with commitCtx := g.commitCtx.startCommit g.instanceID }.armCommitTimer

def dropCommitTimer (g : Gear) : Gear := { g.dropTimer g.commitTimerID with commitTimerID := 0 }

def newInstance (g : Gear) : Gear := { g with instanceID := g.instanceID + 1 }.exitPrepare.exitAccept

/-- The instance is learned and executed. -/
def learned (g : Gear) (value : Bytes) : Gear := (g.setResult .ok value).dropCommitTimer.newInstance

/-- One call is replaced. -/
def setCall (g : Gear) (c : Call) : Gear := { g with calls := g.calls.map fun d => if d.callID = c.callID then c else d }

end Gear

/-- What a sequence of moves may contain: another state of the checkpoint mode, a commit timer, a failed execution, another
minimum. -/
structure Allow where
  ask : Prop
  arm : Prop
  clear : Prop
  fail : Prop := False

/-- What `a` allows `b` allows. -/
structure Allow.Le (a b : Allow) : Prop where
  ask : a.ask → b.ask
  arm : a.arm → b.arm
  clear : a.clear → b.clear
  fail : a.fail → b.fail

/-- The same with failed executions only if `p`. -/
def Allow.failing (a : Allow) (p : Prop) : Allow := { a with fail := p }

theorem Allow.failing_le (a : Allow) {p q : Prop} (h : p → q) : (a.failing p).Le (a.failing q) := ⟨id, id, id, h⟩

inductive Move (a : Allow) : Gear → Gear → Prop
  -- the proposer
  | exitPrepare {g} : Move a g g.exitPrepare
  | exitAccept {g} : Move a g g.exitAccept
  | prepare {g} : g.isAccepting = false → Move a g g.prepare
  | accept {g} : g.isPreparing = false → Move a g g.accept
  | waitPrepare {g} : g.isPreparing = true → Move a g g.addPrepareTimer
  | waitAccept {g} : g.isAccepting = true → Move a g g.addAcceptTimer
  -- timers that fire
  | proposerTimeout {g timerID type} : g.timers.lookup timerID = some type →
      (type = .proposerPrepareTimeout ∨ type = .proposerAcceptTimeout) →
      Move a g (g.removeTimer timerID).onProposerTimeout
  | noopTimeout {g timerID} : g.timers.lookup timerID = some .learnerAskforlearnNoop → a.ask →
      Move a g { (g.removeTimer timerID).resetNoop with inAskMode := false }
  | commitTimeout {g timerID} : g.timers.lookup timerID = some .instanceCommitTimeout →
      Move a g (g.removeTimer timerID).onCommitTimeout
  -- the learner
  | resetNoop {g} : Move a g g.resetNoop
  | ask {g setNeedAsk lastAskTime inAskMode} : a.ask →
      Move a g { g with setNeedAsk := setNeedAsk, lastAskTime := lastAskTime, inAskMode := inAskMode }
  | clear {g minimum} : a.clear → Move a g { g with minimum := minimum }
  | retry {g queue} : (∀ msg ∈ queue, msg ∈ g.retryQueue ∨ msg.msgType ≠ .learnerSendNowInstanceID) →
      Move a g { g with retryQueue := queue }
  -- the end of an instance
  | executeFail {g value} : a.fail → Move a g (g.setResult .executeFail value)
  | learned {g value} : Move a g (g.learned value)
  -- commits
  | refuse {g ret} : g.commitCtx.isNewCommit = true → Move a g { g with commitCtx := g.commitCtx.setResultOnlyRet ret }
  | startCommit {g} : g.commitCtx.isNewCommit = true → (g.commitCtx.timeoutMs ≠ -1 → a.arm) → Move a g g.startCommit
  | changeValue {g value} : g.commitCtx.value.isSome = true → Move a g { g with commitCtx.value := some value }
  | newCall {g c} : (∀ d ∈ g.calls, d.callID ≠ c.callID) → c.phase = .waitLock → Move a g { g with calls := c :: g.calls }
  | lock {g c timeoutMs} : c ∈ g.calls → c.phase = .waitLock → (∀ d ∈ g.calls, d.phase ≠ .getResult) →
      Move a g { g.setCall { c with phase := .getResult } with
        commitCtx := CommitCtx.newCommit (packPaxosValue c.value c.smid) timeoutMs }
  | lockFail {g c c'} : c ∈ g.calls → c.phase = .waitLock → c'.callID = c.callID → Move a g (g.setCall c')
  | getResult {g c c'} : c ∈ g.calls → c.phase = .getResult → g.commitCtx.isCommitEnd = true → c'.callID = c.callID →
      Move a g (g.setCall c')

abbrev Moved (a : Allow) : Gear → Gear → Prop := Relation.ReflTransGen (Move a)

/-- A move that is allowed stays so when more is. -/
theorem Move.mono {a b : Allow} {g g' : Gear} (hab : a.Le b) (h : Move a g g') : Move b g g' := by
  cases h with
  | exitPrepare => exact .exitPrepare
  | exitAccept => exact .exitAccept
  | prepare h => exact .prepare h
  | accept h => exact .accept h
  | waitPrepare h => exact .waitPrepare h
  | waitAccept h => exact .waitAccept h
  | proposerTimeout h htype => exact .proposerTimeout h htype
  | noopTimeout h ha => exact .noopTimeout h (hab.ask ha)
  | commitTimeout h => exact .commitTimeout h
  | resetNoop => exact .resetNoop
  | ask ha => exact .ask (hab.ask ha)
  | clear ha => exact .clear (hab.clear ha)
  | retry h => exact .retry h
  | executeFail ha => exact .executeFail (hab.fail ha)
  | learned => exact .learned
  | refuse h => exact .refuse h
  | startCommit h ha => exact .startCommit h fun ht => hab.arm (ha ht)
  | changeValue h => exact .changeValue h
  | newCall h hc => exact .newCall h hc
  | lock hc hphase hfree => exact .lock hc hphase hfree
  | lockFail hc hphase hid => exact .lockFail hc hphase hid
  | getResult hc hphase hend hid => exact .getResult hc hphase hend hid

theorem Moved.mono {a b : Allow} {g g' : Gear} (hab : a.Le b) (h : Moved a g g') : Moved b g g' := by
  induction h with
  | refl => exact .refl
  | tail _ hmove ih => exact ih.tail (hmove.mono hab)

/-- What every move keeps a sequence of moves keeps. -/
theorem Moved.keeps {a : Allow} {I : Gear → Prop} (hI : ∀ {g g'}, I g → Move a g g' → I g') {g g' : Gear}
    (h : Moved a g g') (hg : I g) : I g' := by
  induction h with
  | refl => exact hg
  | tail _ hmove ih => exact hI ih hmove

/-! ## Sequences of moves of a process -/

/-- An execution failed. -/
def Fails (h : List Obs) : Prop := ∃ n i v calls, .execute n i v false calls ∈ h

/-- The gear moves as allowed, with failed executions only where the history shows them. -/
def Shift (a : Allow) (w w' : Proc) : Prop :=
  ∃ new, w'.hist = new ++ w.hist ∧ Moved (a.failing (Fails new)) w.gear w'.gear

/-- The gear stays as it is. -/
structure Still (w w' : Proc) : Prop where
  hist : w.hist <:+ w'.hist
  gear : w'.gear = w.gear

namespace Shift

variable {a : Allow} {w₁ w₂ w₃ : Proc}

theorem of_eq (hhist : w₁.hist <:+ w₂.hist) (hgear : w₂.gear = w₁.gear) : Shift a w₁ w₂ := by
  obtain ⟨new, hnew⟩ := hhist
  exact ⟨new, hnew.symm, hgear ▸ .refl⟩

theorem refl : Shift a w₁ w₁ := of_eq List.suffix_rfl rfl

theorem move {g : Gear} (hhist : w₁.hist <:+ w₂.hist) (hgear : w₂.gear = g) (hmove : Move (a.failing False) w₁.gear g) :
    Shift a w₁ w₂ := by
  obtain ⟨new, hnew⟩ := hhist
  have hle : (a.failing False).Le (a.failing (Fails new)) := a.failing_le False.elim
  exact ⟨new, hnew.symm, .single (hgear ▸ hmove.mono hle)⟩

theorem trans (h : Shift a w₁ w₂) (h' : Shift a w₂ w₃) : Shift a w₁ w₃ := by
  obtain ⟨new, hnew, hm⟩ := h
  obtain ⟨new', hnew', hm'⟩ := h'
  have hleft : (a.failing (Fails new)).Le (a.failing (Fails (new' ++ new))) :=
    a.failing_le fun ⟨n, i, v, calls, hf⟩ => ⟨n, i, v, calls, List.mem_append_right _ hf⟩
  have hright : (a.failing (Fails new')).Le (a.failing (Fails (new' ++ new))) :=
    a.failing_le fun ⟨n, i, v, calls, hf⟩ => ⟨n, i, v, calls, List.mem_append_left _ hf⟩
  exact ⟨new' ++ new, by rw [hnew', hnew, List.append_assoc], (hm.mono hleft).trans (hm'.mono hright)⟩

/-- What is done before leaves the gear as it is. -/
theorem after (h : Shift a w₂ w₃) (hhist : w₁.hist <:+ w₂.hist) (hgear : w₂.gear = w₁.gear) : Shift a w₁ w₃ :=
  (of_eq hhist hgear).trans h

theorem log (h : Shift a w₁ w₂) (o : Obs) : Shift a w₁ (w₂.log o) := h.trans (of_eq (List.suffix_cons _ _) rfl)

theorem mono {b : Allow} (hab : a.Le b) (h : Shift a w₁ w₂) : Shift b w₁ w₂ := by
  obtain ⟨new, hnew, hm⟩ := h
  have hle : (a.failing (Fails new)).Le (b.failing (Fails new)) :=
    ⟨hab.ask, hab.arm, hab.clear, id⟩
  exact ⟨new, hnew, hm.mono hle⟩

end Shift

namespace Still

variable {a : Allow} {w₁ w₂ w₃ : Proc}

theorem refl : Still w₁ w₁ := ⟨List.suffix_rfl, rfl⟩

theorem trans (h : Still w₁ w₂) (h' : Still w₂ w₃) : Still w₁ w₃ := ⟨h.hist.trans h'.hist, h'.gear.trans h.gear⟩

/-- What is done before leaves the history and the gear as they are. -/
theorem of_same (h : Still w₂ w₃) (hhist : w₂.hist = w₁.hist) (hgear : w₂.gear = w₁.gear) : Still w₁ w₃ :=
  ⟨hhist ▸ h.hist, h.gear.trans hgear⟩

theorem shift (h : Still w₁ w₂) : Shift a w₁ w₂ := Shift.of_eq h.hist h.gear

theorem log (h : Still w₁ w₂) (o : Obs) : Still w₁ (w₂.log o) := h.trans ⟨List.suffix_cons _ _, rfl⟩

theorem instanceID_eq (h : Still w₁ w₂) : w₂.node.instanceID = w₁.node.instanceID := congrArg Gear.instanceID h.gear

end Still

end PhxPaxos
