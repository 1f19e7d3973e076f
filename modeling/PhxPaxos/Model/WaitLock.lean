import Mathlib.Logic.Function.Basic
import PhxPaxos.Model.Instance

/-!
# The lock of the committer

`WaitLock` and the calls of `Committer::NewValueGetID` that compete for it, one critical section at a time: a call enters
`Lock`, may wait in `WaitTime`, hands its value to the commit context, takes the result and unlocks. The threads are the members
of any type. The event loop starts commits and sets their results meanwhile. The history says which call handed over which
value, at which instance it was proposed and as what, which results were set and who took them, the latest first.
-/

namespace PhxPaxos

/-! ## The lock -/

/-- The members of `WaitLock`. -/
structure WaitLock where
  isLockUsing : Bool := false
  waitLockCount : Nat := 0
  maxWaitLockCount : Int := -1
  lockUseTimeSum : Nat := 0
  avgLockUseTime : Nat := 0
  lockUseTimeCount : Nat := 0
  rejectRate : Int := 0
  lockWaitTimeThresholdMS : Int := -1
deriving DecidableEq

/-- `WAIT_LOCK_USERTIME_AVG_INTERVAL` -/
def waitLockUserTimeAvgInterval : Nat := 250

namespace WaitLock

/-- `CanLock`, where `rand` is what the random engine gives. -/
def canLock (rand : Nat) (l : WaitLock) : Bool :=
  if l.maxWaitLockCount ≠ -1 ∧ (l.waitLockCount : Int) ≥ l.maxWaitLockCount then false
  else if l.lockWaitTimeThresholdMS = -1 then true
  else decide (((rand % 100 : Nat) : Int) ≥ l.rejectRate)

def refleshRejectRate (useTimeMs : Nat) (l : WaitLock) : WaitLock :=
  if l.lockWaitTimeThresholdMS = -1 then l
  else
    let l := { l with lockUseTimeSum := l.lockUseTimeSum + useTimeMs, lockUseTimeCount := l.lockUseTimeCount + 1 }
    if l.lockUseTimeCount ≥ waitLockUserTimeAvgInterval then
      let l := { l with
        avgLockUseTime := l.lockUseTimeSum / l.lockUseTimeCount, lockUseTimeSum := 0, lockUseTimeCount := 0 }
      if (l.avgLockUseTime : Int) > l.lockWaitTimeThresholdMS then
        { l with rejectRate := if l.rejectRate ≠ 98 then (if l.rejectRate + 3 > 98 then 98 else l.rejectRate + 3)
                  else l.rejectRate }
      else
        { l with rejectRate := if l.rejectRate ≠ 0 then (if l.rejectRate - 3 < 0 then 0 else l.rejectRate - 3)
                  else l.rejectRate }
    else l

/-- The end of `Lock`, after its loop. -/
def leave (getLock : Bool) (useTimeMs : Nat) (l : WaitLock) : WaitLock :=
  let l := { l with waitLockCount := l.waitLockCount - 1 }.refleshRejectRate useTimeMs
  if getLock then { l with isLockUsing := true } else l

def unLock (l : WaitLock) : WaitLock := { l with isLockUsing := false }

end WaitLock

/-! ## The calls -/

/-- The locals of `NewValueGetID`: what is proposed, and the tries that are left. -/
structure CommitTry where
  value : Bytes
  smid : Nat
  retryCount : Nat
deriving DecidableEq

/-- Where a thread is: not in `NewValueGetID`, before `Lock`, in its `WaitTime` since `begin`, after `Lock` returned true, in
`GetResult`, before `UnLock` with the result of the try, or back from the call. -/
inductive CommitPoint
  | idle
  | lock (c : CommitTry)
  | wait (c : CommitTry) (begin : Nat)
  | locked (c : CommitTry) (useTimeMs : Nat)
  | getResult (c : CommitTry)
  | unLock (c : CommitTry) (ret : PaxosTryCommitRet) (instanceID : Nat)
  | returned (ret : PaxosTryCommitRet) (instanceID : Nat)
deriving DecidableEq

inductive CommitEvent (τ : Type*)
  | newCommit (t : τ) (value : Bytes)
  | startCommit (instanceID : Nat) (value : Bytes)
  | setResult (ret : PaxosTryCommitRet) (instanceID : Option Nat) (learnValue : Bytes)
  | getResult (t : τ) (ret : PaxosTryCommitRet) (instanceID : Nat)
deriving DecidableEq

/-- The committer, the commit context, the threads and the clock. -/
structure Committer (τ : Type*) where
  waitLock : WaitLock
  timeoutMs : Int
  commitCtx : CommitCtx := {}
  now : Nat := 0
  point : τ → CommitPoint
  hist : List (CommitEvent τ) := []

namespace Committer

variable {τ : Type*} [DecidableEq τ]

/-- No thread is in `NewValueGetID` yet. -/
def start (maxHoldThreads waitTimeThresholdMS timeoutMs : Int) : Committer τ where
  waitLock := { maxWaitLockCount := maxHoldThreads, lockWaitTimeThresholdMS := waitTimeThresholdMS }
  timeoutMs := timeoutMs
  point _ := .idle

def goTo (t : τ) (p : CommitPoint) (s : Committer τ) : Committer τ := { s with point := Function.update s.point t p }

/-- The end of a try in the loop of `NewValueGetID`. -/
def afterTry (c : CommitTry) (ret : PaxosTryCommitRet) (instanceID : Nat) : CommitPoint :=
  if ret ≠ .conflict ∨ c.smid = masterVSMID ∨ c.retryCount = 0 then .returned ret instanceID
  else .lock { c with retryCount := c.retryCount - 1 }

/-- What `NewValueGetIDNoRetry` returns where `Lock` returned false after `useTimeMs`. -/
def lockFailRet (useTimeMs : Nat) : PaxosTryCommitRet := if useTimeMs > 0 then .timeout else .tooManyThreadWaitingReject

/-- The test of the loop of `Lock`: the lock is taken where it is free. -/
def tryTake (t : τ) (c : CommitTry) (begin : Nat) (s : Committer τ) : Committer τ :=
  if s.waitLock.isLockUsing then s.goTo t (.wait c begin)
  else { s with waitLock := s.waitLock.leave true (s.now - begin) }.goTo t (.locked c (s.now - begin))

/-- The critical section of `Lock` up to its first `WaitTime`; `begin` is when `Lock` was called. -/
def enterLock (t : τ) (begin rand : Nat) (s : Committer τ) : Committer τ :=
  match s.point t with
  | .lock c =>
    if s.waitLock.canLock rand then
      { s with waitLock.waitLockCount := s.waitLock.waitLockCount + 1 }.tryTake t c begin
    else s.goTo t (afterTry c (lockFailRet 0) 0)
  | _ => s

/-- `WaitTime` returns. -/
def wake (t : τ) (timedOut : Bool) (s : Committer τ) : Committer τ :=
  match s.point t with
  | .wait c begin =>
    if s.timeoutMs ≠ -1 ∧ timedOut then
      { s with waitLock := s.waitLock.leave false (s.now - begin) }.goTo t (afterTry c (lockFailRet (s.now - begin)) 0)
    else s.tryTake t c begin
  | _ => s

/-- The time that is left for the commit. -/
def leftTimeoutMs (useTimeMs : Nat) (timeoutMs : Int) : Int :=
  if timeoutMs > 0 then (if timeoutMs > useTimeMs then timeoutMs - useTimeMs else 0) else -1

/-- `NewValueGetIDNoRetry` after `Lock` returned true, up to `GetResult`. -/
def newCommit (t : τ) (s : Committer τ) : Committer τ :=
  match s.point t with
  | .locked c useTimeMs =>
    let left := leftTimeoutMs useTimeMs s.timeoutMs
    if s.timeoutMs > 0 ∧ left < 200 then s.goTo t (.unLock c .timeout 0)
    else
      { s with
        commitCtx := CommitCtx.newCommit (packPaxosValue c.value c.smid) left
        hist := .newCommit t (packPaxosValue c.value c.smid) :: s.hist }.goTo t (.getResult c)
  | _ => s

/-- `GetResult` returns. -/
def getResult (t : τ) (s : Committer τ) : Committer τ :=
  match s.point t with
  | .getResult c =>
    if s.commitCtx.isCommitEnd then
      let instanceID := if s.commitCtx.commitRet = .ok then s.commitCtx.instanceID.getD 0 else 0
      { s with hist := .getResult t s.commitCtx.commitRet instanceID :: s.hist }.goTo t
        (.unLock c s.commitCtx.commitRet instanceID)
    else s
  | _ => s

/-- `UnLock`, and the end of the try. -/
def unLock (t : τ) (s : Committer τ) : Committer τ :=
  match s.point t with
  | .unLock c ret instanceID => { s with waitLock := s.waitLock.unLock }.goTo t (afterTry c ret instanceID)
  | _ => s

/-- The client calls `NewValueGetID`. -/
def call (t : τ) (value : Bytes) (smid : Nat) (s : Committer τ) : Committer τ :=
  match s.point t with
  | .idle | .returned _ _ => s.goTo t (.lock ⟨value, smid, 2⟩)
  | _ => s

/-- `SetResult`, which does nothing where the commit has ended or is of another instance. -/
def setResult (ret : PaxosTryCommitRet) (instanceID : Option Nat) (learnValue : Bytes) (s : Committer τ) : Committer τ :=
  let commitCtx := s.commitCtx.setResult ret instanceID learnValue
  if s.commitCtx.isCommitEnd || s.commitCtx.instanceID ≠ instanceID then s
  else { s with commitCtx := commitCtx, hist := .setResult commitCtx.commitRet instanceID learnValue :: s.hist }

/-- What `Instance::CheckNewValue` does to the commit: it refuses it, or starts it at its instance, where the state machines
may change the value before it is proposed. -/
def checkNewValue (refuse : Option PaxosTryCommitRet) (instanceID : Nat) (value : Bytes) (s : Committer τ) : Committer τ :=
  if s.commitCtx.isNewCommit then
    match refuse with
    | some ret => s.setResult ret none []
    | none =>
      { s with
        commitCtx := { s.commitCtx.startCommit instanceID with value := some value }
        hist := .startCommit instanceID value :: s.hist }
  else s

inductive Event (τ : Type*)
  | tick (ms : Nat)
  | call (t : τ) (value : Bytes) (smid : Nat)
  | enterLock (t : τ) (begin rand : Nat)
  | wake (t : τ) (timedOut : Bool)
  | newCommit (t : τ)
  | getResult (t : τ)
  | unLock (t : τ)
  | checkNewValue (refuse : Option PaxosTryCommitRet) (instanceID : Nat) (value : Bytes)
  | setResult (ret : PaxosTryCommitRet) (instanceID : Nat) (learnValue : Bytes)

def step (e : Event τ) (s : Committer τ) : Committer τ :=
  match e with
  | .tick ms => { s with now := s.now + ms }
  | .call t value smid => s.call t value smid
  | .enterLock t begin rand => s.enterLock t begin rand
  | .wake t timedOut => s.wake t timedOut
  | .newCommit t => s.newCommit t
  | .getResult t => s.getResult t
  | .unLock t => s.unLock t
  | .checkNewValue refuse instanceID value => s.checkNewValue refuse instanceID value
  | .setResult ret instanceID learnValue => s.setResult ret (some instanceID) learnValue

/-- What any threads and the event loop can do, for any limits. -/
inductive Reachable : Committer τ → Prop
  | start (maxHoldThreads waitTimeThresholdMS timeoutMs : Int) : Reachable (start maxHoldThreads waitTimeThresholdMS timeoutMs)
  | step (e : Event τ) {s : Committer τ} : Reachable s → Reachable (s.step e)

end Committer
end PhxPaxos
