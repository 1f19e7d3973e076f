import Mathlib.Data.Finset.Basic
import PhxPaxos.Abstract.Alarms
import PhxPaxos.Model.Node

/-!
# The timers of the event loop

`Timer` with its heap, and what `IOLoop` does with it: the map of the ids that exist, `AddTimer`, `RemoveTimer` and the loop of
`DealwithTimeout`, between whose steps the clock goes on and `OnTimeout` adds and removes timers. Ids and times are taken
not to wrap. The history says which timers were added for what time, removed and dispatched.
-/

namespace PhxPaxos

/-- `Timer::TimerObj` -/
structure TimerObj where
  timerID : Nat
  absTime : Int
  type : TimerType
deriving DecidableEq

/-- `TimerObj::operator<` -/
def TimerObj.less (t obj : TimerObj) : Bool :=
  if obj.absTime = t.absTime then obj.timerID < t.timerID else obj.absTime < t.absTime

/-- `Timer`; the heap is the list of its objects in the order in which `pop_heap` takes them. -/
structure Timer where
  nowTimerID : Nat := 1
  timerHeap : List TimerObj := []
deriving DecidableEq

namespace Timer

/-- `push_heap` -/
def pushHeap (t : TimerObj) : List TimerObj → List TimerObj
  | [] => [t]
  | obj :: heap => if obj.less t then t :: obj :: heap else obj :: pushHeap t heap

/-- `Timer::AddTimerWithType`, with the id that it gives out. -/
def addTimerWithType (absTime : Int) (type : TimerType) (t : Timer) : Timer × Nat :=
  let timerID := t.nowTimerID
  ({ nowTimerID := t.nowTimerID + 1, timerHeap := pushHeap ⟨timerID, absTime, type⟩ t.timerHeap }, timerID)

/-- `Timer::GetNextTimeout` -/
def getNextTimeout (now : Nat) (t : Timer) : Int :=
  match t.timerHeap with
  | [] => -1
  | obj :: _ => if obj.absTime > now then obj.absTime - now else 0

/-- `Timer::PopTimeout` -/
def popTimeout (now : Nat) (t : Timer) : Option (Nat × TimerType × Timer) :=
  match t.timerHeap with
  | [] => none
  | obj :: heap => if obj.absTime > now then none else some (obj.timerID, obj.type, { t with timerHeap := heap })

end Timer

/-- Where the thread of the loop is: not in `DealwithTimeout`, before `PopTimeout`, in `OnTimeout`, or before `GetNextTimeout`. -/
inductive LoopPoint
  | outside
  | popping
  | onTimeout (timerID : Nat) (type : TimerType)
  | popped
deriving DecidableEq

/-- The timers of `IOLoop` and the steady clock. -/
structure TimerLoop where
  timer : Timer := {}
  timerIDExist : Finset Nat := ∅
  now : Nat := 0
  point : LoopPoint := .outside
  hist : List (Alarms.Event Nat Int) := []

namespace TimerLoop

/-- `IOLoop::AddTimer`, with what it leaves in `iTimerID`. -/
def addTimer (timeout : Int) (type : TimerType) (timerID : Nat) (l : TimerLoop) : TimerLoop × Nat :=
  if timeout = -1 then (l, timerID)
  else
    let absTime := l.now + timeout
    let (timer, timerID) := l.timer.addTimerWithType absTime type
    ({ l with
        timer := timer
        timerIDExist := insert timerID l.timerIDExist
        hist := .set timerID absTime l.now :: l.hist }, timerID)

/-- `IOLoop::RemoveTimer`, with what it leaves in `iTimerID`. -/
def removeTimer (timerID : Nat) (l : TimerLoop) : TimerLoop × Nat :=
  ({ l with timerIDExist := l.timerIDExist.erase timerID, hist := .cancel timerID :: l.hist }, 0)

/-- `IOLoop::DealwithTimeoutOne` up to the call of `OnTimeout`, if there is one. -/
def dealwithTimeoutOne (timerID : Nat) (type : TimerType) (l : TimerLoop) : TimerLoop :=
  if timerID ∈ l.timerIDExist then
    { l with
      timerIDExist := l.timerIDExist.erase timerID
      point := .onTimeout timerID type
      hist := .ring timerID l.now :: l.hist }
  else { l with point := .popped }

/-- One turn of the loop of `IOLoop::DealwithTimeout`. -/
def pop (l : TimerLoop) : TimerLoop :=
  match l.timer.popTimeout l.now with
  | none => { l with point := .outside }
  | some (timerID, type, timer) => { l with timer := timer }.dealwithTimeoutOne timerID type

/-- The end of a turn: the loop is left unless the next timer is due. -/
def next (l : TimerLoop) : TimerLoop :=
  { l with point := if l.timer.getNextTimeout l.now ≠ 0 then .outside else .popping }

/-- Timers are added and removed outside of `DealwithTimeout` and in `OnTimeout`. -/
def Calls (l : TimerLoop) : Prop := l.point = .outside ∨ ∃ timerID type, l.point = .onTimeout timerID type

inductive Step : TimerLoop → TimerLoop → Prop
  | tick {l : TimerLoop} (ms : Nat) : Step l { l with now := l.now + ms }
  | addTimer {l : TimerLoop} (timeout : Int) (type : TimerType) (timerID : Nat) : l.Calls →
      Step l (l.addTimer timeout type timerID).1
  | removeTimer {l : TimerLoop} (timerID : Nat) : l.Calls → Step l (l.removeTimer timerID).1
  | dealwithTimeout {l : TimerLoop} : l.point = .outside → Step l { l with point := .popping }
  | pop {l : TimerLoop} : l.point = .popping → Step l l.pop
  | onTimeout {l : TimerLoop} {timerID : Nat} {type : TimerType} : l.point = .onTimeout timerID type →
      Step l { l with point := .popped }
  | next {l : TimerLoop} : l.point = .popped → Step l l.next

/-- What a loop reaches that starts with no timers. -/
inductive Reachable : TimerLoop → Prop
  | start (now : Nat) : Reachable { now := now }
  | step {l l' : TimerLoop} : Reachable l → Step l l' → Reachable l'

end TimerLoop

end PhxPaxos
