import Mathlib.Logic.Relation
import Mathlib.Order.Defs.LinearOrder

/-!
# A window of unacknowledged items

A sender numbers its items and stays at most `lead` ahead of what it knows to be taken. A receiver takes the items in order
and tells from time to time how far it is, at the latest when it is `gap` ahead of what it told last. The sender is never more
than its lead ahead (`Window.Reaches.bound`), and if `gap ≤ lead + 1`, then it may go on as soon as everything was taken and
heard of (`Window.Reaches.opens`).
-/

/-- The number of the next item to send and of the next item to take, how far the receiver told that it is, and how far the
sender knows that it is. -/
structure Window where
  next : Nat
  done : Nat
  told : Nat
  known : Nat

namespace Window

/-- Nothing was sent before the item `b`. -/
def start (b : Nat) : Window := ⟨b, b, b, b⟩

variable {lead gap b : Nat} {w w' : Window}

inductive Step (lead gap : Nat) : Window → Window → Prop
  | send {w : Window} : w.next ≤ w.known + lead + 1 → Step lead gap w { w with next := w.next + 1 }
  | take {w : Window} (told : Nat) : w.done < w.next → w.told ≤ told → w.done + 1 ≤ told + gap →
      Step lead gap w { w with done := w.done + 1, told := told }
  | hear {w : Window} (known : Nat) : w.known ≤ known → known ≤ w.told → Step lead gap w { w with known := known }

/-- What can be reached from the start at `b`. -/
def Reaches (lead gap b : Nat) : Window → Prop := Relation.ReflTransGen (Step lead gap) (start b)

/-- What every step keeps. -/
structure Inv (lead gap : Nat) (w : Window) : Prop where
  known_le : w.known ≤ w.told
  done_le : w.done ≤ w.next
  done_near : w.done ≤ w.told + gap
  next_near : w.next ≤ w.known + lead + 2

theorem inv_start : Inv lead gap (start b) := by
  constructor <;> simp only [start] <;> omega

theorem Step.inv (hstep : Step lead gap w w') (h : Inv lead gap w) : Inv lead gap w' := by
  obtain ⟨hknown, hdone, hnear, hnext⟩ := h
  cases hstep with
  | send hopen => constructor <;> simp only <;> omega
  | take told hlt htold hgap => constructor <;> simp only <;> omega
  | hear known hle htold => constructor <;> simp only <;> omega

theorem Reaches.inv (h : Reaches lead gap b w) : Inv lead gap w := by
  induction h with
  | refl => exact inv_start
  | tail _ hstep ih => exact hstep.inv ih

/-- The last item that was sent is at most one beyond the lead. -/
theorem Reaches.bound (h : Reaches lead gap b w) : w.next ≤ w.known + lead + 2 := h.inv.next_near

/-- **The window opens.** When all items were taken and the sender knows all that was told, the next item may be sent. -/
theorem Reaches.opens (h : Reaches lead gap b w) (hgap : gap ≤ lead + 1) (hdone : w.done = w.next) (hknown : w.told ≤ w.known) :
    w.next ≤ w.known + lead + 1 := by
  have hnear := h.inv.done_near
  omega

end Window
