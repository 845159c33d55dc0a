/-
  A broadcast notification without memory.

  `notifyWaiters` wakes every waiter that exists at the time of the call and nobody who comes
  later. The cell counts its calls, and a waiter remembers the count at its creation: it is
  woken when the count has moved on. So a waiter is not woken when it is created
  (`not_woken_notified`), every call wakes all waiters before it (`woken_notifyWaiters`), and a
  waiter that is woken stays woken (`Notified.Woken.mono`).
-/
import Mathlib.Data.Nat.Basic

namespace FlyVault.Lib

/-- The cell: how often `notifyWaiters` has been called. -/
structure Notify where
  calls : Nat
  deriving DecidableEq, Repr

/-- A waiter: the count of calls when it was created. -/
structure Notified where
  created : Nat
  deriving DecidableEq, Repr

/-- Create a waiter. -/
def Notify.notified (notify : Notify) : Notified := ⟨notify.calls⟩

/-- Wake every waiter created so far. -/
def Notify.notifyWaiters (notify : Notify) : Notify := ⟨notify.calls + 1⟩

/-- There has been a call since the waiter was created. -/
def Notified.Woken (waiter : Notified) (notify : Notify) : Prop := waiter.created < notify.calls

instance (waiter : Notified) (notify : Notify) : Decidable (waiter.Woken notify) :=
  inferInstanceAs (Decidable (_ < _))

/-- The waiter was created on this cell. -/
def Notified.Of (waiter : Notified) (notify : Notify) : Prop := waiter.created ≤ notify.calls

variable {waiter : Notified} {notify : Notify}

theorem not_woken_notified (notify : Notify) : ¬ notify.notified.Woken notify :=
  Nat.lt_irrefl notify.calls

theorem of_notified (notify : Notify) : notify.notified.Of notify := Nat.le_refl notify.calls

theorem woken_notifyWaiters (h : waiter.Of notify) : waiter.Woken notify.notifyWaiters :=
  Nat.lt_succ_of_le h

theorem Notified.Woken.mono (h : waiter.Woken notify) : waiter.Woken notify.notifyWaiters :=
  Nat.lt_succ_of_lt h

theorem Notified.Of.mono (h : waiter.Of notify) : waiter.Of notify.notifyWaiters :=
  Nat.le_succ_of_le h

end FlyVault.Lib
