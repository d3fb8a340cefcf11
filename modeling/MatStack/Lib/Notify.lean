import Mathlib.Tactic.TypeStar

/-!
# Signals with a stored permit

A `Notify` wakes the one task that waits on it, and stores a permit when nobody waits: the next wait
then ends at once. A notification that a wait has got but not yet used is handed on when the wait is
given up, so a notification is *due* (`Notify.Due`) from `notifyOne` until a poll uses it, whatever
happens to the waits between.
-/

/-- Where the task that may wait stands: it has no wait open, it waits, or it was notified and has
not been polled since. -/
inductive Waiter where
  | absent
  | waiting
  | notified
deriving Repr, DecidableEq

/-- A `Notify` with at most one task that waits on it. -/
structure Notify where
  permit : Bool
  waiter : Waiter
deriving Repr, DecidableEq

namespace Notify

def new : Notify := ⟨false, .absent⟩

/-- Wakes the waiting task, or stores the permit. -/
def notifyOne (n : Notify) : Notify :=
  match n.waiter with
  | .waiting => { n with waiter := .notified }
  | .absent | .notified => { n with permit := true }

/-- Polls the wait, opening it if need be: true when it is over, which uses the notification up. -/
def poll (n : Notify) : Bool × Notify :=
  match n.waiter with
  | .notified => (true, { n with waiter := .absent })
  | .waiting => (false, n)
  | .absent => if n.permit then (true, { n with permit := false }) else (false, { n with waiter := .waiting })

/-- The wait is given up; a notification it got goes back into store. -/
def drop (n : Notify) : Notify :=
  match n.waiter with
  | .notified => { n with waiter := .absent }.notifyOne
  | .waiting | .absent => { n with waiter := .absent }

/-- A notification was given that no poll has used. -/
def Due (n : Notify) : Prop := n.permit = true ∨ n.waiter = .notified

instance (n : Notify) : Decidable n.Due := inferInstanceAs (Decidable (_ ∨ _))

/-- Nobody waits while a permit is in store. -/
def Sound (n : Notify) : Prop := n.permit = true → n.waiter ≠ .waiting

variable {n : Notify}

@[simp] theorem not_due_new : ¬new.Due := by decide

@[simp] theorem sound_new : new.Sound := fun h => by cases h

@[simp] theorem due_notifyOne : n.notifyOne.Due := by
  obtain ⟨permit, _ | _ | _⟩ := n
  · exact .inl rfl
  · exact .inr rfl
  · exact .inl rfl

theorem Sound.notifyOne (h : n.Sound) : n.notifyOne.Sound := by
  obtain ⟨permit, _ | _ | _⟩ := n <;> simp_all [Sound, Notify.notifyOne]

/-- A wait is over exactly when a notification is due. -/
theorem poll_iff (h : n.Sound) : n.poll.1 = true ↔ n.Due := by
  obtain ⟨_ | _, _ | _ | _⟩ := n <;> simp_all [Sound, Due, poll]

theorem Sound.poll (h : n.Sound) : n.poll.2.Sound := by
  obtain ⟨_ | _, _ | _ | _⟩ := n <;> simp_all [Sound, Notify.poll]

/-- A wait that is not over leaves nothing due, as before. -/
theorem not_due_poll (h : ¬n.Due) : ¬n.poll.2.Due := by
  obtain ⟨_ | _, _ | _ | _⟩ := n <;> simp_all [Due, Notify.poll]

@[simp] theorem due_drop : n.drop.Due ↔ n.Due := by
  obtain ⟨_ | _, _ | _ | _⟩ := n <;> simp [Due, drop, notifyOne]

theorem Sound.drop (h : n.Sound) : n.drop.Sound := by
  obtain ⟨_ | _, _ | _ | _⟩ := n <;> simp_all [Sound, Notify.drop, Notify.notifyOne]

end Notify
