import Mathlib.Data.List.Nodup

/-!
# Fair mutexes

A mutex that goes to those who wait for it in the order they came. A release hands it to the first
that waits, whether or not that one has noticed yet, so it is free only when nobody is in line: all
there is to such a mutex is the line, whose head holds it. `lock` joins the line and `leave` goes
from it, which is a release for the head and giving up for anybody else.
-/

/-- A fair mutex, by the line of those who hold it or wait for it. -/
structure FifoMutex (α : Type*) where
  line : List α
  nodup : line.Nodup

namespace FifoMutex

section
variable {α : Type*} {m : FifoMutex α} {a : α}

def free : FifoMutex α := ⟨[], .nil⟩

/-- Who holds the mutex. -/
def holder (m : FifoMutex α) : Option α := m.line.head?

theorem mem_of_holder (h : m.holder = some a) : a ∈ m.line := List.mem_of_head? h

theorem holder_eq_none : m.holder = none ↔ m.line = [] := List.head?_eq_none_iff

end

section
variable {α : Type*} [DecidableEq α]

/-- `a` asks for the mutex: it joins the line, unless it is in line already. -/
def lock (m : FifoMutex α) (a : α) : FifoMutex α :=
  if h : a ∈ m.line then m
  else ⟨m.line ++ [a], List.nodup_append.2 ⟨m.nodup, List.nodup_singleton a, by
    rintro b hb c hc rfl
    exact h (List.mem_singleton.1 hc ▸ hb)⟩⟩

/-- `a` leaves the line. -/
def leave (m : FifoMutex α) (a : α) : FifoMutex α := ⟨m.line.erase a, m.nodup.erase a⟩

variable {m : FifoMutex α} {a b : α}

theorem line_lock (h : a ∉ m.line) : (m.lock a).line = m.line ++ [a] := by
  rw [lock, dif_neg h]

theorem lock_of_mem (h : a ∈ m.line) : m.lock a = m := dif_pos h

theorem mem_lock : b ∈ (m.lock a).line ↔ b ∈ m.line ∨ b = a := by
  by_cases h : a ∈ m.line
  · rw [lock_of_mem h]
    exact ⟨.inl, fun hb => hb.elim id fun hb => hb ▸ h⟩
  · rw [line_lock h, List.mem_append, List.mem_singleton]

theorem mem_leave : b ∈ (m.leave a).line ↔ b ≠ a ∧ b ∈ m.line := m.nodup.mem_erase_iff

@[simp] theorem not_mem_leave : a ∉ (m.leave a).line := fun h => (mem_leave.1 h).1 rfl

/-- Whoever joins the line leaves the holder as it is. -/
theorem holder_lock (h : m.holder = some b) : (m.lock a).holder = some b := by
  by_cases ha : a ∈ m.line
  · rwa [lock_of_mem ha]
  · rw [holder, line_lock ha, List.head?_append, ← holder, h, Option.some_or]

theorem holder_lock_self : (m.lock a).holder = some a ↔ m.line = [] ∨ m.holder = some a := by
  cases hm : m.line with
  | nil =>
    rw [holder, line_lock (by rw [hm]; exact List.not_mem_nil), hm]
    exact iff_of_true rfl (.inl rfl)
  | cons b bs =>
    have hb : m.holder = some b := by rw [holder, hm, List.head?_cons]
    rw [holder_lock hb, hb]
    exact ⟨.inr, fun h => h.elim (fun h => by cases h) id⟩

/-- Whoever gives up leaves the holder as it is. -/
theorem holder_leave (h : m.holder = some b) (hne : b ≠ a) : (m.leave a).holder = some b := by
  cases hm : m.line with
  | nil => rw [holder, hm] at h; cases h
  | cons c cs =>
    rw [holder, hm, List.head?_cons, Option.some_inj] at h
    have hline : (m.leave a).line = b :: cs.erase a := by
      change m.line.erase a = _
      rw [hm, h, List.erase_cons_tail (by simpa using hne)]
    rw [holder, hline, List.head?_cons]

end

end FifoMutex
