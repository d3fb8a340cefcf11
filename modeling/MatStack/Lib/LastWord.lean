import Mathlib.Data.List.Basic

/-!
# The last word on each item

A listener hears messages, each of which tells of every item that it is there, that it is gone, or
nothing, and believes what was said last. A speaker that tells each message once more, in the same
order, leaves the listener where the first sayings would: what counts is what the listener knows
once the repeats under way have arrived (`Talk.settled`), and there a repeat changes nothing
(`settled_repeatNext`) while a new message has the last word (`settled_send`).
-/

namespace LastWord

variable {ι μ : Type*} (tells : μ → ι → Option Bool)

/-- The listener after a message. -/
def hear (known : ι → Bool) (m : μ) : ι → Bool := fun i => (tells m i).getD (known i)

/-- The listener after some messages. -/
def hearAll (known : ι → Bool) (ms : List μ) : ι → Bool := ms.foldl (hear tells) known

/-- What the listener knows, and the repeats under way. -/
structure Talk (ι μ : Type*) where
  known : ι → Bool
  pending : List μ

/-- A message is said, and will be repeated after those that wait. -/
def Talk.send (t : Talk ι μ) (m : μ) : Talk ι μ := ⟨hear tells t.known m, t.pending ++ [m]⟩

/-- The next repeat arrives, if any is under way. -/
def Talk.repeatNext (t : Talk ι μ) : Talk ι μ :=
  match t.pending with
  | [] => t
  | m :: ms => ⟨hear tells t.known m, ms⟩

/-- What the listener will know when all repeats have arrived. -/
def Talk.settled (t : Talk ι μ) : ι → Bool := hearAll tells t.known t.pending

section
variable {tells} {known known' : ι → Bool} {m : μ} {ms : List μ} {i : ι} {b : Bool} {t : Talk ι μ}

theorem hear_of_some (h : tells m i = some b) : hear tells known m i = b := by
  rw [hear, h, Option.getD_some]

theorem hear_of_none (h : tells m i = none) : hear tells known m i = known i := by
  rw [hear, h, Option.getD_none]

/-- What is known of an item depends on what was known of that item alone. -/
theorem hearAll_congr (h : known i = known' i) :
    hearAll tells known ms i = hearAll tells known' ms i := by
  induction ms generalizing known known' with
  | nil => exact h
  | cons m ms ih =>
    refine ih ?_
    rw [hear, hear, h]

/-- A message that is heard again later need not be heard now. -/
theorem hear_hearAll_hear :
    hear tells (hearAll tells (hear tells known m) ms) m = hear tells (hearAll tells known ms) m := by
  funext i
  cases h : tells m i with
  | some b => rw [hear_of_some h, hear_of_some h]
  | none =>
    rw [hear_of_none h, hear_of_none h]
    exact hearAll_congr (hear_of_none h)

/-- **A new message has the last word.** -/
@[simp] theorem settled_send : (t.send tells m).settled tells = hear tells (t.settled tells) m := by
  rw [Talk.settled, Talk.send, hearAll, List.foldl_append]
  exact hear_hearAll_hear

theorem settled_foldl_send :
    (ms.foldl (Talk.send tells) t).settled tells = hearAll tells (t.settled tells) ms := by
  induction ms generalizing t with
  | nil => rfl
  | cons m ms ih => rw [List.foldl_cons, ih, settled_send, hearAll, hearAll, List.foldl_cons]

/-- **A repeat changes nothing in the end.** -/
@[simp] theorem settled_repeatNext : (t.repeatNext tells).settled tells = t.settled tells := by
  obtain ⟨known, pending⟩ := t
  cases pending with
  | nil => rfl
  | cons m ms => rfl

variable (tells) in
/-- Without repeats under way, it is what the listener knows now. -/
theorem settled_of_pending_eq_nil (h : t.pending = []) : t.settled tells = t.known := by
  rw [Talk.settled, h]
  rfl

end

end LastWord
