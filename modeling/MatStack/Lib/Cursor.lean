import Mathlib.Data.List.Count
import Mathlib.Data.List.Sort

/-!
# Reading a bounded log through a cursor

A log retains the last of a sequence of records whose keys increase. A reader wants some of them,
and keeps a cursor: it was given every wanted record below the cursor, and waits for those from the
cursor on. `Caught` says so; it is kept when the log grows and forgets, and when the reader is given
the first of the records it waits for. A record waits for no longer than there are others before it:
`ahead` counts them, no new record adds to it, and every delivery takes from it.
-/

namespace Cursor

section
variable {α β : Type*} [LinearOrder β] (key : α → β) (wanted : α → Bool)

/-- The records of a log that are still to be read, from the cursor on. -/
def awaiting (cursor : β) (log : List α) : List α :=
  log.filter fun a => wanted a && decide (cursor ≤ key a)

/-- How many records are to be read up to a record. -/
def ahead (a : α) (cursor : β) (log : List α) : Nat :=
  (awaiting key wanted cursor log).countP fun b => decide (key b ≤ key a)

/-- The log is in the order of its keys. -/
def Increasing (log : List α) : Prop := log.Pairwise fun a b => key a < key b

/-- A reader that started at `start` was given, in order and once, every record of the log that it
wants, up to the cursor, and none from the cursor on. -/
structure Caught (start cursor : β) (log received : List α) : Prop where
  increasing : Increasing key received
  wants : ∀ a ∈ received, wanted a = true
  below : ∀ a ∈ received, key a < cursor
  complete : ∀ a ∈ log, wanted a = true → start ≤ key a → key a < cursor → a ∈ received

variable {key wanted} {start cursor cursor' : β} {log log' received sent rest : List α} {a b : α}

@[simp] theorem mem_awaiting :
    a ∈ awaiting key wanted cursor log ↔ a ∈ log ∧ wanted a = true ∧ cursor ≤ key a := by
  simp [awaiting]

theorem Increasing.awaiting (h : Increasing key log) :
    Increasing key (awaiting key wanted cursor log) := List.Pairwise.filter _ h

/-- In the order of the keys, a list is what it contains. -/
theorem Increasing.ext (h : Increasing key log) (h' : Increasing key log')
    (hmem : ∀ a, a ∈ log ↔ a ∈ log') : log = log' :=
  List.Pairwise.eq_of_mem_iff h h' hmem

/-- In the order of the keys, what is sent first is below what is left. -/
theorem lt_of_split (h : Increasing key log)
    (hsplit : awaiting key wanted cursor log = sent ++ rest) (ha : a ∈ sent) (hb : b ∈ rest) :
    key a < key b := by
  have hall : Increasing key (sent ++ rest) := hsplit ▸ h.awaiting
  exact (List.pairwise_append.1 hall).2.2 a ha b hb

/-- A record that is wanted was given or waits. -/
theorem Caught.received_or_awaiting (h : Caught key wanted start cursor log received) (ha : a ∈ log)
    (hw : wanted a = true) (hs : start ≤ key a) :
    a ∈ received ∨ a ∈ awaiting key wanted cursor log := by
  obtain hlt | hle := lt_or_ge (key a) cursor
  · exact .inl (h.complete a ha hw hs hlt)
  · exact .inr (mem_awaiting.2 ⟨ha, hw, hle⟩)

/-- A reader that is given all there is starts behind it. -/
theorem Caught.init (hlog : Increasing key log) (hall : ∀ a ∈ log, key a < cursor) :
    Caught key wanted start cursor log (awaiting key wanted start log) where
  increasing := hlog.awaiting
  wants _ ha := (mem_awaiting.1 ha).2.1
  below _ ha := hall _ (mem_awaiting.1 ha).1
  complete _ ha hw hs _ := mem_awaiting.2 ⟨ha, hw, hs⟩

/-- The log forgets, and grows beyond the cursor. -/
theorem Caught.of_log (h : Caught key wanted start cursor log received)
    (hlog : ∀ a ∈ log', a ∈ log ∨ cursor ≤ key a) :
    Caught key wanted start cursor log' received where
  increasing := h.increasing
  wants := h.wants
  below := h.below
  complete a ha hw hs hlt := h.complete a ((hlog a ha).resolve_right hlt.not_ge) hw hs hlt

/-- **Delivery.** The reader is given the first records it waits for, and the cursor moves between
them and the rest. -/
theorem Caught.deliver (h : Caught key wanted start cursor log received) (hlog : Increasing key log)
    (hsplit : awaiting key wanted cursor log = sent ++ rest) (hle : cursor ≤ cursor')
    (hsent : ∀ a ∈ sent, key a < cursor') (hrest : ∀ a ∈ rest, cursor' ≤ key a) :
    Caught key wanted start cursor' log (received ++ sent) where
  increasing := by
    have hall : Increasing key (sent ++ rest) := hsplit ▸ hlog.awaiting
    refine List.pairwise_append.2 ⟨h.increasing, (List.pairwise_append.1 hall).1, ?_⟩
    intro a ha b hb
    have hb' : b ∈ awaiting key wanted cursor log := hsplit ▸ List.mem_append_left _ hb
    exact (h.below a ha).trans_le (mem_awaiting.1 hb').2.2
  wants a ha := by
    obtain ha | ha := List.mem_append.1 ha
    · exact h.wants a ha
    · have ha' : a ∈ awaiting key wanted cursor log := hsplit ▸ List.mem_append_left _ ha
      exact (mem_awaiting.1 ha').2.1
  below a ha := by
    obtain ha | ha := List.mem_append.1 ha
    · exact (h.below a ha).trans_le hle
    · exact hsent a ha
  complete a ha hw hs hlt := by
    obtain hr | hwait := h.received_or_awaiting ha hw hs
    · exact List.mem_append_left _ hr
    · rw [hsplit] at hwait
      obtain ha' | ha' := List.mem_append.1 hwait
      · exact List.mem_append_right _ ha'
      · exact absurd hlt (hrest a ha').not_gt

/-- What is left after a delivery. -/
theorem awaiting_deliver (hlog : Increasing key log)
    (hsplit : awaiting key wanted cursor log = sent ++ rest) (hle : cursor ≤ cursor')
    (hsent : ∀ a ∈ sent, key a < cursor') (hrest : ∀ a ∈ rest, cursor' ≤ key a) :
    awaiting key wanted cursor' log = rest := by
  have hall : Increasing key (sent ++ rest) := hsplit ▸ hlog.awaiting
  refine hlog.awaiting.ext (List.pairwise_append.1 hall).2.1 fun a => ?_
  have hmem : a ∈ sent ++ rest ↔ a ∈ log ∧ wanted a = true ∧ cursor ≤ key a := by
    rw [← hsplit, mem_awaiting]
  rw [mem_awaiting]
  constructor
  · rintro ⟨ha, hw, hc⟩
    exact (List.mem_append.1 (hmem.2 ⟨ha, hw, hle.trans hc⟩)).resolve_left
      fun hs => (hsent a hs).not_ge hc
  · intro ha
    obtain ⟨hlog, hw, -⟩ := hmem.1 (List.mem_append_right _ ha)
    exact ⟨hlog, hw, hrest a ha⟩

/-! ## Waiting -/

/-- A record that waits is ahead of itself. -/
theorem ahead_pos (ha : a ∈ awaiting key wanted cursor log) : 0 < ahead key wanted a cursor log :=
  List.countP_pos_iff.2 ⟨a, ha, decide_eq_true le_rfl⟩

/-- Forgetting takes none of the places of a record, and growing gives it none. -/
theorem ahead_append_le {kept new : List α} (hkept : kept.Sublist log)
    (hnew : ∀ b ∈ new, key a < key b) :
    ahead key wanted a cursor (kept ++ new) ≤ ahead key wanted a cursor log := by
  have hzero : (awaiting key wanted cursor new).countP (fun b => decide (key b ≤ key a)) = 0 :=
    List.countP_eq_zero.2 fun b hb => by
      simpa using hnew b (mem_awaiting.1 hb).1
  unfold ahead awaiting at *
  rw [List.filter_append, List.countP_append, hzero, Nat.add_zero]
  exact (hkept.filter _).countP_le

/-- A delivery that does not reach a record brings it nearer by what is delivered. -/
theorem ahead_deliver (hlog : Increasing key log)
    (hsplit : awaiting key wanted cursor log = sent ++ rest)
    (hrest : awaiting key wanted cursor' log = rest) (ha : a ∈ rest) :
    ahead key wanted a cursor' log + sent.length = ahead key wanted a cursor log := by
  have hsent : sent.countP (fun b => decide (key b ≤ key a)) = sent.length :=
    List.countP_eq_length.2 fun b hb => decide_eq_true (lt_of_split hlog hsplit hb ha).le
  rw [ahead, ahead, hrest, hsplit, List.countP_append, hsent, Nat.add_comm]

end

end Cursor
