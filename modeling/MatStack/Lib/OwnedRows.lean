import Mathlib.Algebra.Group.Nat.Defs
import Mathlib.Data.List.Basic
import Mathlib.Tactic.Basic

/-!
# Tables of owned rows

Rows of several owners kept in one list. `rowsOf own k` is what the owner `k` sees of it. An
operation on behalf of `k` that only filters, appends or changes rows of `k` leaves the view of
every other owner as it was, and what it computes from rows of `k` it computes from the view of `k`
alone. The lemmas say both for each kind of operation.
-/

namespace OwnedRows

section
variable {ρ κ : Type*} [BEq κ] (own : ρ → κ) {k : κ} {p : ρ → Bool} {l l' : List ρ}

/-- The rows of the owner `k`, in their order. -/
def rowsOf (k : κ) (l : List ρ) : List ρ := l.filter (own · == k)

/-- The change of the first row that `p` selects; `none` when there is none. -/
def modifyFirst? (p : ρ → Bool) (f : ρ → ρ) : List ρ → Option (List ρ)
  | [] => none
  | r :: l => if p r then some (f r :: l) else (modifyFirst? p f l).map (r :: ·)

/-- A change that keeps a field keeps the column of that field. -/
theorem map_modifyFirst? {α : Type*} (g : ρ → α) {f : ρ → ρ}
    (h : modifyFirst? p f l = some l') (hf : ∀ r, g (f r) = g r) :
    l'.map g = l.map g := by
  induction l generalizing l' with
  | nil => cases h
  | cons r l ih =>
    rw [modifyFirst?] at h
    split at h
    · cases h
      rw [List.map_cons, List.map_cons, hf]
    · obtain ⟨l'', h', rfl⟩ := Option.map_eq_some_iff.1 h
      rw [List.map_cons, List.map_cons, ih h']

/-- Rows after a change are rows from before, or the row that was changed. -/
theorem mem_modifyFirst? {f : ρ → ρ} {r : ρ} (h : modifyFirst? p f l = some l') (hr : r ∈ l') :
    r ∈ l ∨ ∃ r₀ ∈ l, r = f r₀ := by
  induction l generalizing l' with
  | nil => cases h
  | cons r' l ih =>
    rw [modifyFirst?] at h
    split at h
    · cases h
      obtain rfl | hr := List.mem_cons.1 hr
      · exact .inr ⟨r', .head _, rfl⟩
      · exact .inl (.tail _ hr)
    · obtain ⟨l'', h', rfl⟩ := Option.map_eq_some_iff.1 h
      obtain rfl | hr := List.mem_cons.1 hr
      · exact .inl (.head _)
      · obtain hr | ⟨r₀, hr₀, rfl⟩ := ih h' hr
        · exact .inl (.tail _ hr)
        · exact .inr ⟨r₀, .tail _ hr₀, rfl⟩

theorem modifyFirst?_eq_none {f : ρ → ρ} (h : modifyFirst? p f l = none) :
    ∀ r ∈ l, p r = false := by
  induction l with
  | nil => exact List.forall_mem_nil _
  | cons r l ih =>
    rw [modifyFirst?] at h
    split at h
    · cases h
    · next hr =>
      exact List.forall_mem_cons.2 ⟨eq_false_of_ne_true hr, ih (Option.map_eq_none_iff.1 h)⟩

/-- A change that does not touch what `q` reads leaves the number of rows that `q` selects. -/
theorem length_filter_modifyFirst? {f : ρ → ρ} {q : ρ → Bool} (h : modifyFirst? p f l = some l')
    (hq : ∀ r, q (f r) = q r) : (l'.filter q).length = (l.filter q).length := by
  have hcount : ∀ m : List ρ, m.countP q = (m.map q).countP id := by
    intro m
    rw [List.countP_map]
    rfl
  rw [← List.countP_eq_length_filter, ← List.countP_eq_length_filter, hcount, hcount,
    map_modifyFirst? q h hq]

/-- A change is the same through `g`, which hides neither what `p` selects nor what the change makes
of a row. -/
theorem map_modifyFirst?_map {f g : ρ → ρ} (hp : ∀ r, p (g r) = p r)
    (hf : ∀ r, g (f (g r)) = g (f r)) (hg : ∀ r, g (g r) = g r) :
    (modifyFirst? p f (l.map g)).map (List.map g) = (modifyFirst? p f l).map (List.map g) := by
  induction l with
  | nil => rfl
  | cons r l ih =>
    rw [List.map_cons, modifyFirst?, modifyFirst?, hp]
    by_cases hr : p r = true
    · have htail : (l.map g).map g = l.map g := by
        rw [List.map_map]
        exact List.map_congr_left fun r _ => hg r
      rw [if_pos hr, if_pos hr, Option.map_some, Option.map_some, List.map_cons, List.map_cons, hf,
        htail]
    · rw [if_neg hr, if_neg hr, Option.map_map, Option.map_map]
      have hcons : ∀ o : Option (List ρ), o.map (List.map g ∘ (g r :: ·)) =
          (o.map (List.map g)).map (g r :: ·) := by
        intro o
        rw [Option.map_map]
        exact Option.map_congr fun l _ => by rw [Function.comp, List.map_cons, hg]; rfl
      rw [hcons, ih, Option.map_map]
      rfl

/-- A change that is none at the first row selected changes nothing. -/
theorem modifyFirst?_eq_self {f : ρ → ρ} (h : modifyFirst? p f l = some l')
    (hf : ∀ r, l.find? p = some r → f r = r) : l' = l := by
  induction l generalizing l' with
  | nil => cases h
  | cons r l ih =>
    rw [modifyFirst?] at h
    split at h
    · next hr =>
      cases h
      rw [hf r (List.find?_cons_of_pos hr)]
    · next hr =>
      obtain ⟨l'', h', rfl⟩ := Option.map_eq_some_iff.1 h
      rw [ih h' fun x hx => hf x (by rwa [List.find?_cons_of_neg hr])]

/-- The row that is changed is the first one selected. -/
theorem find?_modifyFirst?_self {f : ρ → ρ} (hf : ∀ r, p (f r) = p r) :
    (modifyFirst? p f l).map (List.find? p) =
      (l.find? p).map fun r => some (f r) := by
  induction l with
  | nil => rfl
  | cons r l ih =>
    rw [modifyFirst?]
    by_cases hr : p r = true
    · rw [if_pos hr, List.find?_cons_of_pos hr, Option.map_some, Option.map_some,
        List.find?_cons_of_pos ((hf r).trans hr)]
    · rw [if_neg hr, List.find?_cons_of_neg hr, ← ih, Option.map_map]
      exact Option.map_congr fun l' _ => List.find?_cons_of_neg hr

/-- The change is not seen by a search that selects neither the row nor what becomes of it. -/
theorem find?_modifyFirst?_of_not {f : ρ → ρ} {q : ρ → Bool} (hq : ∀ r, p r = true → q r = false)
    (hf : ∀ r, q (f r) = q r) (h : modifyFirst? p f l = some l') :
    l'.find? q = l.find? q := by
  induction l generalizing l' with
  | nil => cases h
  | cons r l ih =>
    rw [modifyFirst?] at h
    split at h
    · next hr =>
      cases h
      have hqr := hq r hr
      rw [List.find?_cons_of_neg (by rw [hf, hqr]; exact Bool.false_ne_true),
        List.find?_cons_of_neg (by rw [hqr]; exact Bool.false_ne_true)]
    · obtain ⟨l'', h', rfl⟩ := Option.map_eq_some_iff.1 h
      rw [List.find?_cons, List.find?_cons, ih h']

@[simp] theorem rowsOf_append :
    rowsOf own k (l ++ l') = rowsOf own k l ++ rowsOf own k l' := List.filter_append ..

theorem rowsOf_filter : rowsOf own k (l.filter p) = (rowsOf own k l).filter p := by
  rw [rowsOf, rowsOf, List.filter_filter, List.filter_filter]
  exact List.filter_congr fun r _ => Bool.and_comm ..

theorem filter_owned : l.filter (fun r => own r == k && p r) = (rowsOf own k l).filter p := by
  rw [rowsOf, List.filter_filter]
  exact List.filter_congr fun r _ => Bool.and_comm ..

theorem any_owned : l.any (fun r => own r == k && p r) = (rowsOf own k l).any p := by
  rw [rowsOf, List.any_filter]

theorem find?_owned : l.find? (fun r => own r == k && p r) = (rowsOf own k l).find? p := by
  rw [rowsOf, List.find?_filter]
  simp

end

section
variable {ρ κ : Type*} [BEq κ] [LawfulBEq κ] (own : ρ → κ) {j k : κ} {p : ρ → Bool} {f : ρ → ρ}
  {r : ρ} {l l' : List ρ}

@[simp] theorem mem_rowsOf : r ∈ rowsOf own k l ↔ r ∈ l ∧ own r = k := by
  simp [rowsOf]

theorem rowsOf_cons_of_eq (h : own r = k) : rowsOf own k (r :: l) = r :: rowsOf own k l :=
  List.filter_cons_of_pos (beq_iff_eq.2 h)

theorem rowsOf_cons_of_ne (h : own r ≠ k) : rowsOf own k (r :: l) = rowsOf own k l :=
  List.filter_cons_of_neg (by simpa using h)

/-- All rows are the owner's. -/
theorem rowsOf_eq_self (h : ∀ r ∈ l, own r = k) : rowsOf own k l = l :=
  List.filter_eq_self.2 fun r hr => beq_iff_eq.2 (h r hr)

@[simp] theorem rowsOf_rowsOf : rowsOf own k (rowsOf own k l) = rowsOf own k l :=
  rowsOf_eq_self own fun _ hr => ((mem_rowsOf own).1 hr).2

/-- No row is the owner's. -/
theorem rowsOf_eq_nil : rowsOf own k l = [] ↔ ∀ r ∈ l, own r ≠ k := by
  simp [rowsOf, List.filter_eq_nil_iff]

/-! ### Dropping rows -/

/-- A filter that keeps every row of the owner. -/
theorem rowsOf_filter_of_keep (h : ∀ r, own r = k → p r = true) :
    rowsOf own k (l.filter p) = rowsOf own k l := by
  rw [rowsOf_filter]
  exact List.filter_eq_self.2 fun r hr => h r ((mem_rowsOf own).1 hr).2

/-- Dropping all rows of an owner. -/
theorem rowsOf_drop_self : rowsOf own k (l.filter (own · != k)) = [] := by
  rw [rowsOf_eq_nil]
  intro r hr
  simpa using (List.mem_filter.1 hr).2

/-- Dropping all rows of an owner leaves those of another. -/
theorem rowsOf_drop_of_ne (h : j ≠ k) :
    rowsOf own j (l.filter (own · != k)) = rowsOf own j l :=
  rowsOf_filter_of_keep own fun r hr => by simpa [hr] using h

/-- Dropping some rows of an owner leaves those of another. -/
theorem rowsOf_dropSome_of_ne (h : j ≠ k) :
    rowsOf own j (l.filter fun r => !(own r == k && p r)) = rowsOf own j l :=
  rowsOf_filter_of_keep own fun r hr => by
    have : (own r == k) = false := by simpa [hr] using h
    simp [this]

/-- Whether dropping some rows of an owner drops any is seen on the rows of the owner alone. -/
theorem length_dropSome_rowsOf :
    ((rowsOf own k l).filter fun r => !(own r == k && p r)).length = (rowsOf own k l).length ↔
      (l.filter fun r => !(own r == k && p r)).length = l.length := by
  simp only [List.length_filter_eq_length_iff, mem_rowsOf]
  refine ⟨fun h r hr => ?_, fun h r ⟨hr, _⟩ => h r hr⟩
  by_cases hk : own r = k
  · exact h r ⟨hr, hk⟩
  · simp [hk]

/-! ### Changing a row -/

/-- The change of a row of one owner that stays its row leaves the rows of another. -/
theorem rowsOf_modifyFirst?_of_ne (h : j ≠ k) (hf : ∀ r, own (f r) = own r)
    (hm : modifyFirst? (fun r => own r == k && p r) f l = some l') :
    rowsOf own j l' = rowsOf own j l := by
  induction l generalizing l' with
  | nil => cases hm
  | cons r l ih =>
    rw [modifyFirst?] at hm
    split at hm
    · next hr =>
      have hk : own r = k := beq_iff_eq.1 (Bool.and_eq_true_iff.1 hr).1
      have hj : own r ≠ j := fun hj => h (hj.symm.trans hk)
      cases hm
      rw [rowsOf_cons_of_ne own (by rwa [hf]), rowsOf_cons_of_ne own hj]
    · obtain ⟨l'', hm', rfl⟩ := Option.map_eq_some_iff.1 hm
      have := ih hm'
      by_cases hj : own r = j
      · rw [rowsOf_cons_of_eq own hj, rowsOf_cons_of_eq own hj, this]
      · rw [rowsOf_cons_of_ne own hj, rowsOf_cons_of_ne own hj, this]

/-- The change of a row, on the rows of its owner alone. -/
theorem modifyFirst?_rowsOf (hf : ∀ r, own (f r) = own r) :
    modifyFirst? (fun r => own r == k && p r) f (rowsOf own k l) =
      (modifyFirst? (fun r => own r == k && p r) f l).map (rowsOf own k) := by
  induction l with
  | nil => rfl
  | cons r l ih =>
    by_cases hk : own r = k
    · rw [rowsOf_cons_of_eq own hk, modifyFirst?, modifyFirst?]
      split
      · rw [Option.map_some, rowsOf_cons_of_eq own (by rwa [hf])]
      · rw [ih, Option.map_map, Option.map_map]
        exact Option.map_congr fun l' _ => (rowsOf_cons_of_eq own hk).symm
    · have hr : (own r == k && p r) = false := by simp [hk]
      rw [rowsOf_cons_of_ne own hk, ih, modifyFirst?, hr, if_neg (by simp), Option.map_map]
      exact Option.map_congr fun l' _ => (rowsOf_cons_of_ne own hk).symm

end

/-! ### Distinct keys -/

section
variable {ρ κ : Type*} [BEq κ] [LawfulBEq κ] {key : ρ → κ} {l : List ρ} {k : κ} {r : ρ}

/-- In a table with distinct keys, a row is found by its key. -/
theorem find?_key_eq_some (h : (l.map key).Nodup) :
    l.find? (key · == k) = some r ↔ r ∈ l ∧ key r = k := by
  constructor
  · intro hf
    exact ⟨List.mem_of_find?_eq_some hf, by simpa using List.find?_some hf⟩
  · rintro ⟨hr, rfl⟩
    induction l with
    | nil => cases hr
    | cons r' l ih =>
      rw [List.map_cons, List.nodup_cons] at h
      obtain rfl | hr := List.mem_cons.1 hr
      · exact List.find?_cons_of_pos (beq_self_eq_true _)
      · have hne : key r' ≠ key r := fun heq => h.1 (heq ▸ List.mem_map_of_mem hr)
        rw [List.find?_cons_of_neg (by simpa using hne)]
        exact ih h.2 hr

theorem find?_key_eq_none : l.find? (key · == k) = none ↔ ∀ r ∈ l, key r ≠ k := by
  simp [List.find?_eq_none]

end

end OwnedRows
