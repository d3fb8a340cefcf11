import Mathlib.Data.List.Induction
import Mathlib.Data.List.Nodup
import Mathlib.Logic.Function.Basic

/-!
# Entries by key

A table takes entries one after the other, each under a key. It keeps one value for each key, into
which the entries of the key are put in turn, and the keys in the order in which they came first. So
the value of a key depends on that key's entries only, whatever stands between them
(`value_gather`), and leaving out the entries of a key leaves out the key and nothing else
(`gather_without`).
-/

namespace Grouped

/-- The values by key, and the keys in the order in which they came. -/
structure Table (κ ν : Type*) where
  order : List κ
  map : κ → Option ν

namespace Table

/-- Takes every value out, in the order of the keys. -/
def drain {κ ν : Type*} [DecidableEq κ] : List κ → (κ → Option ν) → List (κ × ν)
  | [], _ => []
  | k :: order, map =>
    ((map k).map (k, ·)).toList ++ drain order (Function.update map k none)

end Table

section
variable {κ ν ε : Type*} [DecidableEq κ]

def empty : Table κ ν := ⟨[], fun _ => none⟩

/-- An entry is put into the value of its key, which is made if there is none. -/
def Table.put (put : Option ν → ε → ν) (t : Table κ ν) (entry : κ × ε) : Table κ ν where
  map := Function.update t.map entry.1 (some (put (t.map entry.1) entry.2))
  order := if entry.1 ∈ t.order then t.order else t.order ++ [entry.1]

/-- The entries of a key. -/
def entriesOf (k : κ) (l : List (κ × ε)) : List ε := (l.filter (·.1 = k)).map (·.2)

/-- What entries come to, put in one after the other. -/
def gathered (put : Option ν → ε → ν) (entries : List ε) : Option ν :=
  entries.foldl (fun v e => some (put v e)) none

/-- The values that entries come to, in the order of the keys. -/
def gather (put : Option ν → ε → ν) (l : List (κ × ε)) : List (κ × ν) :=
  let t := l.foldl (Table.put put) empty
  t.order.filterMap fun k => (t.map k).map (k, ·)

end

section
variable {κ ν ε : Type*} [DecidableEq κ] {put : Option ν → ε → ν} {l : List (κ × ε)} {k : κ} {v : ν}
  {order : List κ} {map : κ → Option ν}

/-- Distinct keys are taken out with the values that they have. -/
theorem drain_eq (h : order.Nodup) :
    Table.drain order map = order.filterMap fun k => (map k).map (k, ·) := by
  induction order generalizing map with
  | nil => rfl
  | cons k order ih =>
    obtain ⟨hk, horder⟩ := List.nodup_cons.1 h
    have hrest : (order.filterMap fun k' => (Function.update map k none k').map (k', ·)) =
        order.filterMap fun k => (map k).map (k, ·) := by
      refine List.filterMap_congr fun k' hk' => ?_
      rw [Function.update_of_ne (ne_of_mem_of_not_mem hk' hk)]
    rw [Table.drain, ih horder, hrest]
    cases h : map k with
    | none => rw [List.filterMap_cons_none (by rw [h]; rfl)]; rfl
    | some v => rw [List.filterMap_cons_some (by rw [h]; rfl)]; rfl

/-- The keys of the table are the keys of the entries, each where it came first. -/
theorem order_foldl (put : Option ν → ε → ν) (l : List (κ × ε)) :
    (l.foldl (Table.put put) empty).order = (l.map (·.1)).eraseDups := by
  induction l using List.reverseRecOn with
  | nil => rfl
  | append_singleton l e ih =>
    rw [List.foldl_append, List.foldl_cons, List.foldl_nil, List.map_append, List.eraseDups_append]
    show (if e.1 ∈ (l.foldl (Table.put put) empty).order then _ else _) = _
    rw [ih]
    by_cases h : e.1 ∈ l.map (·.1)
    · have hgone : [e.1].removeAll (l.map (·.1)) = [] := by simpa [List.removeAll] using h
      rw [if_pos (List.mem_eraseDups.2 h), List.map_singleton, hgone]
      simp
    · have hkept : [e.1].removeAll (l.map (·.1)) = [e.1] := by simpa [List.removeAll] using h
      rw [if_neg fun h' => h (List.mem_eraseDups.1 h'), List.map_singleton, hkept,
        List.eraseDups_cons]
      rfl

theorem map_foldl (put : Option ν → ε → ν) (l : List (κ × ε)) (k : κ) :
    (l.foldl (Table.put put) empty).map k = gathered put (entriesOf k l) := by
  induction l using List.reverseRecOn with
  | nil => rfl
  | append_singleton l e ih =>
    rw [List.foldl_append, List.foldl_cons, List.foldl_nil, entriesOf, List.filter_append,
      List.map_append]
    show Function.update _ e.1 _ k = _
    by_cases h : e.1 = k
    · subst h
      rw [Function.update_self, ih, gathered, gathered, List.foldl_append]
      simp [entriesOf]
    · rw [Function.update_of_ne (Ne.symm h), ih]
      simp [entriesOf, h]

theorem nodup_eraseDups (l : List κ) : l.eraseDups.Nodup := by
  induction l using List.reverseRecOn with
  | nil => exact .nil
  | append_singleton l k ih =>
    rw [List.eraseDups_append]
    by_cases h : k ∈ l
    · have hgone : [k].removeAll l = [] := by simpa [List.removeAll] using h
      simpa [hgone] using ih
    · have hkept : [k].removeAll l = [k] := by simpa [List.removeAll] using h
      rw [hkept]
      refine List.nodup_append.2 ⟨ih, List.nodup_singleton k, ?_⟩
      rintro a ha b hb rfl
      obtain rfl : a = k := by simpa using hb
      exact h (List.mem_eraseDups.1 ha)

theorem gather_eq (put : Option ν → ε → ν) (l : List (κ × ε)) :
    gather put l = (l.map (·.1)).eraseDups.filterMap fun k =>
      (gathered put (entriesOf k l)).map (k, ·) := by
  rw [gather, order_foldl]
  exact List.filterMap_congr fun k _ => by rw [map_foldl]

/-- The table is taken out as it was gathered. -/
theorem drain_foldl (put : Option ν → ε → ν) (l : List (κ × ε)) :
    Table.drain (l.foldl (Table.put put) empty).order (l.foldl (Table.put put) empty).map =
      gather put l := by
  refine drain_eq ?_
  rw [order_foldl]
  exact nodup_eraseDups _

theorem gathered_cons (put : Option ν → ε → ν) (e : ε) (es : List ε) :
    gathered put (e :: es) = some (es.foldl (fun v e => put (some v) e) (put none e)) := by
  have hfold : ∀ (es : List ε) (v : ν), es.foldl (fun v e => some (put v e)) (some v) =
      some (es.foldl (fun v e => put (some v) e) v) := by
    intro es
    induction es with
    | nil => exact fun _ => rfl
    | cons e es ih => exact fun v => ih _
  exact hfold es _

theorem entriesOf_eq_nil : entriesOf k l = [] ↔ k ∉ l.map (·.1) := by
  rw [entriesOf, List.map_eq_nil_iff, List.filter_eq_nil_iff, List.mem_map]
  constructor
  · rintro h ⟨e, he, rfl⟩
    exact h e he (decide_eq_true rfl)
  · exact fun h e he hk => h ⟨e, he, of_decide_eq_true hk⟩

/-- Every key of the entries is there, once and in its place. -/
theorem keys_gather (put : Option ν → ε → ν) (l : List (κ × ε)) :
    (gather put l).map (·.1) = (l.map (·.1)).eraseDups := by
  have hall : ∀ ks : List κ, (∀ k ∈ ks, k ∈ l.map (·.1)) → (ks.filterMap fun k =>
      (gathered put (entriesOf k l)).map (k, ·)).map (·.1) = ks := by
    intro ks
    induction ks with
    | nil => exact fun _ => rfl
    | cons k ks ih =>
      intro h
      obtain ⟨hk, hks⟩ := List.forall_mem_cons.1 h
      obtain ⟨e, es, he⟩ := List.exists_cons_of_ne_nil fun he => entriesOf_eq_nil.1 he hk
      rw [List.filterMap_cons_some (by rw [he, gathered_cons]; rfl), List.map_cons, ih hks]
  rw [gather_eq]
  exact hall _ fun k hk => List.mem_eraseDups.1 hk

/-- **Values.** What a key is found with is what its entries come to. -/
theorem mem_gather : (k, v) ∈ gather put l ↔ gathered put (entriesOf k l) = some v := by
  rw [gather_eq, List.mem_filterMap]
  constructor
  · rintro ⟨k', -, h⟩
    obtain ⟨v', hv, heq⟩ := Option.map_eq_some_iff.1 h
    cases heq
    exact hv
  · intro h
    refine ⟨k, List.mem_eraseDups.2 ?_, by rw [h]; rfl⟩
    by_contra hk
    rw [entriesOf_eq_nil.2 hk] at h
    cases h

theorem filter_eraseDups (p : κ → Bool) (ks : List κ) :
    ks.eraseDups.filter p = (ks.filter p).eraseDups := by
  induction ks using List.reverseRecOn with
  | nil => rfl
  | append_singleton ks k ih =>
    rw [List.eraseDups_append, List.filter_append, List.filter_append, List.eraseDups_append, ih]
    congr 1
    by_cases h : k ∈ ks <;> cases hp : p k <;> simp [List.removeAll, h, hp]

/-- Without the entries of a key there is no such key, and the others are as they were. -/
theorem gather_without (put : Option ν → ε → ν) (l : List (κ × ε)) (k : κ) :
    gather put (l.filter (·.1 ≠ k)) = (gather put l).filter (·.1 ≠ k) := by
  have hentries : ∀ k' ≠ k, entriesOf k' (l.filter (·.1 ≠ k)) = entriesOf k' l := by
    intro k' hk
    rw [entriesOf, List.filter_filter]
    congr 1
    refine List.filter_congr fun e _ => ?_
    by_cases h : e.1 = k'
    · simp [h, hk]
    · simp [h]
  have hkeys : (l.filter (·.1 ≠ k)).map (·.1) = (l.map (·.1)).filter (· ≠ k) := by
    rw [List.filter_map]
    rfl
  rw [gather_eq, gather_eq, hkeys, ← filter_eraseDups, List.filterMap_filter,
    List.filter_filterMap]
  refine List.filterMap_congr fun k' _ => ?_
  by_cases hk : k' = k
  · cases gathered put (entriesOf k' l) <;> simp [hk, Option.filter]
  · rw [hentries k' hk]
    cases gathered put (entriesOf k' l) <;> simp [hk, Option.filter]

end

end Grouped
