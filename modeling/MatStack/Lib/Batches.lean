import Mathlib.Data.List.Basic

/-!
# Greedy batches

A list is cut into batches from the left: an item goes into the batch at hand unless that would
overflow it, and an item that overflows a batch of its own has one for itself. Whether a batch
overflows is found out by trying it, which may fail. Cut or not, the batches hold the items in their
order (`cut_flatten`), and no batch of several items overflows (`cut_fits`).

Batches are sent one after the other, each with flags that depend on whether it is the last:
`withLast`.
-/

namespace Batches

section
variable {α : Type} (full : List α → Option Bool)

/-- Cuts what follows the batch at hand. -/
def cutFrom (current : List α) : List α → Option (List (List α))
  | [] => some [current]
  | a :: l => do
    let b ← full (current ++ [a])
    if b && !current.isEmpty then return current :: (← cutFrom [a] l)
    else cutFrom (current ++ [a]) l

/-- The batches of a list; of an empty one there is one, and it is empty. -/
def cut (l : List α) : Option (List (List α)) := cutFrom full [] l

/-- The batch does not overflow, or it is too small to be cut. -/
def Fits (batch : List α) : Prop := 1 < batch.length → full batch = some false

variable {full} {current l : List α} {batches : List (List α)}

theorem cutFrom_cons {a : α} (h : cutFrom full current (a :: l) = some batches) :
    (current ≠ [] ∧ full (current ++ [a]) = some true ∧
      ∃ rest, cutFrom full [a] l = some rest ∧ batches = current :: rest) ∨
    ((current = [] ∨ full (current ++ [a]) = some false) ∧
      cutFrom full (current ++ [a]) l = some batches) := by
  rw [cutFrom, Option.bind_eq_bind, Option.bind_eq_some_iff] at h
  obtain ⟨b, hb, h⟩ := h
  split at h
  · next hcut =>
    obtain ⟨rest, hrest, h⟩ := Option.bind_eq_some_iff.1 h
    rw [Bool.and_eq_true, Bool.not_eq_true', List.isEmpty_eq_false_iff] at hcut
    obtain ⟨rfl, hne⟩ := hcut
    exact .inl ⟨hne, hb, rest, hrest, (Option.some.inj h).symm⟩
  · next hcut =>
    refine .inr ⟨?_, h⟩
    cases current with
    | nil => exact .inl rfl
    | cons =>
      cases b with
      | true => exact absurd rfl hcut
      | false => exact .inr hb

/-- The batches hold the items in their order. -/
theorem cutFrom_flatten (h : cutFrom full current l = some batches) :
    batches.flatten = current ++ l := by
  induction l generalizing current batches with
  | nil =>
    rw [cutFrom, Option.some.injEq] at h
    rw [← h, List.flatten_singleton, List.append_nil]
  | cons a l ih =>
    obtain ⟨-, -, rest, hrest, rfl⟩ | ⟨-, h⟩ := cutFrom_cons h
    · rw [List.flatten_cons, ih hrest, List.singleton_append]
    · rw [ih h, List.append_assoc, List.singleton_append]

theorem cutFrom_ne_nil (h : cutFrom full current l = some batches) : batches ≠ [] := by
  induction l generalizing current batches with
  | nil =>
    rw [cutFrom, Option.some.injEq] at h
    rw [← h]
    exact List.cons_ne_nil _ _
  | cons a l ih =>
    obtain ⟨-, -, rest, -, rfl⟩ | ⟨-, h⟩ := cutFrom_cons h
    · exact List.cons_ne_nil _ _
    · exact ih h

/-- No batch of several items overflows. -/
theorem cutFrom_fits (h : cutFrom full current l = some batches) (hcurrent : Fits full current) :
    ∀ batch ∈ batches, Fits full batch := by
  induction l generalizing current batches with
  | nil =>
    rw [cutFrom, Option.some.injEq] at h
    rw [← h]
    exact List.forall_mem_singleton.2 hcurrent
  | cons a l ih =>
    obtain ⟨-, -, rest, hrest, rfl⟩ | ⟨hfits, h⟩ := cutFrom_cons h
    · refine List.forall_mem_cons.2 ⟨hcurrent, ih hrest ?_⟩
      exact fun hlen => absurd hlen (Nat.lt_irrefl _)
    · refine ih h fun hlen => ?_
      obtain rfl | hfits := hfits
      · exact absurd hlen (Nat.lt_irrefl _)
      · exact hfits

/-- The cut does not fail where no trial does. -/
theorem isSome_cutFrom (h : ∀ batch, (∀ a ∈ batch, a ∈ current ++ l) → (full batch).isSome) :
    (cutFrom full current l).isSome := by
  induction l generalizing current with
  | nil => rfl
  | cons a l ih =>
    have hsub : ∀ b ∈ current ++ [a], b ∈ current ++ a :: l := by
      intro b hb
      rw [List.mem_append, List.mem_singleton] at hb
      rw [List.mem_append, List.mem_cons]
      tauto
    obtain ⟨b, hb⟩ := Option.isSome_iff_exists.1 (h _ hsub)
    rw [cutFrom, Option.bind_eq_bind, hb, Option.bind_some]
    split
    · obtain ⟨rest, hrest⟩ := Option.isSome_iff_exists.1 (@ih [a] fun batch hbatch =>
        h batch fun b hb => List.mem_append_right _ (hbatch b hb))
      rw [hrest]
      rfl
    · refine ih fun batch hbatch => h batch fun b hb => ?_
      have := hbatch b hb
      rwa [List.append_assoc, List.singleton_append] at this

/-- A list that is cut was tried to its end: every item was part of a batch that could be tried. -/
theorem tried_of_cutFrom (h : cutFrom full current l = some batches) {a : α} (ha : a ∈ l) :
    ∃ batch, a ∈ batch ∧ (full batch).isSome := by
  induction l generalizing current batches with
  | nil => cases ha
  | cons b l ih =>
    obtain rfl | ha := List.mem_cons.1 ha
    · refine ⟨current ++ [a], List.mem_append_right _ (List.mem_singleton_self _), ?_⟩
      rw [cutFrom, Option.bind_eq_bind, Option.bind_eq_some_iff] at h
      obtain ⟨b, hb, -⟩ := h
      rw [hb]
      rfl
    · obtain ⟨-, -, rest, hrest, -⟩ | ⟨-, h⟩ := cutFrom_cons h
      · exact ih hrest ha
      · exact ih h ha

end

section
variable {α : Type}

/-- Every item with whether it is the last one. -/
def withLast (l : List α) : List (α × Bool) :=
  let last := l.length - 1
  l.zipIdx.map fun (a, i) => (a, decide (i = last))

theorem withLast_fst (l : List α) : (withLast l).map Prod.fst = l := by
  rw [withLast, List.map_map]
  exact List.zipIdx_map_fst 0 l

/-- The last item is, and no other. -/
theorem withLast_snd {l : List α} (h : l ≠ []) :
    (withLast l).map Prod.snd = List.replicate (l.length - 1) false ++ [true] := by
  obtain ⟨n, hn⟩ : ∃ n, l.length = n + 1 :=
    Nat.exists_eq_succ_of_ne_zero fun h' => h (List.length_eq_zero_iff.1 h')
  have hmap : (withLast l).map Prod.snd =
      (List.range' 0 l.length).map fun i => decide (i = l.length - 1) := by
    rw [withLast, List.map_map, ← List.zipIdx_map_snd 0 l, List.map_map]
    rfl
  have hfalse : ∀ b ∈ (List.range n).map fun i => decide (i = n), b = false := by
    intro b hb
    obtain ⟨i, hi, rfl⟩ := List.mem_map.1 hb
    exact decide_eq_false (Nat.ne_of_lt (List.mem_range.1 hi))
  rw [hmap, hn, Nat.add_sub_cancel, ← List.range_eq_range', List.range_succ, List.map_append,
    List.eq_replicate_of_mem hfalse, List.length_map, List.length_range]
  simp

theorem mem_withLast {l : List α} {a : α} {b : Bool} (h : (a, b) ∈ withLast l) : a ∈ l := by
  rw [← withLast_fst l]
  exact List.mem_map_of_mem h

end

/-! ### Encoding each batch -/

section
variable {α β γ : Type} {f : α → Option β} {l : List α} {out : List β}

/-- What is read off the outputs is what is read off the inputs. -/
theorem map_eq_of_mapM {g : β → γ} {h : α → γ} (hout : l.mapM f = some out)
    (hgh : ∀ a b, f a = some b → g b = h a) : out.map g = l.map h := by
  induction l generalizing out with
  | nil =>
    cases hout
    rfl
  | cons a l ih =>
    rw [List.mapM_cons] at hout
    obtain ⟨b, hb, hout⟩ := Option.bind_eq_some_iff.1 hout
    obtain ⟨bs, hbs, hout⟩ := Option.bind_eq_some_iff.1 hout
    cases hout
    rw [List.map_cons, List.map_cons, hgh a b hb, ih hbs]

theorem mem_of_mapM (hout : l.mapM f = some out) {b : β} (hb : b ∈ out) :
    ∃ a ∈ l, f a = some b := by
  induction l generalizing out with
  | nil =>
    cases hout
    cases hb
  | cons a l ih =>
    rw [List.mapM_cons] at hout
    obtain ⟨c, hc, hout⟩ := Option.bind_eq_some_iff.1 hout
    obtain ⟨cs, hcs, hout⟩ := Option.bind_eq_some_iff.1 hout
    cases hout
    obtain rfl | hb := List.mem_cons.1 hb
    · exact ⟨a, .head _, hc⟩
    · obtain ⟨a', ha', hfa⟩ := ih hcs hb
      exact ⟨a', .tail _ ha', hfa⟩

theorem map_mapM (g : β → γ) : (l.mapM f).map (List.map g) = l.mapM fun a => (f a).map g := by
  induction l with
  | nil => rfl
  | cons a l ih =>
    rw [List.mapM_cons, List.mapM_cons, ← ih]
    cases f a with
    | none => rfl
    | some b =>
      dsimp only [Option.bind_eq_bind, Option.bind_some, Option.map_some]
      cases l.mapM f <;> rfl

theorem isSome_mapM (h : ∀ a ∈ l, (f a).isSome) : (l.mapM f).isSome := by
  induction l with
  | nil => rfl
  | cons a l ih =>
    rw [List.forall_mem_cons] at h
    obtain ⟨b, hb⟩ := Option.isSome_iff_exists.1 h.1
    obtain ⟨bs, hbs⟩ := Option.isSome_iff_exists.1 (ih h.2)
    rw [List.mapM_cons, hb, hbs]
    rfl

end

end Batches
