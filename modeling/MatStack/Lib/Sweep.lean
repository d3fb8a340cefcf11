import Mathlib.Data.List.Basic
import Mathlib.Data.List.Perm.Basic
import Mathlib.Algebra.Order.Group.Nat

/-!
# Sweeping a vector

A loop goes over a vector and asks every element: some stay, some are dropped by `swap_remove`,
which moves the last element to the place that becomes free, so that the loop does not move on; and
one may end the loop. Every element is asked once, in an order that the removals change. What is
left is known up to that order (`sweep_eq_inr`), and only an element that is there ends the loop
early (`sweep_eq_inl`).
-/

namespace Sweep

variable {α β γ : Type*}

/-- What an element answers. -/
inductive Answer (β γ : Type*) where
  | stays
  | dropped (c : γ)
  | ends (b : β)

/-- Removes an element; the last one takes its place. -/
def swapRemove (l : List α) (i : Nat) : List α :=
  match l.getLast? with
  | none => []
  | some last => (l.set i last).dropLast

theorem swapRemove_last (pre : List α) (a : α) : swapRemove (pre ++ [a]) pre.length = pre := by
  simp [swapRemove]

theorem swapRemove_mid (pre mid : List α) (a z : α) :
    swapRemove (pre ++ a :: (mid ++ [z])) pre.length = pre ++ z :: mid := by
  have hassoc : pre ++ a :: (mid ++ [z]) = (pre ++ a :: mid) ++ [z] := by simp
  have hlast : (pre ++ a :: (mid ++ [z])).getLast? = some z := by
    rw [hassoc, List.getLast?_append]
    rfl
  have hset : (pre ++ a :: (mid ++ [z])).set pre.length z = (pre ++ z :: mid) ++ [z] := by
    rw [List.set_append_right _ _ le_rfl, Nat.sub_self, List.set_cons_zero, List.append_assoc,
      List.cons_append]
  rw [swapRemove, hlast]
  dsimp only
  rw [hset, List.dropLast_concat]

/-- Asks the elements from a place on; `left` bounds how many there are. The result has the elements
that are left, what the dropped ones gave, and the elements that were asked and stay. -/
def sweep (ask : α → Answer β γ) :
    Nat → Nat → List α → List γ → List α → β ⊕ (List α × List γ × List α)
  | 0, _, l, out, stayed => .inr (l, out, stayed)
  | left + 1, i, l, out, stayed =>
    match l[i]? with
    | none => .inr (l, out, stayed)
    | some a =>
      match ask a with
      | .ends b => .inl b
      | .dropped c => sweep ask left i (swapRemove l i) (out ++ [c]) stayed
      | .stays => sweep ask left (i + 1) l out (stayed ++ [a])

variable {ask : α → Answer β γ} {left : Nat} {pre rest : List α} {out : List γ} {stayed : List α}

/-- One round of the loop. -/
theorem sweep_cons (a : α) :
    sweep ask (left + 1) pre.length (pre ++ a :: rest) out stayed =
      match ask a with
      | .ends b => .inl b
      | .dropped c => sweep ask left pre.length (swapRemove (pre ++ a :: rest) pre.length)
          (out ++ [c]) stayed
      | .stays =>
        sweep ask left (pre ++ [a]).length ((pre ++ [a]) ++ rest) out (stayed ++ [a]) := by
  have hget : (pre ++ a :: rest)[pre.length]? = some a := by
    rw [List.getElem?_append_right le_rfl, Nat.sub_self, List.getElem?_cons_zero]
  rw [sweep, hget, List.length_append, List.length_singleton, List.append_assoc,
    List.singleton_append]

/-- After a removal the loop goes on with the same elements, in another order. -/
theorem swapRemove_perm (pre rest : List α) (a : α) :
    ∃ rest', rest'.Perm rest ∧ swapRemove (pre ++ a :: rest) pre.length = pre ++ rest' := by
  obtain rfl | ⟨mid, z, rfl⟩ := List.eq_nil_or_concat rest
  · exact ⟨[], .nil, by rw [swapRemove_last, List.append_nil]⟩
  · rw [List.concat_eq_append]
    exact ⟨z :: mid, (List.perm_append_singleton z mid).symm, swapRemove_mid pre mid a z⟩

/-- What is left when no element ends the loop. -/
theorem sweep_eq_inr (pre : List α) {l' : List α} {out' : List γ} {stayed' : List α}
    (hleft : rest.length ≤ left)
    (h : sweep ask left pre.length (pre ++ rest) out stayed = .inr (l', out', stayed')) :
    ∃ kept removed gone, (kept ++ removed).Perm rest ∧ l' = pre ++ kept ∧
      stayed' = stayed ++ kept ∧ out' = out ++ gone ∧ (∀ a ∈ kept, ask a = .stays) ∧
      removed.map ask = gone.map .dropped := by
  induction left generalizing pre rest out stayed with
  | zero =>
    rw [List.eq_nil_of_length_eq_zero (Nat.le_zero.1 hleft), sweep] at h
    simp only [Sum.inr.injEq, Prod.mk.injEq] at h
    obtain ⟨rfl, rfl, rfl⟩ := h
    rw [List.eq_nil_of_length_eq_zero (Nat.le_zero.1 hleft)]
    exact ⟨[], [], [], .nil, rfl, by simp, by simp, by simp, rfl⟩
  | succ left ih =>
    cases rest with
    | nil =>
      rw [List.append_nil, sweep, List.getElem?_eq_none le_rfl] at h
      simp only [Sum.inr.injEq, Prod.mk.injEq] at h
      obtain ⟨rfl, rfl, rfl⟩ := h
      exact ⟨[], [], [], .nil, by simp, by simp, by simp, by simp, rfl⟩
    | cons a rest =>
      have hlen : rest.length ≤ left := Nat.le_of_succ_le_succ hleft
      rw [sweep_cons] at h
      cases ha : ask a with
      | ends b =>
        rw [ha] at h
        cases h
      | dropped c =>
        rw [ha] at h
        obtain ⟨rest', hperm, heq⟩ := swapRemove_perm pre rest a
        dsimp only at h
        rw [heq] at h
        obtain ⟨kept, removed, gone, hp, hl, hs, ho, hk, hr⟩ :=
          ih _ (hperm.length_eq.trans_le hlen) h
        refine ⟨kept, a :: removed, c :: gone, ?_, hl, hs, ?_, hk, ?_⟩
        · exact List.perm_middle.trans ((hp.trans hperm).cons a)
        · rw [ho, List.append_assoc, List.singleton_append]
        · rw [List.map_cons, List.map_cons, hr, ha]
      | stays =>
        rw [ha] at h
        obtain ⟨kept, removed, gone, hp, hl, hs, ho, hk, hr⟩ := ih _ hlen h
        refine ⟨a :: kept, removed, gone, hp.cons a, ?_, ?_, ho, ?_, hr⟩
        · rw [hl, List.append_assoc, List.singleton_append]
        · rw [hs, List.append_assoc, List.singleton_append]
        · exact List.forall_mem_cons.2 ⟨ha, hk⟩

/-- What ends the loop. -/
theorem sweep_eq_inl (pre : List α) {b : β} (hleft : rest.length ≤ left)
    (h : sweep ask left pre.length (pre ++ rest) out stayed = .inl b) :
    ∃ a ∈ rest, ask a = .ends b := by
  induction left generalizing pre rest out stayed with
  | zero => cases h
  | succ left ih =>
    cases rest with
    | nil =>
      rw [List.append_nil, sweep, List.getElem?_eq_none le_rfl] at h
      cases h
    | cons a rest =>
      have hlen : rest.length ≤ left := Nat.le_of_succ_le_succ hleft
      rw [sweep_cons] at h
      cases ha : ask a with
      | ends b' =>
        rw [ha] at h
        cases h
        exact ⟨a, List.mem_cons_self, ha⟩
      | dropped c =>
        rw [ha] at h
        obtain ⟨rest', hperm, heq⟩ := swapRemove_perm pre rest a
        dsimp only at h
        rw [heq] at h
        obtain ⟨a', ha', hends⟩ := ih _ (hperm.length_eq.trans_le hlen) h
        exact ⟨a', List.mem_cons_of_mem a (hperm.mem_iff.1 ha'), hends⟩
      | stays =>
        rw [ha] at h
        obtain ⟨a', ha', hends⟩ := ih _ hlen h
        exact ⟨a', List.mem_cons_of_mem a ha', hends⟩

end Sweep
