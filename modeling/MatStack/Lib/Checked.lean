import Mathlib.Data.List.Forall2

/-!
# Steps that may fail

What comes of a sequence of steps comes of each of them in turn, and a list that is made member by
member is related, member by member, to what it is made of.
-/

namespace Checked

theorem ok_bind {α β ε : Type} {a : α} {f : α → Except ε β} :
    ((.ok a : Except ε α) >>= f) = f a := rfl

/-- What comes of two steps comes of the first and then the second. -/
theorem bind_eq_ok {α β ε : Type} {x : Except ε α} {f : α → Except ε β} {b : β} :
    (x >>= f) = .ok b ↔ ∃ a, x = .ok a ∧ f a = .ok b := by
  cases x with
  | error e => simp [bind, Except.bind]
  | ok a => simp [bind, Except.bind]

theorem map_eq_ok {α β ε : Type} {x : Except ε α} {f : α → β} {b : β} :
    x.map f = .ok b ↔ ∃ a, x = .ok a ∧ f a = b := by
  cases x with
  | error e => exact iff_of_false nofun nofun
  | ok a => simp [Except.map]

/-- Another error does not make a result. -/
@[simp] theorem mapError_eq_ok {α ε δ : Type} {x : Except ε α} {f : ε → δ} {a : α} :
    x.mapError f = .ok a ↔ x = .ok a := by
  cases x with
  | error e => exact iff_of_false nofun nofun
  | ok a => simp [Except.mapError]

/-- Goes on if the condition holds. -/
def ensure {ε : Type} (c : Prop) [Decidable c] (e : ε) : Except ε Unit :=
  if c then .ok () else .error e

theorem ensure_eq_ok {ε : Type} {c : Prop} [Decidable c] {e : ε} {u : Unit} :
    ensure c e = .ok u ↔ c := by
  unfold ensure
  split_ifs with h
  · exact iff_of_true rfl h
  · exact iff_of_false (by rintro ⟨⟩) h

/-- What is there, or an error. -/
def okOr {α ε : Type} (o : Option α) (e : ε) : Except ε α :=
  match o with
  | some a => .ok a
  | none => .error e

@[simp] theorem okOr_eq_ok {α ε : Type} {o : Option α} {e : ε} {a : α} :
    okOr o e = .ok a ↔ o = some a := by
  cases o <;> simp [okOr]

section
variable {α β ε : Type} {f : α → Except ε β} {l l' : List α} {bs : List β} {R : α → α → Prop}

theorem forall₂_of_mapM (h : l.mapM f = .ok bs) : List.Forall₂ (fun a b => f a = .ok b) l bs := by
  induction l generalizing bs with
  | nil =>
    rw [List.mapM_nil] at h
    cases h
    exact .nil
  | cons a l ih =>
    rw [List.mapM_cons] at h
    obtain ⟨b, hb, h⟩ := bind_eq_ok.1 h
    obtain ⟨bs, hbs, h⟩ := bind_eq_ok.1 h
    cases h
    exact .cons hb (ih hbs)

/-- What is made and comes to the same is made of related members. -/
theorem forall₂_of_mapM_eq (hf : ∀ a a' b, f a = .ok b → f a' = .ok b → R a a')
    (h : l.mapM f = .ok bs) (h' : l'.mapM f = .ok bs) : List.Forall₂ R l l' := by
  have hl := forall₂_of_mapM h
  have hl' := forall₂_of_mapM h'
  clear h h'
  induction hl generalizing l' with
  | nil =>
    cases hl'
    exact .nil
  | cons ha _ ih =>
    cases hl' with
    | cons ha' hl' => exact .cons (hf _ _ _ ha ha') (ih hl')

/-- Members that are made are what their makers make. -/
theorem forall_mem_of_mapM {P : β → Prop} (hf : ∀ a b, f a = .ok b → P b)
    (h : l.mapM f = .ok bs) : ∀ b ∈ bs, P b := by
  have hl := forall₂_of_mapM h
  clear h
  induction hl with
  | nil => exact List.forall_mem_nil _
  | cons ha _ ih => exact List.forall_mem_cons.2 ⟨hf _ _ ha, ih⟩

end

/-! ## What a step ends with -/

/-- What a step returns satisfies `P`, and an error satisfies `E`. -/
structure Ends {α ε : Type} (x : Except ε α) (E : ε → Prop) (P : α → Prop) : Prop where
  ok : ∀ a, x = .ok a → P a
  error : ∀ e, x = .error e → E e

section
variable {α β ε : Type} {x : Except ε α} {f : α → Except ε β} {E E' : ε → Prop} {P P' : α → Prop}
  {Q : β → Prop} {a : α} {e : ε}

@[simp] theorem ends_ok : Ends (.ok a : Except ε α) E P ↔ P a :=
  ⟨fun h => h.ok a rfl, fun h => ⟨fun _ ha => Except.ok.inj ha ▸ h, nofun⟩⟩

@[simp] theorem ends_error : Ends (.error e : Except ε α) E P ↔ E e :=
  ⟨fun h => h.error e rfl, fun h => ⟨nofun, fun _ he => Except.error.inj he ▸ h⟩⟩

@[simp] theorem ends_pure : Ends (pure a : Except ε α) E P ↔ P a := ends_ok

@[simp] theorem ends_throw : Ends (throw e : Except ε α) E P ↔ E e := ends_error

/-- Two steps end as the second does on what the first returns. -/
theorem Ends.bind (h : Ends x E P) (hf : ∀ a, P a → Ends (f a) E Q) : Ends (x >>= f) E Q := by
  cases x with
  | ok a => exact hf a (ends_ok.1 h)
  | error e => exact ends_error.2 (ends_error.1 h)

/-- A step whose error is put into another. -/
theorem ends_mapError {δ : Type} {g : ε → δ} {E : δ → Prop} (hE : ∀ e, E (g e)) :
    Ends (x.mapError g) E (fun a => x = .ok a) := by
  cases x with
  | ok a => exact ends_ok.2 rfl
  | error e => exact ends_error.2 (hE e)

theorem ends_okOr {o : Option α} (hE : E e) : Ends (okOr o e) E (fun a => o = some a) := by
  cases o with
  | some a => exact ends_ok.2 rfl
  | none => exact ends_error.2 hE

theorem ends_ensure {c : Prop} [Decidable c] (hE : E e) : Ends (ensure c e) E (fun _ => c) := by
  unfold ensure
  split_ifs with h
  · exact ends_ok.2 h
  · exact ends_error.2 hE

theorem Ends.mono (h : Ends x E P) (hE : ∀ e, E e → E' e) (hP : ∀ a, P a → P' a) :
    Ends x E' P' :=
  ⟨fun a ha => hP a (h.ok a ha), fun e he => hE e (h.error e he)⟩

end

end Checked
