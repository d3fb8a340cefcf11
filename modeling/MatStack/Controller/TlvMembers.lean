import MatStack.Controller.TlvRoundTrip

/-!
# The members of a container

A decoder of a record sees a sequence of members, each an element and, where the element opens a
container, what stands behind it up to its end. `Reader.walk` goes over the members of a container
(`walk_ok`, `walk_of_reads`), `skipContainer` drops the body of one and `copyContainer` writes it
again. So what a decoder finds in a record, and in the copy of a record, is read off its members.
-/

namespace MatStack

/-! ## Elements in sequence -/

/-- The elements that a reader returns, one after the other. -/
inductive Reader.Reads : Reader → List Element → Reader → Prop
  | nil (r : Reader) : Reads r [] r
  | cons {r r₁ r' : Reader} {el : Element} {els : List Element} :
    r.next = .ok (some el, r₁) → Reads r₁ els r' → Reads r (el :: els) r'

/-- The writer goes on with bytes that are read back as the elements. -/
def Writes (w w' : Writer) (els : List Element) : Prop :=
  ∃ bytes, w'.buf = w.buf ++ bytes ∧ els.length ≤ bytes.length ∧
    ∀ p rest, p + bytes.length ≤ usizeMax →
      Reader.Reads ⟨p, bytes ++ rest⟩ els ⟨p + bytes.length, rest⟩

section
variable {r r₁ r' : Reader} {w w₁ w' : Writer} {el : Element} {els els₁ els₂ : List Element}

theorem Reader.Reads.single (h : r.next = .ok (some el, r')) : Reads r [el] r' := .cons h (.nil r')

theorem Reader.Reads.append (h₁ : Reads r els₁ r₁) (h₂ : Reads r₁ els₂ r') :
    Reads r (els₁ ++ els₂) r' := by
  induction h₁ with
  | nil => exact h₂
  | cons hnext _ ih => exact .cons hnext (ih h₂)

theorem Reader.Reads.append_cases (h : Reads r (els₁ ++ els₂) r') :
    ∃ r₁, Reads r els₁ r₁ ∧ Reads r₁ els₂ r' := by
  induction els₁ generalizing r with
  | nil => exact ⟨r, .nil r, h⟩
  | cons el els₁ ih =>
    cases h with
    | cons hnext hrest =>
      obtain ⟨r₁, h₁, h₂⟩ := ih hrest
      exact ⟨r₁, .cons hnext h₁, h₂⟩

theorem Encodes.writes (h : Encodes w w' el) : Writes w w' [el] := by
  obtain ⟨bytes, hbuf, hpos, hnext⟩ := h
  exact ⟨bytes, hbuf, hpos, fun p rest hp => .single (hnext p rest hp)⟩

theorem Writes.refl (w : Writer) : Writes w w [] :=
  ⟨[], (List.append_nil _).symm, Nat.le_refl _, fun _ _ _ => .nil _⟩

theorem Writes.trans (h₁ : Writes w w₁ els₁) (h₂ : Writes w₁ w' els₂) :
    Writes w w' (els₁ ++ els₂) := by
  obtain ⟨bytes₁, hbuf₁, hlen₁, hreads₁⟩ := h₁
  obtain ⟨bytes₂, hbuf₂, hlen₂, hreads₂⟩ := h₂
  refine ⟨bytes₁ ++ bytes₂, by rw [hbuf₂, hbuf₁, List.append_assoc], ?_, fun p rest hp => ?_⟩
  · rw [List.length_append, List.length_append]
    omega
  · rw [List.length_append] at hp
    rw [List.append_assoc, List.length_append, ← Nat.add_assoc]
    exact (hreads₁ p _ (by omega)).append (hreads₂ _ rest (by omega))

end

/-! ## A read takes a byte -/

namespace Reader

/-- An action that leaves no more than there was. -/
def Shrinks {α : Type} (r : Reader) (x : Except TlvError (α × Reader)) : Prop :=
  ∀ a r', x = .ok (a, r') → r'.rest.length ≤ r.rest.length

section
variable {α β : Type} {r : Reader} {x : Except TlvError (α × Reader)}

theorem shrinks_pure (a : α) : Shrinks r (pure (a, r)) := by
  intro a' r' h
  cases h
  exact Nat.le_refl _

theorem shrinks_throw (e : TlvError) : Shrinks (α := α) r (throw e) := by
  intro a r' h
  cases h

theorem Shrinks.bind {f : α × Reader → Except TlvError (β × Reader)} (h : Shrinks r x)
    (hf : ∀ a r', Shrinks r' (f (a, r'))) : Shrinks r (x >>= f) := by
  intro b r' hr
  obtain _ | ⟨a, r₁⟩ := x
  · cases hr
  · exact Nat.le_trans (hf a r₁ b r' hr) (h a r₁ rfl)

theorem shrinks_ite {c : Prop} [Decidable c] {y : Except TlvError (α × Reader)} (h : Shrinks r x)
    (h' : Shrinks r y) : Shrinks r (if c then x else y) := by
  split
  · exact h
  · exact h'

theorem shrinks_take (n : Nat) : Shrinks r (r.take n) := by
  intro b r' h
  unfold take at h
  split at h
  · cases h
  · split at h
    · cases h
    · cases h
      rw [List.length_drop]
      exact Nat.sub_le ..

theorem shrinks_takeNat (n : Nat) : Shrinks r (r.takeNat n) :=
  (shrinks_take n).bind fun _ _ => shrinks_pure _

theorem shrinks_takeU8 : Shrinks r r.takeU8 := (shrinks_takeNat 1).bind fun _ _ => shrinks_pure _

theorem shrinks_takeU16 : Shrinks r r.takeU16 := (shrinks_takeNat 2).bind fun _ _ => shrinks_pure _

theorem shrinks_takeU32 : Shrinks r r.takeU32 := (shrinks_takeNat 4).bind fun _ _ => shrinks_pure _

theorem shrinks_takeU64 : Shrinks r r.takeU64 := (shrinks_takeNat 8).bind fun _ _ => shrinks_pure _

theorem shrinks_readTag (control : UInt8) : Shrinks r (r.readTag control) := by
  unfold readTag
  split
  · exact shrinks_pure _
  · exact shrinks_takeU8.bind fun _ _ => shrinks_pure _
  · exact shrinks_takeU16.bind fun _ _ => shrinks_pure _
  · exact shrinks_takeU32.bind fun _ _ => shrinks_pure _
  · exact shrinks_takeU16.bind fun _ _ => shrinks_pure _
  · exact shrinks_takeU32.bind fun _ _ => shrinks_pure _
  · exact shrinks_takeU16.bind fun _ _ => shrinks_takeU16.bind fun _ _ =>
      shrinks_takeU16.bind fun _ _ => shrinks_pure _
  · exact shrinks_takeU16.bind fun _ _ => shrinks_takeU16.bind fun _ _ =>
      shrinks_takeU32.bind fun _ _ => shrinks_pure _

theorem shrinks_readLen (widthSelector : UInt8) : Shrinks r (r.readLen widthSelector) := by
  have hlen : ∀ (len : Nat) (r' : Reader), Shrinks r' (do
      if usizeMax < len then throw .lengthOverflow
      pure (len, r')) := by
    intro len r' a r'' h
    split at h
    · cases h
    · exact shrinks_pure _ a r'' h
  unfold readLen
  dsimp only
  split <;> exact (shrinks_takeNat _).bind hlen

theorem shrinks_readValue (t : UInt8) : Shrinks r (r.readValue t) := by
  have hutf8 : ∀ (b : Bytes) (r' : Reader), Shrinks r' (ofUtf8 (b, r')) := by
    intro b r' a r'' h
    unfold ofUtf8 at h
    split at h <;> cases h
    exact Nat.le_refl _
  unfold readValue
  refine shrinks_ite (shrinks_takeU8.bind fun _ _ => shrinks_pure _) ?_
  refine shrinks_ite (shrinks_takeU16.bind fun _ _ => shrinks_pure _) ?_
  refine shrinks_ite (shrinks_takeU32.bind fun _ _ => shrinks_pure _) ?_
  refine shrinks_ite (shrinks_takeU64.bind fun _ _ => shrinks_pure _) ?_
  refine shrinks_ite (shrinks_takeU8.bind fun _ _ => shrinks_pure _) ?_
  refine shrinks_ite (shrinks_takeU16.bind fun _ _ => shrinks_pure _) ?_
  refine shrinks_ite (shrinks_takeU32.bind fun _ _ => shrinks_pure _) ?_
  refine shrinks_ite (shrinks_takeU64.bind fun _ _ => shrinks_pure _) ?_
  refine shrinks_ite (shrinks_pure _) (shrinks_ite (shrinks_pure _) ?_)
  refine shrinks_ite (shrinks_takeU32.bind fun _ _ => shrinks_pure _) ?_
  refine shrinks_ite (shrinks_takeU64.bind fun _ _ => shrinks_pure _) ?_
  refine shrinks_ite ((shrinks_readLen _).bind fun _ _ => (shrinks_take _).bind hutf8) ?_
  refine shrinks_ite ((shrinks_readLen _).bind fun _ _ => (shrinks_take _).bind fun _ _ =>
    shrinks_pure _) ?_
  refine shrinks_ite (shrinks_pure _) (shrinks_ite (shrinks_pure _) ?_)
  refine shrinks_ite (shrinks_pure _) (shrinks_ite (shrinks_pure _) ?_)
  exact shrinks_ite (shrinks_pure _) (shrinks_throw _)

end

/-- An element takes at least its control byte. -/
theorem next_shrinks {r r' : Reader} {el : Element} (h : r.next = .ok (some el, r')) :
    r'.rest.length < r.rest.length := by
  unfold next at h
  split at h
  · cases h
  · have hcontrol : ∀ control r₁, r.takeU8 = .ok (control, r₁) →
        r₁.rest.length < r.rest.length := by
      intro control r₁ hr
      unfold takeU8 takeNat take at hr
      split at hr
      · cases hr
      · split at hr
        · cases hr
        · cases hr
          rw [List.length_drop]
          omega
    cases hr : r.takeU8 with
    | error e => rw [hr] at h; cases h
    | ok x =>
      obtain ⟨control, r₁⟩ := x
      rw [hr] at h
      refine Nat.lt_of_le_of_lt ?_ (hcontrol control r₁ hr)
      refine Shrinks.bind (shrinks_readTag control) (fun _ _ => ?_) _ r' h
      exact (shrinks_readValue _).bind fun _ _ => shrinks_pure _

theorem Reads.length_le {r r' : Reader} {els : List Element} (h : Reads r els r') :
    els.length + r'.rest.length ≤ r.rest.length := by
  induction h with
  | nil r => exact Nat.le_of_eq (Nat.zero_add _)
  | cons hnext _ ih =>
    have hlt := next_shrinks hnext
    rw [List.length_cons]
    omega

end Reader

/-! ## Bodies of containers -/

/-- Every element that opens a container has its end, and every end has its opening element. -/
inductive Balanced : List Element → Prop
  | nil : Balanced []
  | leaf {el : Element} {els : List Element} : el.value.isStart = false →
    el.value ≠ .containerEnd → Balanced els → Balanced (el :: els)
  | container {el close : Element} {body els : List Element} : el.value.isStart = true →
    Balanced body → close.value = .containerEnd → Balanced els →
    Balanced (el :: (body ++ close :: els))

/-- What stands behind an opening element, up to its end. -/
def IsBody (els : List Element) : Prop :=
  ∃ body close, Balanced body ∧ close.value = .containerEnd ∧ els = body ++ [close]

/-- The ends of `depth` containers, and what stands before each. -/
inductive Closes : Nat → List Element → Prop
  | zero : Closes 0 []
  | succ {depth : Nat} {body rest : List Element} {close : Element} : Balanced body →
    close.value = .containerEnd → Closes depth rest → Closes (depth + 1) (body ++ close :: rest)

theorem Value.isStart_ne {v : Value} (h : v.isStart = true) : v ≠ .containerEnd := by
  rintro rfl
  cases h

section
variable {depth : Nat} {el : Element} {els : List Element} {r r₁ r' : Reader}

theorem Closes.end_cons (hel : el.value = .containerEnd) (h : Closes depth els) :
    Closes (depth + 1) (el :: els) :=
  .succ .nil hel h

theorem Closes.leaf_cons (hstart : el.value.isStart = false) (hend : el.value ≠ .containerEnd)
    (h : Closes (depth + 1) els) : Closes (depth + 1) (el :: els) := by
  cases h with
  | succ hbody hclose hrest => exact .succ (.leaf hstart hend hbody) hclose hrest

theorem Closes.start_cons (hstart : el.value.isStart = true) (h : Closes (depth + 2) els) :
    Closes (depth + 1) (el :: els) := by
  cases h with
  | succ hbody hclose hrest =>
    cases hrest with
    | succ hbody' hclose' hrest =>
      have hall := Closes.succ (.container hstart hbody hclose hbody') hclose' hrest
      rwa [List.cons_append, List.append_assoc] at hall

theorem Closes.isBody (h : Closes 1 els) : IsBody els := by
  cases h with
  | @succ _ body rest close hbody hclose hrest =>
    cases hrest
    exact ⟨body, close, hbody, hclose, rfl⟩

namespace Reader

/-- One turn of the loop of `skipContainer`. -/
theorem skip_succ {fuel : Nat} (h : r.next = .ok (some el, r₁)) :
    r.skip (fuel + 1) (depth + 1) =
      if el.value.isStart = true then r₁.skip fuel (depth + 2)
      else if el.value = .containerEnd then r₁.skip fuel depth else r₁.skip fuel (depth + 1) := by
  rw [skip, h]
  dsimp only
  cases el.value <;> rfl

/-- What `skip` drops. -/
theorem skip_ok {fuel : Nat} (h : r.skip fuel depth = .ok r') :
    ∃ els, Reads r els r' ∧ Closes depth els := by
  induction fuel generalizing depth r with
  | zero =>
    cases depth with
    | zero =>
      cases h
      exact ⟨[], .nil _, .zero⟩
    | succ depth => cases h
  | succ fuel ih =>
    cases depth with
    | zero =>
      cases h
      exact ⟨[], .nil _, .zero⟩
    | succ depth =>
      cases hnext : r.next with
      | error e => rw [skip, hnext] at h; cases h
      | ok x =>
        obtain ⟨_ | el, r₁⟩ := x
        · rw [skip, hnext] at h
          cases h
        · rw [skip_succ hnext] at h
          split at h
          · next hstart =>
            obtain ⟨els, hreads, hcloses⟩ := ih h
            exact ⟨el :: els, .cons hnext hreads, hcloses.start_cons hstart⟩
          · next hstart =>
            split at h
            · next hend =>
              obtain ⟨els, hreads, hcloses⟩ := ih h
              exact ⟨el :: els, .cons hnext hreads, hcloses.end_cons hend⟩
            · next hend =>
              obtain ⟨els, hreads, hcloses⟩ := ih h
              exact ⟨el :: els, .cons hnext hreads, hcloses.leaf_cons (by simpa using hstart) hend⟩

/-- `skip` goes over what is balanced. -/
theorem skip_balanced (hb : Balanced els) {fuel : Nat} (h : Reads r els r₁) :
    r.skip (els.length + fuel) (depth + 1) = r₁.skip fuel (depth + 1) := by
  induction hb generalizing r depth fuel r₁ with
  | nil =>
    cases h
    rw [List.length_nil, Nat.zero_add]
  | leaf hstart hend _ ih =>
    cases h with
    | cons hnext hrest =>
      rw [List.length_cons, Nat.add_right_comm, skip_succ hnext, if_neg (by simp [hstart]),
        if_neg hend]
      exact ih hrest
  | @container el close body els hstart _ hclose _ ihbody ih =>
    cases h with
    | cons hnext hrest =>
      obtain ⟨r₂, hbody, hrest⟩ := hrest.append_cases
      cases hrest with
      | cons hnext' hrest =>
        have hfuel : (el :: (body ++ close :: els)).length + fuel =
            body.length + (els.length + fuel + 1) + 1 := by
          simp only [List.length_cons, List.length_append]
          omega
        rw [hfuel, skip_succ hnext, if_pos hstart, ihbody hbody, skip_succ hnext',
          if_neg (by simp [hclose, Value.isStart]), if_pos hclose]
        exact ih hrest

theorem skipContainer_ok (h : r.skipContainer = .ok r') : ∃ els, Reads r els r' ∧ IsBody els := by
  obtain ⟨els, hreads, hcloses⟩ := skip_ok h
  exact ⟨els, hreads, hcloses.isBody⟩

/-- A body is skipped. -/
theorem skipContainer_of_reads (h : Reads r els r') (hb : IsBody els) :
    r.skipContainer = .ok r' := by
  obtain ⟨body, close, hbody, hclose, rfl⟩ := hb
  have hlen := h.length_le
  rw [List.length_append, List.length_singleton] at hlen
  obtain ⟨r₁, hreads, hend⟩ := h.append_cases
  obtain ⟨fuel, hfuel⟩ := Nat.exists_eq_add_of_le (show body.length + 1 ≤ r.rest.length by omega)
  cases hend with
  | cons hnext hnil =>
    cases hnil
    rw [skipContainer, hfuel, Nat.add_assoc, skip_balanced hbody hreads, Nat.add_comm 1,
      skip_succ hnext, if_neg (by simp [hclose, Value.isStart]), if_pos hclose]
    cases fuel <;> rfl

end Reader

end

/-! ## Members -/

/-- An element of a container, and its body if it opens one. -/
structure Member where
  el : Element
  body : List Element

/-- The element opens a container and has its body, or it does neither. -/
inductive Member.Closed : Member → Prop
  | leaf {el : Element} : el.value.isStart = false → el.value ≠ .containerEnd → Closed ⟨el, []⟩
  | container {el : Element} {body : List Element} : el.value.isStart = true → IsBody body →
    Closed ⟨el, body⟩

/-- The elements of a sequence of members. -/
def elementsOf (ms : List Member) : List Element := ms.flatMap fun m => m.el :: m.body

section
variable {m : Member} {ms : List Member} {els₁ els₂ : List Element} {close : Element}

theorem elementsOf_cons : elementsOf (m :: ms) = m.el :: (m.body ++ elementsOf ms) := rfl

theorem length_le_elementsOf (ms : List Member) : ms.length ≤ (elementsOf ms).length := by
  induction ms with
  | nil => exact Nat.le_refl _
  | cons m ms ih =>
    rw [elementsOf_cons, List.length_cons, List.length_cons, List.length_append]
    omega

theorem Member.Closed.ne_end (h : m.Closed) : m.el.value ≠ .containerEnd := by
  cases h with
  | leaf _ hend => exact hend
  | container hstart _ => exact Value.isStart_ne hstart

theorem Balanced.append (h₁ : Balanced els₁) (h₂ : Balanced els₂) : Balanced (els₁ ++ els₂) := by
  induction h₁ with
  | nil => exact h₂
  | leaf hstart hend _ ih => exact .leaf hstart hend ih
  | container hstart hbody hclose _ _ ih =>
    rw [List.cons_append, List.append_assoc, List.cons_append]
    exact .container hstart hbody hclose ih

theorem Member.Closed.balanced (h : m.Closed) (hels : Balanced els₁) :
    Balanced (m.el :: (m.body ++ els₁)) := by
  cases h with
  | leaf hstart hend => exact .leaf hstart hend hels
  | container hstart hbody =>
    obtain ⟨body, close, hbody, hclose, rfl⟩ := hbody
    rw [List.append_assoc, List.singleton_append]
    exact .container hstart hbody hclose hels

theorem balanced_elementsOf (h : ∀ m ∈ ms, m.Closed) : Balanced (elementsOf ms) := by
  induction ms with
  | nil => exact .nil
  | cons m ms ih =>
    exact (h m List.mem_cons_self).balanced (ih fun m hm => h m (List.mem_cons_of_mem _ hm))

/-- Members and an end are a body. -/
theorem isBody_elementsOf (h : ∀ m ∈ ms, m.Closed) (hclose : close.value = .containerEnd) :
    IsBody (elementsOf ms ++ [close]) :=
  ⟨_, close, balanced_elementsOf h, hclose, rfl⟩

end

/-! ## Walks -/

/-- The members are taken one after the other. -/
inductive Folds {σ ι : Type} (P : σ → ι → σ → Prop) : σ → List ι → σ → Prop
  | nil (acc : σ) : Folds P acc [] acc
  | cons {acc acc₁ acc' : σ} {m : ι} {ms : List ι} :
    P acc m acc₁ → Folds P acc₁ ms acc' → Folds P acc (m :: ms) acc'

/-- Steps of a function are its fold. -/
theorem folds_foldl {σ ι : Type} {f : σ → ι → σ} {acc acc' : σ} {ms : List ι} :
    Folds (fun acc m acc' => acc' = f acc m) acc ms acc' ↔ acc' = ms.foldl f acc := by
  constructor
  · intro h
    induction h with
    | nil => rfl
    | cons hm _ ih => rw [List.foldl_cons, ← hm, ih]
  · rintro rfl
    induction ms generalizing acc with
    | nil => exact .nil acc
    | cons m ms ih => exact .cons rfl ih

namespace Reader

section
variable {σ ε : Type} {fail : Option TlvError → ε}
  {member : σ → Element → Reader → Except ε (σ × Reader)} {P : σ → Member → σ → Prop}
  {acc acc' : σ} {r r' : Reader} {fuel : Nat}

/-- A walk that returns has gone over the members of a body. -/
theorem walk_ok
    (hmember : ∀ {acc el r acc' r'}, el.value ≠ .containerEnd → member acc el r = .ok (acc', r') →
      ∃ body, Reads r body r' ∧ Member.Closed ⟨el, body⟩ ∧ P acc ⟨el, body⟩ acc')
    (h : walk fail member fuel acc r = .ok (acc', r')) :
    ∃ ms close, Reads r (elementsOf ms ++ [close]) r' ∧ (∀ m ∈ ms, m.Closed) ∧
      close.value = .containerEnd ∧ Folds P acc ms acc' := by
  induction fuel generalizing acc r with
  | zero => cases h
  | succ fuel ih =>
    rw [walk] at h
    split at h
    · cases h
    · cases h
    · next el r₁ hnext =>
      split at h
      · next hend =>
        cases h
        exact ⟨[], el, .single hnext, List.forall_mem_nil _, hend, .nil _⟩
      · next hend =>
        split at h
        · cases h
        · next acc₁ r₂ hm =>
          obtain ⟨body, hbody, hclosed, hP⟩ := hmember hend hm
          obtain ⟨ms, close, hreads, hall, hclose, hfolds⟩ := ih h
          refine ⟨⟨el, body⟩ :: ms, close, ?_, List.forall_mem_cons.2 ⟨hclosed, hall⟩, hclose,
            .cons hP hfolds⟩
          rw [elementsOf_cons, List.cons_append, List.append_assoc]
          exact .cons hnext (hbody.append hreads)

/-- A walk over members that are each taken returns. -/
theorem walk_of_reads
    (hmember : ∀ {acc m acc' r r'}, m.Closed → P acc m acc' → Reads r m.body r' →
      member acc m.el r = .ok (acc', r'))
    {ms : List Member} {close : Element} (h : Reads r (elementsOf ms ++ [close]) r')
    (hall : ∀ m ∈ ms, m.Closed) (hclose : close.value = .containerEnd)
    (hfolds : Folds P acc ms acc') (hfuel : ms.length < fuel) :
    walk fail member fuel acc r = .ok (acc', r') := by
  induction hfolds generalizing r fuel with
  | nil acc =>
    obtain ⟨fuel, rfl⟩ := Nat.exists_eq_add_of_lt hfuel
    cases h with
    | cons hnext hnil =>
      cases hnil
      rw [walk, hnext]
      exact if_pos hclose
  | @cons acc acc₁ acc' m ms hP _ ih =>
    obtain ⟨hm, hall⟩ := List.forall_mem_cons.1 hall
    obtain _ | fuel := fuel
    · cases hfuel
    rw [elementsOf_cons, List.cons_append, List.append_assoc] at h
    cases h with
    | cons hnext hrest =>
      obtain ⟨r₁, hbody, hrest⟩ := hrest.append_cases
      rw [walk, hnext]
      dsimp only
      rw [if_neg hm.ne_end, hmember hm hP hbody]
      exact ih hrest hall (Nat.lt_of_succ_lt_succ hfuel)

/-- The same over all the bytes left. -/
theorem members_of_reads
    (hmember : ∀ {acc m acc' r r'}, m.Closed → P acc m acc' → Reads r m.body r' →
      member acc m.el r = .ok (acc', r'))
    {ms : List Member} {close : Element} (h : Reads r (elementsOf ms ++ [close]) r')
    (hall : ∀ m ∈ ms, m.Closed) (hclose : close.value = .containerEnd)
    (hfolds : Folds P acc ms acc') : members fail member acc r = .ok (acc', r') := by
  refine walk_of_reads hmember h hall hclose hfolds ?_
  have hlen := h.length_le
  have hms : ms.length ≤ (elementsOf ms).length := length_le_elementsOf ms
  rw [List.length_append, List.length_singleton] at hlen
  omega

end

end Reader

/-! ## Copies -/

/-- An element as a copy has it: an end loses its tag. -/
def Element.copied (el : Element) : Element :=
  if el.value = .containerEnd then ⟨.anonymous, .containerEnd⟩ else el

/-- A member as a copy has it. -/
def Member.copied (m : Member) : Member := ⟨m.el, m.body.map Element.copied⟩

section
variable {el : Element} {els : List Element} {m : Member} {w w' : Writer} {r r' : Reader}
  {tag : Tag} {value : Value}

theorem Element.copied_of_ne (h : el.value ≠ .containerEnd) : el.copied = el := if_neg h

theorem Element.copied_of_end (h : el.value = .containerEnd) :
    el.copied = ⟨.anonymous, .containerEnd⟩ := if_pos h

theorem Balanced.copied (h : Balanced els) : Balanced (els.map Element.copied) := by
  induction h with
  | nil => exact .nil
  | leaf hstart hend _ ih =>
    rw [List.map_cons, Element.copied_of_ne hend]
    exact .leaf hstart hend ih
  | container hstart _ hclose _ ihbody ih =>
    rw [List.map_cons, List.map_append, List.map_cons,
      Element.copied_of_ne (Value.isStart_ne hstart), Element.copied_of_end hclose]
    exact .container hstart ihbody rfl ih

theorem IsBody.copied (h : IsBody els) : IsBody (els.map Element.copied) := by
  obtain ⟨body, close, hbody, hclose, rfl⟩ := h
  refine ⟨_, ⟨.anonymous, .containerEnd⟩, hbody.copied, rfl, ?_⟩
  rw [List.map_append, List.map_singleton, Element.copied_of_end hclose]

theorem Member.Closed.copied (h : m.Closed) : m.copied.Closed := by
  cases h with
  | leaf hstart hend => exact .leaf hstart hend
  | container hstart hbody => exact .container hstart hbody.copied

theorem encodes_endContainer (w : Writer) :
    Encodes w w.endContainer ⟨.anonymous, .containerEnd⟩ :=
  @encodes_of_type _ .anonymous 0x18 _ ⟨rfl, rfl⟩ fun _ => rfl

/-- What `copyValue` reads and writes, given that for the bodies of containers. -/
theorem copyValueWith_ok {container : Writer → Reader → Except TlvError (Writer × Reader)}
    (hcontainer : ∀ {w r w' r'}, container w r = .ok (w', r') →
      ∃ els, Reader.Reads r els r' ∧ IsBody els ∧ Writes w w' (els.map Element.copied))
    (hne : value ≠ .containerEnd) (h : copyValueWith container w r tag value = .ok (w', r')) :
    ∃ body, Reader.Reads r body r' ∧ Member.Closed ⟨⟨tag, value⟩, body⟩ ∧
      Writes w w' (⟨tag, value⟩ :: body.map Element.copied) := by
  have hleaf : ∀ {w₁ : Writer} {c : WriterCall}, w.call c = some w₁ → c.element = ⟨tag, value⟩ →
      value.isStart = false → (Except.ok (w₁, r) : Except TlvError _) = .ok (w', r') →
      ∃ body, Reader.Reads r body r' ∧ Member.Closed ⟨⟨tag, value⟩, body⟩ ∧
        Writes w w' (⟨tag, value⟩ :: body.map Element.copied) := by
    intro w₁ c hcall hel hstart h
    cases h
    exact ⟨[], .nil r, .leaf hstart hne, hel ▸ (encodes_call hcall).writes⟩
  have hstart : ∀ {w₁ : Writer} {c : WriterCall}, w.call c = some w₁ → c.element = ⟨tag, value⟩ →
      value.isStart = true → container w₁ r = .ok (w', r') →
      ∃ body, Reader.Reads r body r' ∧ Member.Closed ⟨⟨tag, value⟩, body⟩ ∧
        Writes w w' (⟨tag, value⟩ :: body.map Element.copied) := by
    intro w₁ c hcall hel hstart h
    obtain ⟨els, hreads, hbody, hwrites⟩ := hcontainer h
    exact ⟨els, hreads, .container hstart hbody, (hel ▸ (encodes_call hcall).writes).trans hwrites⟩
  cases value with
  | int v => exact hleaf (c := .putInt tag v) rfl rfl rfl h
  | uint v => exact hleaf (c := .putUint tag v) rfl rfl rfl h
  | bool v => exact hleaf (c := .putBool tag v) rfl rfl rfl h
  | f32 v => exact hleaf (c := .putF32 tag v) rfl rfl rfl h
  | f64 v => exact hleaf (c := .putF64 tag v) rfl rfl rfl h
  | utf8 v => exact hleaf (c := .putStr tag v) rfl rfl rfl h
  | bytes v => exact hleaf (c := .putBytes tag v) rfl rfl rfl h
  | null => exact hleaf (c := .putNull tag) rfl rfl rfl h
  | structStart => exact hstart (c := .startStruct tag) rfl rfl rfl h
  | arrayStart => exact hstart (c := .startArray tag) rfl rfl rfl h
  | listStart => exact hstart (c := .startList tag) rfl rfl rfl h
  | containerEnd => exact absurd rfl hne

/-- **Copies.** `copyContainer` reads a body and writes it. -/
theorem copyContainer_ok {fuel : Nat} (h : copyContainer fuel w r = .ok (w', r')) :
    ∃ els, Reader.Reads r els r' ∧ IsBody els ∧ Writes w w' (els.map Element.copied) := by
  induction fuel generalizing w r w' r' with
  | zero => cases h
  | succ fuel ih =>
    rw [copyContainer] at h
    split at h
    · cases h
    · cases h
    · next el r₁ hnext =>
      split at h
      · next hend =>
        cases h
        refine ⟨[el], .single hnext, ⟨[], el, .nil, hend, rfl⟩, ?_⟩
        rw [List.map_singleton, Element.copied_of_end hend]
        exact (encodes_endContainer w).writes
      · next hend =>
        split at h
        · cases h
        · next w₁ r₂ hcopy =>
          obtain ⟨body, hbody, hclosed, hwrites⟩ := copyValueWith_ok ih hend hcopy
          obtain ⟨els, hreads, ⟨members, close, hmembers, hclose, rfl⟩, hwrites'⟩ := ih h
          refine ⟨el :: (body ++ (members ++ [close])), .cons hnext (hbody.append hreads), ?_, ?_⟩
          · refine ⟨el :: (body ++ members), close, ?_, hclose, ?_⟩
            · exact hclosed.balanced hmembers
            · rw [List.cons_append, List.append_assoc]
          · rw [List.map_cons, List.map_append, Element.copied_of_ne hend]
            exact hwrites.trans hwrites'

theorem copyValue_ok (hne : value ≠ .containerEnd) (h : copyValue w r tag value = .ok (w', r')) :
    ∃ body, Reader.Reads r body r' ∧ Member.Closed ⟨⟨tag, value⟩, body⟩ ∧
      Writes w w' (⟨tag, value⟩ :: body.map Element.copied) :=
  copyValueWith_ok copyContainer_ok hne h

end

end MatStack
