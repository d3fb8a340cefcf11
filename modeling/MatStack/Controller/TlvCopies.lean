import MatStack.Controller.ReportData
import MatStack.Controller.TlvMembers
import MatStack.Lib.Checked

/-!
# Copies

A decoder that keeps an element of its input for later copies it with `copyValue`; one that does
not need it drops it with `skipContainer`. The two stop at the same byte, and neither looks behind
it. What is written is the element again: it is read back with its tag and its value, then the
members of the original, and a copy of it has the same bytes. Only a tag on the end of a container
is lost, which the reader lets pass and no writer puts.
-/

namespace MatStack

/-! ## Reads are local -/

namespace Reader

/-- What is read is a beginning of the bytes, and it does not matter what follows it. -/
def Local {α : Type} (f : Reader → Except TlvError (α × Reader)) : Prop :=
  ∀ r a r', f r = .ok (a, r') → ∃ used, r.rest = used ++ r'.rest ∧ r'.pos = r.pos + used.length ∧
    ∀ more, f ⟨r.pos, used ++ more⟩ = .ok (a, ⟨r'.pos, more⟩)

section
variable {α β : Type} {f : Reader → Except TlvError (α × Reader)} {r r' : Reader} {el : Element}
  {els : List Element}

/-- What is read may stand anywhere else, too. -/
def Moves {α : Type} (f : Reader → Except TlvError (α × Reader)) : Prop :=
  ∀ r a r', f r = .ok (a, r') → ∃ used, r.rest = used ++ r'.rest ∧ r'.pos = r.pos + used.length ∧
    (r.pos ≤ usizeMax → r'.pos ≤ usizeMax) ∧
    ∀ p more, p + used.length ≤ usizeMax →
      f ⟨p, used ++ more⟩ = .ok (a, ⟨p + used.length, more⟩)

theorem Moves.local (h : Moves f) (hpos : ∀ r x, f r = .ok x → r.pos ≤ usizeMax) : Local f := by
  intro r a r' hr
  obtain ⟨used, hrest, hpos', hmax, hmove⟩ := h r a r' hr
  have hle := hmax (hpos r _ hr)
  rw [hpos'] at hle ⊢
  exact ⟨used, hrest, rfl, fun more => hmove r.pos more hle⟩

theorem moves_pure (a : α) : Moves fun r => pure (a, r) := by
  intro r a r' h
  cases h
  exact ⟨[], rfl, rfl, id, fun _ _ _ => rfl⟩

theorem moves_throw (e : TlvError) : Moves fun _ => (throw e : Except TlvError (α × Reader)) := by
  intro r a r' h
  cases h

theorem Moves.bind {g : α × Reader → Except TlvError (β × Reader)} (hf : Moves f)
    (hg : ∀ a, Moves fun r => g (a, r)) : Moves fun r => f r >>= g := by
  intro r b r' h
  obtain ⟨⟨a, r₁⟩, hr, h⟩ := Checked.bind_eq_ok.1 h
  obtain ⟨used, hrest, hpos, hmax, hmove⟩ := hf r a r₁ hr
  obtain ⟨used', hrest', hpos', hmax', hmove'⟩ := hg a r₁ b r' h
  refine ⟨used ++ used', ?_, ?_, hmax' ∘ hmax, fun p more hp => ?_⟩
  · rw [hrest, hrest', List.append_assoc]
  · rw [hpos', hpos, List.length_append, Nat.add_assoc]
  · rw [List.length_append] at hp
    dsimp only
    rw [List.append_assoc, hmove p _ (by omega), Checked.ok_bind, List.length_append,
      ← Nat.add_assoc]
    exact hmove' _ _ (by omega)

theorem moves_ite {c : Prop} [Decidable c] {g : Reader → Except TlvError (α × Reader)}
    (hf : Moves f) (hg : Moves g) : Moves fun r => if c then f r else g r := by
  by_cases hc : c
  · simpa only [if_pos hc] using hf
  · simpa only [if_neg hc] using hg

theorem moves_take (n : Nat) : Moves fun r => r.take n := by
  intro r b r' h
  dsimp only [take] at h
  split_ifs at h with hmax hlen
  cases h
  have hn : (r.rest.take n).length = n := List.length_take_of_le (Nat.le_of_not_lt hlen)
  refine ⟨r.rest.take n, (List.take_append_drop n r.rest).symm, by rw [hn],
    fun _ => Nat.le_of_not_lt hmax, fun p more hp => ?_⟩
  have htake := @take_append p (r.rest.take n) more hp
  rw [hn] at htake ⊢
  exact htake

theorem moves_takeNat (n : Nat) : Moves fun r => r.takeNat n :=
  (moves_take n).bind fun _ => moves_pure _

theorem moves_takeU8 : Moves takeU8 := (moves_takeNat 1).bind fun _ => moves_pure _

theorem moves_takeU16 : Moves takeU16 := (moves_takeNat 2).bind fun _ => moves_pure _

theorem moves_takeU32 : Moves takeU32 := (moves_takeNat 4).bind fun _ => moves_pure _

theorem moves_takeU64 : Moves takeU64 := (moves_takeNat 8).bind fun _ => moves_pure _

theorem moves_readTag (control : UInt8) : Moves fun r => r.readTag control := by
  unfold readTag
  split
  · exact moves_pure _
  · exact moves_takeU8.bind fun _ => moves_pure _
  · exact moves_takeU16.bind fun _ => moves_pure _
  · exact moves_takeU32.bind fun _ => moves_pure _
  · exact moves_takeU16.bind fun _ => moves_pure _
  · exact moves_takeU32.bind fun _ => moves_pure _
  · exact moves_takeU16.bind fun _ => moves_takeU16.bind fun _ => moves_takeU16.bind fun _ =>
      moves_pure _
  · exact moves_takeU16.bind fun _ => moves_takeU16.bind fun _ => moves_takeU32.bind fun _ =>
      moves_pure _

theorem moves_readLen (widthSelector : UInt8) : Moves fun r => r.readLen widthSelector := by
  have hlen : ∀ len : Nat, Moves fun r : Reader => (do
      if usizeMax < len then throw .lengthOverflow
      return (len, r) : Except TlvError (Nat × Reader)) := by
    intro len
    by_cases h : usizeMax < len
    · simp only [if_pos h]
      exact moves_throw _
    · simp only [if_neg h]
      exact moves_pure _
  unfold readLen
  dsimp only
  split <;> exact (moves_takeNat _).bind hlen

theorem moves_ofUtf8 (b : Bytes) : Moves fun r => ofUtf8 (b, r) := by
  intro r a r' h
  simp only [ofUtf8] at h ⊢
  split at h
  · next s hs =>
    cases h
    exact ⟨[], rfl, rfl, id, fun _ _ _ => rfl⟩
  · cases h

theorem moves_readValue (t : UInt8) : Moves fun r => r.readValue t := by
  unfold readValue
  refine moves_ite (moves_takeU8.bind fun _ => moves_pure _) ?_
  refine moves_ite (moves_takeU16.bind fun _ => moves_pure _) ?_
  refine moves_ite (moves_takeU32.bind fun _ => moves_pure _) ?_
  refine moves_ite (moves_takeU64.bind fun _ => moves_pure _) ?_
  refine moves_ite (moves_takeU8.bind fun _ => moves_pure _) ?_
  refine moves_ite (moves_takeU16.bind fun _ => moves_pure _) ?_
  refine moves_ite (moves_takeU32.bind fun _ => moves_pure _) ?_
  refine moves_ite (moves_takeU64.bind fun _ => moves_pure _) ?_
  refine moves_ite (moves_pure _) (moves_ite (moves_pure _) ?_)
  refine moves_ite (moves_takeU32.bind fun _ => moves_pure _) ?_
  refine moves_ite (moves_takeU64.bind fun _ => moves_pure _) ?_
  refine moves_ite ((moves_readLen _).bind fun _ => (moves_take _).bind moves_ofUtf8) ?_
  refine moves_ite ((moves_readLen _).bind fun _ => (moves_take _).bind fun _ => moves_pure _) ?_
  refine moves_ite (moves_pure _) (moves_ite (moves_pure _) ?_)
  refine moves_ite (moves_pure _) (moves_ite (moves_pure _) ?_)
  exact moves_ite (moves_pure _) (moves_throw _)

theorem pos_le_of_takeU8 {x : UInt8 × Reader} (h : r.takeU8 = .ok x) : r.pos ≤ usizeMax := by
  obtain ⟨y, hy, -⟩ := Checked.bind_eq_ok.1 h
  obtain ⟨z, hz, -⟩ := Checked.bind_eq_ok.1 hy
  unfold take at hz
  split_ifs at hz with hmax
  omega

/-- What the bytes of an element are read by, once there is one. -/
theorem moves_element : Moves fun r => r.takeU8 >>= fun c => c.2.readTag c.1 >>= fun t =>
    t.2.readValue (c.1 &&& 0x1F) >>= fun v => pure (some (Element.mk t.1 v.1), v.2) :=
  moves_takeU8.bind fun control => (moves_readTag control).bind
    (g := fun t => t.2.readValue (control &&& 0x1F) >>= fun v =>
      pure (some (Element.mk t.1 v.1), v.2)) fun tag =>
    (moves_readValue _).bind (g := fun v => pure (some (Element.mk tag v.1), v.2)) fun value =>
      moves_pure (some (Element.mk tag value))

/-- An element is read alike wherever it stands. -/
theorem next_moves (h : r.next = .ok (some el, r')) :
    ∃ used, r.rest = used ++ r'.rest ∧ r'.pos = r.pos + used.length ∧
      ∀ p more, p + used.length ≤ usizeMax →
        next ⟨p, used ++ more⟩ = .ok (some el, ⟨p + used.length, more⟩) := by
  have hlt := next_shrinks h
  have hne : r.rest.isEmpty = false := by
    rw [List.isEmpty_eq_false_iff_exists_mem]
    exact List.exists_mem_of_length_pos (Nat.zero_lt_of_lt hlt)
  rw [next, hne] at h
  obtain ⟨used, hrest, hpos, -, hmove⟩ := moves_element r _ r' h
  obtain ⟨b, used, rfl⟩ : ∃ b bs, used = b :: bs := by
    cases used with
    | nil =>
      rw [hrest, List.nil_append] at hlt
      exact absurd hlt (Nat.lt_irrefl _)
    | cons b used => exact ⟨b, used, rfl⟩
  exact ⟨b :: used, hrest, hpos, fun p more hp => hmove p more hp⟩

/-- An element is read alike whatever follows it. -/
theorem next_local (h : r.next = .ok (some el, r')) :
    ∃ used, r.rest = used ++ r'.rest ∧ r'.pos = r.pos + used.length ∧
      ∀ more, next ⟨r.pos, used ++ more⟩ = .ok (some el, ⟨r'.pos, more⟩) := by
  have hlt := next_shrinks h
  have hparts := moves_element.local fun r x hx => by
    obtain ⟨c, hc, -⟩ := Checked.bind_eq_ok.1 hx
    exact pos_le_of_takeU8 hc
  have hne : r.rest.isEmpty = false := by
    rw [List.isEmpty_eq_false_iff_exists_mem]
    exact List.exists_mem_of_length_pos (Nat.zero_lt_of_lt hlt)
  rw [next, hne] at h
  obtain ⟨used, hrest, hpos, hmore⟩ := hparts r _ r' h
  refine ⟨used, hrest, hpos, fun more => ?_⟩
  have hused : (used ++ more).isEmpty = false := by
    cases used with
    | nil =>
      rw [hrest, List.nil_append] at hlt
      exact absurd hlt (Nat.lt_irrefl _)
    | cons b used => rfl
  rw [next, hused]
  exact hmore more

theorem Reads.moved (h : Reads r els r') :
    ∃ used, r.rest = used ++ r'.rest ∧ r'.pos = r.pos + used.length ∧
      ∀ p more, p + used.length ≤ usizeMax →
        Reads ⟨p, used ++ more⟩ els ⟨p + used.length, more⟩ := by
  induction h with
  | nil r => exact ⟨[], rfl, rfl, fun _ _ _ => .nil _⟩
  | cons hnext _ ih =>
    obtain ⟨used, hrest, hpos, hmove⟩ := next_moves hnext
    obtain ⟨used', hrest', hpos', hmove'⟩ := ih
    refine ⟨used ++ used', ?_, ?_, fun p more hp => ?_⟩
    · rw [hrest, hrest', List.append_assoc]
    · rw [hpos', hpos, List.length_append, Nat.add_assoc]
    · rw [List.length_append] at hp ⊢
      rw [List.append_assoc, ← Nat.add_assoc]
      exact .cons (hmove p _ (by omega)) (hmove' _ more (by omega))

theorem Reads.local (h : Reads r els r') :
    ∃ used, r.rest = used ++ r'.rest ∧ r'.pos = r.pos + used.length ∧
      ∀ more, Reads ⟨r.pos, used ++ more⟩ els ⟨r'.pos, more⟩ := by
  induction h with
  | nil r => exact ⟨[], rfl, rfl, fun _ => .nil _⟩
  | cons hnext _ ih =>
    obtain ⟨used, hrest, hpos, hmore⟩ := next_local hnext
    obtain ⟨used', hrest', hpos', hmore'⟩ := ih
    refine ⟨used ++ used', ?_, ?_, fun more => ?_⟩
    · rw [hrest, hrest', List.append_assoc]
    · rw [hpos', hpos, List.length_append, Nat.add_assoc]
    · rw [List.append_assoc]
      exact .cons (hmore _) (hmore' more)

end

end Reader

/-! ## Writing elements -/

namespace Writer

/-- Writes an element, without its tag if it ends a container. -/
def putElement (w : Writer) (el : Element) : Writer :=
  match el.value with
  | .int v => w.putInt el.tag v
  | .uint v => w.putUint el.tag v
  | .bool v => w.putBool el.tag v
  | .f32 v => w.putF32 el.tag v
  | .f64 v => w.putF64 el.tag v
  | .utf8 v => w.putStr el.tag v
  | .bytes v => w.putBytes el.tag v
  | .null => w.putNull el.tag
  | .structStart => w.startStruct el.tag
  | .arrayStart => w.startArray el.tag
  | .listStart => w.startList el.tag
  | .containerEnd => w.endContainer

/-- Writes elements in their order. -/
def putElements (w : Writer) (els : List Element) : Writer := els.foldl putElement w

section
variable {w : Writer} {el : Element} {els : List Element}

theorem putElements_cons :
    w.putElements (el :: els) = (w.putElement el).putElements els := rfl

theorem putElements_append {els' : List Element} :
    w.putElements (els ++ els') = (w.putElements els).putElements els' := List.foldl_append

theorem putElement_of_end (h : el.value = .containerEnd) : w.putElement el = w.endContainer := by
  rw [putElement, h]

theorem putElement_copied : w.putElement el.copied = w.putElement el := by
  by_cases h : el.value = .containerEnd
  · rw [Element.copied_of_end h, putElement_of_end h, putElement_of_end rfl]
  · rw [Element.copied_of_ne h]

/-- What is written of a copy is what is written of the original. -/
theorem putElements_copied : w.putElements (els.map Element.copied) = w.putElements els := by
  induction els generalizing w with
  | nil => rfl
  | cons el els ih => rw [List.map_cons, putElements_cons, putElements_cons, putElement_copied, ih]

theorem appends_putElement (el : Element) : Appends fun w => some (w.putElement el) := by
  obtain ⟨tag, value⟩ := el
  cases value with
  | int v => exact appends_putInt tag v
  | uint v => exact appends_putUint tag v
  | bool v => exact appends_controlAndTag _ tag
  | f32 bits | f64 bits => exact (appends_controlAndTag _ tag).comp (appends_push _)
  | utf8 v | bytes v => exact appends_putLenPrefixed _ tag _
  | null => exact appends_controlAndTag _ tag
  | structStart | arrayStart | listStart => exact appends_start _ tag
  | containerEnd => exact appends_endContainer

theorem appends_putElements (els : List Element) :
    Appends fun w => some (w.putElements els) := by
  induction els with
  | nil => exact .of_eq (b := []) fun w => (List.append_nil _).symm
  | cons el els ih => exact (appends_putElement el).comp ih

/-- The bytes of elements do not depend on what was written before. -/
theorem exists_buf_putElements (els : List Element) :
    ∃ bytes, ∀ w : Writer, (w.putElements els).buf = w.buf ++ bytes := by
  obtain ⟨_ | bytes, hbytes⟩ := appends_putElements els
  · exact absurd (hbytes new) (by simp)
  · exact ⟨bytes, fun w => by simpa using hbytes w⟩

theorem depth_putElement_start (h : el.value.isStart = true) :
    (w.putElement el).depth = w.depth + 1 := by
  obtain ⟨tag, value⟩ := el
  cases value with
  | structStart | arrayStart | listStart => rfl
  | _ => cases h

theorem depth_putElement_leaf (hstart : el.value.isStart = false)
    (hend : el.value ≠ .containerEnd) : (w.putElement el).depth = w.depth := by
  obtain ⟨tag, value⟩ := el
  cases value with
  | structStart | arrayStart | listStart => cases hstart
  | containerEnd => exact absurd rfl hend
  | _ =>
    simp [putElement, putBool, putF32, putF64, putStr, putBytes, putNull]

/-- Balanced elements leave as many containers open as there were. -/
theorem depth_putElements (h : Balanced els) : (w.putElements els).depth = w.depth := by
  induction h generalizing w with
  | nil => rfl
  | leaf hstart hend _ ih => rw [putElements_cons, ih, depth_putElement_leaf hstart hend]
  | @container el close body els hstart _ hclose _ ihbody ih =>
    have hdepth : (((w.putElement el).putElements body).putElement close).depth = w.depth := by
      rw [putElement_of_end hclose]
      show ((w.putElement el).putElements body).depth - 1 = w.depth
      rw [ihbody, depth_putElement_start hstart, Nat.add_sub_cancel]
    rw [putElements_cons, putElements_append, putElements_cons, ih, hdepth]

theorem encodes_putElement : Encodes w (w.putElement el) el.copied := by
  obtain ⟨tag, value⟩ := el
  cases value with
  | int v => exact encodes_call (c := .putInt tag v) rfl
  | uint v => exact encodes_call (c := .putUint tag v) rfl
  | bool v => exact encodes_call (c := .putBool tag v) rfl
  | f32 v => exact encodes_call (c := .putF32 tag v) rfl
  | f64 v => exact encodes_call (c := .putF64 tag v) rfl
  | utf8 v => exact encodes_call (c := .putStr tag v) rfl
  | bytes v => exact encodes_call (c := .putBytes tag v) rfl
  | null => exact encodes_call (c := .putNull tag) rfl
  | structStart => exact encodes_call (c := .startStruct tag) rfl
  | arrayStart => exact encodes_call (c := .startArray tag) rfl
  | listStart => exact encodes_call (c := .startList tag) rfl
  | containerEnd => exact encodes_endContainer w

/-- What is written of elements is read back, each as a copy has it. -/
theorem writes_putElements : Writes w (w.putElements els) (els.map Element.copied) := by
  induction els generalizing w with
  | nil => exact .refl w
  | cons el els ih => exact encodes_putElement.writes.trans ih

end

end Writer

/-! ## What a copy writes -/

section
variable {container : Writer → Reader → Except TlvError (Writer × Reader)} {w w' : Writer}
  {r r' : Reader} {tag : Tag} {value : Value} {els : List Element} {fuel : Nat}

theorem copyValueWith_leaf (hstart : value.isStart = false) (hend : value ≠ .containerEnd) :
    copyValueWith container w r tag value = .ok (w.putElement ⟨tag, value⟩, r) := by
  cases value with
  | structStart | arrayStart | listStart => cases hstart
  | containerEnd => exact absurd rfl hend
  | _ => rfl

theorem copyValueWith_start (hstart : value.isStart = true) :
    copyValueWith container w r tag value = container (w.putElement ⟨tag, value⟩) r := by
  cases value with
  | structStart | arrayStart | listStart => rfl
  | _ => cases hstart

/-- The members of a container are written one after the other. By induction on the members that
may be left. -/
theorem copyContainer_eq_ok (h : copyContainer fuel w r = .ok (w', r')) :
    ∃ els, Reader.Reads r els r' ∧ IsBody els ∧ w' = w.putElements els := by
  induction fuel generalizing w r w' r' with
  | zero => cases h
  | succ fuel ih =>
    rw [copyContainer] at h
    split at h
    · cases h
    · cases h
    · next el r₁ hnext =>
      split at h
      · next hend =>
        cases h
        exact ⟨[el], .single hnext, ⟨[], el, .nil, hend, rfl⟩,
          (Writer.putElement_of_end hend).symm⟩
      · next hend =>
        split at h
        · cases h
        · next w₁ r₂ hcopy =>
          obtain ⟨els, hreads, ⟨members, close, hmembers, hclose, rfl⟩, rfl⟩ := ih h
          cases hstart : el.value.isStart with
          | false =>
            rw [copyValueWith_leaf hstart hend] at hcopy
            cases hcopy
            exact ⟨el :: (members ++ [close]), .cons hnext hreads,
              ⟨el :: members, close, .leaf hstart hend hmembers, hclose, rfl⟩, rfl⟩
          | true =>
            rw [copyValueWith_start hstart] at hcopy
            obtain ⟨els, hbody, ⟨body, close', hbalanced, hclose', rfl⟩, rfl⟩ := ih hcopy
            refine ⟨el :: (body ++ [close'] ++ (members ++ [close])),
              .cons hnext (hbody.append hreads),
              ⟨el :: (body ++ close' :: members), close,
                .container hstart hbalanced hclose' hmembers, hclose, ?_⟩, ?_⟩
            · simp
            · rw [Writer.putElements_cons]
              exact Writer.putElements_append.symm

/-- A body that can be read is copied. By induction on what stands before its end. -/
theorem copyContainer_of_reads {body : List Element} {close : Element} (hbody : Balanced body)
    (hclose : close.value = .containerEnd) (h : Reader.Reads r (body ++ [close]) r')
    (hfuel : body.length < fuel) :
    copyContainer fuel w r = .ok (w.putElements (body ++ [close]), r') := by
  induction hbody generalizing w r r' fuel close with
  | nil =>
    obtain ⟨fuel, rfl⟩ := Nat.exists_eq_add_of_lt hfuel
    cases h with
    | cons hnext hnil =>
      cases hnil
      rw [copyContainer, hnext]
      dsimp only
      rw [if_pos hclose, List.nil_append, Writer.putElements_cons, Writer.putElement_of_end hclose]
      rfl
  | @leaf el els hstart hend _ ih =>
    obtain _ | fuel := fuel
    · cases hfuel
    cases h with
    | cons hnext hrest =>
      rw [copyContainer, hnext]
      dsimp only
      rw [if_neg hend, copyValueWith_leaf hstart hend]
      exact ih hclose hrest (Nat.lt_of_succ_lt_succ hfuel)
  | @container el close' body els hstart _ hclose' _ ihbody ih =>
    obtain _ | fuel := fuel
    · cases hfuel
    rw [List.length_cons, List.length_append, List.length_cons] at hfuel
    rw [List.cons_append, List.append_assoc, List.cons_append, List.append_cons] at h ⊢
    cases h with
    | cons hnext hrest =>
      obtain ⟨r₁, hmembers, hrest⟩ := hrest.append_cases
      rw [copyContainer, hnext]
      dsimp only
      rw [if_neg (Value.isStart_ne hstart), copyValueWith_start hstart,
        ihbody hclose' hmembers (by omega)]
      dsimp only
      rw [ih hclose hrest (by omega), Writer.putElements_cons]
      exact congrArg (fun w => Except.ok (w, r')) Writer.putElements_append.symm

/-- A container is copied exactly when it can be skipped, and the two stop at the same byte. -/
theorem copyContainer_iff_skip :
    (∃ w', copyContainer r.rest.length w r = .ok (w', r')) ↔ r.skipContainer = .ok r' := by
  constructor
  · rintro ⟨w', h⟩
    obtain ⟨els, hreads, hbody, -⟩ := copyContainer_eq_ok h
    exact Reader.skipContainer_of_reads hreads hbody
  · intro h
    obtain ⟨els, hreads, body, close, hbody, hclose, rfl⟩ := Reader.skipContainer_ok h
    have hlen := hreads.length_le
    rw [List.length_append, List.length_singleton] at hlen
    exact ⟨_, copyContainer_of_reads hbody hclose hreads (by omega)⟩

/-- Drops an element that was just read, with its members if it opens a container. -/
def Reader.skipValue (r : Reader) (value : Value) : Except TlvError Reader :=
  if value.isStart then r.skipContainer else .ok r

theorem copyValue_iff_skip :
    (∃ w', copyValue w r tag value = .ok (w', r')) ↔ r.skipValue value = .ok r' := by
  unfold copyValue Reader.skipValue
  cases hstart : value.isStart with
  | true =>
    rw [copyValueWith_start hstart, if_pos rfl]
    exact copyContainer_iff_skip
  | false =>
    rw [if_neg Bool.false_ne_true]
    by_cases hend : value = .containerEnd
    · subst hend
      constructor
      · rintro ⟨w', h⟩
        cases h
        rfl
      · intro h
        cases h
        exact ⟨w, rfl⟩
    · rw [copyValueWith_leaf hstart hend]
      constructor
      · rintro ⟨w', h⟩
        cases h
        rfl
      · intro h
        cases h
        exact ⟨_, rfl⟩

/-- What a copy reads, and that it writes just that. -/
theorem copyValue_eq_ok (hend : value ≠ .containerEnd)
    (h : copyValue w r tag value = .ok (w', r')) :
    ∃ body, Reader.Reads r body r' ∧ Member.Closed ⟨⟨tag, value⟩, body⟩ ∧
      w' = w.putElements (⟨tag, value⟩ :: body) := by
  unfold copyValue at h
  cases hstart : value.isStart with
  | true =>
    rw [copyValueWith_start hstart] at h
    obtain ⟨els, hreads, hbody, rfl⟩ := copyContainer_eq_ok h
    exact ⟨els, hreads, .container hstart hbody, rfl⟩
  | false =>
    rw [copyValueWith_leaf hstart hend] at h
    cases h
    exact ⟨[], .nil r, .leaf hstart hend, rfl⟩

/-- An element whose members can be read is copied. -/
theorem copyValue_of_reads (hreads : Reader.Reads r els r')
    (hclosed : Member.Closed ⟨⟨tag, value⟩, els⟩) :
    copyValue w r tag value = .ok (w.putElements (⟨tag, value⟩ :: els), r') := by
  unfold copyValue
  cases hclosed with
  | leaf hstart hend =>
    cases hreads
    rw [copyValueWith_leaf hstart hend]
    rfl
  | container hstart hbody =>
    obtain ⟨body, close, hbody, hclose, rfl⟩ := hbody
    have hlen := hreads.length_le
    rw [List.length_append, List.length_singleton] at hlen
    rw [copyValueWith_start hstart,
      copyContainer_of_reads (w := w.putElement ⟨tag, value⟩) hbody hclose hreads (by omega)]
    rfl

/-- A member leaves as many containers open as there were. -/
theorem depth_putElements_of_closed {m : Member} (h : m.Closed) :
    (w.putElements (m.el :: m.body)).depth = w.depth := by
  have hbalanced := h.balanced .nil
  rw [List.append_nil] at hbalanced
  exact Writer.depth_putElements hbalanced

end

/-! ## Copies and skips -/

/-- **Copies.** A value is copied exactly when it can be skipped, and the reader is then at the same
place; it has taken a beginning of the bytes, and what follows them makes no difference. The bytes
that are written, the same to every writer, are read back as the element under the tag, then the
members of the original, with no tag on an end. A copy of them under that tag has the same bytes. -/
theorem copies_are_skips (r r' : Reader) (w : Writer) (tag : Tag) (value : Value) :
    ((∃ w', copyContainer r.rest.length w r = .ok (w', r')) ↔ r.skipContainer = .ok r') ∧
    ((∃ w', copyValue w r tag value = .ok (w', r')) ↔ r.skipValue value = .ok r') ∧
    (value ≠ .containerEnd → r.skipValue value = .ok r' →
      ∃ used body bytes, r.rest = used ++ r'.rest ∧ r'.pos = r.pos + used.length ∧
        Member.Closed ⟨⟨tag, value⟩, body⟩ ∧
        (∀ w more, Reader.Reads ⟨r.pos, used ++ more⟩ body ⟨r'.pos, more⟩ ∧
          copyValue w ⟨r.pos, used ++ more⟩ tag value = .ok (w.push bytes, ⟨r'.pos, more⟩)) ∧
        ∀ p rest, p + bytes.length ≤ usizeMax →
          Reader.Reads ⟨p, bytes ++ rest⟩ (⟨tag, value⟩ :: body.map Element.copied)
            ⟨p + bytes.length, rest⟩ ∧
          ∃ r₁, Reader.next ⟨p, bytes ++ rest⟩ = .ok (some ⟨tag, value⟩, r₁) ∧
            ∀ w, copyValue w r₁ tag value = .ok (w.push bytes, ⟨p + bytes.length, rest⟩)) := by
  refine ⟨copyContainer_iff_skip, copyValue_iff_skip, fun hend hskip => ?_⟩
  obtain ⟨w', hcopy⟩ := (@copyValue_iff_skip w r r' tag value).2 hskip
  obtain ⟨body, hreads, hclosed, -⟩ := copyValue_eq_ok hend hcopy
  obtain ⟨used, hrest, hpos, hmore⟩ := hreads.local
  obtain ⟨bytes, hbytes⟩ := Writer.exists_buf_putElements (⟨tag, value⟩ :: body)
  -- the bytes are all that is written: as many containers are open as before
  have hpush : ∀ w : Writer, w.putElements (⟨tag, value⟩ :: body) = w.push bytes := by
    intro w
    have hdepth := depth_putElements_of_closed (w := w) hclosed
    have hbuf := hbytes w
    cases hw : w.putElements (⟨tag, value⟩ :: body) with
    | mk buf depth =>
      rw [hw] at hbuf hdepth
      dsimp only at hbuf hdepth
      rw [hbuf, hdepth, Writer.push]
  refine ⟨used, body, bytes, hrest, hpos, hclosed, fun w more => ⟨hmore more, ?_⟩,
    fun p rest hp => ?_⟩
  · rw [copyValue_of_reads (hmore more) hclosed, hpush]
  · obtain ⟨bytes', hbuf, -, hread⟩ := @Writer.writes_putElements .new (⟨tag, value⟩ :: body)
    have heq : bytes = bytes' := by
      rw [hbytes] at hbuf
      exact List.append_cancel_left hbuf
    subst heq
    rw [List.map_cons, Element.copied_of_ne hend] at hread
    have hall := hread p rest hp
    refine ⟨hall, ?_⟩
    cases hall with
    | @cons _ r₁ _ _ _ hnext hbody =>
      refine ⟨r₁, hnext, fun w => ?_⟩
      rw [copyValue_of_reads hbody hclosed.copied, ← hpush w]
      have hcopied := @Writer.putElements_copied w (⟨tag, value⟩ :: body)
      rw [List.map_cons, Element.copied_of_ne hend] at hcopied
      rw [hcopied]


/-- A struct with the number 5 in two bytes, and a byte behind it. -/
theorem copies_are_skips_sample :
    Reader.skipValue ⟨1, [0x25, 0x01, 0x05, 0x00, 0x18, 0xFF]⟩ .structStart = .ok ⟨6, [0xFF]⟩ ∧
      ∃ used bytes, [0x25, 0x01, 0x05, 0x00, 0x18, 0xFF] = used ++ [0xFF] ∧ ∀ w more,
        copyValue w ⟨1, used ++ more⟩ (.context 2) .structStart =
          .ok (w.push bytes, ⟨6, more⟩) := by
  have hskip : Reader.skipValue ⟨1, [0x25, 0x01, 0x05, 0x00, 0x18, 0xFF]⟩ .structStart =
      .ok ⟨6, [0xFF]⟩ := rfl
  obtain ⟨used, _, bytes, hrest, -, -, hcopy, -⟩ :=
    (copies_are_skips _ _ .new (.context 2) _).2.2 (by decide) hskip
  exact ⟨hskip, used, bytes, hrest, fun w more => (hcopy w more).2⟩

/-- **A tag that is lost.** The reader lets the end of a container have a tag; a copy does not
have it. -/
theorem tag_of_end_lost :
    ¬∀ buf el r w' r', (Reader.new buf).next = .ok (some el, r) → el.value ≠ .containerEnd →
      copyValue .new r el.tag el.value = .ok (w', r') → r'.rest = [] →
        (Reader.new w'.finish).elements = (Reader.new buf).elements := by
  intro h
  have hcopy := h [0x15, 0x38, 0x01] ⟨.anonymous, .structStart⟩ ⟨1, [0x38, 0x01]⟩
    ⟨[0x15, 0x18], 0⟩ ⟨3, []⟩ rfl (by decide) rfl rfl
  exact absurd hcopy (by decide)

end MatStack
