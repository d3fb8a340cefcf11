import MatStack.Controller.KeysetFrame

/-!
# A member put into a struct

The bytes of an element may be put between two members of a struct (`Inserted`): what is read of the
struct is then its members with the new one among them. A decoder whose members each come to the
same wherever they stand (`Steady`), and that passes over the new one, finds what it found before
(`members_insert`).
-/

namespace MatStack

open Reader (Reads Takes)

section
variable {s s' x : Bytes} {ms ms₁ ms₂ : List Member} {e : Member} {r r' r₁ r₁' : Reader}
  {els : List Element}

/-- `s'` is the struct `s` with the bytes of the element `e` put between the members `ms₁` and
`ms₂`. What stands behind the struct is not looked at. -/
def Inserted (s s' : Bytes) (ms₁ : List Member) (e : Member) (ms₂ : List Member) : Prop :=
  (∀ m ∈ ms₁ ++ ms₂, m.Closed) ∧ e.Closed ∧
    ∃ tag close head x tail, close.value = .containerEnd ∧ s = head ++ tail ∧
      s' = head ++ x ++ tail ∧
      Reads (.new head) (⟨tag, .structStart⟩ :: elementsOf ms₁) ⟨head.length, []⟩ ∧
      Reads (.new x) (e.el :: e.body) ⟨x.length, []⟩ ∧
      ∃ r, Reads (.new tail) (elementsOf ms₂ ++ [close]) r

/-- The bytes of elements are read wherever they stand. -/
theorem Reader.Reads.placed (h : Reads (.new x) els r) (p : Nat) (rest : Bytes)
    (hp : p + x.length ≤ usizeMax) :
    ∃ used, x = used ++ r.rest ∧ Reads ⟨p, x ++ rest⟩ els ⟨p + used.length, r.rest ++ rest⟩ := by
  obtain ⟨used, hx, -, hmove⟩ := h.moved
  obtain rfl : x = used ++ r.rest := hx
  rw [List.length_append] at hp
  rw [List.append_assoc]
  exact ⟨used, rfl, hmove p _ (by omega)⟩

theorem Reader.Reads.placed_whole {p : Nat} {rest : Bytes}
    (h : Reads (.new x) els ⟨x.length, []⟩) (hp : p + x.length ≤ usizeMax) :
    Reads ⟨p, x ++ rest⟩ els ⟨p + x.length, rest⟩ := by
  obtain ⟨used, hx, hreads⟩ := h.placed p rest hp
  rw [List.append_nil] at hx
  rw [← hx] at hreads
  exact hreads

/-- What begins with a struct start and goes on to the end of it is a struct. -/
theorem isStructOf_of_reads {tag : Tag} {close : Element} (hms : ∀ m ∈ ms, m.Closed)
    (hclose : close.value = .containerEnd)
    (h : Reads (.new s) (⟨tag, .structStart⟩ :: (elementsOf ms ++ [close])) r) :
    IsStructOf s ms := by
  cases h with
  | cons hnext hbody => exact ⟨tag, _, _, r, hnext, hbody, hms, close, hclose, rfl⟩

theorem Inserted.length_le (h : Inserted s s' ms₁ e ms₂) : s.length ≤ s'.length := by
  obtain ⟨-, -, tag, close, head, x, tail, -, rfl, rfl, -⟩ := h
  rw [List.length_append, List.length_append, List.length_append]
  omega

theorem Inserted.before (h : Inserted s s' ms₁ e ms₂) (hlen : s.length ≤ usizeMax) :
    IsStructOf s (ms₁ ++ ms₂) := by
  obtain ⟨hms, -, tag, close, head, x, tail, hclose, rfl, -, hhead, -, r, htail⟩ := h
  rw [List.length_append] at hlen
  have hstart : Reads (.new (head ++ tail)) _ ⟨0 + head.length, tail⟩ :=
    hhead.placed_whole (by omega)
  obtain ⟨used, -, hend⟩ := htail.placed (0 + head.length) [] (by omega)
  rw [List.append_nil] at hend
  have hreads := hstart.append hend
  rw [List.cons_append, ← List.append_assoc, ← elementsOf_append] at hreads
  exact isStructOf_of_reads hms hclose hreads

theorem Inserted.after (h : Inserted s s' ms₁ e ms₂) (hlen : s'.length ≤ usizeMax) :
    IsStructOf s' (ms₁ ++ e :: ms₂) := by
  obtain ⟨hms, he, tag, close, head, x, tail, hclose, -, rfl, hhead, hx, r, htail⟩ := h
  rw [List.length_append, List.length_append] at hlen
  have hstart : Reads (.new (head ++ (x ++ tail))) _ ⟨0 + head.length, x ++ tail⟩ :=
    hhead.placed_whole (by omega)
  have hnew : Reads ⟨0 + head.length, x ++ tail⟩ _ ⟨0 + head.length + x.length, tail⟩ :=
    hx.placed_whole (by omega)
  obtain ⟨used, -, hend⟩ := htail.placed (0 + head.length + x.length) [] (by omega)
  rw [List.append_nil] at hend
  have hreads := hstart.append (hnew.append hend)
  have hall : ∀ m ∈ ms₁ ++ e :: ms₂, m.Closed := by
    rintro m hm
    obtain hm | rfl | hm := by simpa using hm
    · exact hms m (List.mem_append_left _ hm)
    · exact he
    · exact hms m (List.mem_append_right _ hm)
  rw [List.append_assoc]
  have hels : ⟨tag, .structStart⟩ :: elementsOf ms₁ ++ (e.el :: e.body ++
      (elementsOf ms₂ ++ [close])) =
      ⟨tag, .structStart⟩ :: (elementsOf (ms₁ ++ e :: ms₂) ++ [close]) := by
    rw [elementsOf_append, elementsOf_cons]
    simp only [List.cons_append, List.append_assoc]
  rw [hels] at hreads
  exact isStructOf_of_reads hall hclose hreads

/-! ## Decoders -/

variable {σ ε : Type} {fail : Option TlvError → ε}
  {member : σ → Element → Reader → Except ε (σ × Reader)} {acc : σ} {close close' : Element}

/-- What a decoder makes of a member does not depend on where it finds it. -/
def Steady (member : σ → Element → Reader → Except ε (σ × Reader)) : Prop :=
  ∀ (acc : σ) (m : Member), m.Closed → ∃ out : Except ε σ, ∀ r r', Reads r m.body r' →
    member acc m.el r = out.map fun a => (a, r')

variable (fail member) in
/-- What a decoder makes of the members of a body, wherever it finds them. -/
def Comes (acc : σ) (ms : List Member) (out : Except ε σ) : Prop :=
  ∀ (close : Element) (fuel : Nat) (r r' : Reader), close.value = .containerEnd →
    ms.length < fuel → Reads r (elementsOf ms ++ [close]) r' →
    r.walk fail member fuel acc = out.map fun a => (a, r')

theorem comes_nil : Comes fail member acc [] (.ok acc) := by
  intro close fuel r r' hclose hfuel hreads
  obtain ⟨fuel, rfl⟩ := Nat.exists_eq_add_of_lt hfuel
  cases hreads with
  | cons hnext hnil =>
    cases hnil
    rw [Reader.walk, hnext]
    exact if_pos hclose

/-- A member that is taken. -/
theorem comes_cons {m : Member} {a : σ} {out : Except ε σ} (hm : m.Closed)
    (hm' : ∀ r r', Reads r m.body r' → member acc m.el r = .ok (a, r'))
    (h : Comes fail member a ms out) : Comes fail member acc (m :: ms) out := by
  intro close fuel r r' hclose hfuel hreads
  obtain _ | fuel := fuel
  · cases hfuel
  rw [elementsOf_cons, List.cons_append, List.append_assoc] at hreads
  cases hreads with
  | cons hnext hrest =>
    obtain ⟨r₁, hbody, hrest⟩ := hrest.append_cases
    rw [Reader.walk, hnext]
    dsimp only
    rw [if_neg hm.ne_end, hm' _ _ hbody]
    exact h close fuel r₁ r' hclose (Nat.lt_of_succ_lt_succ hfuel) hrest

/-- A member that is refused. -/
theorem comes_error {m : Member} {err : ε} (hm : m.Closed)
    (hm' : ∀ r r', Reads r m.body r' → member acc m.el r = .error err) :
    Comes fail member acc (m :: ms) (.error err) := by
  intro close fuel r r' hclose hfuel hreads
  obtain _ | fuel := fuel
  · cases hfuel
  rw [elementsOf_cons, List.cons_append, List.append_assoc] at hreads
  cases hreads with
  | cons hnext hrest =>
    obtain ⟨r₁, hbody, -⟩ := hrest.append_cases
    rw [Reader.walk, hnext]
    dsimp only
    rw [if_neg hm.ne_end, hm' _ _ hbody]
    rfl

theorem Comes.members {out : Except ε σ} (h : Comes fail member acc ms out)
    (hclose : close.value = .containerEnd) (hreads : Reads r (elementsOf ms ++ [close]) r') :
    r.members fail member acc = out.map fun a => (a, r') := by
  refine h close _ r r' hclose ?_ hreads
  have hlen := hreads.length_le
  have hle : ms.length ≤ (elementsOf ms).length := length_le_elementsOf ms
  rw [List.length_append, List.length_singleton] at hlen
  omega

/-- A steady decoder makes the same of the members wherever they are. -/
theorem Steady.comes (h : Steady member) (hms : ∀ m ∈ ms, m.Closed) :
    ∃ out, Comes fail member acc ms out := by
  induction ms generalizing acc with
  | nil => exact ⟨_, comes_nil⟩
  | cons m ms ih =>
    obtain ⟨hm, hms⟩ := List.forall_mem_cons.1 hms
    obtain ⟨out, hout⟩ := h acc m hm
    cases out with
    | error err => exact ⟨_, comes_error hm hout⟩
    | ok a =>
      obtain ⟨out, hrest⟩ : ∃ out, Comes fail member a ms out := ih hms
      exact ⟨out, comes_cons hm hout hrest⟩

/-- An element that opens nothing has nothing behind it. -/
theorem Member.Closed.reads_leaf {m : Member} (hm : m.Closed) (hstart : m.el.value.isStart = false)
    (hreads : Reads r m.body r') : r' = r := by
  cases hm with
  | leaf =>
    cases hreads
    rfl
  | container hstart' =>
    rw [hstart] at hstart'
    cases hstart'

theorem steady_kept {m : Member} (hm : m.Closed) (hstart : m.el.value.isStart = false) (a : σ) :
    ∃ out : Except ε σ, ∀ r r', Reads r m.body r' → .ok (a, r) = out.map fun a => (a, r') := by
  refine ⟨.ok a, fun r r' hreads => ?_⟩
  rw [hm.reads_leaf hstart hreads]
  rfl

/-- A container is skipped, wherever it is found. -/
theorem skipContainer_of_closed {m : Member} (hm : m.Closed) (hstart : m.el.value.isStart = true)
    (hreads : Reads r m.body r') : r.skipContainer = .ok r' := by
  cases hm with
  | leaf hstart' =>
    rw [hstart] at hstart'
    cases hstart'
  | container _ hbody => exact Reader.skipContainer_of_reads hreads hbody

/-- The members of a member are decoded to the same, wherever it is found. -/
theorem Steady.body {m : Member} (h : Steady member) (hm : m.Closed)
    (hstart : m.el.value.isStart = true) (fail : Option TlvError → ε) (acc : σ) :
    ∃ out : Except ε σ, ∀ r r', Reads r m.body r' →
      r.members fail member acc = out.map fun a => (a, r') := by
  cases hm with
  | leaf hstart' =>
    rw [hstart] at hstart'
    cases hstart'
  | container _ hbody =>
    obtain ⟨ks, close, hks, hclose, rfl⟩ := hbody.members
    obtain ⟨out, hout⟩ : ∃ out, Comes fail member acc ks out := h.comes hks
    exact ⟨out, fun r r' hreads => hout.members hclose hreads⟩

theorem isStart_of_ne {v : Value} (h₁ : v ≠ .structStart) (h₂ : v ≠ .arrayStart)
    (h₃ : v ≠ .listStart) : v.isStart = false := by
  cases v with
  | structStart => exact absurd rfl h₁
  | arrayStart => exact absurd rfl h₂
  | listStart => exact absurd rfl h₃
  | _ => rfl

/-- A member that is passed over makes no difference. -/
theorem Steady.comes_insert (h : Steady member) (he : e.Closed)
    (hpass : ∀ acc, Takes member acc e acc) (hms : ∀ m ∈ ms₁ ++ ms₂, m.Closed) :
    ∃ out, Comes fail member acc (ms₁ ++ ms₂) out ∧
      Comes fail member acc (ms₁ ++ e :: ms₂) out := by
  induction ms₁ generalizing acc with
  | nil =>
    obtain ⟨out, hout⟩ : ∃ out, Comes fail member acc ms₂ out := h.comes hms
    exact ⟨out, hout, comes_cons he (hpass acc) hout⟩
  | cons m ms₁ ih =>
    obtain ⟨hm, hms⟩ := List.forall_mem_cons.1 hms
    obtain ⟨out, hout⟩ := h acc m hm
    cases out with
    | error err => exact ⟨_, comes_error hm hout, comes_error hm hout⟩
    | ok a =>
      obtain ⟨out, hrest, hins⟩ : ∃ out, Comes fail member a (ms₁ ++ ms₂) out ∧
        Comes fail member a (ms₁ ++ e :: ms₂) out := ih hms
      exact ⟨out, comes_cons hm hout hrest, comes_cons hm hout hins⟩

/-- **A member that is passed over.** A decoder of the struct finds what it found before. -/
theorem members_insert (h : Steady member) (hins : Inserted s s' ms₁ e ms₂)
    (hpass : ∀ acc, Takes member acc e acc) (hlen : s'.length ≤ usizeMax) :
    ∃ (tag tag' : Tag) (r r₁ r' r₁' : Reader) (out : Except ε σ),
      (Reader.new s).next = .ok (some ⟨tag, .structStart⟩, r) ∧
      (Reader.new s').next = .ok (some ⟨tag', .structStart⟩, r') ∧
      r.members fail member acc = out.map (fun a => (a, r₁)) ∧
      r'.members fail member acc = out.map (fun a => (a, r₁')) := by
  obtain ⟨tag, body, r, r₁, hnext, hreads, hms, close, hclose, hbody⟩ :=
    hins.before (hins.length_le.trans hlen)
  obtain ⟨tag', body', r', r₁', hnext', hreads', -, close', hclose', hbody'⟩ := hins.after hlen
  obtain rfl : body = _ := hbody
  obtain rfl : body' = _ := hbody'
  obtain ⟨out, hout, hout'⟩ : ∃ out, Comes fail member acc (ms₁ ++ ms₂) out ∧
    Comes fail member acc (ms₁ ++ e :: ms₂) out := h.comes_insert hins.2.1 hpass hms
  exact ⟨tag, tag', r, r₁, r', r₁', out, hnext, hnext', hout.members hclose hreads,
    hout'.members hclose' hreads'⟩

end

end MatStack
