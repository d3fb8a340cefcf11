import MatStack.Controller.TlvCopies

/-!
# Records

A record is written member by member: one that stands by itself, and one with members of its own and
an end without a tag. Such members are read back as they are, and copied as they are. `Takes` says
what a decoder makes of a member wherever it finds it, so that the decoding of a record is a fold
over its members (`members_of_takes`), at every depth.
-/

namespace MatStack

/-! ## Members -/

namespace Member

/-- A member that stands by itself. -/
def leaf (tag : Tag) (value : Value) : Member := ⟨⟨tag, value⟩, []⟩

/-- A member with members. -/
def record (tag : Tag) (start : Value) (ms : List Member) : Member :=
  ⟨⟨tag, start⟩, elementsOf ms ++ [⟨.anonymous, .containerEnd⟩]⟩

/-- A member as it is written: whole, and with no tag on an end. -/
structure Plain (m : Member) : Prop where
  closed : m.Closed
  copied : m.copied = m

section
variable {m : Member} {ms : List Member} {tag : Tag} {value start : Value}

theorem plain_leaf (hstart : value.isStart = false) (hend : value ≠ .containerEnd) :
    (leaf tag value).Plain :=
  ⟨.leaf hstart hend, rfl⟩

theorem Plain.body_copied (h : m.Plain) : m.body.map Element.copied = m.body :=
  congrArg Member.body h.copied

/-- What is copied of plain members is what they are. -/
theorem elementsOf_copied (h : ∀ m ∈ ms, m.Plain) :
    (elementsOf ms).map Element.copied = elementsOf ms := by
  induction ms with
  | nil => rfl
  | cons m ms ih =>
    obtain ⟨hm, hms⟩ := List.forall_mem_cons.1 h
    rw [elementsOf_cons, List.map_cons, List.map_append, Element.copied_of_ne hm.closed.ne_end,
      hm.body_copied, ih hms]

theorem plain_record (hstart : start.isStart = true) (h : ∀ m ∈ ms, m.Plain) :
    (record tag start ms).Plain where
  closed := .container hstart (isBody_elementsOf (fun m hm => (h m hm).closed) rfl)
  copied := by
    rw [record, Member.copied, List.map_append, elementsOf_copied h]
    rfl

theorem elementsOf_append (ms ms' : List Member) :
    elementsOf (ms ++ ms') = elementsOf ms ++ elementsOf ms' := List.flatMap_append

end

end Member

/-! ## Writing -/

namespace Writer

/-- Writes members in their order. -/
def putMembers (w : Writer) (ms : List Member) : Writer := w.putElements (elementsOf ms)

section
variable {w : Writer} {m : Member} {ms ms' : List Member} {tag : Tag} {start : Value}

@[simp] theorem putMembers_nil : w.putMembers [] = w := rfl

theorem putMembers_append : w.putMembers (ms ++ ms') = (w.putMembers ms).putMembers ms' := by
  rw [putMembers, Member.elementsOf_append, putElements_append]
  rfl

theorem putMembers_cons : w.putMembers (m :: ms) = (w.putMembers [m]).putMembers ms :=
  @putMembers_append w [m] ms

/-- A member with members is written from its opening element to its end. -/
theorem putMembers_record : w.putMembers [.record tag start ms] =
    ((w.putElement ⟨tag, start⟩).putMembers ms).endContainer := by
  change w.putElements (⟨tag, start⟩ :: (elementsOf ms ++ [_] ++ [])) = _
  rw [List.append_nil, putElements_cons, putElements_append]
  rfl

theorem putMembers_leafCons {value : Value} :
    w.putMembers (.leaf tag value :: ms) = (w.putElement ⟨tag, value⟩).putMembers ms := rfl

theorem putMembers_recordCons : w.putMembers (.record tag start ms :: ms') =
    ((w.putElement ⟨tag, start⟩).putMembers ms).endContainer.putMembers ms' := by
  rw [putMembers_cons, putMembers_record]

/-- Members that are written from what a list holds. -/
theorem putMembers_map {α : Type} {put : Writer → α → Writer} {f : α → Member}
    (h : ∀ w a, put w a = w.putMembers [f a]) (w : Writer) (as : List α) :
    as.foldl put w = w.putMembers (as.map f) := by
  induction as generalizing w with
  | nil => rfl
  | cons a as ih => rw [List.foldl_cons, ih, h, List.map_cons, ← putMembers_cons]

/-- More members are more bytes. -/
theorem length_putMembers_le : w.buf.length ≤ (w.putMembers ms).buf.length := by
  obtain ⟨bytes, hbytes⟩ := exists_buf_putElements (elementsOf ms)
  rw [putMembers, hbytes, List.length_append]
  exact Nat.le_add_right ..

end

end Writer

/-- A struct that stands alone, with its members. -/
def structTlv (ms : List Member) : Bytes :=
  (Writer.new.putMembers [.record .anonymous .structStart ms]).finish

theorem isEmpty_structTlv (ms : List Member) : (structTlv ms).isEmpty = false := by
  rw [structTlv, Writer.putMembers_record]
  exact List.isEmpty_eq_false_iff.2 (List.append_ne_nil_of_right_ne_nil _ (List.cons_ne_nil _ _))

/-- A struct under a tag is no shorter than one that stands alone. -/
theorem length_structTlv_le (w : Writer) (tag : Tag) (ms : List Member) :
    w.buf.length + (structTlv ms).length ≤
      (w.putMembers [.record tag .structStart ms]).buf.length := by
  obtain ⟨bytes, hbytes⟩ := Writer.exists_buf_putElements
    (elementsOf ms ++ [⟨.anonymous, .containerEnd⟩])
  have hrecord : ∀ (w : Writer) (tag : Tag), (w.putMembers [.record tag .structStart ms]).buf =
      (w.startStruct tag).buf ++ bytes := by
    intro w tag
    rw [← hbytes, Writer.putMembers_record, Writer.putElements_append]
    rfl
  have hstart : w.buf.length + 1 ≤ (w.startStruct tag).buf.length := by
    cases tag <;> simp [Writer.startStruct, Writer.start, Writer.controlAndTag, Writer.push]
  have hlen : (structTlv ms).length = 1 + bytes.length := by
    rw [structTlv, Writer.finish, hrecord, List.length_append]
    rfl
  rw [hlen, hrecord, List.length_append]
  omega

/-! ## Reading -/

namespace Reader

/-- What was written is read back. -/
theorem reads_putMembers {ms : List Member} (h : ∀ m ∈ ms, m.Plain)
    (hlen : (Writer.new.putMembers ms).finish.length ≤ usizeMax) :
    ∃ r, (Reader.new (Writer.new.putMembers ms).finish).Reads (elementsOf ms) r := by
  obtain ⟨bytes, hbuf, -, hreads⟩ := @Writer.writes_putElements .new (elementsOf ms)
  have hbytes : (Writer.new.putMembers ms).finish = bytes := hbuf
  rw [Member.elementsOf_copied h] at hreads
  have hall := hreads 0 [] (by rwa [← hbytes, Nat.zero_add])
  rw [List.append_nil, ← hbytes] at hall
  exact ⟨_, hall⟩

/-- A struct that stands alone is opened, and its members follow. -/
theorem opens_structTlv {ms : List Member} (h : ∀ m ∈ ms, m.Plain)
    (hlen : (structTlv ms).length ≤ usizeMax) : ∃ r r',
    (Reader.new (structTlv ms)).next = .ok (some ⟨.anonymous, .structStart⟩, r) ∧
      Reads r (elementsOf ms ++ [⟨.anonymous, .containerEnd⟩]) r' := by
  obtain ⟨r', hreads⟩ := reads_putMembers
    (List.forall_mem_singleton.2 (Member.plain_record rfl h)) hlen
  rw [elementsOf_cons, show elementsOf [] = [] from rfl, List.append_nil] at hreads
  cases hreads with
  | @cons _ r _ _ _ hnext hbody => exact ⟨r, r', hnext, hbody⟩

/-- What a decoder makes of a member, wherever it finds it. -/
def Takes {σ ε : Type} (member : σ → Element → Reader → Except ε (σ × Reader)) (acc : σ)
    (m : Member) (acc' : σ) : Prop :=
  ∀ r r', Reads r m.body r' → member acc m.el r = .ok (acc', r')

section
variable {σ ε : Type} {fail : Option TlvError → ε}
  {member : σ → Element → Reader → Except ε (σ × Reader)} {acc acc' : σ} {ms : List Member}
  {close : Element} {r r' : Reader} {tag : Tag} {value start : Value}

/-- Members are decoded one after the other. -/
theorem members_of_takes (h : Reads r (elementsOf ms ++ [close]) r') (hall : ∀ m ∈ ms, m.Plain)
    (hclose : close.value = .containerEnd) (hfolds : Folds (Takes member) acc ms acc') :
    members fail member acc r = .ok (acc', r') :=
  members_of_reads (fun _ htakes hbody => htakes _ _ hbody) h (fun m hm => (hall m hm).closed)
    hclose hfolds

theorem takes_leaf (h : ∀ r, member acc ⟨tag, value⟩ r = .ok (acc', r)) :
    Takes member acc (.leaf tag value) acc' := by
  intro r r' hbody
  cases hbody
  exact h r

/-- A member whose members are decoded in their turn. -/
theorem takes_record {τ δ : Type} {inner : τ → Element → Reader → Except δ (τ × Reader)} {a b : τ}
    (hall : ∀ m ∈ ms, m.Plain) (hfolds : Folds (Takes inner) a ms b)
    (h : ∀ r r', (∀ failInner, members failInner inner a r = .ok (b, r')) →
      member acc ⟨tag, start⟩ r = .ok (acc', r')) :
    Takes member acc (.record tag start ms) acc' :=
  fun r r' hbody => h r r' fun _ => members_of_takes hbody hall rfl hfolds

/-- A member that is not looked at. -/
theorem takes_skipped (hall : ∀ m ∈ ms, m.Plain)
    (h : ∀ r r', r.skipContainer = .ok r' → member acc ⟨tag, start⟩ r = .ok (acc', r')) :
    Takes member acc (.record tag start ms) acc' := by
  intro r r' hbody
  exact h r r' (skipContainer_of_reads hbody
    (isBody_elementsOf (fun m hm => (hall m hm).closed) rfl))

/-- A struct that a decoder keeps is kept as one that stands alone. -/
theorem copyValue_structTlv (hall : ∀ m ∈ ms, m.Plain)
    (h : Reads r (elementsOf ms ++ [⟨.anonymous, .containerEnd⟩]) r') :
    copyValue .new r .anonymous .structStart =
      .ok (Writer.new.putMembers [.record .anonymous .structStart ms], r') := by
  rw [copyValue_of_reads h (Member.plain_record rfl hall).closed, Writer.putMembers]
  exact congrArg (fun els => Except.ok (Writer.new.putElements els, r')) (List.append_nil _).symm

/-- Members that are each added to the end of what was read. -/
theorem folds_snoc {α : Type} {member : List α → Element → Reader → Except ε (List α × Reader)}
    {f : α → Member} (h : ∀ acc a, Takes member acc (f a) (acc ++ [a])) (acc as : List α) :
    Folds (Takes member) acc (as.map f) (acc ++ as) := by
  induction as generalizing acc with
  | nil =>
    rw [List.append_nil]
    exact .nil _
  | cons a as ih =>
    rw [List.append_cons]
    exact .cons (h acc a) (ih _)

theorem folds_append {α ι : Type} {P : α → ι → α → Prop} {a b c : α} {is js : List ι}
    (h : Folds P a is b) (h' : Folds P b js c) : Folds P a (is ++ js) c := by
  induction h with
  | nil => exact h'
  | cons hm _ ih => exact .cons hm (ih h')

end

end Reader

/-- A struct that stands alone is written under a tag. -/
theorem Writer.putRawElement_structTlv {ms : List Member} (h : ∀ m ∈ ms, m.Plain)
    (hlen : (structTlv ms).length ≤ usizeMax) (w : Writer) (tag : Tag) :
    w.putRawElement tag (structTlv ms) = some (w.putMembers [.record tag .structStart ms]) := by
  obtain ⟨r, r', hnext, hreads⟩ := Reader.opens_structTlv h hlen
  rw [putRawElement, hnext]
  dsimp only
  rw [copyValue_of_reads hreads (@Member.plain_record ms tag _ rfl h).closed, putMembers]
  exact congrArg (fun els => some (w.putElements els)) (List.append_nil _).symm

end MatStack
