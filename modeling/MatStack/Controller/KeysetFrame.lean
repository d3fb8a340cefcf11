import MatStack.Controller.Keyset
import MatStack.Controller.TlvRecords

/-!
# What a rewritten key set keeps

The record of a key set is a struct of members, some with members of their own (`IsStructOf`,
`Member.Contains`). `TopSeen` and `KeySeen` say what the reader of a key set makes of a member.
`SlotReplaced` is the list of members with another first key in the first array, and `putNext` puts
in another link; everything else is a copy, in its place. The two functions of the source write
those lists (`keysetWithSlot0_of_isStructOf`, `keysetWithNext_of_isStructOf`) for every record that
is read, whatever other members it has and however wide its numbers are.
-/

namespace MatStack

open Reader (Reads Takes)

/-! ## Members of members -/

/-- The body of a member is made of the members and an end. -/
def Member.Contains (m : Member) (ms : List Member) : Prop :=
  (∀ k ∈ ms, k.Closed) ∧ ∃ close, close.value = .containerEnd ∧ m.body = elementsOf ms ++ [close]

/-- The bytes begin with a struct of the members. -/
def IsStructOf (blob : Bytes) (ms : List Member) : Prop :=
  ∃ tag body r r', (Reader.new blob).next = .ok (some ⟨tag, .structStart⟩, r) ∧
    Reads r body r' ∧ Member.Contains ⟨⟨tag, .structStart⟩, body⟩ ms

section
variable {m : Member} {ms : List Member} {els : List Element} {blob : Bytes} {w : Writer}
  {tag : Tag} {start : Value} {r r' : Reader}

/-- What is balanced is made of members. -/
theorem Balanced.members (h : Balanced els) : ∃ ms, (∀ m ∈ ms, m.Closed) ∧ els = elementsOf ms := by
  induction h with
  | nil => exact ⟨[], List.forall_mem_nil _, rfl⟩
  | @leaf el els hstart hend _ ih =>
    obtain ⟨ms, hms, rfl⟩ := ih
    exact ⟨⟨el, []⟩ :: ms, List.forall_mem_cons.2 ⟨.leaf hstart hend, hms⟩, rfl⟩
  | @container el close body els hstart hbody hclose _ _ ih =>
    obtain ⟨ms, hms, rfl⟩ := ih
    refine ⟨⟨el, body ++ [close]⟩ :: ms, List.forall_mem_cons.2
      ⟨.container hstart ⟨body, close, hbody, hclose, rfl⟩, hms⟩, ?_⟩
    rw [elementsOf_cons, List.append_assoc, List.singleton_append]

theorem IsBody.members (h : IsBody els) : ∃ ms close, (∀ m ∈ ms, m.Closed) ∧
    close.value = .containerEnd ∧ els = elementsOf ms ++ [close] := by
  obtain ⟨body, close, hbody, hclose, rfl⟩ := h
  obtain ⟨ms, hms, rfl⟩ := hbody.members
  exact ⟨ms, close, hms, hclose, rfl⟩

theorem Member.Contains.isBody (h : m.Contains ms) : IsBody m.body := by
  obtain ⟨hms, close, hclose, hbody⟩ := h
  rw [hbody]
  exact isBody_elementsOf hms hclose

theorem Member.contains_record (h : ∀ m ∈ ms, m.Closed) : (record tag start ms).Contains ms :=
  ⟨h, _, rfl, rfl⟩

/-- A decoder that takes every member takes the body. -/
theorem Member.Contains.members {σ ε : Type} {fail : Option TlvError → ε}
    {member : σ → Element → Reader → Except ε (σ × Reader)} {acc acc' : σ} (h : m.Contains ms)
    (hfolds : Folds (Takes member) acc ms acc') (hreads : Reads r m.body r') :
    r.members fail member acc = .ok (acc', r') := by
  obtain ⟨hms, close, hclose, hbody⟩ := h
  rw [hbody] at hreads
  exact Reader.members_of_reads (fun _ htakes hbody => htakes _ _ hbody) hreads hms hclose hfolds

/-! ## Copies of members -/

theorem Element.copied_copied (el : Element) : el.copied.copied = el.copied := by
  by_cases h : el.value = .containerEnd
  · rw [copied_of_end h]
    rfl
  · rw [copied_of_ne h, copied_of_ne h]

theorem Member.Closed.plain_copied (h : m.Closed) : m.copied.Plain := by
  refine ⟨h.copied, congrArg (Member.mk m.el) ?_⟩
  show (m.body.map Element.copied).map Element.copied = m.body.map Element.copied
  rw [List.map_map]
  exact List.map_congr_left fun el _ => el.copied_copied

theorem elementsOf_map_copied (h : ∀ m ∈ ms, m.Closed) :
    (elementsOf ms).map Element.copied = elementsOf (ms.map Member.copied) := by
  induction ms with
  | nil => rfl
  | cons m ms ih =>
    obtain ⟨hm, hms⟩ := List.forall_mem_cons.1 h
    rw [elementsOf_cons, List.map_cons, List.map_append, Element.copied_of_ne hm.ne_end, ih hms]
    rfl

theorem forall_copied {P : Member → Prop} (h : ∀ m ∈ ms, P m.copied) :
    ∀ m ∈ ms.map Member.copied, P m := List.forall_mem_map.2 h

theorem Member.Contains.copied (h : m.Contains ms) : m.copied.Contains (ms.map Member.copied) := by
  obtain ⟨hms, close, hclose, hbody⟩ := h
  refine ⟨forall_copied fun m hm => (hms m hm).copied, ⟨.anonymous, .containerEnd⟩, rfl, ?_⟩
  show m.body.map Element.copied = _
  rw [hbody, List.map_append, elementsOf_map_copied hms, List.map_singleton,
    Element.copied_of_end hclose]

/-- A member is copied wherever it is found. -/
theorem takes_copyMember (h : m.Closed) : Takes copyMember w m (w.putMembers [m.copied]) := by
  intro r r' hreads
  obtain ⟨⟨tag, value⟩, body⟩ := m
  have hput : w.putElements (⟨tag, value⟩ :: body) =
      w.putMembers [Member.copied ⟨⟨tag, value⟩, body⟩] := by
    rw [Writer.putMembers, elementsOf_cons]
    show _ = w.putElements (⟨tag, value⟩ :: (body.map Element.copied ++ []))
    rw [List.append_nil, Writer.putElements_cons, Writer.putElements_cons,
      Writer.putElements_copied]
  rw [copyMember, copyValue_of_reads hreads h, hput]

theorem folds_copyMember (h : ∀ m ∈ ms, m.Closed) :
    Folds (Takes copyMember) w ms (w.putMembers (ms.map Member.copied)) := by
  induction ms generalizing w with
  | nil => exact .nil w
  | cons m ms ih =>
    obtain ⟨hm, hms⟩ := List.forall_mem_cons.1 h
    rw [List.map_cons, Writer.putMembers_cons]
    exact .cons (takes_copyMember hm) (ih hms)

/-- What was written as a struct is one. -/
theorem isStructOf_structTlv (h : ∀ m ∈ ms, m.Plain) (hlen : (structTlv ms).length ≤ usizeMax) :
    IsStructOf (structTlv ms) ms := by
  obtain ⟨r, r', hnext, hreads⟩ := Reader.opens_structTlv h hlen
  exact ⟨_, _, r, r', hnext, hreads, fun m hm => (h m hm).closed, _, rfl, rfl⟩

end

/-! ## Fields -/

/-- The octets under a context tag. -/
def bytesAt (n : UInt8) : Element → Option Bytes
  | ⟨.context k, .bytes b⟩ => if k = n then some b else none
  | _ => none

section
variable {n : UInt8} {el : Element} {v : UInt64} {b : Bytes}

theorem uintAt_eq_some : uintAt n el = some v ↔ el = ⟨.context n, .uint v⟩ := by
  constructor
  · intro h
    unfold uintAt at h
    split at h
    · split at h
      · next hk =>
        cases h
        rw [hk]
      · cases h
    · cases h
  · rintro rfl
    exact if_pos rfl

theorem bytesAt_eq_some : bytesAt n el = some b ↔ el = ⟨.context n, .bytes b⟩ := by
  constructor
  · intro h
    unfold bytesAt at h
    split at h
    · split at h
      · next hk =>
        cases h
        rw [hk]
      · cases h
    · cases h
  · rintro rfl
    exact if_pos rfl

theorem uintAt_eq_none : uintAt n el = none ↔ ∀ v, el ≠ ⟨.context n, .uint v⟩ := by
  rw [Option.eq_none_iff_forall_ne_some]
  exact forall_congr' fun v => not_congr uintAt_eq_some

theorem bytesAt_eq_none : bytesAt n el = none ↔ ∀ b, el ≠ ⟨.context n, .bytes b⟩ := by
  rw [Option.eq_none_iff_forall_ne_some]
  exact forall_congr' fun v => not_congr bytesAt_eq_some

theorem statedCount_eq : statedCount el = uintAt 2 el := by
  cases h : uintAt 2 el with
  | some v =>
    obtain rfl := uintAt_eq_some.1 h
    rfl
  | none =>
    unfold statedCount
    split
    · next v htag hvalue =>
      exact absurd (Element.mk.injEq .. ▸ ⟨htag, hvalue⟩) (uintAt_eq_none.1 h v)
    · rfl

end

/-! ## What is read -/

/-- What the reader of a key makes of a member. -/
inductive KeySeen : Option (Fixed 16) × Option UInt16 → Member → Option (Fixed 16) × Option UInt16 →
    Prop
  | hash {s : Option (Fixed 16) × Option UInt16} {v : UInt64} {hash : UInt16} :
    tryU16 v = some hash → KeySeen s ⟨⟨.context 5, .uint v⟩, []⟩ (s.1, some hash)
  | key (s : Option (Fixed 16) × Option UInt16) (key : Fixed 16) :
    KeySeen s ⟨⟨.context 6, .bytes key.1⟩, []⟩ (some key, s.2)
  | other {s : Option (Fixed 16) × Option UInt16} {m : Member} :
    uintAt 5 m.el = none → bytesAt 6 m.el = none → KeySeen s m s

/-- An array of keys: the members of the first, and the others. -/
structure IsKeyArray (m : Member) (ks rest : List Member) : Prop where
  el : m.el = ⟨.context 3, .arrayStart⟩
  slots : ∃ slot, m.Contains (slot :: rest) ∧ slot.el.value = .structStart ∧ slot.Contains ks

/-- What the reader of a key set makes of a member. -/
inductive TopSeen : Option UInt64 × Option (Fixed 16 × Option UInt16) → Member →
    Option UInt64 × Option (Fixed 16 × Option UInt16) → Prop
  | count (s : Option UInt64 × Option (Fixed 16 × Option UInt16)) (v : UInt64) :
    TopSeen s ⟨⟨.context 2, .uint v⟩, []⟩ (some v, s.2)
  | keys {s : Option UInt64 × Option (Fixed 16 × Option UInt16)} {m : Member}
    {ks rest : List Member} {key : Fixed 16} {hash : Option UInt16} : IsKeyArray m ks rest →
    Folds KeySeen (none, none) ks (some key, hash) → TopSeen s m (s.1, some (key, hash))
  | other {s : Option UInt64 × Option (Fixed 16 × Option UInt16)} {m : Member} :
    uintAt 2 m.el = none → isKeyArray m.el = false → TopSeen s m s

section
variable {r r' : Reader} {el : Element} {m : Member} {ms ks rest : List Member}
  {s s' : Option (Fixed 16) × Option UInt16}
  {t t' : Option UInt64 × Option (Fixed 16 × Option UInt16)}
  {fabricIndex : UInt8} {key : Fixed 16} {hash : Option UInt16} {entry : Fixed 16 × Option UInt16}

theorem skipUnknown_ok {σ : Type} {s s' : σ} (hne : el.value ≠ .containerEnd)
    (h : skipUnknown fabricIndex s el.value r = .ok (s', r')) :
    ∃ body, Reads r body r' ∧ Member.Closed ⟨el, body⟩ ∧ s' = s := by
  unfold skipUnknown at h
  split at h
  · next hstart =>
    obtain ⟨r₁, hskip, h⟩ := Checked.bind_eq_ok.1 h
    cases h
    unfold skipRestOfContainer at hskip
    split at hskip
    · next hcontainer =>
      cases hskip
      obtain ⟨body, hreads, hbody⟩ := Reader.skipContainer_ok hcontainer
      exact ⟨body, hreads, .container hstart hbody, rfl⟩
    · cases hskip
  · next hstart =>
    cases h
    exact ⟨[], .nil r, .leaf (Bool.eq_false_iff.2 hstart) hne, rfl⟩

theorem parseKeyMember_ok (hne : el.value ≠ .containerEnd)
    (h : parseKeyMember fabricIndex s el r = .ok (s', r')) :
    ∃ body, Reads r body r' ∧ Member.Closed ⟨el, body⟩ ∧ KeySeen s ⟨el, body⟩ s' := by
  obtain ⟨tag, value⟩ := el
  unfold parseKeyMember at h
  split at h
  · next v htag hvalue =>
    cases htag
    cases hvalue
    split at h
    · next hash hv =>
      cases h
      exact ⟨[], .nil r, .leaf rfl hne, .hash hv⟩
    · cases h
  · next b htag hvalue =>
    cases htag
    cases hvalue
    split at h
    · next key hkey =>
      cases h
      obtain ⟨hlen, hkey⟩ := Option.dite_none_right_eq_some.1 hkey
      cases hkey
      exact ⟨[], .nil r, .leaf rfl hne, .key s ⟨b, hlen⟩⟩
    · cases h
  · next h5 h6 =>
    obtain ⟨body, hreads, hclosed, rfl⟩ := skipUnknown_ok hne h
    refine ⟨body, hreads, hclosed, .other (uintAt_eq_none.2 ?_) (bytesAt_eq_none.2 ?_)⟩
    · rintro v ⟨⟩
      exact h5 v rfl rfl
    · rintro b ⟨⟩
      exact h6 b rfl rfl

theorem KeySeen.takes (h : KeySeen s m s') (hm : m.Closed) :
    Takes (parseKeyMember fabricIndex) s m s' := by
  intro r r' hreads
  have hskip := skipUnknown_of_reads (s := s) fabricIndex hm hreads
  obtain ⟨⟨tag, value⟩, body⟩ := m
  unfold parseKeyMember
  split
  · next v htag hvalue =>
    cases htag
    cases hvalue
    cases h with
    | hash hv =>
      cases hreads
      rw [hv]
    | other h5 _ => exact absurd rfl (uintAt_eq_none.1 h5 v)
  · next b htag hvalue =>
    cases htag
    cases hvalue
    cases h with
    | key k =>
      cases hreads
      rw [Fixed.ofBytes?, dif_pos k.2]
    | other _ h6 => exact absurd rfl (bytesAt_eq_none.1 h6 b)
  · next h5 h6 =>
    cases h with
    | hash hv => exact absurd rfl (h5 _ rfl)
    | key k => exact absurd rfl (h6 _ rfl)
    | other => exact hskip

theorem KeySeen.copied (h : KeySeen s m s') : KeySeen s m.copied s' := by
  cases h with
  | hash hv => exact .hash hv
  | key k => exact .key s k
  | other h5 h6 => exact .other h5 h6

theorem folds_keySeen_copied (h : Folds KeySeen s ks s') :
    Folds KeySeen s (ks.map Member.copied) s' := by
  induction h with
  | nil => exact .nil _
  | cons hm _ ih => exact .cons hm.copied ih

theorem folds_takes_of_keySeen (h : Folds KeySeen s ks s') (hks : ∀ m ∈ ks, m.Closed) :
    Folds (Takes (parseKeyMember fabricIndex)) s ks s' := by
  induction h with
  | nil => exact .nil _
  | cons hm _ ih =>
    obtain ⟨hclosed, hks⟩ := List.forall_mem_cons.1 hks
    exact .cons (hm.takes hclosed) (ih hks)

/-- A key is a struct of members. -/
theorem parseKeyStruct_ok (h : parseKeyStruct fabricIndex r = .ok (entry, r')) :
    ∃ (slot : Member) (ks : List Member), Reads r (slot.el :: slot.body) r' ∧ slot.Closed ∧
      slot.el.value = .structStart ∧ slot.Contains ks ∧
      Folds KeySeen (none, none) ks (some entry.1, entry.2) := by
  unfold parseKeyStruct at h
  split at h
  · next tag r₁ hnext =>
    obtain ⟨⟨⟨key, hash⟩, r₂⟩, hmembers, h⟩ := Checked.bind_eq_ok.1 h
    obtain ⟨ks, close, hreads, hks, hclose, hfolds⟩ :=
      Reader.walk_ok (P := KeySeen) parseKeyMember_ok hmembers
    cases key with
    | none => cases h
    | some key =>
      cases h
      exact ⟨⟨⟨tag, .structStart⟩, elementsOf ks ++ [close]⟩, ks, .cons hnext hreads,
        .container rfl (isBody_elementsOf hks hclose), rfl, ⟨hks, close, hclose, rfl⟩, hfolds⟩
  · cases h

theorem parseKeyStruct_of_contains {slot : Member} (hslot : slot.el.value = .structStart)
    (hks : slot.Contains ks) (hfolds : Folds KeySeen (none, none) ks (some key, hash))
    (h : Reads r (slot.el :: slot.body) r') :
    parseKeyStruct fabricIndex r = .ok ((key, hash), r') := by
  obtain ⟨⟨tag, value⟩, body⟩ := slot
  cases hslot
  cases h with
  | cons hnext hrest =>
    rw [parseKeyStruct, hnext]
    dsimp only
    rw [hks.members (folds_takes_of_keySeen hfolds hks.1) hrest]
    rfl

theorem parseKeysetMember_ok (hne : el.value ≠ .containerEnd)
    (h : parseKeysetMember fabricIndex t el r = .ok (t', r')) :
    ∃ body, Reads r body r' ∧ Member.Closed ⟨el, body⟩ ∧ TopSeen t ⟨el, body⟩ t' := by
  have hother : skipUnknown fabricIndex t el.value r = .ok (t', r') →
      (∀ v, el ≠ ⟨.context 2, .uint v⟩) → el ≠ ⟨.context 3, .arrayStart⟩ →
      ∃ body, Reads r body r' ∧ Member.Closed ⟨el, body⟩ ∧ TopSeen t ⟨el, body⟩ t' := by
    intro h hcount harray
    obtain ⟨body, hreads, hclosed, rfl⟩ := skipUnknown_ok hne h
    exact ⟨body, hreads, hclosed, .other (uintAt_eq_none.2 hcount)
      (Bool.eq_false_iff.2 fun he => harray (isKeyArray_iff.1 he))⟩
  obtain ⟨tag, value⟩ := el
  unfold parseKeysetMember at h
  cases value with
  | uint v =>
    dsimp only at h
    split at h
    · next htag =>
      cases htag
      cases h
      exact ⟨[], .nil r, .leaf rfl hne, .count t v⟩
    · next htag => exact hother h (fun w he => htag (congrArg Element.tag he)) (by rintro ⟨⟩)
  | arrayStart =>
    dsimp only at h
    split at h
    · next htag =>
      cases htag
      obtain ⟨⟨⟨key, hash⟩, r₁⟩, hkey, h⟩ := Checked.bind_eq_ok.1 h
      obtain ⟨r₂, hskip, h⟩ := Checked.bind_eq_ok.1 h
      cases h
      obtain ⟨slot, ks, hreads, hslot, hstart, hks, hfolds⟩ := parseKeyStruct_ok hkey
      unfold skipRestOfContainer at hskip
      split at hskip
      · next hcontainer =>
        cases hskip
        obtain ⟨els, hrest, hbody⟩ := Reader.skipContainer_ok hcontainer
        obtain ⟨rest, close, hclosed, hclose, rfl⟩ := hbody.members
        have hall : Member.Contains ⟨⟨.context 3, .arrayStart⟩,
            slot.el :: slot.body ++ (elementsOf rest ++ [close])⟩ (slot :: rest) := by
          refine ⟨List.forall_mem_cons.2 ⟨hslot, hclosed⟩, close, hclose, ?_⟩
          rw [elementsOf_cons, List.cons_append, List.cons_append, List.append_assoc]
        exact ⟨_, hreads.append hrest, .container rfl hall.isBody,
          .keys ⟨rfl, slot, hall, hstart, hks⟩ hfolds⟩
      · cases hskip
    · next htag => exact hother h (by rintro v ⟨⟩) fun he => htag (congrArg Element.tag he)
  | _ => exact hother h (by rintro v ⟨⟩) (by rintro ⟨⟩)

theorem TopSeen.takes (h : TopSeen t m t') (hm : m.Closed) :
    Takes (parseKeysetMember fabricIndex) t m t' := by
  intro r r' hreads
  cases h with
  | count v =>
    cases hreads
    rfl
  | keys hkeys hfolds =>
    obtain ⟨hel, slot, ⟨hall, close, hclose, hbody⟩, hstart, hks⟩ := hkeys
    obtain ⟨el, body⟩ := m
    obtain rfl : el = _ := hel
    obtain rfl : body = _ := hbody
    rw [elementsOf_cons, List.cons_append, List.append_assoc, ← List.cons_append] at hreads
    obtain ⟨r₁, hslot, hrest⟩ := hreads.append_cases
    have hskip : skipRestOfContainer fabricIndex r₁ = .ok r' := by
      rw [skipRestOfContainer, Reader.skipContainer_of_reads hrest
        (isBody_elementsOf (List.forall_mem_cons.1 hall).2 hclose)]
    unfold parseKeysetMember
    dsimp only
    rw [if_pos rfl, parseKeyStruct_of_contains hstart hks hfolds hslot, Checked.ok_bind]
    dsimp only
    rw [hskip]
    rfl
  | other hcount harray =>
    have hskip := skipUnknown_of_reads (s := t) fabricIndex hm hreads
    obtain ⟨⟨tag, value⟩, body⟩ := m
    unfold parseKeysetMember
    cases value with
    | uint v =>
      have htag : tag ≠ .context 2 := by
        rintro rfl
        exact uintAt_eq_none.1 hcount v rfl
      exact (if_neg htag).trans hskip
    | arrayStart =>
      have htag : tag ≠ .context 3 := by
        rintro rfl
        cases harray
      exact (if_neg htag).trans hskip
    | _ => exact hskip

theorem TopSeen.copied (h : TopSeen t m t') : TopSeen t m.copied t' := by
  cases h with
  | count v => exact .count t v
  | keys hkeys hfolds =>
    obtain ⟨hel, slot, hall, hstart, hks⟩ := hkeys
    exact .keys ⟨hel, slot.copied, hall.copied, hstart, hks.copied⟩ (folds_keySeen_copied hfolds)
  | other hcount harray => exact .other hcount harray

theorem folds_takes_of_topSeen (h : Folds TopSeen t ms t') (hms : ∀ m ∈ ms, m.Closed) :
    Folds (Takes (parseKeysetMember fabricIndex)) t ms t' := by
  induction h with
  | nil => exact .nil _
  | cons hm _ ih =>
    obtain ⟨hclosed, hms⟩ := List.forall_mem_cons.1 hms
    exact .cons (hm.takes hclosed) (ih hms)

/-- **Reading.** A record is read as a key exactly when it is a struct with a count of at least one
and a key. -/
theorem parseKeysetFirstEntry_eq_ok {blob : Bytes} :
    parseKeysetFirstEntry fabricIndex blob = .ok entry ↔ ∃ ms n, IsStructOf blob ms ∧
      Folds TopSeen (none, none) ms (some n, some entry) ∧ 1 ≤ n := by
  constructor
  · intro h
    unfold parseKeysetFirstEntry at h
    split at h
    · next tag r hnext =>
      obtain ⟨⟨⟨count, found⟩, r'⟩, hmembers, h⟩ := Checked.bind_eq_ok.1 h
      obtain ⟨ms, close, hreads, hms, hclose, hfolds⟩ :=
        Reader.walk_ok (P := TopSeen) parseKeysetMember_ok hmembers
      have hstruct : IsStructOf blob ms :=
        ⟨tag, _, r, r', hnext, hreads, hms, close, hclose, rfl⟩
      cases count with
      | none => cases h
      | some n =>
        dsimp only at h
        by_cases hn : n < 1
        · rw [if_pos hn] at h
          cases h
        · rw [if_neg hn] at h
          cases found with
          | none => cases h
          | some found =>
            cases h
            exact ⟨ms, n, hstruct, hfolds, UInt64.not_lt.1 hn⟩
    · cases h
  · rintro ⟨ms, n, ⟨tag, body, r, r', hnext, hreads, hms⟩, hfolds, hn⟩
    rw [parseKeysetFirstEntry, hnext]
    dsimp only
    rw [hms.members (folds_takes_of_topSeen hfolds hms.1) hreads, Checked.ok_bind]
    dsimp only
    rw [if_neg (UInt64.not_lt.2 hn)]
    rfl

/-- The count is the last one. -/
theorem folds_topSeen_count (h : Folds TopSeen t ms t') :
    t'.1 = (((ms.map (·.el)).filterMap statedCount).getLast?).or t.1 := by
  induction h with
  | nil => rfl
  | @cons t t₁ t' m ms hm _ ih =>
    rw [ih, List.map_cons]
    cases hm with
    | count v =>
      rw [List.filterMap_cons_some (show statedCount ⟨.context 2, .uint v⟩ = some v from rfl),
        List.getLast?_cons]
      cases ((ms.map (·.el)).filterMap statedCount).getLast? <;> rfl
    | keys hkeys _ =>
      rw [hkeys.el]
      rfl
    | other hcount _ => rw [List.filterMap_cons_none (statedCount_eq.trans hcount)]

end

/-! ## Another first key -/

section
variable (startTime : UInt64) (hash : UInt16) (key : Fixed 16)

/-- A member of the first key with what is put in. -/
def putSlot (m : Member) : Member :=
  if (uintAt 4 m.el).isSome then .leaf (.context 4) (.uint startTime)
  else if (uintAt 5 m.el).isSome then .leaf (.context 5) (.uint hash.toUInt64)
  else if (bytesAt 6 m.el).isSome then .leaf (.context 6) (.bytes key.1)
  else m.copied

/-- What is put in behind the others. -/
def missingFields (put4 put5 put6 : Bool) : List Member :=
  (if put4 then [] else [.leaf (.context 4) (.uint startTime)]) ++
    ((if put5 then [] else [.leaf (.context 5) (.uint hash.toUInt64)]) ++
      if put6 then [] else [.leaf (.context 6) (.bytes key.1)])

/-- The members of the first key with another start time, session id and key. -/
def newSlot (ks : List Member) : List Member :=
  ks.map (putSlot startTime hash key) ++ missingFields startTime hash key
    (ks.any fun m => (uintAt 4 m.el).isSome) (ks.any fun m => (uintAt 5 m.el).isSome)
    (ks.any fun m => (bytesAt 6 m.el).isSome)

/-- The first array of keys has another first key; the rest is copied. -/
inductive SlotReplaced : List Member → List Member → Prop
  | here {m : Member} {ms ks rest : List Member} : IsKeyArray m ks rest →
    SlotReplaced (m :: ms) (.record (.context 3) .arrayStart
      (.record .anonymous .structStart (newSlot startTime hash key ks) :: rest.map Member.copied) ::
        ms.map Member.copied)
  | later {m : Member} {ms ms' : List Member} : isKeyArray m.el = false → SlotReplaced ms ms' →
    SlotReplaced (m :: ms) (m.copied :: ms')

end

section
variable {startTime : UInt64} {hash : UInt16} {key : Fixed 16} {m : Member}
  {ms ms' ks rest : List Member} {w : Writer} {r r' : Reader} {s : SlotCopy}

theorem takes_slotMember (hm : m.Closed) : Takes (slotMember startTime hash key) s m
    ⟨s.w.putMembers [putSlot startTime hash key m], s.put4 || (uintAt 4 m.el).isSome,
      s.put5 || (uintAt 5 m.el).isSome, s.put6 || (bytesAt 6 m.el).isSome⟩ := by
  intro r r' hreads
  have hcopy := takes_copyMember (w := s.w) hm r r' hreads
  have hleaf := hm.leaf_body
  obtain ⟨⟨tag, value⟩, body⟩ := m
  unfold slotMember
  split
  · next v htag hvalue =>
    cases htag
    cases hvalue
    obtain rfl := hleaf rfl
    cases hreads
    have h4 : (uintAt 4 ⟨.context 4, .uint v⟩).isSome = true := rfl
    have h5 : (uintAt 5 ⟨.context 4, .uint v⟩).isSome = false := rfl
    have h6 : (bytesAt 6 ⟨.context 4, .uint v⟩).isSome = false := rfl
    dsimp only
    rw [h4, h5, h6, Bool.or_true, Bool.or_false, Bool.or_false]
    rfl
  · next v htag hvalue =>
    cases htag
    cases hvalue
    obtain rfl := hleaf rfl
    cases hreads
    have h4 : (uintAt 4 ⟨.context 5, .uint v⟩).isSome = false := rfl
    have h5 : (uintAt 5 ⟨.context 5, .uint v⟩).isSome = true := rfl
    have h6 : (bytesAt 6 ⟨.context 5, .uint v⟩).isSome = false := rfl
    dsimp only
    rw [h4, h5, h6, Bool.or_false, Bool.or_true, Bool.or_false]
    rfl
  · next b htag hvalue =>
    cases htag
    cases hvalue
    obtain rfl := hleaf rfl
    cases hreads
    have h4 : (uintAt 4 ⟨.context 6, .bytes b⟩).isSome = false := rfl
    have h5 : (uintAt 5 ⟨.context 6, .bytes b⟩).isSome = false := rfl
    have h6 : (bytesAt 6 ⟨.context 6, .bytes b⟩).isSome = true := rfl
    dsimp only
    rw [h4, h5, h6, Bool.or_false, Bool.or_false, Bool.or_true]
    rfl
  · next h4 h5 h6 =>
    have h4' : uintAt 4 ⟨tag, value⟩ = none := by
      rw [uintAt_eq_none]
      rintro v ⟨⟩
      exact h4 v rfl rfl
    have h5' : uintAt 5 ⟨tag, value⟩ = none := by
      rw [uintAt_eq_none]
      rintro v ⟨⟩
      exact h5 v rfl rfl
    have h6' : bytesAt 6 ⟨tag, value⟩ = none := by
      rw [bytesAt_eq_none]
      rintro b ⟨⟩
      exact h6 b rfl rfl
    dsimp only at hcopy ⊢
    rw [hcopy, putSlot, h4', h5', h6']
    simp only [Option.isSome_none, Bool.or_false]
    rfl

theorem folds_slotMember (hks : ∀ m ∈ ks, m.Closed) :
    Folds (Takes (slotMember startTime hash key)) s ks
      ⟨s.w.putMembers (ks.map (putSlot startTime hash key)),
      s.put4 || ks.any fun m => (uintAt 4 m.el).isSome,
      s.put5 || ks.any fun m => (uintAt 5 m.el).isSome,
      s.put6 || ks.any fun m => (bytesAt 6 m.el).isSome⟩ := by
  induction ks generalizing s with
  | nil =>
    simp only [List.any_nil, Bool.or_false]
    exact .nil s
  | cons m ks ih =>
    obtain ⟨hm, hks⟩ := List.forall_mem_cons.1 hks
    simp only [List.map_cons, List.any_cons, ← Bool.or_assoc]
    rw [Writer.putMembers_cons]
    exact .cons (takes_slotMember hm) (ih hks)

theorem complete_eq (w : Writer) (put4 put5 put6 : Bool) :
    SlotCopy.complete startTime hash key ⟨w, put4, put5, put6⟩ =
      w.putMembers (missingFields startTime hash key put4 put5 put6) := by
  cases put4 <;> cases put5 <;> cases put6 <;> rfl

/-- An array of keys is written with another first key. -/
theorem copyKeyArray_of_isKeyArray (h : IsKeyArray m ks rest) (hreads : Reads r m.body r') :
    copyKeyArray startTime hash key w r = .ok (w.putMembers [.record (.context 3) .arrayStart
      (.record .anonymous .structStart (newSlot startTime hash key ks) ::
        rest.map Member.copied)], r') := by
  obtain ⟨-, ⟨⟨tag, value⟩, body⟩, ⟨hall, close, hclose, hbody⟩, hstart, hks⟩ := h
  obtain rfl : value = _ := hstart
  obtain ⟨-, hrest⟩ := List.forall_mem_cons.1 hall
  rw [hbody, elementsOf_cons, List.cons_append, List.append_assoc] at hreads
  cases hreads with
  | cons hnext hreads =>
    obtain ⟨r₁, hslot, hothers⟩ := hreads.append_cases
    have hfolds : Folds (Takes (slotMember startTime hash key))
        ⟨(w.startArray (.context 3)).startStruct .anonymous, false, false, false⟩ ks _ :=
      folds_slotMember hks.1
    have hcopies (w : Writer) : r₁.members (fun _ => ()) copyMember w =
        .ok (w.putMembers (rest.map Member.copied), r') :=
      Reader.members_of_reads (fun _ htakes hbody => htakes _ _ hbody) hothers hrest hclose
        (folds_copyMember hrest)
    rw [copyKeyArray, hnext]
    dsimp only
    rw [hks.members hfolds hslot, Checked.ok_bind]
    dsimp only
    rw [hcopies, Checked.ok_bind, complete_eq, Writer.putMembers_record,
      Writer.putMembers_recordCons, newSlot, Writer.putMembers_append]
    rfl

theorem keysetMember_copies {t : Writer × Bool} {el : Element}
    (h : isKeyArray el = false ∨ t.2 = true) :
    keysetMember startTime hash key t el r =
      (copyMember t.1 el r).map fun x => ((x.1, t.2), x.2) := by
  obtain ⟨tag, value⟩ := el
  obtain ⟨w, seen⟩ := t
  unfold keysetMember
  split
  · next htag hvalue hseen =>
    cases htag
    cases hvalue
    cases hseen
    rcases h with h | h <;> cases h
  · cases copyMember w ⟨tag, value⟩ r <;> rfl

theorem takes_keysetMember {t : Writer × Bool} (hm : m.Closed)
    (h : isKeyArray m.el = false ∨ t.2 = true) :
    Takes (keysetMember startTime hash key) t m (t.1.putMembers [m.copied], t.2) := by
  intro r r' hreads
  rw [keysetMember_copies h, takes_copyMember hm r r' hreads]
  rfl

theorem folds_keysetMember_seen (hms : ∀ m ∈ ms, m.Closed) :
    Folds (Takes (keysetMember startTime hash key)) (w, true) ms
      (w.putMembers (ms.map Member.copied), true) := by
  induction ms generalizing w with
  | nil => exact .nil _
  | cons m ms ih =>
    obtain ⟨hm, hms⟩ := List.forall_mem_cons.1 hms
    rw [List.map_cons, Writer.putMembers_cons]
    exact .cons (takes_keysetMember hm (.inr rfl)) (ih hms)

theorem SlotReplaced.folds (h : SlotReplaced startTime hash key ms ms')
    (hms : ∀ m ∈ ms, m.Closed) : Folds (Takes (keysetMember startTime hash key)) (w, false) ms
      (w.putMembers ms', true) := by
  induction h generalizing w with
  | @here m ms ks rest hkeys =>
    obtain ⟨-, hms⟩ := List.forall_mem_cons.1 hms
    rw [Writer.putMembers_cons]
    refine .cons (fun r r' hreads => ?_) (folds_keysetMember_seen hms)
    rw [hkeys.el, keysetMember, copyKeyArray_of_isKeyArray (w := w) hkeys hreads]
    rfl
  | @later m ms ms' harray _ ih =>
    obtain ⟨hm, hms⟩ := List.forall_mem_cons.1 hms
    rw [Writer.putMembers_cons]
    exact .cons (takes_keysetMember hm (.inl harray)) (ih hms)

theorem plain_putSlot (hm : m.Closed) : (putSlot startTime hash key m).Plain := by
  unfold putSlot
  split_ifs
  · exact Member.plain_leaf rfl nofun
  · exact Member.plain_leaf rfl nofun
  · exact Member.plain_leaf rfl nofun
  · exact hm.plain_copied

theorem plain_missingFields (put4 put5 put6 : Bool) :
    ∀ m ∈ missingFields startTime hash key put4 put5 put6, m.Plain := by
  have hleaf : ∀ (b : Bool) (tag : Tag) (value : Value), value.isStart = false →
      value ≠ .containerEnd → ∀ m ∈ (if b then [] else [Member.leaf tag value]), m.Plain := by
    intro b tag value hstart hend m hm
    cases b with
    | true => cases hm
    | false =>
      obtain rfl := List.mem_singleton.1 hm
      exact Member.plain_leaf hstart hend
  unfold missingFields
  rw [List.forall_mem_append, List.forall_mem_append]
  exact ⟨hleaf _ _ _ rfl nofun, hleaf _ _ _ rfl nofun, hleaf _ _ _ rfl nofun⟩

theorem plain_newSlot (hks : ∀ m ∈ ks, m.Closed) :
    ∀ m ∈ newSlot startTime hash key ks, m.Plain := by
  unfold newSlot
  rw [List.forall_mem_append, List.forall_mem_map]
  exact ⟨fun m hm => plain_putSlot (hks m hm), plain_missingFields _ _ _⟩

theorem SlotReplaced.plain (h : SlotReplaced startTime hash key ms ms')
    (hms : ∀ m ∈ ms, m.Closed) : ∀ m ∈ ms', m.Plain := by
  induction h with
  | here hkeys =>
    obtain ⟨-, slot, ⟨hall, -⟩, -, hks⟩ := hkeys
    obtain ⟨-, hms⟩ := List.forall_mem_cons.1 hms
    obtain ⟨-, hrest⟩ := List.forall_mem_cons.1 hall
    refine List.forall_mem_cons.2 ⟨Member.plain_record rfl (List.forall_mem_cons.2
      ⟨Member.plain_record rfl (plain_newSlot hks.1), ?_⟩), ?_⟩
    · exact forall_copied fun m hm => (hrest m hm).plain_copied
    · exact forall_copied fun m hm => (hms m hm).plain_copied
  | later _ _ ih =>
    obtain ⟨hm, hms⟩ := List.forall_mem_cons.1 hms
    exact List.forall_mem_cons.2 ⟨hm.plain_copied, ih hms⟩

/-- The members have the same elements. -/
theorem SlotReplaced.els (h : SlotReplaced startTime hash key ms ms') :
    ms'.map (·.el) = ms.map (·.el) := by
  have hcopied : ∀ ms : List Member, (ms.map Member.copied).map (·.el) = ms.map (·.el) :=
    fun ms => List.map_map
  induction h with
  | here hkeys => rw [List.map_cons, List.map_cons, hcopied, hkeys.el]; rfl
  | later _ _ ih => rw [List.map_cons, List.map_cons, ih]; rfl

/-- **Another first key.** The record of the new list of members is written. -/
theorem keysetWithSlot0_of_isStructOf {blob : Bytes} (hblob : IsStructOf blob ms)
    (h : SlotReplaced startTime hash key ms ms') :
    keysetWithSlot0 startTime hash key blob = some (structTlv ms') := by
  obtain ⟨tag, body, r, r', hnext, hreads, hms⟩ := hblob
  have hfolds := h.folds (w := Writer.new.startStruct .anonymous) hms.1
  rw [keysetWithSlot0, hnext]
  dsimp only
  rw [hms.members hfolds hreads]
  dsimp only
  rw [structTlv, Writer.putMembers_record]
  rfl

/-- A record that is read has an array of keys. -/
theorem exists_slotReplaced {t t' : Option UInt64 × Option (Fixed 16 × Option UInt16)}
    (h : Folds TopSeen t ms t') (hnone : t.2 = none) (hsome : t'.2 ≠ none) :
    ∃ ms', SlotReplaced startTime hash key ms ms' := by
  induction h with
  | nil t => exact absurd hnone hsome
  | @cons t t₁ t' m ms hm _ ih =>
    cases hm with
    | count v =>
      obtain ⟨ms', hms'⟩ := ih hnone hsome
      exact ⟨_, .later rfl hms'⟩
    | keys hkeys _ => exact ⟨_, .here hkeys⟩
    | other _ harray =>
      obtain ⟨ms', hms'⟩ := ih hnone hsome
      exact ⟨_, .later harray hms'⟩

end

/-! ## Another link -/

/-- A member of the record with another link. -/
def putNext (next : UInt16) (m : Member) : Member :=
  if (uintAt 7 m.el).isSome then .leaf (.context 7) (.uint next.toUInt64) else m.copied

/-- What a member says of the link. -/
def linkOf (next : Option UInt16) (el : Element) : Option UInt16 := (uintAt 7 el).elim next tryU16

section
variable {next : UInt16} {m : Member} {ms : List Member} {w : Writer} {r r' : Reader}
  {link : Option UInt16} {blob : Bytes}

theorem takes_nextMember {t : Writer × Bool} (hm : m.Closed) : Takes (nextMember next) t m
    (t.1.putMembers [putNext next m], t.2 || (uintAt 7 m.el).isSome) := by
  intro r r' hreads
  unfold nextMember putNext
  cases h : uintAt 7 m.el with
  | some v =>
    have hbody := hm.leaf_body (by rw [uintAt_eq_some.1 h]; rfl)
    rw [hbody] at hreads
    cases hreads
    rw [Option.isSome_some, if_pos rfl, if_pos rfl, Bool.or_true]
    rfl
  | none =>
    rw [Option.isSome_none, if_neg Bool.false_ne_true, if_neg Bool.false_ne_true, Bool.or_false,
      takes_copyMember hm r r' hreads]
    rfl

theorem folds_nextMember {t : Writer × Bool} (hms : ∀ m ∈ ms, m.Closed) :
    Folds (Takes (nextMember next)) t ms (t.1.putMembers (ms.map (putNext next)),
      t.2 || ms.any fun m => (uintAt 7 m.el).isSome) := by
  induction ms generalizing t with
  | nil =>
    rw [List.any_nil, Bool.or_false]
    exact .nil t
  | cons m ms ih =>
    obtain ⟨hm, hms⟩ := List.forall_mem_cons.1 hms
    rw [List.map_cons, List.any_cons, ← Bool.or_assoc, Writer.putMembers_cons]
    exact .cons (takes_nextMember hm) (ih hms)

theorem plain_putNext (hm : m.Closed) : (putNext next m).Plain := by
  unfold putNext
  split_ifs
  · exact Member.plain_leaf rfl nofun
  · exact hm.plain_copied

/-- **Another link.** The record with the link put in is written if there was one. -/
theorem keysetWithNext_of_isStructOf (hblob : IsStructOf blob ms) :
    keysetWithNext next blob = if ms.any (fun m => (uintAt 7 m.el).isSome) then
      some (structTlv (ms.map (putNext next))) else none := by
  obtain ⟨tag, body, r, r', hnext, hreads, hms⟩ := hblob
  have hfolds (next : UInt16) : Folds (Takes (nextMember next))
      (Writer.new.startStruct .anonymous, false) ms _ := folds_nextMember hms.1
  rw [keysetWithNext, hnext]
  dsimp only
  rw [hms.members (hfolds next) hreads, Bool.false_or]
  cases ms.any fun m => (uintAt 7 m.el).isSome with
  | true =>
    rw [if_pos rfl, structTlv, Writer.putMembers_record]
    rfl
  | false => rfl

theorem takes_walkFlatMember {σ : Type} {onField : σ → UInt8 → Value → σ} {s s' : σ} (hm : m.Closed)
    (hstart : m.el.value.isStart = true → s' = s)
    (hleaf : ∀ t v, m.el = ⟨.context t, v⟩ → v.isStart = false → s' = onField s t v)
    (hother : (∀ t, m.el.tag ≠ .context t) → s' = s) : Takes (walkFlatMember onField) s m s' := by
  intro r r' hreads
  unfold walkFlatMember
  cases hm with
  | @leaf el hvalue hend =>
    obtain ⟨tag, v⟩ := el
    cases hreads
    rw [hvalue, if_neg Bool.false_ne_true]
    cases tag with
    | context t => rw [hleaf t v rfl hvalue]
    | _ => rw [hother (by rintro t ⟨⟩)]
  | container hvalue hbody =>
    rw [hvalue, if_pos rfl, Reader.skipContainer_of_reads hreads hbody, hstart hvalue]
    rfl

/-- The link is the last one. -/
theorem keysetNext_of_isStructOf (hblob : IsStructOf blob ms) :
    keysetNext blob = (ms.map (·.el)).foldl linkOf none := by
  obtain ⟨tag, body, r, r', hnext, hreads, hms⟩ := hblob
  have hother : ∀ {el : Element} {link : Option UInt16}, (∀ v, el ≠ ⟨.context 7, .uint v⟩) →
      linkOf link el = link := by
    intro el link h
    rw [linkOf, uintAt_eq_none.2 h]
    rfl
  have htakes : ∀ link, ∀ m ∈ ms, Takes (walkFlatMember fun next t v =>
      (uintAt 7 ⟨.context t, v⟩).elim next tryU16) link m (linkOf link m.el) := by
    intro link m hm
    refine takes_walkFlatMember (hms.1 m hm) (fun h => hother ?_)
      (fun t v hel _ => by rw [hel]; rfl) fun h => hother ?_
    · intro v hel
      rw [hel] at h
      cases h
    · intro v hel
      rw [hel] at h
      exact h 7 rfl
  have hfolds : ∀ (ms : List Member) link, (∀ link, ∀ m ∈ ms, Takes (walkFlatMember fun next t v =>
      (uintAt 7 ⟨.context t, v⟩).elim next tryU16) link m (linkOf link m.el)) →
      Folds (Takes (walkFlatMember fun next t v => (uintAt 7 ⟨.context t, v⟩).elim next tryU16))
        link ms ((ms.map (·.el)).foldl linkOf link) := by
    intro ms
    induction ms with
    | nil => exact fun link _ => .nil link
    | cons m ms ih =>
      intro link h
      exact .cons (h link m List.mem_cons_self)
        (ih _ fun link m hm => h link m (List.mem_cons_of_mem _ hm))
  rw [keysetNext, walkFlatStruct, hnext]
  dsimp only
  rw [hms.members (hfolds ms none htakes) hreads]
  rfl

/-- The link that was put in is the link that is read. -/
theorem foldl_linkOf_putNext (link : Option UInt16) :
    ((ms.map (putNext next)).map (·.el)).foldl linkOf link =
      if ms.any (fun m => (uintAt 7 m.el).isSome) then some next else link := by
  induction ms generalizing link with
  | nil => rfl
  | cons m ms ih =>
    rw [List.map_cons, List.map_cons, List.foldl_cons, ih, List.any_cons]
    unfold putNext
    cases h : uintAt 7 m.el with
    | some v =>
      rw [Option.isSome_some, if_pos rfl, Bool.true_or, if_pos rfl]
      have hlink : linkOf link (Member.leaf (.context 7) (.uint next.toUInt64)).el = some next :=
        tryU16_toUInt64 next
      rw [hlink]
      exact ite_self _
    | none =>
      have hlink : linkOf link m.copied.el = link := by
        show (uintAt 7 m.el).elim link tryU16 = link
        rw [h]
        rfl
      rw [Option.isSome_none, if_neg Bool.false_ne_true, Bool.false_or, hlink]

/-- Another link does not change what is read. -/
theorem folds_topSeen_putNext {t t' : Option UInt64 × Option (Fixed 16 × Option UInt16)}
    (h : Folds TopSeen t ms t') : Folds TopSeen t (ms.map (putNext next)) t' := by
  induction h with
  | nil t => exact .nil t
  | @cons t t₁ t' m ms hm _ ih =>
    refine .cons ?_ ih
    unfold putNext
    cases h : uintAt 7 m.el with
    | some v =>
      have hel := uintAt_eq_some.1 h
      have hsame : t₁ = t := by
        cases hm with
        | count v => cases hel
        | keys hkeys _ => cases hkeys.el.symm.trans hel
        | other => rfl
      rw [Option.isSome_some, if_pos rfl, hsame]
      exact .other rfl rfl
    | none =>
      rw [Option.isSome_none, if_neg Bool.false_ne_true]
      exact hm.copied

end

/-! ## Rewritten key sets -/

/-- **What a rewritten key set keeps.** A record that is read is a struct of members. The record
with another first key is the same struct with the start time, the session id and the key put into
the first key of the first array (`SlotReplaced`); the record with another link, if it had one, is
the same struct with the link put in. Every other member is a copy, in its place. Where there is one
array of keys, the key that is read is the one that was put in; another link leaves it as it is. A
buffer is never longer than `usizeMax`. -/
theorem keyset_rewritten {blob : Bytes} {fabricIndex : UInt8} {entry : Fixed 16 × Option UInt16}
    (h : parseKeysetFirstEntry fabricIndex blob = .ok entry) (startTime : UInt64) (hash : UInt16)
    (key : Fixed 16) (next : UInt16) : ∃ ms, IsStructOf blob ms ∧
    (∃ ms', SlotReplaced startTime hash key ms ms' ∧
      keysetWithSlot0 startTime hash key blob = some (structTlv ms') ∧
      ((structTlv ms').length ≤ usizeMax → IsStructOf (structTlv ms') ms' ∧
        keysetNext (structTlv ms') = keysetNext blob ∧
        ((ms.filter fun m => isKeyArray m.el).length = 1 →
          parseKeysetFirstEntry fabricIndex (structTlv ms') = .ok (key, some hash)))) ∧
    (keysetWithNext next blob = if ms.any (fun m => (uintAt 7 m.el).isSome) then
      some (structTlv (ms.map (putNext next))) else none) ∧
    (ms.any (fun m => (uintAt 7 m.el).isSome) = true →
      (structTlv (ms.map (putNext next))).length ≤ usizeMax →
        IsStructOf (structTlv (ms.map (putNext next))) (ms.map (putNext next)) ∧
        keysetNext (structTlv (ms.map (putNext next))) = some next ∧
        parseKeysetFirstEntry fabricIndex (structTlv (ms.map (putNext next))) = .ok entry) := by
  obtain ⟨ms, n, hblob, hfolds, hn⟩ := parseKeysetFirstEntry_eq_ok.1 h
  have hms : ∀ m ∈ ms, m.Closed := by
    obtain ⟨-, -, -, -, -, -, hms, -⟩ := hblob
    exact hms
  refine ⟨ms, hblob, ?_, keysetWithNext_of_isStructOf hblob, fun hlink hlen => ?_⟩
  · obtain ⟨ms', hslot⟩ : ∃ ms', SlotReplaced startTime hash key ms ms' :=
      exists_slotReplaced hfolds rfl nofun
    have hout := keysetWithSlot0_of_isStructOf hblob hslot
    refine ⟨ms', hslot, hout, fun hlen => ?_⟩
    have hstruct := isStructOf_structTlv (hslot.plain hms) hlen
    refine ⟨hstruct, ?_, fun hone =>
      (parseKeysetFirstEntry_keysetWithSlot0 fabricIndex hout hlen).2 ?_⟩
    · rw [keysetNext_of_isStructOf hstruct, keysetNext_of_isStructOf hblob, hslot.els]
    · obtain ⟨tag, body, r, r', hnext, hreads, -, close, hclose, hbody⟩ := hblob
      obtain rfl : body = _ := hbody
      have hcount := folds_topSeen_count hfolds
      rw [Option.or_none] at hcount
      rw [hasKeysetShape, outline_of_reads hnext hreads hms hclose]
      dsimp only
      rw [← hcount, List.filter_map, List.length_map, Bool.and_eq_true, decide_eq_true_eq,
        decide_eq_true_eq]
      exact ⟨Nat.le_of_eq hone, hn⟩
  · have hplain : ∀ m ∈ ms.map (putNext next), m.Plain :=
      List.forall_mem_map.2 fun m hm => plain_putNext (hms m hm)
    have hstruct := isStructOf_structTlv hplain hlen
    refine ⟨hstruct, ?_, parseKeysetFirstEntry_eq_ok.2
      ⟨_, n, hstruct, folds_topSeen_putNext hfolds, hn⟩⟩
    rw [keysetNext_of_isStructOf hstruct, foldl_linkOf_putNext, hlink, if_pos rfl]

/-- A key set with two keys, the count in four bytes, a member that is not known and a link. -/
def linkedKeyset : Bytes :=
  [0x15, 0x26, 0x02, 0x01, 0x00, 0x00, 0x00, 0x36, 0x03, 0x15, 0x24, 0x05, 0x07, 0x30, 0x06,
    0x10] ++ List.replicate 16 0x11 ++
    [0x18, 0x15, 0x24, 0x04, 0x09, 0x18, 0x18, 0x37, 0x09, 0x18, 0x24, 0x07, 0x05, 0x18]

theorem keyset_rewritten_sample :
    ∃ ms, IsStructOf linkedKeyset ms ∧ ∃ ms',
      SlotReplaced 3 0x1234 ⟨List.replicate 16 0x33, rfl⟩ ms ms' ∧
      keysetWithSlot0 3 0x1234 ⟨List.replicate 16 0x33, rfl⟩ linkedKeyset =
        some (structTlv ms') := by
  have hread : parseKeysetFirstEntry 1 linkedKeyset =
      .ok (⟨List.replicate 16 0x11, rfl⟩, some 7) := rfl
  obtain ⟨ms, hstruct, ⟨ms', hslot, hout, -⟩, -⟩ :=
    keyset_rewritten hread 3 0x1234 ⟨List.replicate 16 0x33, rfl⟩ 9
  exact ⟨ms, hstruct, ms', hslot, hout⟩

/-- A key set with two arrays of keys. -/
def twoArrays : Bytes :=
  [0x15, 0x24, 0x02, 0x01, 0x36, 0x03, 0x15, 0x30, 0x06, 0x10] ++ List.replicate 16 0x11 ++
    [0x18, 0x18, 0x36, 0x03, 0x15, 0x30, 0x06, 0x10] ++ List.replicate 16 0x22 ++
    [0x18, 0x18, 0x24, 0x07, 0x05, 0x18]

/-- A key set without a link. -/
def unlinkedKeyset : Bytes :=
  [0x15, 0x24, 0x02, 0x01, 0x36, 0x03, 0x15, 0x30, 0x06, 0x10] ++ List.replicate 16 0x11 ++
    [0x18, 0x18, 0x18]

/-- The reader takes the last array of keys and the writer rewrites the first; and a record without
a link does not get one. -/
theorem last_array_is_read :
    (¬ ∀ (blob out : Bytes) (fabricIndex : UInt8) (entry : Fixed 16 × Option UInt16)
      (startTime : UInt64) (hash : UInt16) (key : Fixed 16),
      parseKeysetFirstEntry fabricIndex blob = .ok entry → (keysetNext blob).isSome = true →
      keysetWithSlot0 startTime hash key blob = some out →
      parseKeysetFirstEntry fabricIndex out = .ok (key, some hash)) ∧
    ¬ ∀ (blob : Bytes) (fabricIndex : UInt8) (entry : Fixed 16 × Option UInt16) (next : UInt16),
      parseKeysetFirstEntry fabricIndex blob = .ok entry →
      (keysetWithNext next blob).isSome = true := by
  refine ⟨fun h => ?_, fun h => ?_⟩
  · have hread : parseKeysetFirstEntry 1 twoArrays =
        .ok (⟨List.replicate 16 0x22, rfl⟩, none) := rfl
    have hnew := h twoArrays _ 1 _ 3 0x1234 ⟨List.replicate 16 0x33, rfl⟩ hread rfl rfl
    cases hnew
  · have hread : parseKeysetFirstEntry 1 unlinkedKeyset =
        .ok (⟨List.replicate 16 0x11, rfl⟩, none) := rfl
    cases h unlinkedKeyset 1 _ 9 hread

end MatStack
