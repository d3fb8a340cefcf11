import MatStack.Controller.Kvs.Ini
import MatStack.Controller.TlvMembers
import MatStack.Lib.Checked

/-!
# Key sets

The record of a key set: a policy, a count, an array of keys with their start times and session ids,
and a link. The readers take the first key of the last array that they come across, and skip what
they do not know. `keysetWithSlot0` writes the record again with another first key in the first
array, and copies everything else. In a record with one array and a count, the key that was put in
is the key that is read.
-/

namespace MatStack

/-! ## Reading -/

/-- What a malformed record is reported as. -/
def keysetMalformed (fabricIndex : UInt8) : KvsError := .badKeyset fabricIndex "malformed tlv"

/-- Drops the rest of the container that is open. -/
def skipRestOfContainer (fabricIndex : UInt8) (r : Reader) : Except KvsError Reader :=
  match r.skipContainer with
  | .ok r => .ok r
  | .error _ => .error (keysetMalformed fabricIndex)

/-- A member that is not known: dropped with its body. -/
def skipUnknown {σ : Type} (fabricIndex : UInt8) (s : σ) (value : Value) (r : Reader) :
    Except KvsError (σ × Reader) :=
  if value.isStart then do return (s, ← skipRestOfContainer fabricIndex r) else .ok (s, r)

/-- A member of a key. -/
def parseKeyMember (fabricIndex : UInt8) (s : Option (Fixed 16) × Option UInt16) (el : Element)
    (r : Reader) : Except KvsError ((Option (Fixed 16) × Option UInt16) × Reader) :=
  match el.tag, el.value with
  | .context 5, .uint v =>
    match tryU16 v with
    | some hash => .ok ((s.1, some hash), r)
    | none => .error (.badKeyset fabricIndex "hash out of range")
  | .context 6, .bytes b =>
    match Fixed.ofBytes? 16 b with
    | some key => .ok ((some key, s.2), r)
    | none => .error (.badKeyset fabricIndex "operational key must be 16 bytes")
  | _, value => skipUnknown fabricIndex s value r

/-- A key and its session id, if it has one. -/
def parseKeyStruct (fabricIndex : UInt8) (r : Reader) :
    Except KvsError ((Fixed 16 × Option UInt16) × Reader) :=
  match r.next with
  | .ok (some ⟨_, .structStart⟩, r) => do
    let (s, r) ← r.members (fun _ => keysetMalformed fabricIndex) (parseKeyMember fabricIndex)
      (none, none)
    match s.1 with
    | some key => return ((key, s.2), r)
    | none => throw (.badKeyset fabricIndex "missing operational key")
  | _ => .error (keysetMalformed fabricIndex)

/-- A member of a key set: the count and the first key of an array. -/
def parseKeysetMember (fabricIndex : UInt8) (s : Option UInt64 × Option (Fixed 16 × Option UInt16))
    (el : Element) (r : Reader) :
    Except KvsError ((Option UInt64 × Option (Fixed 16 × Option UInt16)) × Reader) :=
  match el.value with
  | .uint v =>
    if el.tag = .context 2 then .ok ((some v, s.2), r) else skipUnknown fabricIndex s (.uint v) r
  | .arrayStart =>
    if el.tag = .context 3 then do
      let (entry, r) ← parseKeyStruct fabricIndex r
      let r ← skipRestOfContainer fabricIndex r
      return ((s.1, some entry), r)
    else skipUnknown fabricIndex s .arrayStart r
  | value => skipUnknown fabricIndex s value r

/-- The first key of a key set. -/
def parseKeysetFirstEntry (fabricIndex : UInt8) (blob : Bytes) :
    Except KvsError (Fixed 16 × Option UInt16) :=
  match (Reader.new blob).next with
  | .ok (some ⟨_, .structStart⟩, r) => do
    let (s, _) ← r.members (fun _ => keysetMalformed fabricIndex) (parseKeysetMember fabricIndex)
      (none, none)
    match s.1 with
    | none => throw (.badKeyset fabricIndex "missing keys_count")
    | some keysCount =>
      if keysCount < 1 then throw (.badKeyset fabricIndex "keys_count must be >= 1")
      match s.2 with
      | some entry => return entry
      | none => throw (.badKeyset fabricIndex "missing key entries")
  | _ => .error (keysetMalformed fabricIndex)

def parseKeyset (fabricIndex : UInt8) (blob : Bytes) : Except KvsError (Fixed 16) :=
  (parseKeysetFirstEntry fabricIndex blob).map (·.1)

/-! ## Rewriting -/

/-- A copy of the first key under way: what was put in already. -/
structure SlotCopy where
  w : Writer
  put4 : Bool
  put5 : Bool
  put6 : Bool

/-- A member that is copied as it is. -/
def copyMember (w : Writer) (el : Element) (r : Reader) : Except Unit (Writer × Reader) :=
  match copyValue w r el.tag el.value with
  | .ok (w, r) => .ok (w, r)
  | .error _ => .error ()

section
variable (startTime : UInt64) (hash : UInt16) (key : Fixed 16)

/-- A member of the first key: its start time, session id and key are put in, the rest is copied. -/
def slotMember (s : SlotCopy) (el : Element) (r : Reader) : Except Unit (SlotCopy × Reader) :=
  match el.tag, el.value with
  | .context 4, .uint _ => .ok ({ s with w := s.w.putUint (.context 4) startTime, put4 := true }, r)
  | .context 5, .uint _ =>
    .ok ({ s with w := s.w.putUint (.context 5) hash.toUInt64, put5 := true }, r)
  | .context 6, .bytes _ => .ok ({ s with w := s.w.putBytes (.context 6) key.1, put6 := true }, r)
  | _, _ => do
    let (w, r) ← copyMember s.w el r
    return ({ s with w }, r)

/-- What the first key does not have is put in behind it. -/
def SlotCopy.complete (s : SlotCopy) : Writer :=
  let w := if s.put4 then s.w else s.w.putUint (.context 4) startTime
  let w := if s.put5 then w else w.putUint (.context 5) hash.toUInt64
  if s.put6 then w else w.putBytes (.context 6) key.1

/-- The array of keys with another first one. -/
def copyKeyArray (w : Writer) (r : Reader) : Except Unit (Writer × Reader) :=
  let w := w.startArray (.context 3)
  match r.next with
  | .ok (some ⟨_, .structStart⟩, r) => do
    let (s, r) ← r.members (fun _ => ()) (slotMember startTime hash key)
      ⟨w.startStruct .anonymous, false, false, false⟩
    let w := (s.complete startTime hash key).endContainer
    -- the other keys are copied as they are
    let (w, r) ← r.members (fun _ => ()) copyMember w
    return (w.endContainer, r)
  | _ => .error ()

/-- A member of the key set: the first array of keys gets another first key. -/
def keysetMember (s : Writer × Bool) (el : Element) (r : Reader) :
    Except Unit ((Writer × Bool) × Reader) :=
  match el.tag, el.value, s.2 with
  | .context 3, .arrayStart, false => do
    let (w, r) ← copyKeyArray startTime hash key s.1 r
    return ((w, true), r)
  | _, _, _ => do
    let (w, r) ← copyMember s.1 el r
    return ((w, s.2), r)

/-- The record with another first key; `none` for what is not a key set. -/
def keysetWithSlot0 (blob : Bytes) : Option Bytes :=
  match (Reader.new blob).next with
  | .ok (some ⟨_, .structStart⟩, r) =>
    match r.members (fun _ => ()) (keysetMember startTime hash key)
        (Writer.new.startStruct .anonymous, false) with
    | .ok ((w, true), _) => some w.endContainer.finish
    | _ => none
  | _ => none

end

/-! ## The link -/

/-- The number under a context tag. -/
def uintAt (n : UInt8) : Element → Option UInt64
  | ⟨.context k, .uint v⟩ => if k = n then some v else none
  | _ => none

/-- A member of the key set: the link is put in, the rest is copied. -/
def nextMember (next : UInt16) (s : Writer × Bool) (el : Element) (r : Reader) :
    Except Unit ((Writer × Bool) × Reader) :=
  if (uintAt 7 el).isSome then .ok ((s.1.putUint (.context 7) next.toUInt64, true), r)
  else (copyMember s.1 el r).map fun x => ((x.1, s.2), x.2)

/-- The record with another link; `none` for what is not a struct, and for one without a link. -/
def keysetWithNext (next : UInt16) (blob : Bytes) : Option Bytes :=
  match (Reader.new blob).next with
  | .ok (some ⟨_, .structStart⟩, r) =>
    match r.members (fun _ => ()) (nextMember next) (Writer.new.startStruct .anonymous, false) with
    | .ok ((w, true), _) => some w.endContainer.finish
    | _ => none
  | _ => none

section
variable {σ : Type} (onField : σ → UInt8 → Value → σ)

/-- A member of a flat struct: a leaf under a context tag is looked at, the rest is passed over. -/
def walkFlatMember (s : σ) (el : Element) (r : Reader) : Except TlvError (σ × Reader) :=
  if el.value.isStart then r.skipContainer.map fun r => (s, r)
  else match el with
    | ⟨.context t, value⟩ => .ok (onField s t value, r)
    | _ => .ok (s, r)

/-- The fields of a flat struct, one after the other. -/
def walkFlatStruct (s : σ) (blob : Bytes) : Option σ :=
  match (Reader.new blob).next with
  | .ok (some ⟨_, .structStart⟩, r) =>
    match r.members (·.getD .truncated) (walkFlatMember onField) s with
    | .ok (s, _) => some s
    | .error _ => none
  | _ => none

end

/-- The link of a key set. -/
def keysetNext (blob : Bytes) : Option UInt16 :=
  (walkFlatStruct (fun next t v => (uintAt 7 ⟨.context t, v⟩).elim next tryU16) none blob).join

/-! ## The outline of a record -/

/-- A member of the outline. -/
def outlineMember (els : List Element) (el : Element) (r : Reader) :
    Except TlvError (List Element × Reader) :=
  if el.value.isStart then do return (els ++ [el], ← r.skipContainer) else .ok (els ++ [el], r)

/-- The members of a record, without the bodies of those that are containers. -/
def outline (blob : Bytes) : Option (List Element) :=
  match (Reader.new blob).next with
  | .ok (some ⟨_, .structStart⟩, r) =>
    match r.members (·.getD .truncated) outlineMember [] with
    | .ok (els, _) => some els
    | .error _ => none
  | _ => none

/-- The start of an array of keys. -/
def isKeyArray (el : Element) : Bool := el == ⟨.context 3, .arrayStart⟩

/-- The count of keys that a member states. -/
def statedCount (el : Element) : Option UInt64 :=
  match el.tag, el.value with
  | .context 2, .uint v => some v
  | _, _ => none

/-- A record with at most one array of keys, and a count of at least one. -/
def hasKeysetShape (blob : Bytes) : Bool :=
  match outline blob with
  | none => false
  | some els => (els.filter isKeyArray).length ≤ 1 &&
      match (els.filterMap statedCount).getLast? with
      | some n => 1 ≤ n
      | none => false

/-! ## The first key -/

open Reader (Reads)

section
variable {startTime : UInt64} {hash : UInt16} {key : Fixed 16} {w w' : Writer} {r r' : Reader}
  {el : Element} {m : Member} {ms : List Member} {els : List Element}

theorem copyMember_ok (hne : el.value ≠ .containerEnd) (h : copyMember w el r = .ok (w', r')) :
    ∃ body, Reads r body r' ∧ Member.Closed ⟨el, body⟩ ∧
      Writes w w' (el :: body.map Element.copied) := by
  unfold copyMember at h
  split at h
  · next hcopy =>
    cases h
    exact copyValue_ok hne hcopy
  · cases h

/-- A member of a key as it is put in: a session id is `hash`, and a key is `key`. -/
structure SlotOk (hash : UInt16) (key : Fixed 16) (m : Member) : Prop where
  closed : m.Closed
  hash : ∀ v, m.el = ⟨.context 5, .uint v⟩ → v = hash.toUInt64
  key : ∀ b, m.el = ⟨.context 6, .bytes b⟩ → b = key.1

/-- What one member of the first key comes to. -/
structure SlotStep (hash : UInt16) (key : Fixed 16) (s : SlotCopy) (m : Member) (s' : SlotCopy)
    (m' : Member) : Prop where
  ok : SlotOk hash key m'
  writes : Writes s.w s'.w (m'.el :: m'.body)
  put5 : s'.put5 = true → s.put5 = true ∨ m'.el = ⟨.context 5, .uint hash.toUInt64⟩
  put6 : s'.put6 = true → s.put6 = true ∨ m'.el = ⟨.context 6, .bytes key.1⟩

theorem slotMember_ok {s s' : SlotCopy} (hne : el.value ≠ .containerEnd)
    (h : slotMember startTime hash key s el r = .ok (s', r')) :
    ∃ body, Reads r body r' ∧ Member.Closed ⟨el, body⟩ ∧
      ∃ m', SlotStep hash key s ⟨el, body⟩ s' m' := by
  obtain ⟨tag, value⟩ := el
  unfold slotMember at h
  split at h
  · next v htag hvalue =>
    cases htag
    cases hvalue
    cases h
    exact ⟨[], .nil _, .leaf rfl hne, ⟨⟨.context 4, .uint startTime⟩, []⟩,
      ⟨.leaf rfl nofun, nofun, nofun⟩, (encodes_putUint _).writes, .inl, .inl⟩
  · next v htag hvalue =>
    cases htag
    cases hvalue
    cases h
    exact ⟨[], .nil _, .leaf rfl hne, ⟨⟨.context 5, .uint hash.toUInt64⟩, []⟩,
      ⟨.leaf rfl nofun, fun v hv => by cases hv; rfl, nofun⟩, (encodes_putUint _).writes,
      fun _ => .inr rfl, .inl⟩
  · next v htag hvalue =>
    cases htag
    cases hvalue
    cases h
    exact ⟨[], .nil _, .leaf rfl hne, ⟨⟨.context 6, .bytes key.1⟩, []⟩,
      ⟨.leaf rfl nofun, nofun, fun b hb => by cases hb; rfl⟩, (encodes_putBytes _).writes, .inl,
      fun _ => .inr rfl⟩
  · next h5 h6 =>
    cases hcopy : copyMember s.w ⟨tag, value⟩ r with
    | error e => rw [hcopy] at h; cases h
    | ok x =>
      obtain ⟨w, r₁⟩ := x
      rw [hcopy] at h
      cases h
      obtain ⟨body, hreads, hclosed, hwrites⟩ := copyMember_ok hne hcopy
      refine ⟨body, hreads, hclosed, ⟨⟨tag, value⟩, body.map Element.copied⟩,
        ⟨hclosed.copied, fun v hv => ?_, fun b hb => ?_⟩, hwrites, .inl, .inl⟩
      · cases hv
        exact absurd rfl (h5 v rfl)
      · cases hb
        exact absurd rfl (h6 b rfl)

theorem elementsOf_append {ms₁ ms₂ : List Member} :
    elementsOf (ms₁ ++ ms₂) = elementsOf ms₁ ++ elementsOf ms₂ := List.flatMap_append

/-- The members of the first key as they are written. -/
structure SlotWritten (hash : UInt16) (key : Fixed 16) (s s' : SlotCopy) (ks : List Member) : Prop where
  ok : ∀ m ∈ ks, SlotOk hash key m
  writes : Writes s.w s'.w (elementsOf ks)
  put5 : s'.put5 = true → s.put5 = true ∨ ∃ m ∈ ks, m.el = ⟨.context 5, .uint hash.toUInt64⟩
  put6 : s'.put6 = true → s.put6 = true ∨ ∃ m ∈ ks, m.el = ⟨.context 6, .bytes key.1⟩

theorem slotWritten_of_folds {s s' : SlotCopy}
    (h : Folds (fun s m s' => ∃ m', SlotStep hash key s m s' m') s ms s') :
    ∃ ks, SlotWritten hash key s s' ks := by
  induction h with
  | nil s => exact ⟨[], List.forall_mem_nil _, .refl _, .inl, .inl⟩
  | cons hm _ ih =>
    obtain ⟨m', hm'⟩ := hm
    obtain ⟨ks, hks⟩ := ih
    refine ⟨m' :: ks, List.forall_mem_cons.2 ⟨hm'.ok, hks.ok⟩, ?_, fun h5 => ?_, fun h6 => ?_⟩
    · rw [elementsOf_cons, ← List.cons_append]
      exact hm'.writes.trans hks.writes
    · rcases hks.put5 h5 with h | ⟨m, hm, he⟩
      · exact (hm'.put5 h).imp_right fun he => ⟨m', List.mem_cons_self .., he⟩
      · exact .inr ⟨m, List.mem_cons_of_mem _ hm, he⟩
    · rcases hks.put6 h6 with h | ⟨m, hm, he⟩
      · exact (hm'.put6 h).imp_right fun he => ⟨m', List.mem_cons_self .., he⟩
      · exact .inr ⟨m, List.mem_cons_of_mem _ hm, he⟩

/-- The members of a first key that reads as `key` with the session id `hash`. -/
structure SlotMembers (hash : UInt16) (key : Fixed 16) (ks : List Member) : Prop where
  ok : ∀ m ∈ ks, SlotOk hash key m
  hasHash : ∃ m ∈ ks, m.el = ⟨.context 5, .uint hash.toUInt64⟩
  hasKey : ∃ m ∈ ks, m.el = ⟨.context 6, .bytes key.1⟩

theorem SlotWritten.step {s s' s'' : SlotCopy} {ks : List Member} {m' : Member}
    (h : SlotWritten hash key s s' ks) (hm : SlotStep hash key s' m s'' m') :
    SlotWritten hash key s s'' (ks ++ [m']) := by
  refine ⟨?_, ?_, fun h5 => ?_, fun h6 => ?_⟩
  · rw [List.forall_mem_append]
    exact ⟨h.ok, List.forall_mem_singleton.2 hm.ok⟩
  · rw [elementsOf_append]
    have hw := hm.writes
    rw [← List.append_nil m'.body] at hw
    exact h.writes.trans hw
  · rcases hm.put5 h5 with h' | he
    · exact (h.put5 h').imp_right fun ⟨m, hm, he⟩ => ⟨m, List.mem_append_left _ hm, he⟩
    · exact .inr ⟨m', List.mem_append_right _ (List.mem_singleton_self _), he⟩
  · rcases hm.put6 h6 with h' | he
    · exact (h.put6 h').imp_right fun ⟨m, hm, he⟩ => ⟨m, List.mem_append_left _ hm, he⟩
    · exact .inr ⟨m', List.mem_append_right _ (List.mem_singleton_self _), he⟩

/-- Completed, the first key has its session id and its key. -/
theorem slotMembers_complete {s s' : SlotCopy} {ks : List Member}
    (h : SlotWritten hash key s s' ks) (h5 : s.put5 = false) (h6 : s.put6 = false) :
    ∃ ks', SlotMembers hash key ks' ∧
      Writes s.w (s'.complete startTime hash key) (elementsOf ks') := by
  obtain ⟨w, put4, put5, put6⟩ := s'
  obtain ⟨w4, ks4, hw4, h4⟩ : ∃ w4 ks4, w4 = (if put4 then w else w.putUint (.context 4) startTime) ∧
      SlotWritten hash key s ⟨w4, put4, put5, put6⟩ ks4 := by
    cases put4 with
    | true => exact ⟨w, ks, rfl, h⟩
    | false =>
      have hm : SlotStep hash key ⟨w, false, put5, put6⟩ ⟨⟨.context 4, .uint startTime⟩, []⟩
          ⟨w.putUint (.context 4) startTime, false, put5, put6⟩
          ⟨⟨.context 4, .uint startTime⟩, []⟩ :=
        ⟨⟨.leaf rfl nofun, nofun, nofun⟩, (encodes_putUint _).writes, .inl, .inl⟩
      exact ⟨_, _, rfl, h.step hm⟩
  obtain ⟨w5, ks5, hw5, h5'⟩ : ∃ w5 ks5,
      w5 = (if put5 then w4 else w4.putUint (.context 5) hash.toUInt64) ∧
      SlotWritten hash key s ⟨w5, put4, true, put6⟩ ks5 := by
    cases put5 with
    | true => exact ⟨w4, ks4, rfl, h4⟩
    | false =>
      have hm : SlotStep hash key ⟨w4, put4, false, put6⟩ ⟨⟨.context 5, .uint hash.toUInt64⟩, []⟩
          ⟨w4.putUint (.context 5) hash.toUInt64, put4, true, put6⟩
          ⟨⟨.context 5, .uint hash.toUInt64⟩, []⟩ := by
        refine ⟨⟨.leaf rfl nofun, fun v hv => ?_, nofun⟩, (encodes_putUint _).writes,
          fun _ => .inr rfl, .inl⟩
        cases hv
        rfl
      exact ⟨_, _, rfl, h4.step hm⟩
  obtain ⟨w6, ks6, hw6, h6'⟩ : ∃ w6 ks6,
      w6 = (if put6 then w5 else w5.putBytes (.context 6) key.1) ∧
      SlotWritten hash key s ⟨w6, put4, true, true⟩ ks6 := by
    cases put6 with
    | true => exact ⟨w5, ks5, rfl, h5'⟩
    | false =>
      have hm : SlotStep hash key ⟨w5, put4, true, false⟩ ⟨⟨.context 6, .bytes key.1⟩, []⟩
          ⟨w5.putBytes (.context 6) key.1, put4, true, true⟩ ⟨⟨.context 6, .bytes key.1⟩, []⟩ := by
        refine ⟨⟨.leaf rfl nofun, nofun, fun b hb => ?_⟩, (encodes_putBytes _).writes, .inl,
          fun _ => .inr rfl⟩
        cases hb
        rfl
      exact ⟨_, _, rfl, h5'.step hm⟩
  refine ⟨ks6, ⟨h6'.ok, ?_, ?_⟩, ?_⟩
  · exact (h6'.put5 rfl).resolve_left (by rw [h5]; exact Bool.false_ne_true)
  · exact (h6'.put6 rfl).resolve_left (by rw [h6]; exact Bool.false_ne_true)
  · have hcomplete : SlotCopy.complete startTime hash key ⟨w, put4, put5, put6⟩ = w6 := by
      rw [hw6, hw5, hw4]
      rfl
    rw [hcomplete]
    exact h6'.writes

/-- The body of an array of keys, the first of which reads as `key` with the session id `hash`. -/
def IsKeyBody (hash : UInt16) (key : Fixed 16) (body : List Element) : Prop :=
  ∃ ks rest, SlotMembers hash key ks ∧ IsBody rest ∧
    body = ⟨.anonymous, .structStart⟩ :: (elementsOf ks ++ ⟨.anonymous, .containerEnd⟩ :: rest)

/-- Members that are copied one by one. -/
theorem writes_of_folds
    (h : Folds (fun w m w' => Writes w w' (m.el :: m.body.map Element.copied)) w ms w') :
    Writes w w' (elementsOf (ms.map Member.copied)) := by
  induction h with
  | nil w => exact .refl w
  | cons hm _ ih =>
    rw [List.map_cons, elementsOf_cons, ← List.cons_append]
    exact hm.trans ih

theorem encodes_startStruct (w : Writer) (tag : Tag) :
    Encodes w (w.startStruct tag) ⟨tag, .structStart⟩ := encodes_call (c := .startStruct tag) rfl

theorem encodes_startArray (w : Writer) (tag : Tag) :
    Encodes w (w.startArray tag) ⟨tag, .arrayStart⟩ := encodes_call (c := .startArray tag) rfl

/-- The array of keys is read and written with another first key. -/
theorem copyKeyArray_ok (h : copyKeyArray startTime hash key w r = .ok (w', r')) :
    ∃ body body', Reads r body r' ∧ IsBody body ∧ IsKeyBody hash key body' ∧
      Writes w w' (⟨.context 3, .arrayStart⟩ :: body') := by
  unfold copyKeyArray at h
  dsimp only at h
  split at h
  · next tag r₁ hnext =>
    obtain ⟨⟨s, r₂⟩, hslot, h⟩ := Checked.bind_eq_ok.1 h
    obtain ⟨⟨w₁, r₃⟩, hrest, h⟩ := Checked.bind_eq_ok.1 h
    cases h
    obtain ⟨ms, close, hreads, hclosed, hclose, hfolds⟩ :=
      Reader.walk_ok (P := fun s m s' => ∃ m', SlotStep hash key s m s' m') slotMember_ok hslot
    obtain ⟨ks, hks⟩ := slotWritten_of_folds hfolds
    obtain ⟨ks', hmembers, hwrites⟩ := @slotMembers_complete startTime hash key _ _ _ hks rfl rfl
    obtain ⟨others, end_, hreads', hclosed', hend, hfolds'⟩ :=
      Reader.walk_ok (P := fun w m w' => Writes w w' (m.el :: m.body.map Element.copied))
        copyMember_ok hrest
    have hcopies := writes_of_folds hfolds'
    refine ⟨⟨tag, .structStart⟩ :: (elementsOf ms ++ [close] ++ (elementsOf others ++ [end_])), _,
      .cons hnext (hreads.append hreads'), ?_, ⟨ks', _, hmembers,
      @isBody_elementsOf (others.map Member.copied) ⟨.anonymous, .containerEnd⟩ (fun m hm => ?_) rfl,
      rfl⟩, ?_⟩
    · refine ⟨⟨tag, .structStart⟩ :: (elementsOf ms ++ close :: elementsOf others), end_,
        .container rfl (balanced_elementsOf hclosed) hclose (balanced_elementsOf hclosed'), hend, ?_⟩
      simp
    · obtain ⟨m', hm', rfl⟩ := List.mem_map.1 hm
      exact (hclosed' m' hm').copied
    · have hopen := (encodes_startArray w (.context 3)).writes.trans
        (encodes_startStruct _ .anonymous).writes
      have hfirst := (hopen.trans hwrites).trans (encodes_endContainer _).writes
      have hall := (hfirst.trans hcopies).trans (encodes_endContainer _).writes
      simpa using hall
  · cases h

/-! ## The key that is read -/

/-- Members that all have a property are taken one after the other. -/
theorem folds_of_forall {σ ι : Type} {Q : ι → Prop} {f : σ → ι → σ} {l : List ι} (s : σ)
    (h : ∀ m ∈ l, Q m) : Folds (fun s m s' => Q m ∧ s' = f s m) s l (l.foldl f s) := by
  induction l generalizing s with
  | nil => exact .nil s
  | cons m l ih =>
    obtain ⟨hm, hl⟩ := List.forall_mem_cons.1 h
    exact .cons ⟨hm, rfl⟩ (ih _ hl)

theorem Member.Closed.leaf_body (h : m.Closed) (hstart : m.el.value.isStart = false) :
    m.body = [] := by
  cases h with
  | leaf _ _ => rfl
  | container h _ =>
    rw [h] at hstart
    cases hstart

/-- A member that is not known is passed over. -/
theorem skipUnknown_of_reads {σ : Type} {s : σ} (fabricIndex : UInt8) (hm : m.Closed)
    (h : Reads r m.body r') : skipUnknown fabricIndex s m.el.value r = .ok (s, r') := by
  unfold skipUnknown skipRestOfContainer
  cases hm with
  | leaf hstart _ =>
    cases h
    rw [hstart]
    rfl
  | container hstart hbody =>
    rw [hstart, if_pos rfl, Reader.skipContainer_of_reads h hbody]
    rfl

/-- What a member adds to what is known of a key. -/
def keyState (hash : UInt16) (key : Fixed 16) (s : Option (Fixed 16) × Option UInt16) (m : Member) :
    Option (Fixed 16) × Option UInt16 :=
  if m.el = ⟨.context 5, .uint hash.toUInt64⟩ then (s.1, some hash)
  else if m.el = ⟨.context 6, .bytes key.1⟩ then (some key, s.2)
  else s

theorem parseKeyMember_of_reads {s : Option (Fixed 16) × Option UInt16} (fabricIndex : UInt8)
    (hm : SlotOk hash key m) (h : Reads r m.body r') :
    parseKeyMember fabricIndex s m.el r = .ok (keyState hash key s m, r') := by
  have hskip := skipUnknown_of_reads (s := s) fabricIndex hm.closed h
  have hleaf := hm.closed.leaf_body
  obtain ⟨⟨tag, value⟩, body⟩ := m
  unfold parseKeyMember
  split
  · next v htag hvalue =>
    cases htag
    cases hvalue
    obtain rfl := hleaf rfl
    cases h
    obtain rfl := hm.hash v rfl
    rw [tryU16_toUInt64, keyState, if_pos rfl]
  · next b htag hvalue =>
    cases htag
    cases hvalue
    obtain rfl := hleaf rfl
    cases h
    obtain rfl := hm.key b rfl
    rw [Fixed.ofBytes?, dif_pos key.2, keyState, if_neg (by simp), if_pos rfl]
  · next h5 h6 =>
    have hstate : keyState hash key s ⟨⟨tag, value⟩, body⟩ = s := by
      unfold keyState
      rw [if_neg, if_neg]
      · intro he
        cases he
        exact h6 _ rfl rfl
      · intro he
        cases he
        exact h5 _ rfl rfl
    rw [hstate]
    exact hskip

/-- What was put into a key is known in the end. -/
theorem foldl_keyState {ks : List Member} (s : Option (Fixed 16) × Option UInt16) :
    ((s.1 = some key ∨ ∃ m ∈ ks, m.el = ⟨.context 6, .bytes key.1⟩) →
      (ks.foldl (keyState hash key) s).1 = some key) ∧
    ((s.2 = some hash ∨ ∃ m ∈ ks, m.el = ⟨.context 5, .uint hash.toUInt64⟩) →
      (ks.foldl (keyState hash key) s).2 = some hash) := by
  induction ks generalizing s with
  | nil => simp
  | cons m ks ih =>
    obtain ⟨ihkey, ihhash⟩ := ih (keyState hash key s m)
    rw [List.foldl_cons]
    constructor
    · intro h
      apply ihkey
      rw [List.exists_mem_cons_iff] at h
      unfold keyState
      split_ifs with h5 h6
      · rcases h with h | h | h
        · exact .inl h
        · rw [h5] at h
          cases h
        · exact .inr h
      · exact .inl rfl
      · exact h.imp_right fun h => h.resolve_left h6
    · intro h
      apply ihhash
      rw [List.exists_mem_cons_iff] at h
      unfold keyState
      split_ifs with h5 h6
      · exact .inl rfl
      · rcases h with h | h | h
        · exact .inl h
        · exact absurd h h5
        · exact .inr h
      · exact h.imp_right fun h => h.resolve_left h5

/-- A key that was put in is read. -/
theorem parseKeyStruct_of_reads {ks : List Member} {tag : Tag} {close : Element}
    (fabricIndex : UInt8) (hks : SlotMembers hash key ks) (hclose : close.value = .containerEnd)
    (h : Reads r (⟨tag, .structStart⟩ :: (elementsOf ks ++ [close])) r') :
    parseKeyStruct fabricIndex r = .ok ((key, some hash), r') := by
  cases h with
  | @cons _ r₁ _ _ _ hnext hrest =>
    have hmembers : r₁.members (fun _ => keysetMalformed fabricIndex) (parseKeyMember fabricIndex)
        (none, none) = .ok (ks.foldl (keyState hash key) (none, none), r') :=
      Reader.members_of_reads (P := fun s m s' => SlotOk hash key m ∧ s' = keyState hash key s m)
        (fun _ hP hreads => hP.2 ▸ parseKeyMember_of_reads fabricIndex hP.1 hreads) hrest
        (fun m hm => (hks.ok m hm).closed) hclose (folds_of_forall (none, none) hks.ok)
    obtain ⟨hkey, hhash⟩ := @foldl_keyState hash key ks (none, none)
    replace hkey := hkey (.inr hks.hasKey)
    replace hhash := hhash (.inr hks.hasHash)
    rw [parseKeyStruct, hnext]
    dsimp only
    rw [hmembers]
    generalize ks.foldl (keyState hash key) (none, none) = s at hkey hhash
    obtain ⟨_, _⟩ := s
    cases hkey
    cases hhash
    rfl

/-! ## The record -/

/-- What one member of the record comes to. -/
structure TopStep (hash : UInt16) (key : Fixed 16) (s : Writer × Bool) (m : Member)
    (s' : Writer × Bool) (m' : Member) : Prop where
  closed : m'.Closed
  el : m'.el = m.el
  writes : Writes s.1 s'.1 (m'.el :: m'.body)
  keys : isKeyArray m.el = true → s.2 = false → IsKeyBody hash key m'.body
  seen : s'.2 = (s.2 || isKeyArray m.el)

theorem isKeyArray_iff {el : Element} : isKeyArray el = true ↔ el = ⟨.context 3, .arrayStart⟩ :=
  beq_iff_eq

theorem IsKeyBody.isBody {body : List Element} (h : IsKeyBody hash key body) : IsBody body := by
  obtain ⟨ks, rest, hks, ⟨els, close, hels, hclose, rfl⟩, rfl⟩ := h
  exact ⟨⟨.anonymous, .structStart⟩ ::
    (elementsOf ks ++ ⟨.anonymous, .containerEnd⟩ :: els), close,
    .container rfl (balanced_elementsOf fun m hm => (hks.ok m hm).closed) rfl hels, hclose, by simp⟩

theorem keysetMember_ok {s s' : Writer × Bool} (hne : el.value ≠ .containerEnd)
    (h : keysetMember startTime hash key s el r = .ok (s', r')) :
    ∃ body, Reads r body r' ∧ Member.Closed ⟨el, body⟩ ∧ ∃ m', TopStep hash key s ⟨el, body⟩ s' m' := by
  obtain ⟨w, seen⟩ := s
  obtain ⟨tag, value⟩ := el
  unfold keysetMember at h
  split at h
  · next htag hvalue hseen =>
    cases htag
    cases hvalue
    cases hseen
    obtain ⟨⟨w₁, r₁⟩, hcopy, h⟩ := Checked.bind_eq_ok.1 h
    cases h
    obtain ⟨body, body', hreads, hbody, hkeys, hwrites⟩ := copyKeyArray_ok hcopy
    exact ⟨body, hreads, .container rfl hbody, ⟨⟨.context 3, .arrayStart⟩, body'⟩,
      .container rfl hkeys.isBody, rfl, hwrites, fun _ _ => hkeys, rfl⟩
  · next hother =>
    obtain ⟨⟨w₁, r₁⟩, hcopy, h⟩ := Checked.bind_eq_ok.1 h
    cases h
    obtain ⟨body, hreads, hclosed, hwrites⟩ := copyMember_ok hne hcopy
    have hseen : ∀ {el : Element}, el = ⟨tag, value⟩ → isKeyArray el = true → seen = true := by
      rintro el rfl harray
      rw [isKeyArray_iff] at harray
      cases harray
      rw [← Bool.not_eq_false]
      exact fun hfalse => hother rfl rfl hfalse
    refine ⟨body, hreads, hclosed, ⟨⟨tag, value⟩, body.map Element.copied⟩, hclosed.copied, rfl,
      hwrites, fun harray hfalse => ?_, ?_⟩
    · have := hseen rfl harray
      rw [show seen = false from hfalse] at this
      cases this
    · cases harray : isKeyArray ⟨tag, value⟩ with
      | false => exact (Bool.or_false _).symm
      | true => exact (hseen rfl harray).trans (Bool.or_true _).symm

/-- The members of a record as they are written. -/
structure TopWritten (hash : UInt16) (key : Fixed 16) (s : Writer × Bool) (ms : List Member)
    (s' : Writer × Bool) (ms' : List Member) : Prop where
  closed : ∀ m ∈ ms', m.Closed
  els : ms'.map (·.el) = ms.map (·.el)
  writes : Writes s.1 s'.1 (elementsOf ms')
  seen : s'.2 = (s.2 || ms.any fun m => isKeyArray m.el)
  /-- Where there is one array of keys, its first key was put in. -/
  keys : (ms.filter fun m => isKeyArray m.el).length + s.2.toNat ≤ 1 →
    ∀ m ∈ ms', isKeyArray m.el = true → IsKeyBody hash key m.body

theorem topWritten_of_folds {s s' : Writer × Bool}
    (h : Folds (fun s m s' => ∃ m', TopStep hash key s m s' m') s ms s') :
    ∃ ms', TopWritten hash key s ms s' ms' := by
  induction h with
  | nil s => exact ⟨[], List.forall_mem_nil _, rfl, .refl _, (Bool.or_false _).symm,
      fun _ => List.forall_mem_nil _⟩
  | @cons s s₁ s' m ms hm _ ih =>
    obtain ⟨m', hm'⟩ := hm
    obtain ⟨ms', hms'⟩ := ih
    refine ⟨m' :: ms', List.forall_mem_cons.2 ⟨hm'.closed, hms'.closed⟩, ?_, ?_, ?_, fun hle => ?_⟩
    · rw [List.map_cons, List.map_cons, hm'.el, hms'.els]
    · rw [elementsOf_cons, ← List.cons_append]
      exact hm'.writes.trans hms'.writes
    · rw [hms'.seen, hm'.seen, List.any_cons, Bool.or_assoc]
    · have hseen := hm'.seen
      cases harray : isKeyArray m.el with
      | false =>
        rw [harray, Bool.or_false] at hseen
        rw [List.filter_cons_of_neg (by rw [harray]; exact Bool.false_ne_true), ← hseen] at hle
        refine List.forall_mem_cons.2 ⟨fun h => ?_, hms'.keys hle⟩
        rw [hm'.el, harray] at h
        cases h
      | true =>
        rw [harray, Bool.or_true] at hseen
        rw [List.filter_cons_of_pos (p := fun m : Member => isKeyArray m.el) harray, List.length_cons] at hle
        have hfalse : s.2 = false := by
          cases hs : s.2 with
          | false => rfl
          | true => rw [hs, Bool.toNat_true] at hle; omega
        refine List.forall_mem_cons.2 ⟨fun _ => hm'.keys harray hfalse, hms'.keys ?_⟩
        rw [hseen, Bool.toNat_true]
        omega

/-- What a member adds to what is known of a record whose arrays begin with `key`. -/
def recordState (hash : UInt16) (key : Fixed 16)
    (s : Option UInt64 × Option (Fixed 16 × Option UInt16)) (m : Member) :
    Option UInt64 × Option (Fixed 16 × Option UInt16) :=
  match statedCount m.el with
  | some n => (some n, s.2)
  | none => if isKeyArray m.el then (s.1, some (key, some hash)) else s

/-- A member that is neither a count nor an array of keys. -/
theorem recordState_of_other {s : Option UInt64 × Option (Fixed 16 × Option UInt16)} {m : Member}
    (hcount : ∀ v, m.el ≠ ⟨.context 2, .uint v⟩) (harray : m.el ≠ ⟨.context 3, .arrayStart⟩) :
    recordState hash key s m = s := by
  have hstated : statedCount m.el = none := by
    unfold statedCount
    split
    · next v htag hvalue => exact absurd (Element.mk.injEq .. ▸ ⟨htag, hvalue⟩) (hcount v)
    · rfl
  unfold recordState
  rw [hstated]
  exact if_neg fun h => harray (isKeyArray_iff.1 h)

theorem parseKeysetMember_of_reads {s : Option UInt64 × Option (Fixed 16 × Option UInt16)}
    (fabricIndex : UInt8) (hm : m.Closed)
    (hkeys : isKeyArray m.el = true → IsKeyBody hash key m.body) (h : Reads r m.body r') :
    parseKeysetMember fabricIndex s m.el r = .ok (recordState hash key s m, r') := by
  have hskip := skipUnknown_of_reads (s := s) fabricIndex hm h
  have hleaf := hm.leaf_body
  obtain ⟨⟨tag, value⟩, body⟩ := m
  unfold parseKeysetMember
  cases value with
  | uint v =>
    obtain rfl := hleaf rfl
    by_cases htag : tag = .context 2
    · subst htag
      cases h
      rfl
    · rw [recordState_of_other (fun w he => htag (congrArg Element.tag he))
        fun he => by cases he]
      exact (if_neg htag).trans hskip
  | arrayStart =>
    by_cases htag : tag = .context 3
    · subst htag
      obtain ⟨ks, rest, hks, hrest, rfl⟩ := hkeys rfl
      have hsplit : (⟨.anonymous, .structStart⟩ ::
          (elementsOf ks ++ ⟨.anonymous, .containerEnd⟩ :: rest) : List Element) =
          ⟨.anonymous, .structStart⟩ :: (elementsOf ks ++ [⟨.anonymous, .containerEnd⟩]) ++
            rest := by
        simp
      rw [hsplit] at h
      obtain ⟨r₁, hfirst, hothers⟩ := h.append_cases
      have hskip' : skipRestOfContainer fabricIndex r₁ = .ok r' := by
        rw [skipRestOfContainer, Reader.skipContainer_of_reads hothers hrest]
      dsimp only
      rw [if_pos rfl, parseKeyStruct_of_reads fabricIndex hks rfl hfirst]
      show (skipRestOfContainer fabricIndex r₁ >>= _) = _
      rw [hskip']
      rfl
    · rw [recordState_of_other (fun w he => by cases he)
        fun he => htag (congrArg Element.tag he)]
      exact (if_neg htag).trans hskip
  | _ =>
    rw [recordState_of_other (fun w he => by cases he)
      fun he => by cases he]
    exact hskip

/-- The last count and, if there is an array, its key are known in the end. -/
theorem foldl_recordState (s : Option UInt64 × Option (Fixed 16 × Option UInt16)) :
    (ms.foldl (recordState hash key) s).1 =
        (((ms.map (·.el)).filterMap statedCount).getLast?).or s.1 ∧
      (ms.foldl (recordState hash key) s).2 =
        if ms.any (fun m => isKeyArray m.el) then some (key, some hash) else s.2 := by
  induction ms generalizing s with
  | nil => simp
  | cons m ms ih =>
    obtain ⟨ihcount, ihkey⟩ := ih (recordState hash key s m)
    rw [List.foldl_cons, List.map_cons, List.any_cons, ihcount, ihkey]
    unfold recordState
    cases hcount : statedCount m.el with
    | some n =>
      have harray : isKeyArray m.el = false := by
        rw [← Bool.not_eq_true, isKeyArray_iff]
        intro he
        rw [he] at hcount
        cases hcount
      rw [List.filterMap_cons_some hcount, harray, Bool.false_or, List.getLast?_cons]
      dsimp only
      refine ⟨?_, rfl⟩
      cases ((ms.map (·.el)).filterMap statedCount).getLast? <;> rfl
    | none =>
      rw [List.filterMap_cons_none hcount]
      dsimp only
      cases isKeyArray m.el with
      | false => exact ⟨rfl, rfl⟩
      | true =>
        refine ⟨rfl, ?_⟩
        rw [Bool.true_or, if_pos rfl, if_pos rfl]
        exact ite_self _

theorem outlineMember_of_reads (hm : m.Closed) (h : Reads r m.body r') :
    outlineMember els m.el r = .ok (els ++ [m.el], r') := by
  unfold outlineMember
  cases hm with
  | leaf hstart _ =>
    cases h
    rw [hstart]
    rfl
  | container hstart hbody =>
    rw [hstart, if_pos rfl, Reader.skipContainer_of_reads h hbody]
    rfl

/-- The outline of a record is the list of its members. -/
theorem outline_of_reads {blob : Bytes} {r₁ : Reader} {tag : Tag} {close : Element}
    (hnext : (Reader.new blob).next = .ok (some ⟨tag, .structStart⟩, r₁))
    (h : Reads r₁ (elementsOf ms ++ [close]) r') (hclosed : ∀ m ∈ ms, m.Closed)
    (hclose : close.value = .containerEnd) : outline blob = some (ms.map (·.el)) := by
  have hfold : ∀ (ms : List Member) els, ms.foldl (fun els m => els ++ [m.el]) els =
      els ++ ms.map (·.el) := by
    intro ms
    induction ms with
    | nil => simp
    | cons m ms ih =>
      intro els
      rw [List.foldl_cons, ih, List.map_cons, List.append_assoc, List.singleton_append]
  have hmembers : r₁.members (·.getD .truncated) outlineMember [] =
      .ok (ms.foldl (fun els m => els ++ [m.el]) [], r') :=
    Reader.members_of_reads (P := fun els m els' => m.Closed ∧ els' = els ++ [m.el])
      (fun hm hP hreads => hP.2 ▸ outlineMember_of_reads hm hreads) h hclosed hclose
      (folds_of_forall [] hclosed)
  rw [outline, hnext]
  dsimp only
  rw [hmembers, hfold, List.nil_append]

/-- A record and the record with another first key, member by member. -/
theorem keysetWithSlot0_ok {blob out : Bytes}
    (h : keysetWithSlot0 startTime hash key blob = some out) (hlen : out.length ≤ usizeMax) :
    ∃ (ms ms' : List Member) (r₁ r₂ : Reader), outline blob = some (ms.map (·.el)) ∧
      (ms.any fun m => isKeyArray m.el) = true ∧
      (Reader.new out).next = .ok (some ⟨.anonymous, .structStart⟩, r₁) ∧
      Reads r₁ (elementsOf ms' ++ [⟨.anonymous, .containerEnd⟩]) r₂ ∧
      (∀ m ∈ ms', m.Closed) ∧ ms'.map (·.el) = ms.map (·.el) ∧
      ((ms.filter fun m => isKeyArray m.el).length ≤ 1 →
        ∀ m ∈ ms', isKeyArray m.el = true → IsKeyBody hash key m.body) := by
  unfold keysetWithSlot0 at h
  split at h
  · next tag r₀ hnext =>
    split at h
    · next w r' hmembers =>
      cases h
      obtain ⟨ms, close, hreads, hclosed, hclose, hfolds⟩ :=
        Reader.walk_ok (P := fun s m s' => ∃ m', TopStep hash key s m s' m') keysetMember_ok hmembers
      obtain ⟨ms', hms'⟩ := topWritten_of_folds hfolds
      have hany := hms'.seen
      rw [Bool.false_or] at hany
      obtain ⟨bytes, hbuf, -, hread⟩ := ((encodes_startStruct .new .anonymous).writes.trans
        hms'.writes).trans (encodes_endContainer w).writes
      have hout : w.endContainer.finish = bytes := hbuf
      have hall := hread 0 [] (by rw [Nat.zero_add, ← hout]; exact hlen)
      rw [List.append_nil, ← hout, List.singleton_append, List.cons_append] at hall
      cases hall with
      | cons hnext' hrest =>
        exact ⟨ms, ms', _, _, outline_of_reads hnext hreads hclosed hclose, hany.symm, hnext', hrest,
          hms'.closed, hms'.els, hms'.keys⟩
    · cases h
  · cases h

/-- **Key sets.** The record with another first key has the same members, and a record of the shape
of a key set is read with the key and the session id that were put in. -/
theorem parseKeysetFirstEntry_keysetWithSlot0 {blob out : Bytes} (fabricIndex : UInt8)
    (h : keysetWithSlot0 startTime hash key blob = some out) (hlen : out.length ≤ usizeMax) :
    outline out = outline blob ∧
      (hasKeysetShape blob = true →
        parseKeysetFirstEntry fabricIndex out = .ok (key, some hash)) := by
  obtain ⟨ms, ms', r₁, r₂, houtline, hany, hnext, hreads, hclosed, hels, hkeys⟩ :=
    keysetWithSlot0_ok h hlen
  refine ⟨?_, fun hshape => ?_⟩
  · rw [houtline, ← hels]
    exact outline_of_reads hnext hreads hclosed rfl
  · rw [hasKeysetShape, houtline] at hshape
    dsimp only at hshape
    rw [Bool.and_eq_true, decide_eq_true_eq, List.filter_map, List.length_map] at hshape
    obtain ⟨hone, hcount⟩ := hshape
    have hall : ∀ m ∈ ms', m.Closed ∧ (isKeyArray m.el = true → IsKeyBody hash key m.body) :=
      fun m hm => ⟨hclosed m hm, hkeys hone m hm⟩
    have hmembers : r₁.members (fun _ => keysetMalformed fabricIndex)
        (parseKeysetMember fabricIndex) (none, none) =
        .ok (ms'.foldl (recordState hash key) (none, none), r₂) :=
      Reader.members_of_reads (P := fun s m s' =>
          (m.Closed ∧ (isKeyArray m.el = true → IsKeyBody hash key m.body)) ∧
            s' = recordState hash key s m)
        (fun hm hP hreads => hP.2 ▸ parseKeysetMember_of_reads fabricIndex hm hP.1.2 hreads) hreads
        hclosed rfl (folds_of_forall (none, none) hall)
    obtain ⟨hstate, hentry⟩ := @foldl_recordState hash key ms' (none, none)
    have hany' : (ms'.any fun m => isKeyArray m.el) = true := by
      have hmap := List.any_map (f := fun m : Member => m.el) (p := isKeyArray) (l := ms')
      rw [hels, List.any_map] at hmap
      exact hmap.symm.trans hany
    rw [hels, Option.or_none] at hstate
    rw [hany', if_pos rfl] at hentry
    rw [parseKeysetFirstEntry, hnext]
    dsimp only
    rw [hmembers]
    generalize ms'.foldl (recordState hash key) (none, none) = s at hstate hentry
    obtain ⟨count, entry⟩ := s
    cases hentry
    obtain rfl : count = _ := hstate
    cases hlast : ((ms.map (·.el)).filterMap statedCount).getLast? with
    | none =>
      rw [hlast] at hcount
      cases hcount
    | some n =>
      rw [hlast] at hcount
      have hn : ¬n < 1 := UInt64.not_lt.2 (of_decide_eq_true hcount)
      show (if n < 1 then _ else _ : Except KvsError _) = _
      rw [if_neg hn]
      rfl

end

end MatStack
