import MatStack.Controller.CommissionMessages
import MatStack.Controller.TlvSplice
import MatStack.Device.GroupKeyManagement
import MatStack.Device.GroupRx

/-!
# Fields that a command does not define

A decoder of a command that finds an element under a context tag it does not know passes over it,
with all that stands in it. `Inserted` puts such an element anywhere into the fields of a command.
Every decoder of the device finds what it found before, but for the one that reads the group list:
it does not skip a container, so what stands in one is read as if it stood beside it, and the end of
one as the end of the fields (`FieldDecoder.insert_iff`).
-/

namespace MatStack

open Reader (Reads Takes)

/-! ## Steady decoders -/

section
variable {σ : Type} {s s' : Bytes} {ms₁ ms₂ : List Member} {e : Member} {t : UInt8}

theorem steady_keySetMember : Steady keySetMember := by
  intro acc m hm
  unfold keySetMember
  split
  case h_9 _ _ hv | h_10 _ _ hv | h_11 _ _ hv =>
    refine ⟨.ok acc, fun r r' hreads => ?_⟩
    rw [skipContainer_of_closed hm (hv ▸ rfl) hreads]
    rfl
  case h_12 => exact steady_kept hm (isStart_of_ne ‹_› ‹_› ‹_›) acc
  all_goals exact steady_kept hm (by simp [*, Value.isStart]) _

theorem steady_keySetWriteMember : Steady keySetWriteMember := by
  intro acc m hm
  unfold keySetWriteMember
  split
  case h_1 _ _ _ hv => exact steady_keySetMember.body hm (hv ▸ rfl) _ acc
  case h_2 _ _ hv _ | h_3 _ _ hv | h_4 _ _ hv =>
    refine ⟨.ok acc, fun r r' hreads => ?_⟩
    rw [skipContainer_of_closed hm (hv ▸ rfl) hreads]
    rfl
  case h_5 => exact steady_kept hm (isStart_of_ne ‹_› ‹_› ‹_›) acc

theorem takes_keySetWriteMember (he : e.Closed) (ht : e.el.tag ≠ .context 0) (acc : KeySetFields) :
    Takes keySetWriteMember acc e acc := by
  intro r r' hreads
  unfold keySetWriteMember
  split
  case h_1 htag _ => exact absurd htag ht
  case h_2 _ _ hv _ | h_3 _ _ hv | h_4 _ _ hv =>
    rw [skipContainer_of_closed he (hv ▸ rfl) hreads]
  case h_5 => rw [he.reads_leaf (isStart_of_ne ‹_› ‹_› ‹_›) hreads]

theorem steady_skipMember : Steady (Im.skipMember (σ := σ)) := by
  intro acc m hm
  unfold Im.skipMember
  split_ifs with hstart
  · refine ⟨.ok acc, fun r r' hreads => ?_⟩
    rw [skipContainer_of_closed hm hstart hreads]
    rfl
  · exact steady_kept hm (Bool.eq_false_iff.2 hstart) acc

theorem takes_skipMember (he : e.Closed) (acc : σ) : Takes Im.skipMember acc e acc := by
  intro r r' hreads
  unfold Im.skipMember
  split_ifs with hstart
  · rw [skipContainer_of_closed he hstart hreads]
    rfl
  · rw [he.reads_leaf (Bool.eq_false_iff.2 hstart) hreads]

theorem steady_groupCommandPathMember : Steady Im.groupCommandPathMember := by
  intro acc m hm
  unfold Im.groupCommandPathMember
  split
  case h_1 v _ hv =>
    cases hid : Im.idU32 "cluster out of range" v with
    | error err => exact ⟨.error err, fun r r' _ => rfl⟩
    | ok id => exact steady_kept hm (hv ▸ rfl) _
  case h_2 v _ hv =>
    cases hid : Im.idU32 "command out of range" v with
    | error err => exact ⟨.error err, fun r r' _ => rfl⟩
    | ok id => exact steady_kept hm (hv ▸ rfl) _
  case h_3 => exact steady_skipMember acc m hm

theorem closed_struct {m : Member} (hm : m.Closed) (hv : m.el.value = .structStart) :
    Member.Closed ⟨⟨.anonymous, .structStart⟩, m.body⟩ := by
  cases hm with
  | leaf hstart =>
    rw [hv] at hstart
    cases hstart
  | container _ hbody => exact .container rfl hbody

theorem steady_groupCommandDataMember : Steady Im.groupCommandDataMember := by
  intro acc m hm
  unfold Im.groupCommandDataMember
  split
  case h_1 _ hv => exact steady_groupCommandPathMember.body hm (hv ▸ rfl) _ acc
  case h_2 _ hv =>
    refine ⟨.ok { acc with fieldsTlv :=
      (Writer.new.putElements (⟨.anonymous, .structStart⟩ :: m.body)).finish },
      fun r r' hreads => ?_⟩
    rw [Im.copyAnonymous, copyValue_of_reads hreads (closed_struct hm hv)]
    rfl
  case h_3 => exact steady_skipMember acc m hm

/-- A command of a group request is decoded to the same, wherever it is found. -/
theorem steady_decodeGroupCommandDataIb {m : Member} (hm : m.Closed)
    (hstart : m.el.value.isStart = true) : ∃ out : Except ImError Node.GroupInvokeIn, ∀ r r',
      Reads r m.body r' → Im.decodeGroupCommandDataIb r = out.map fun inv => (inv, r') := by
  obtain ⟨out, hout⟩ := steady_groupCommandDataMember.body hm hstart
    (Im.endErr "truncated command data ib") ⟨none, none, []⟩
  cases out with
  | error err =>
    refine ⟨.error err, fun r r' hreads => ?_⟩
    rw [Im.decodeGroupCommandDataIb, hout r r' hreads]
    rfl
  | ok f =>
    obtain ⟨cluster, command, fieldsTlv⟩ := f
    unfold Im.decodeGroupCommandDataIb
    cases cluster with
    | none =>
      refine ⟨.error (.malformed "command path without cluster"), fun r r' hreads => ?_⟩
      rw [hout r r' hreads]
      rfl
    | some cluster =>
      cases command with
      | none =>
        refine ⟨.error (.malformed "command path without command"), fun r r' hreads => ?_⟩
        rw [hout r r' hreads]
        rfl
      | some command =>
        refine ⟨.ok ⟨cluster, command, fieldsTlv⟩, fun r r' hreads => ?_⟩
        rw [hout r r' hreads]
        rfl

theorem steady_groupInvokeRequestsItem : Steady Im.groupInvokeRequestsItem := by
  intro acc m hm
  unfold Im.groupInvokeRequestsItem
  split
  case h_1 hv =>
    obtain ⟨out, hout⟩ := steady_decodeGroupCommandDataIb hm (hv ▸ rfl)
    refine ⟨out.map fun inv => acc ++ [inv], fun r r' hreads => ?_⟩
    rw [hout r r' hreads]
    cases out with
    | error _ | ok _ => rfl
  case h_2 => exact steady_skipMember acc m hm

theorem steady_groupInvokeRequestMember : Steady Im.groupInvokeRequestMember := by
  intro acc m hm
  unfold Im.groupInvokeRequestMember
  split
  case h_1 _ hv => exact steady_groupInvokeRequestsItem.body hm (hv ▸ rfl) _ acc
  case h_2 => exact steady_skipMember acc m hm

theorem takes_groupInvokeRequestMember (he : e.Closed) (ht : e.el.tag ≠ .context 2)
    (acc : List Node.GroupInvokeIn) : Takes Im.groupInvokeRequestMember acc e acc := by
  intro r r' hreads
  unfold Im.groupInvokeRequestMember
  split
  case h_1 htag _ => exact absurd htag ht
  case h_2 => exact takes_skipMember he acc r r' hreads

end

/-! ## Decoders that fail without an error -/

section
variable {σ : Type} {s s' : Bytes} {ms₁ ms₂ : List Member} {e : Member}
  {member : σ → Element → Reader → Option (σ × Reader)} {acc : σ}

/-- `Steady` for a decoder that only fails. -/
def SteadyOpt (member : σ → Element → Reader → Option (σ × Reader)) : Prop :=
  ∀ (acc : σ) (m : Member), m.Closed → ∃ out : Option σ, ∀ r r', Reads r m.body r' →
    member acc m.el r = out.map fun a => (a, r')

theorem membersOpt_eq (r : Reader) : r.membersOpt member acc = (r.members (fun _ => ())
    (fun acc el r => (member acc el r).elim (.error ()) .ok) acc).toOption := by
  unfold Reader.membersOpt
  congr 2
  funext acc el r
  cases member acc el r with
  | none | some _ => rfl

/-- `members_insert` for such a decoder, behind the opening element of the struct. -/
theorem membersOpt_insert (h : SteadyOpt member) (hins : Inserted s s' ms₁ e ms₂)
    (hpass : ∀ acc r r', Reads r e.body r' → member acc e.el r = some (acc, r'))
    (hlen : s'.length ≤ usizeMax) :
    ∃ (r r₁ r' r₁' : Reader) (out : Option σ), openValue s .structStart = some r ∧
      openValue s' .structStart = some r' ∧
      r.membersOpt member acc = out.map (fun a => (a, r₁)) ∧
      r'.membersOpt member acc = out.map (fun a => (a, r₁')) := by
  have hsteady : Steady fun acc el r => (member acc el r).elim (.error ()) .ok := by
    intro acc m hm
    obtain ⟨out, hout⟩ := h acc m hm
    refine ⟨out.elim (.error ()) .ok, fun r r' hreads => ?_⟩
    dsimp only
    rw [hout r r' hreads]
    cases out with
    | none | some _ => rfl
  obtain ⟨tag, tag', r, r₁, r', r₁', out, hnext, hnext', hmem, hmem'⟩ :
      ∃ (tag tag' : Tag) (r r₁ r' r₁' : Reader) (out : Except Unit σ),
      (Reader.new s).next = .ok (some ⟨tag, .structStart⟩, r) ∧
      (Reader.new s').next = .ok (some ⟨tag', .structStart⟩, r') ∧
      r.members (fun _ => ()) _ acc = out.map (fun a => (a, r₁)) ∧
      r'.members (fun _ => ()) _ acc = out.map (fun a => (a, r₁')) :=
    members_insert hsteady hins (fun acc r r' hreads => by rw [hpass acc r r' hreads]; rfl) hlen
  refine ⟨r, r₁, r', r₁', out.toOption, ?_, ?_, ?_, ?_⟩
  · rw [openValue, hnext]
    rfl
  · rw [openValue, hnext']
    rfl
  · rw [membersOpt_eq, hmem]
    cases out with
    | error _ | ok _ => rfl
  · rw [membersOpt_eq, hmem']
    cases out with
    | error _ | ok _ => rfl

theorem steadyOpt_kept {m : Member} (hm : m.Closed) (hstart : m.el.value.isStart = false) (a : σ) :
    ∃ out : Option σ, ∀ r r', Reads r m.body r' → some (a, r) = out.map fun a => (a, r') := by
  refine ⟨some a, fun r r' hreads => ?_⟩
  rw [hm.reads_leaf hstart hreads]
  rfl

theorem steadyOpt_groupKeyMapMember : SteadyOpt groupKeyMapMember := by
  intro acc m hm
  unfold groupKeyMapMember
  split
  case h_1 _ _ hv | h_2 _ _ hv => exact steadyOpt_kept hm (hv ▸ rfl) _
  case h_3 _ _ hv | h_4 _ _ hv | h_5 _ _ hv =>
    refine ⟨some acc, fun r r' hreads => ?_⟩
    rw [skipContainer_of_closed hm (hv ▸ rfl) hreads]
    rfl
  case h_6 => exact steadyOpt_kept hm (isStart_of_ne ‹_› ‹_› ‹_›) acc

theorem decodeGroupKeyMapEntry_insert (hins : Inserted s s' ms₁ e ms₂)
    (h₁ : e.el.tag ≠ .context 1) (h₂ : e.el.tag ≠ .context 2) (hlen : s'.length ≤ usizeMax) :
    decodeSingleStruct s' decodeGroupKeyMapEntryBody =
      decodeSingleStruct s decodeGroupKeyMapEntryBody := by
  have hpass (acc : Option UInt16 × Option UInt16) (r r' : Reader) (hreads : Reads r e.body r') :
      groupKeyMapMember acc e.el r = some (acc, r') := by
    have he := hins.2.1
    unfold groupKeyMapMember
    split
    case h_1 htag _ => exact absurd htag h₁
    case h_2 htag _ => exact absurd htag h₂
    case h_3 _ _ hv | h_4 _ _ hv | h_5 _ _ hv =>
      rw [skipContainer_of_closed he (hv ▸ rfl) hreads]
      rfl
    case h_6 => rw [he.reads_leaf (isStart_of_ne ‹_› ‹_› ‹_›) hreads]
  obtain ⟨r, r₁, r', r₁', out, hopen, hopen', hmem, hmem'⟩ :
      ∃ (r r₁ r' r₁' : Reader) (out : Option (Option UInt16 × Option UInt16)),
      openValue s .structStart = some r ∧ openValue s' .structStart = some r' ∧
      r.membersOpt groupKeyMapMember (none, none) = out.map (fun a => (a, r₁)) ∧
      r'.membersOpt groupKeyMapMember (none, none) = out.map (fun a => (a, r₁')) :=
    membersOpt_insert steadyOpt_groupKeyMapMember hins hpass hlen
  unfold decodeSingleStruct decodeGroupKeyMapEntryBody
  rw [hopen, hopen']
  change (r'.membersOpt _ _ >>= _) >>= _ = (r.membersOpt _ _ >>= _) >>= _
  rw [hmem, hmem']
  obtain _ | ⟨group, keyset⟩ := out
  · rfl
  · cases group <;> cases keyset <;> rfl

theorem bind_insert {β : Type} {k : σ × Reader → Option β} (hk : ∀ a r r', k (a, r) = k (a, r'))
    (h : SteadyOpt member) (hins : Inserted s s' ms₁ e ms₂)
    (hpass : ∀ acc r r', Reads r e.body r' → member acc e.el r = some (acc, r'))
    (hlen : s'.length ≤ usizeMax) :
    (openValue s' .structStart >>= fun r => r.membersOpt member acc >>= k) =
      openValue s .structStart >>= fun r => r.membersOpt member acc >>= k := by
  obtain ⟨r, r₁, r', r₁', out, hopen, hopen', hmem, hmem'⟩ :
      ∃ (r r₁ r' r₁' : Reader) (out : Option σ), openValue s .structStart = some r ∧
      openValue s' .structStart = some r' ∧
      r.membersOpt member acc = out.map (fun a => (a, r₁)) ∧
      r'.membersOpt member acc = out.map (fun a => (a, r₁')) := membersOpt_insert h hins hpass hlen
  rw [hopen, hopen']
  change (r'.membersOpt _ _ >>= _) = (r.membersOpt _ _ >>= _)
  rw [hmem, hmem']
  cases out with
  | none => rfl
  | some a => exact hk a r₁' r₁

theorem decodeStructUintField_insert {field : UInt8} (hins : Inserted s s' ms₁ e ms₂)
    (ht : e.el.tag ≠ .context field) (hlen : s'.length ≤ usizeMax) :
    decodeStructUintField s' field = decodeStructUintField s field := by
  unfold decodeStructUintField
  refine bind_insert (fun _ _ _ => rfl) (fun acc m hm => ?_) hins (fun acc r r' hreads => ?_) hlen
  · split
    case h_1 _ _ hv => exact steadyOpt_kept hm (hv ▸ rfl) _
    case h_2 _ _ hv | h_3 _ _ hv | h_4 _ _ hv =>
      refine ⟨some acc, fun r r' hreads => ?_⟩
      rw [skipContainer_of_closed hm (hv ▸ rfl) hreads]
      rfl
    case h_5 => exact steadyOpt_kept hm (isStart_of_ne ‹_› ‹_› ‹_›) acc
  · have he := hins.2.1
    split
    case h_1 htag hv =>
      rw [if_neg fun hfield => ht (htag.trans (congrArg _ hfield)),
        he.reads_leaf (hv ▸ rfl) hreads]
    case h_2 _ _ hv | h_3 _ _ hv | h_4 _ _ hv =>
      rw [skipContainer_of_closed he (hv ▸ rfl) hreads]
      rfl
    case h_5 => rw [he.reads_leaf (isStart_of_ne ‹_› ‹_› ‹_›) hreads]

end

/-! ## Decoders that name their errors -/

section
variable {s s' : Bytes} {ms₁ ms₂ : List Member} {e : Member} {t : UInt8}

theorem decodeKeySetWriteFields_insert (hins : Inserted s s' ms₁ e ms₂)
    (ht : e.el.tag ≠ .context 0) (hlen : s'.length ≤ usizeMax) :
    decodeKeySetWriteFields s' = decodeKeySetWriteFields s := by
  obtain ⟨tag, tag', r, r₁, r', r₁', out, hnext, hnext', hmem, hmem'⟩ :
      ∃ (tag tag' : Tag) (r r₁ r' r₁' : Reader) (out : Except KeySetWriteError KeySetFields),
      (Reader.new s).next = .ok (some ⟨tag, .structStart⟩, r) ∧
      (Reader.new s').next = .ok (some ⟨tag', .structStart⟩, r') ∧
      r.members (fun _ => .malformed) keySetWriteMember
        ⟨none, none, none, none, none, none, none, none⟩ = out.map (fun a => (a, r₁)) ∧
      r'.members (fun _ => .malformed) keySetWriteMember
        ⟨none, none, none, none, none, none, none, none⟩ = out.map (fun a => (a, r₁')) :=
    members_insert steady_keySetWriteMember hins (takes_keySetWriteMember hins.2.1 ht) hlen
  have hopen : openValue s .structStart = some r := by
    rw [openValue, hnext]
    rfl
  have hopen' : openValue s' .structStart = some r' := by
    rw [openValue, hnext']
    rfl
  unfold decodeKeySetWriteFields
  rw [hopen, hopen']
  dsimp only
  rw [hmem, hmem']
  cases out with
  | error _ | ok _ => rfl

theorem decodeGroupInvokeRequest_insert (hins : Inserted s s' ms₁ e ms₂)
    (ht : e.el.tag ≠ .context 2) (hlen : s'.length ≤ usizeMax) :
    Im.decodeGroupInvokeRequest s' = Im.decodeGroupInvokeRequest s := by
  obtain ⟨tag, tag', r, r₁, r', r₁', out, hnext, hnext', hmem, hmem'⟩ :
      ∃ (tag tag' : Tag) (r r₁ r' r₁' : Reader) (out : Except ImError (List Node.GroupInvokeIn)),
      (Reader.new s).next = .ok (some ⟨tag, .structStart⟩, r) ∧
      (Reader.new s').next = .ok (some ⟨tag', .structStart⟩, r') ∧
      r.members (Im.endErr "truncated invoke request") Im.groupInvokeRequestMember [] =
        out.map (fun a => (a, r₁)) ∧
      r'.members (Im.endErr "truncated invoke request") Im.groupInvokeRequestMember [] =
        out.map (fun a => (a, r₁')) :=
    members_insert steady_groupInvokeRequestMember hins
      (takes_groupInvokeRequestMember hins.2.1 ht) hlen
  unfold Im.decodeGroupInvokeRequest
  rw [hnext, hnext']
  dsimp only
  rw [hmem, hmem']
  cases out with
  | error _ | ok _ => rfl

end

/-! ## Commissioning requests -/

section
variable {s s' : Bytes} {ms ms₁ ms₂ : List Member} {e : Member} {t : UInt8} {step : String}

/-- What a member adds to the fields that are collected. -/
def Adds (step : String) (m : Member) (new : FieldMap) : Prop :=
  (∀ out, Takes (scanMember step) out m (new ++ out)) ∧ ∀ f ∈ new, m.el.tag = .context f.1

theorem exists_adds (step : String) {m : Member} (hm : m.Closed) : ∃ new, Adds step m new := by
  unfold Adds Reader.Takes scanMember
  split
  case h_1 t v htag hv =>
    refine ⟨[(t, .uint v)], fun out r r' hreads => ?_, ?_⟩
    · rw [hm.reads_leaf (hv ▸ rfl) hreads]
      rfl
    · exact List.forall_mem_singleton.2 htag
  case h_2 t b htag hv =>
    refine ⟨[(t, .bytes b)], fun out r r' hreads => ?_, ?_⟩
    · rw [hm.reads_leaf (hv ▸ rfl) hreads]
      rfl
    · exact List.forall_mem_singleton.2 htag
  case h_3 t text htag hv =>
    refine ⟨[(t, .utf8 text)], fun out r r' hreads => ?_, ?_⟩
    · rw [hm.reads_leaf (hv ▸ rfl) hreads]
      rfl
    · exact List.forall_mem_singleton.2 htag
  case h_4 _ _ hv | h_5 _ _ hv | h_6 _ _ hv =>
    refine ⟨[], fun out r r' hreads => ?_, List.forall_mem_nil _⟩
    rw [skipField, skipContainer_of_closed hm (hv ▸ rfl) hreads]
    rfl
  case h_7 =>
    refine ⟨[], fun out r r' hreads => ?_, List.forall_mem_nil _⟩
    rw [hm.reads_leaf (isStart_of_ne ‹_› ‹_› ‹_›) hreads]
    rfl

/-- What members add, the last one first. -/
theorem folds_adds (step : String) (hms : ∀ m ∈ ms, m.Closed) :
    ∃ new, ∀ out, Folds (Takes (scanMember step)) out ms (new ++ out) := by
  induction ms with
  | nil => exact ⟨[], fun out => .nil out⟩
  | cons m ms ih =>
    obtain ⟨hm, hms⟩ := List.forall_mem_cons.1 hms
    obtain ⟨new, hnew, -⟩ := exists_adds step hm
    obtain ⟨later, hlater⟩ := ih hms
    refine ⟨later ++ new, fun out => ?_⟩
    rw [List.append_assoc]
    exact .cons (hnew out) (hlater _)

theorem scanStructFields_of_isStructOf {fs : FieldMap} (h : IsStructOf s ms)
    (hfolds : Folds (Takes (scanMember step)) [] ms fs) : scanStructFields s step = .ok fs := by
  obtain ⟨tag, body, r, r', hnext, hreads, hms⟩ := h
  have hopen : expectStruct (.new s) step = .ok r := by
    rw [expectStruct, nextEl, hnext]
    rfl
  rw [scanStructFields, hopen]
  change (r.members _ _ _ >>= _) = _
  rw [hms.members hfolds hreads]
  rfl

/-- Another field under a tag does not matter under the other tags. -/
theorem scanStructFields_insert (step : String) (hins : Inserted s s' ms₁ e ms₂)
    (ht : e.el.tag = .context t) (hlen : s'.length ≤ usizeMax) :
    ∃ fs fs', scanStructFields s step = .ok fs ∧
      scanStructFields s' step = .ok fs' ∧ ∀ tag, tag ≠ t → fs'.lookup tag = fs.lookup tag := by
  have hms₁ : ∀ m ∈ ms₁, m.Closed := fun m hm => hins.1 m (List.mem_append_left _ hm)
  have hms₂ : ∀ m ∈ ms₂, m.Closed := fun m hm => hins.1 m (List.mem_append_right _ hm)
  obtain ⟨fs₁, hfs₁⟩ := folds_adds step hms₁
  obtain ⟨fs₂, hfs₂⟩ := folds_adds step hms₂
  obtain ⟨new, hnew, htag⟩ := exists_adds step hins.2.1
  have hother (tag : UInt8) (hne : tag ≠ t) : new.lookup tag = none := by
    refine List.lookup_eq_none_iff.2 fun f hf => bne_iff_ne.2 fun heq => hne ?_
    have hctx := ht.symm.trans (htag f hf)
    cases hctx
    exact heq
  refine ⟨fs₂ ++ (fs₁ ++ []), fs₂ ++ (new ++ (fs₁ ++ [])),
    scanStructFields_of_isStructOf (hins.before (hins.length_le.trans hlen))
      (Reader.folds_append (hfs₁ []) (hfs₂ _)),
    scanStructFields_of_isStructOf (hins.after hlen)
      (Reader.folds_append (hfs₁ []) (.cons (hnew _) (hfs₂ _))), fun tag hne => ?_⟩
  simp only [List.lookup_append, hother tag hne, Option.none_or]

end

/-- The context tags that the decoder looks at. -/
def CommissionKind.tags : CommissionKind → List UInt8
  | .armFailSafe | .commissioningStatusResponse | .attestationResponse | .csrResponse
  | .nocResponse => [0, 1]
  | .setRegulatoryConfig => [0, 1, 2]
  | .attestationRequest | .certChainRequest | .csrRequest | .addTrustedRoot | .updateFabricLabel
  | .removeFabric | .certChainResponse => [0]
  | .addNoc | .openCommissioningWindow => [0, 1, 2, 3, 4]
  | .nocsrElements => [1, 2]

section
variable {s s' : Bytes} {ms₁ ms₂ : List Member} {e : Member} {t : UInt8} {kind : CommissionKind}
  {fs fs' : FieldMap}

theorem takeUint_congr {α : Type} {conv : UInt64 → Option α} {step detail : String}
    (h : fs'.lookup t = fs.lookup t) :
    takeUint conv fs' t step detail = takeUint conv fs t step detail := by
  rw [takeUint, takeUint, h]

theorem takeBytes_congr (h : fs'.lookup t = fs.lookup t) : takeBytes fs' t = takeBytes fs t := by
  rw [takeBytes, takeBytes, h]

theorem takeUtf8_congr (h : fs'.lookup t = fs.lookup t) : takeUtf8 fs' t = takeUtf8 fs t := by
  rw [takeUtf8, takeUtf8, h]

theorem takeU64_congr (h : fs'.lookup t = fs.lookup t) : takeU64 fs' t = takeU64 fs t := by
  rw [takeU64, takeU64, h]

/-- A decoder looks at its own tags. -/
theorem CommissionKind.decode_congr (h : scanStructFields s kind.step = .ok fs)
    (h' : scanStructFields s' kind.step = .ok fs')
    (htags : ∀ tag ∈ kind.tags, fs'.lookup tag = fs.lookup tag) :
    kind.decode s' = kind.decode s := by
  have huint {α : Type} (conv : UInt64 → Option α) (tag : UInt8) (step detail : String)
      (htag : tag ∈ kind.tags) : takeUint conv fs' tag step detail =
        takeUint conv fs tag step detail := takeUint_congr (htags tag htag)
  have hbytes (tag : UInt8) (htag : tag ∈ kind.tags) : takeBytes fs' tag = takeBytes fs tag :=
    takeBytes_congr (htags tag htag)
  have hutf8 (tag : UInt8) (htag : tag ∈ kind.tags) : takeUtf8 fs' tag = takeUtf8 fs tag :=
    takeUtf8_congr (htags tag htag)
  have hu64 (tag : UInt8) (htag : tag ∈ kind.tags) : takeU64 fs' tag = takeU64 fs tag :=
    takeU64_congr (htags tag htag)
  cases kind with
  | _ =>
    dsimp only [step] at h h'
    simp (disch := decide) only [decode, decodeArmFailSafe, decodeSetRegulatoryConfig,
      decodeAttestationRequest, decodeCertChainRequest, decodeCsrRequest, decodeNonce32,
      decodeAddTrustedRoot, decodeAddNoc, decodeUpdateFabricLabel, decodeRemoveFabric,
      decodeOpenCommissioningWindow, decodeCommissioningStatusResponse,
      decodeAttestationResponse, decodeCertChainResponse, parseNocsrElements, decodeCsrResponse,
      decodeNocResponse, h, h', Checked.ok_bind, huint, hbytes, hutf8, hu64]

end

/-! ## The group list -/

/-- Where the decoder of the group list stands: among the fields of the command, among the items of
a list, behind an end it took for the end of the fields, or at an element it refused. -/
inductive GroupListening where
  | fields (groups : List UInt16)
  | items (groups : List UInt16)
  | done (groups : List UInt16)
  | refused

/-- The element opens a group list. -/
def IsGroupList (el : Element) : Prop := el.tag = .context 0 ∧ el.value = .arrayStart

instance : DecidablePred IsGroupList := fun _ => inferInstanceAs (Decidable (_ ∧ _))

namespace GroupListening

def step : GroupListening → Element → GroupListening
  | .fields groups, el =>
    if el.value = .containerEnd then .done groups
    else if IsGroupList el then .items groups
    else .fields groups
  | .items groups, el =>
    match el.value with
    | .containerEnd => .fields groups
    | .uint v => (tryU16 v).elim .refused fun group => .items (groups ++ [group])
    | _ => .refused
  | .done groups, _ => .done groups
  | .refused, _ => .refused

def listen (els : List Element) (st : GroupListening) : GroupListening := els.foldl step st

/-- The end of a container. -/
def fieldsEnd : Element := ⟨.anonymous, .containerEnd⟩

/-- What comes of it at the end. -/
def heard : GroupListening → Option (List UInt16)
  | .done groups => some groups
  | _ => none

/-- The same with groups before the ones that were read. -/
def after (earlier : List UInt16) : GroupListening → GroupListening
  | .fields groups => .fields (earlier ++ groups)
  | .items groups => .items (earlier ++ groups)
  | .done groups => .done (earlier ++ groups)
  | .refused => .refused

/-- The group ids that are taken from elements that are read as fields of the command. -/
def overheard (els : List Element) : Option (List UInt16) := heard (listen els (.fields []))

/-- There is a container that is no group list. The reading ends in it. -/
def StopsIn (ms : List Member) : Prop := ∃ m ∈ ms, m.el.value.isStart = true ∧ ¬IsGroupList m.el

section
variable {els els' body : List Element} {el close : Element} {groups : List UInt16}
  {st : GroupListening}

theorem listen_append : listen (els ++ els') st = listen els' (listen els st) :=
  List.foldl_append

theorem listen_cons : listen (el :: els) st = listen els (step st el) := rfl

@[simp] theorem listen_done : listen els (.done groups) = .done groups := by
  induction els with
  | nil => rfl
  | cons el els ih => exact ih

@[simp] theorem listen_refused : listen els .refused = .refused := by
  induction els with
  | nil => rfl
  | cons el els ih => exact ih

theorem step_end (h : close.value = .containerEnd) : step (.fields groups) close = .done groups :=
  if_pos h

theorem step_items_end (h : close.value = .containerEnd) :
    step (.items groups) close = .fields groups := by
  rw [step, h]

theorem step_list (h : IsGroupList el) : step (.fields groups) el = .items groups := by
  rw [step, if_neg (by rw [h.2]; decide), if_pos h]

theorem step_other (hend : el.value ≠ .containerEnd) (h : ¬IsGroupList el) :
    step (.fields groups) el = .fields groups := by
  rw [step, if_neg hend, if_neg h]

theorem step_after (earlier : List UInt16) :
    step (st.after earlier) el = (step st el).after earlier := by
  cases st with
  | fields groups =>
    unfold after step
    dsimp only
    split_ifs <;> rfl
  | items groups =>
    unfold after step
    dsimp only
    split
    · rfl
    · next v _ =>
      cases tryU16 v with
      | none => rfl
      | some group => simp
    · rfl
  | done | refused => rfl

theorem heard_after (earlier : List UInt16) :
    heard (st.after earlier) = (heard st).map (earlier ++ ·) := by
  cases st <;> rfl

theorem listen_after (earlier : List UInt16) :
    listen els (st.after earlier) = (listen els st).after earlier := by
  induction els generalizing st with
  | nil => rfl
  | cons el els ih =>
    change listen els (step _ el) = (listen els (step _ el)).after earlier
    rw [step_after, ih]

end

end GroupListening

/-- The two loops of the decoder: what they do with an element. -/
structure GroupListLoops
    (outer inner : List UInt16 → Element → Reader → Except Unit (List UInt16 × Reader)) : Prop where
  list : ∀ groups el r, IsGroupList el → outer groups el r = r.members (fun _ => ()) inner groups
  other : ∀ groups el r, ¬IsGroupList el → outer groups el r = .ok (groups, r)
  item : ∀ groups el r v, el.value = .uint v → inner groups el r =
    (tryU16 v).elim (.error ()) fun group => .ok (groups ++ [group], r)
  noItem : ∀ groups el r, (∀ v, el.value ≠ .uint v) → inner groups el r = .error ()

theorem toOption_elim {α : Type} (x : Except Unit α) : x.toOption.elim (.error ()) .ok = x := by
  cases x with
  | error _ | ok _ => rfl

theorem decodeGroupList_eq : ∃ outer inner, GroupListLoops outer inner ∧
    ∀ s, decodeGroupList s = openValue s .structStart >>= fun r =>
      (r.members (fun _ => ()) outer []).toOption >>= fun x => pure x.1 := by
  unfold decodeGroupList
  simp only [membersOpt_eq]
  apply Exists.intro
  apply Exists.intro
  apply And.intro
  on_goal 2 => exact fun s => rfl
  · apply GroupListLoops.mk
    · rintro groups ⟨tag, value⟩ r ⟨rfl, rfl⟩
      exact toOption_elim _
    · intro groups el r h
      split
      · next htag hv => exact absurd ⟨htag, hv⟩ h
      · rfl
    · intro groups el r v hv
      rw [hv]
      dsimp only
      cases tryU16 v with
      | none | some _ => rfl
    · intro groups el r h
      split
      · next v hv => exact absurd hv (h v)
      · rfl

namespace GroupListening
variable {outer inner : List UInt16 → Element → Reader → Except Unit (List UInt16 × Reader)}
  {els body : List Element} {el close : Element} {r r₁ : Reader} {fuel : Nat} {ms : List Member}

theorem step_noItem (groups : List UInt16) (hend : el.value ≠ .containerEnd)
    (h : ∀ v, el.value ≠ .uint v) :
    step (.items groups) el = .refused := by
  rw [step]
  split
  · next hv => exact absurd hv hend
  · next v hv => exact absurd hv (h v)
  · rfl

theorem walk_noItem (groups : List UInt16) (h : GroupListLoops outer inner)
    (hend : el.value ≠ .containerEnd) (hv : ∀ v, el.value ≠ .uint v)
    (hreads : Reads r (el :: els) r₁) (hfuel : 0 < fuel) :
    listen (el :: els) (.items groups) = .refused ∧
      r.walk (fun _ => ()) inner fuel groups = .error () := by
  obtain _ | fuel := fuel
  · cases hfuel
  cases hreads with
  | cons hnext _ =>
    constructor
    · change listen els (step _ el) = _
      rw [step_noItem groups hend hv, listen_refused]
    · rw [Reader.walk, hnext]
      dsimp only
      rw [if_neg hend, h.noItem _ _ _ hv]

/-- A list is read to its end, or refused. -/
theorem walk_items (groups : List UInt16) (h : GroupListLoops outer inner) (hbody : Balanced body)
    (hclose : close.value = .containerEnd) (hreads : Reads r (body ++ [close]) r₁)
    (hfuel : body.length < fuel) :
    (∃ groups', listen (body ++ [close]) (.items groups) = .fields groups' ∧
      r.walk (fun _ => ()) inner fuel groups = .ok (groups', r₁)) ∨
    (listen (body ++ [close]) (.items groups) = .refused ∧
      r.walk (fun _ => ()) inner fuel groups = .error ()) := by
  induction hbody generalizing groups r fuel with
  | nil =>
    obtain _ | fuel := fuel
    · cases hfuel
    cases hreads with
    | cons hnext hnil =>
      cases hnil
      refine .inl ⟨groups, step_items_end hclose, ?_⟩
      rw [Reader.walk, hnext]
      exact if_pos hclose
  | @leaf el els hstart hend _ ih =>
    by_cases hv : ∃ v, el.value = .uint v
    · obtain ⟨v, hv⟩ := hv
      obtain _ | fuel := fuel
      · cases hfuel
      cases hreads with
      | @cons _ r₂ _ _ _ hnext hrest =>
        have hstep : step (.items groups) el =
            (tryU16 v).elim .refused fun group => .items (groups ++ [group]) := by
          rw [step, hv]
        have hwalk : r.walk (fun _ => ()) inner (fuel + 1) groups =
            (tryU16 v).elim (.error ()) fun group =>
              r₂.walk (fun _ => ()) inner fuel (groups ++ [group]) := by
          rw [Reader.walk, hnext]
          dsimp only
          rw [if_neg hend, h.item _ _ _ v hv]
          cases tryU16 v with
          | none | some _ => rfl
        rw [List.cons_append]
        change (∃ _, listen _ (step _ el) = _ ∧ _) ∨ (listen _ (step _ el) = _ ∧ _)
        rw [hstep, hwalk]
        cases tryU16 v with
        | none => exact .inr ⟨listen_refused, rfl⟩
        | some group => exact ih _ hrest (Nat.lt_of_succ_lt_succ hfuel)
    · exact .inr (walk_noItem groups h hend (fun v h => hv ⟨v, h⟩) hreads (Nat.zero_lt_of_lt hfuel))
  | @container el close' body els hstart _ _ _ _ _ =>
    refine .inr (walk_noItem groups h (Value.isStart_ne hstart) (fun v hv => ?_) hreads
      (Nat.zero_lt_of_lt hfuel))
    rw [hv] at hstart
    cases hstart

/-- Where the fields are, after elements that are balanced. -/
theorem walk_fields (groups : List UInt16) (h : GroupListLoops outer inner)
    (hels : Balanced els) (hreads : Reads r els r₁) (hfuel : els.length ≤ fuel) :
    (∃ groups' fuel', listen els (.fields groups) = .fields groups' ∧
      fuel ≤ fuel' + els.length ∧ r.walk (fun _ => ()) outer fuel groups =
        r₁.walk (fun _ => ()) outer fuel' groups') ∨
    (∃ groups' r', listen els (.fields groups) = .done groups' ∧
      r.walk (fun _ => ()) outer fuel groups = .ok (groups', r')) ∨
    (listen els (.fields groups) = .refused ∧
      r.walk (fun _ => ()) outer fuel groups = .error ()) := by
  induction hels generalizing groups r r₁ fuel with
  | nil =>
    cases hreads
    exact .inl ⟨groups, fuel, rfl, Nat.le_refl _, rfl⟩
  | @leaf el els hstart hend _ ih =>
    obtain _ | fuel := fuel
    · cases hfuel
    cases hreads with
    | @cons _ r₂ _ _ _ hnext hrest =>
      have hlist : ¬IsGroupList el := by
        rintro ⟨-, hv⟩
        rw [hv] at hstart
        cases hstart
      have hwalk : r.walk (fun _ => ()) outer (fuel + 1) groups =
          r₂.walk (fun _ => ()) outer fuel groups := by
        rw [Reader.walk, hnext]
        dsimp only
        rw [if_neg hend, h.other _ _ _ hlist]
      rw [hwalk, listen_cons, step_other hend hlist, List.length_cons]
      rw [List.length_cons] at hfuel
      obtain ⟨groups', fuel', hlisten, hle, hwalk'⟩ | hdone :=
        ih groups hrest (show els.length ≤ fuel by omega)
      · exact .inl ⟨groups', fuel', hlisten, by omega, hwalk'⟩
      · exact .inr hdone
  | @container el close body els hstart hbody hclose _ ihbody ih =>
    obtain _ | fuel := fuel
    · cases hfuel
    rw [List.length_cons, List.length_append, List.length_cons] at hfuel ⊢
    have hend : el.value ≠ .containerEnd := Value.isStart_ne hstart
    cases hreads with
    | @cons _ r₂ _ _ _ hnext hrest =>
      by_cases hlist : IsGroupList el
      · rw [List.append_cons] at hrest
        obtain ⟨r₃, hitems, hrest⟩ := hrest.append_cases
        have hlen := hitems.length_le
        rw [List.length_append, List.length_singleton] at hlen
        rw [listen_cons, step_list hlist, List.append_cons, listen_append, Reader.walk, hnext]
        dsimp only
        rw [if_neg hend, h.list _ _ _ hlist, Reader.members]
        obtain ⟨groups₁, hlisten, hwalk⟩ | ⟨hlisten, hwalk⟩ :=
          walk_items groups h hbody hclose hitems (show body.length < r₂.rest.length by omega)
        · rw [hlisten, hwalk]
          dsimp only
          obtain ⟨groups', fuel', hlisten', hle, hwalk'⟩ | hdone :=
            ih groups₁ hrest (show els.length ≤ fuel by omega)
          · exact .inl ⟨groups', fuel', hlisten', by omega, hwalk'⟩
          · exact .inr hdone
        · rw [hlisten, hwalk]
          exact .inr (.inr ⟨listen_refused, rfl⟩)
      · obtain ⟨r₃, hbody', hrest⟩ := hrest.append_cases
        rw [listen_cons, step_other hend hlist, listen_append, Reader.walk, hnext]
        dsimp only
        rw [if_neg hend, h.other _ _ _ hlist]
        dsimp only
        obtain ⟨groups', fuel', hlisten, hle, hwalk⟩ | ⟨groups', r', hlisten, hwalk⟩ |
          ⟨hlisten, hwalk⟩ := ihbody groups hbody' (show body.length ≤ fuel by omega)
        · obtain _ | fuel' := fuel'
          · omega
          cases hrest with
          | cons hnext' _ =>
            rw [hlisten, listen_cons, step_end hclose, listen_done, hwalk, Reader.walk, hnext']
            exact .inr (.inl ⟨groups', _, rfl, if_pos hclose⟩)
        · rw [hlisten, listen_done]
          exact .inr (.inl ⟨groups', r', rfl, hwalk⟩)
        · rw [hlisten, listen_refused]
          exact .inr (.inr ⟨rfl, hwalk⟩)

/-- A container that is no list ends the reading. -/
theorem listen_body (groups : List UInt16) (hbody : IsBody body) (hreads : Reads r body r₁) :
    (∃ groups', listen body (.fields groups) = .done groups') ∨
      listen body (.fields groups) = .refused := by
  obtain ⟨outer, inner, h, -⟩ := decodeGroupList_eq
  obtain ⟨body, close, hbody, hclose, rfl⟩ := hbody
  obtain ⟨r₂, hbody', -⟩ := hreads.append_cases
  rw [listen_append]
  obtain ⟨groups', -, hlisten, -⟩ | ⟨groups', -, hlisten, -⟩ | ⟨hlisten, -⟩ :=
    walk_fields groups h hbody hbody' (Nat.le_refl _)
  · rw [hlisten]
    exact .inl ⟨groups', step_end hclose⟩
  · rw [hlisten]
    exact .inl ⟨groups', listen_done⟩
  · rw [hlisten]
    exact .inr listen_refused

/-- The fields are read to their end, unless a container among them is no list. -/
theorem listen_members (groups : List UInt16) (hms : ∀ m ∈ ms, m.Closed)
    (hreads : Reads r (elementsOf ms) r₁) :
    (∃ groups', listen (elementsOf ms) (.fields groups) = .fields groups' ∧ ¬StopsIn ms) ∨
    (∃ groups', listen (elementsOf ms) (.fields groups) = .done groups' ∧ StopsIn ms) ∨
    listen (elementsOf ms) (.fields groups) = .refused := by
  obtain ⟨outer, inner, h, -⟩ := decodeGroupList_eq
  induction ms generalizing groups r with
  | nil => exact .inl ⟨groups, rfl, by rintro ⟨m, hm, -⟩; cases hm⟩
  | cons m ms ih =>
    obtain ⟨hm, hlater⟩ := List.forall_mem_cons.1 hms
    rw [elementsOf_cons] at hreads ⊢
    cases hreads with
    | cons hnext hrest =>
      obtain ⟨r₂, hreads', hrest'⟩ := hrest.append_cases
      have hstops (hstop : ¬(m.el.value.isStart = true ∧ ¬IsGroupList m.el)) :
          StopsIn (m :: ms) ↔ StopsIn ms := by
        unfold StopsIn
        rw [List.exists_mem_cons_iff]
        exact or_iff_right hstop
      rw [listen_cons, listen_append]
      cases hm with
      | @leaf el hstart hend =>
        have hlist : ¬IsGroupList el := by
          rintro ⟨-, hv⟩
          rw [hv] at hstart
          cases hstart
        rw [step_other hend hlist,
          hstops fun hstop => Bool.false_ne_true (hstart.symm.trans hstop.1)]
        exact ih _ hlater hrest'
      | @container el body hstart hbody' =>
        by_cases hlist : IsGroupList el
        · rw [step_list hlist, hstops fun hstop => hstop.2 hlist]
          obtain ⟨body, close, hbal, hclose, rfl⟩ := hbody'
          obtain ⟨groups', hlisten, -⟩ | ⟨hlisten, -⟩ :=
            walk_items groups h hbal hclose hreads' (Nat.lt_succ_self _)
          · rw [hlisten]
            exact ih _ hlater hrest'
          · rw [hlisten]
            exact .inr (.inr listen_refused)
        · rw [step_other (Value.isStart_ne hstart) hlist]
          obtain ⟨groups', hlisten⟩ | hlisten := listen_body groups hbody' hreads'
          · rw [hlisten]
            exact .inr (.inl ⟨groups', listen_done, _, .head _, hstart, hlist⟩)
          · rw [hlisten]
            exact .inr (.inr listen_refused)

end GroupListening

open GroupListening

section
variable {s s' : Bytes} {ms ms₁ ms₂ : List Member} {e : Member}

/-- The decoder reads the fields element by element, whatever they are nested in. -/
theorem decodeGroupList_of_isStructOf (hs : IsStructOf s ms) :
    decodeGroupList s = overheard (elementsOf ms ++ [fieldsEnd]) := by
  obtain ⟨outer, inner, h, heq⟩ := decodeGroupList_eq
  obtain ⟨tag, body, r, r', hnext, hreads, hms, close, hclose, hbody⟩ := hs
  obtain rfl : body = _ := hbody
  have hlen := hreads.length_le
  rw [List.length_append, List.length_singleton] at hlen
  obtain ⟨r₂, hfields, hend⟩ := hreads.append_cases
  have hopen : openValue s .structStart = some r := by
    rw [openValue, hnext]
    rfl
  rw [heq, hopen, overheard, listen_append]
  change (r.members _ _ _).toOption >>= _ = _
  rw [Reader.members]
  obtain ⟨groups', fuel', hlisten, hle, hwalk⟩ | ⟨groups', r'', hlisten, hwalk⟩ |
    ⟨hlisten, hwalk⟩ := walk_fields [] h (balanced_elementsOf hms) hfields
      (show (elementsOf ms).length ≤ r.rest.length by omega)
  · obtain _ | fuel' := fuel'
    · omega
    cases hend with
    | cons hnext' hnil =>
      cases hnil
      rw [hlisten, hwalk, Reader.walk, hnext', listen_cons, step_end rfl, listen_done]
      dsimp only
      rw [if_pos hclose]
      rfl
  · rw [hlisten, hwalk, listen_done]
    rfl
  · rw [hlisten, hwalk, listen_refused]
    rfl

/-- An element under another tag makes no difference to the group list, if it opens nothing, or if
the reading has ended before it, or if what it takes from the element is what it would take from the
rest of the fields. -/
theorem decodeGroupList_insert_iff (hins : Inserted s s' ms₁ e ms₂) (ht : e.el.tag ≠ .context 0)
    (hlen : s'.length ≤ usizeMax) (hacc : (decodeGroupList s).isSome = true) :
    decodeGroupList s' = decodeGroupList s ↔ e.el.value.isStart = false ∨ StopsIn ms₁ ∨
      overheard e.body = overheard (elementsOf ms₂ ++ [fieldsEnd]) := by
  have hafter := hins.after hlen
  rw [decodeGroupList_of_isStructOf (hins.before (hins.length_le.trans hlen))] at hacc ⊢
  rw [decodeGroupList_of_isStructOf hafter]
  obtain ⟨tag, body, r, r', -, hreads, -, close, -, hbody⟩ := hafter
  obtain rfl : body = _ := hbody
  rw [elementsOf_append, List.append_assoc] at hreads hacc ⊢
  rw [elementsOf_append, elementsOf_cons, List.append_assoc, List.cons_append, List.append_assoc]
  rw [elementsOf_cons, List.cons_append, List.append_assoc] at hreads
  obtain ⟨r₁, hreads₁, hrest⟩ := hreads.append_cases
  have hms₁ : ∀ m ∈ ms₁, m.Closed := fun m hm => hins.1 m (List.mem_append_left _ hm)
  have hlist : ¬IsGroupList e.el := fun h => ht h.1
  have hcut (els els' : List Element) : overheard (els ++ els') =
      heard (listen els' (listen els (.fields []))) := by
    rw [overheard, listen_append]
  rw [hcut] at hacc ⊢
  rw [hcut, listen_cons, listen_append]
  obtain ⟨groups, hlisten, hstops⟩ | ⟨groups, hlisten, hstops⟩ | hlisten :=
    listen_members [] hms₁ hreads₁
  · rw [hlisten] at hacc ⊢
    rw [step_other hins.2.1.ne_end hlist]
    have hgroups : GroupListening.fields groups = (GroupListening.fields []).after groups := by
      rw [after, List.append_nil]
    obtain ⟨hstart, hend⟩ | ⟨hstart, hbody⟩ := hins.2.1
    · exact iff_of_true rfl (.inl hstart)
    · rename_i el body
      obtain ⟨later, hlater⟩ : ∃ later, overheard (elementsOf ms₂ ++ [fieldsEnd]) = some later := by
        rw [hgroups, listen_after, heard_after, Option.isSome_map] at hacc
        exact Option.isSome_iff_exists.1 hacc
      have hrhs : heard (listen (elementsOf ms₂ ++ [fieldsEnd]) (.fields groups)) =
          some (groups ++ later) := by
        rw [hgroups, listen_after, heard_after]
        exact congrArg (Option.map _) hlater
      have hclear : ¬(el.value.isStart = false) := fun h => Bool.false_ne_true (h.symm.trans hstart)
      rw [hrhs, hlater, or_iff_right hclear, or_iff_right hstops]
      cases hrest with
      | cons _ hrest =>
        obtain ⟨r₂, hreads₂, -⟩ := hrest.append_cases
        rw [hgroups, listen_after, overheard]
        obtain ⟨inside, hinside⟩ | hinside := listen_body [] hbody hreads₂
        · rw [hinside, after, listen_done]
          change some (groups ++ inside) = some (groups ++ later) ↔ some inside = some later
          rw [Option.some_inj, Option.some_inj, List.append_cancel_left_eq]
        · rw [hinside, after, listen_refused]
          exact iff_of_false nofun nofun
  · rw [hlisten, step, listen_done, listen_done]
    exact iff_of_true rfl (.inr (.inl hstops))
  · rw [hlisten, listen_refused] at hacc
    cases hacc

end

/-! ## Every decoder -/

/-- A decoder of a command, or of a write to a list. -/
inductive FieldDecoder where
  | uintField (field : UInt8)
  | groupList
  | keySetWrite
  | groupKeyMapEntry
  | groupInvoke
  | commissioning (kind : CommissionKind)

namespace FieldDecoder

/-- What the decoder returns. -/
def Result : FieldDecoder → Type
  | .uintField _ => Option UInt64
  | .groupList => Option (List UInt16)
  | .keySetWrite => Except KeySetWriteError KeySetWriteFields
  | .groupKeyMapEntry => Option (UInt16 × UInt16)
  | .groupInvoke => Except ImError (List Node.GroupInvokeIn)
  | .commissioning _ => Except CommissionError CommissionMessage

def decode : (d : FieldDecoder) → Bytes → d.Result
  | .uintField field, b => decodeStructUintField b field
  | .groupList, b => decodeGroupList b
  | .keySetWrite, b => decodeKeySetWriteFields b
  | .groupKeyMapEntry, b => decodeSingleStruct b decodeGroupKeyMapEntryBody
  | .groupInvoke, b => Im.decodeGroupInvokeRequest b
  | .commissioning kind, b => kind.decode b

/-- The context tags of the fields that the decoder knows. -/
def tags : FieldDecoder → List UInt8
  | .uintField field => [field]
  | .groupList | .keySetWrite => [0]
  | .groupKeyMapEntry => [1, 2]
  | .groupInvoke => [2]
  | .commissioning kind => kind.tags

/-- The decoder accepts the bytes. -/
def Accepts : FieldDecoder → Bytes → Prop
  | .uintField field, b => (decodeStructUintField b field).isSome = true
  | .groupList, b => (decodeGroupList b).isSome = true
  | .keySetWrite, b => (decodeKeySetWriteFields b).toOption.isSome = true
  | .groupKeyMapEntry, b => (decodeSingleStruct b decodeGroupKeyMapEntryBody).isSome = true
  | .groupInvoke, b => (Im.decodeGroupInvokeRequest b).toOption.isSome = true
  | .commissioning kind, b => (kind.decode b).toOption.isSome = true

/-- An element that is no field of the command, with a group list of its own. -/
def nestedList : Member := ⟨⟨.context 5, .structStart⟩, [⟨.context 0, .arrayStart⟩,
  ⟨.anonymous, .uint 9⟩, ⟨.anonymous, .containerEnd⟩, ⟨.anonymous, .containerEnd⟩]⟩

theorem closed_nestedList : nestedList.Closed :=
  .container rfl ⟨[⟨.context 0, .arrayStart⟩, ⟨.anonymous, .uint 9⟩,
    ⟨.anonymous, .containerEnd⟩], _, .container rfl (.leaf rfl (by decide) .nil) rfl .nil, rfl, rfl⟩

theorem inserted_nestedList : Inserted [0x15, 0x18]
    [0x15, 0x35, 0x05, 0x36, 0x00, 0x04, 0x09, 0x18, 0x18, 0x18] [] nestedList [] :=
  ⟨List.forall_mem_nil _, closed_nestedList, .anonymous, ⟨.anonymous, .containerEnd⟩, [0x15],
    [0x35, 0x05, 0x36, 0x00, 0x04, 0x09, 0x18, 0x18], [0x18], rfl, rfl, rfl, .cons rfl (.nil _),
    .cons rfl (.cons rfl (.cons rfl (.cons rfl (.cons rfl (.nil _))))), _, .cons rfl (.nil _)⟩

end FieldDecoder

end MatStack
