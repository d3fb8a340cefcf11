import MatStack.Controller.SecureChannel
import MatStack.Device.GroupKeyIntegrity

/-!
# The fields of the group key commands

What the controller writes into `KeySetWrite`, and that the cluster of the device decodes it. A
command carries up to three epoch keys; the slots that are not used are null.
-/

namespace MatStack

/-! ## What is written -/

/-- The key and the start time of slot `i`. -/
def Writer.putEpoch (w : Writer) (i : UInt8) (epoch : Option Epoch) : Writer :=
  match epoch with
  | some (key, start) =>
    (w.putBytes (.context (2 + 2 * i)) key.1).putUint (.context (3 + 2 * i)) start
  | none => (w.putNull (.context (2 + 2 * i))).putNull (.context (3 + 2 * i))

/-- The fields of `KeySetWrite` with the policy to trust the first key. -/
def encodeKeySetWriteFieldsMulti (keysetId : UInt16) (epochs : List Epoch) : Bytes :=
  let w := (Writer.new.startStruct .anonymous).startStruct (.context 0)
  let w := (w.putUint (.context 0) keysetId.toUInt64).putUint (.context 1) 0
  let w := ((w.putEpoch 0 epochs[0]?).putEpoch 1 epochs[1]?).putEpoch 2 epochs[2]?
  w.endContainer.endContainer.finish

/-- The same with one epoch key. -/
def encodeKeySetWriteFields (keysetId : UInt16) (epochKey : Fixed 16) : Bytes :=
  encodeKeySetWriteFieldsMulti keysetId [(epochKey, 1)]

/-! ## What is read -/

section
variable {w : Writer} {keysetId : UInt16} {epochs : Epochs}

/-- The elements of slot `i`. -/
def epochElements (i : UInt8) : Option Epoch → List Element
  | some (key, start) => [⟨.context (2 + 2 * i), .bytes key.1⟩, ⟨.context (3 + 2 * i), .uint start⟩]
  | none => [⟨.context (2 + 2 * i), .null⟩, ⟨.context (3 + 2 * i), .null⟩]

theorem writesWithin_putNull {tag : Tag} : WritesWithin 9 w (w.putNull tag) [⟨tag, .null⟩] := by
  obtain ⟨hwrites, hlen⟩ := @writesWithin_of_type w tag 0x14 .null ⟨rfl, rfl⟩ fun _ => rfl
  exact ⟨hwrites, hlen⟩

theorem writesWithin_putEpoch (i : UInt8) (epoch : Option Epoch) :
    WritesWithin 50 w (w.putEpoch i epoch) (epochElements i epoch) := by
  cases epoch with
  | none =>
    obtain ⟨hwrites, hlen⟩ := (@writesWithin_putNull w (.context (2 + 2 * i))).trans
      (@writesWithin_putNull _ (.context (3 + 2 * i)))
    exact ⟨hwrites, hlen.trans (by omega)⟩
  | some e =>
    obtain ⟨key, start⟩ := e
    have hkey : key.1.length + 17 ≤ 33 := by rw [key.2]
    exact (writesWithin_putBytes key.1 hkey).trans (writesWithin_putUint start)

/-- The elements of the key set struct. -/
def keySetElements (keysetId : UInt16) (epochs : List Epoch) : List Element :=
  [⟨.context 0, .uint keysetId.toUInt64⟩, ⟨.context 1, .uint 0⟩] ++
    (epochElements 0 epochs[0]? ++ (epochElements 1 epochs[1]? ++ epochElements 2 epochs[2]?))

theorem writes_encodeKeySetWriteFieldsMulti (keysetId : UInt16) (epochs : List Epoch) :
    ∃ r, (Reader.new (encodeKeySetWriteFieldsMulti keysetId epochs)).Reads
      (⟨.anonymous, .structStart⟩ :: ⟨.context 0, .structStart⟩ ::
        (keySetElements keysetId epochs ++
          [⟨.anonymous, .containerEnd⟩, ⟨.anonymous, .containerEnd⟩])) r := by
  have h := (@writesWithin_startStruct .new .anonymous).trans
    ((@writesWithin_startStruct _ (.context 0)).trans
      ((@writesWithin_putUint _ (.context 0) keysetId.toUInt64).trans
        ((@writesWithin_putUint _ (.context 1) 0).trans
          ((writesWithin_putEpoch 0 epochs[0]?).trans
            ((writesWithin_putEpoch 1 epochs[1]?).trans
              ((writesWithin_putEpoch 2 epochs[2]?).trans
                (writesWithin_endContainer.trans writesWithin_endContainer)))))))
  obtain ⟨r, hr⟩ := h.reads (by decide)
  refine ⟨r, ?_⟩
  simpa [encodeKeySetWriteFieldsMulti, keySetElements] using hr

theorem scalar_of_mem_keySetElements {el : Element} {epochs : List Epoch}
    (hel : el ∈ keySetElements keysetId epochs) : el.Scalar := by
  have hepoch : ∀ i epoch, el ∈ epochElements i epoch → el.Scalar := by
    intro i epoch hmem
    cases epoch with
    | none =>
      simp only [epochElements, List.mem_cons, List.not_mem_nil, or_false] at hmem
      rcases hmem with rfl | rfl <;> exact ⟨rfl, nofun⟩
    | some e =>
      simp only [epochElements, List.mem_cons, List.not_mem_nil, or_false] at hmem
      rcases hmem with rfl | rfl <;> exact ⟨rfl, nofun⟩
  rcases List.mem_append.1 hel with hmem | hmem
  · simp only [List.mem_cons, List.not_mem_nil, or_false] at hmem
    rcases hmem with rfl | rfl <;> exact ⟨rfl, nofun⟩
  · rcases List.mem_append.1 hmem with hmem | hmem
    · exact hepoch _ _ hmem
    · exact (List.mem_append.1 hmem).elim (hepoch _ _) (hepoch _ _)

/-- The members as the cluster collects them. -/
def keySetFieldsOf (keysetId : UInt16) (epochs : List Epoch) : KeySetFields where
  keysetId := some keysetId
  policy := some 0
  key₀ := epochs[0]?.map (·.1.1)
  key₁ := epochs[1]?.map (·.1.1)
  key₂ := epochs[2]?.map (·.1.1)
  start₀ := epochs[0]?.map (·.2)
  start₁ := epochs[1]?.map (·.2)
  start₂ := epochs[2]?.map (·.2)

theorem folds_keySetElements (keysetId : UInt16) (epochs : List Epoch) :
    Folds (fun acc el acc' => ∀ r, keySetMember acc el r = .ok (acc', r))
      ⟨none, none, none, none, none, none, none, none⟩ (keySetElements keysetId epochs)
      (keySetFieldsOf keysetId epochs) := by
  have hid : ∀ f r, keySetMember f ⟨.context 0, .uint keysetId.toUInt64⟩ r =
      .ok ({ f with keysetId := some keysetId }, r) := by
    intro f r
    rw [← tryU16_toUInt64 keysetId]
    rfl
  unfold keySetElements keySetFieldsOf
  cases epochs[0]? <;> cases epochs[1]? <;> cases epochs[2]?
  all_goals
    refine .cons (hid _) ?_
    repeat' first
      | exact .nil _
      | refine .cons (fun _ => rfl) ?_

/-- Scalars that are each taken by themselves. -/
theorem Reader.members_of_scalars {σ ε : Type} {fail : Option TlvError → ε}
    {member : σ → Element → Reader → Except ε (σ × Reader)} {acc acc' : σ} {r r' : Reader}
    {els : List Element} {close : Element} (h : r.Reads (els ++ [close]) r')
    (hclose : close.value = .containerEnd) (hels : ∀ el ∈ els, el.Scalar)
    (hfolds : Folds (fun acc el acc' => ∀ r, member acc el r = .ok (acc', r)) acc els acc') :
    r.members fail member acc = .ok (acc', r') := by
  rw [← elementsOf_scalarsOf els] at h
  have hmembers : Folds (fun acc m acc' => m.body = [] ∧ ∀ r, member acc m.el r = .ok (acc', r))
      acc (scalarsOf els) acc' := by
    clear h hels
    induction hfolds with
    | nil acc => exact .nil acc
    | cons hm _ ih => exact .cons ⟨rfl, hm⟩ ih
  refine members_of_reads ?_ h (closed_scalarsOf hels) hclose hmembers
  rintro acc m acc' r r' - ⟨hbody, hm⟩ hreads
  rw [hbody] at hreads
  cases hreads
  exact hm r

theorem openValue_of_reads {data : Bytes} {els : List Element} {tag : Tag} {start : Value}
    {r : Reader} (h : (Reader.new data).Reads (⟨tag, start⟩ :: els) r) :
    ∃ r₁, openValue data start = some r₁ ∧ r₁.Reads els r := by
  cases h with
  | cons hnext hrest =>
    refine ⟨_, ?_, hrest⟩
    rw [openValue, hnext]
    exact if_pos rfl

theorem slotKey_some (key : Fixed 16) : slotKey (some key.1) = .ok (some key) := by
  have hkey : Fixed.ofBytes? 16 key.1 = some key := by
    rw [Fixed.ofBytes?, dif_pos key.2]
  rw [slotKey, hkey]

theorem slotKey_none : slotKey none = .ok none := rfl

theorem laterEpoch_of_lt {e e' : Epoch} (h : e.2 < e'.2) :
    laterEpoch e'.1 (some e'.2) e.2 = .ok e' := by
  have hne : ¬(e'.2 = 0 ∨ e'.2 ≤ e.2) := by
    rintro (hzero | hle)
    · rw [hzero] at h
      exact absurd h (UInt64.not_lt.2 (UInt64.zero_le))
    · exact absurd h (UInt64.not_lt.2 hle)
  rw [laterEpoch, if_neg hne]

/-- **The fields of `KeySetWrite`.** Epochs that start one after the other arrive as they were
written. -/
theorem decodeKeySetWriteFields_encode (keysetId : UInt16) (hlen : epochs.1.length ≤ 3)
    (hinc : Increasing epochs.1) :
    decodeKeySetWriteFields (encodeKeySetWriteFieldsMulti keysetId epochs.1) =
      .ok ⟨keysetId, epochs⟩ := by
  obtain ⟨r, hreads⟩ := writes_encodeKeySetWriteFieldsMulti keysetId epochs.1
  obtain ⟨r₁, hopen, hrest⟩ := openValue_of_reads hreads
  have hmembers : r₁.members (fun _ => KeySetWriteError.malformed) keySetWriteMember
      ⟨none, none, none, none, none, none, none, none⟩ =
        .ok (keySetFieldsOf keysetId epochs.1, r) := by
    have hbody : r₁.Reads (elementsOf [⟨⟨.context 0, .structStart⟩,
        keySetElements keysetId epochs.1 ++ [⟨.anonymous, .containerEnd⟩]⟩] ++
          [⟨.anonymous, .containerEnd⟩]) r := by
      simpa [elementsOf] using hrest
    refine Reader.members_of_reads (P := fun acc m acc' => ∀ r r', r.Reads m.body r' →
        keySetWriteMember acc m.el r = .ok (acc', r'))
      (fun _ hP hbody => hP _ _ hbody) hbody ?_ rfl (.cons (fun r r' hbody => ?_) (.nil _))
    · intro m hm
      rw [List.mem_singleton.1 hm]
      have hbody : IsBody (elementsOf (scalarsOf (keySetElements keysetId epochs.1)) ++
          [⟨.anonymous, .containerEnd⟩]) :=
        isBody_elementsOf (closed_scalarsOf fun el hel => scalar_of_mem_keySetElements hel) rfl
      rw [elementsOf_scalarsOf] at hbody
      exact .container rfl hbody
    · exact Reader.members_of_scalars hbody rfl
        (fun el hel => scalar_of_mem_keySetElements hel) (folds_keySetElements keysetId epochs.1)
  obtain ⟨l, hl⟩ := epochs
  rw [decodeKeySetWriteFields, hopen]
  dsimp only
  rw [hmembers]
  cases l with
  | nil => exact absurd rfl hl
  | cons e l =>
    cases l with
    | nil => simp [keySetFieldsOf, slotKey_some, slotKey_none, bind, Except.bind, pure, Except.pure]
    | cons e' l =>
      obtain ⟨hfirst, hinc⟩ := List.pairwise_cons.1 hinc
      have hlt := laterEpoch_of_lt (hfirst e' List.mem_cons_self)
      cases l with
      | nil =>
        simp [keySetFieldsOf, slotKey_some, slotKey_none, hlt, bind, Except.bind, pure, Except.pure]
      | cons e'' l =>
        have hlen' : l.length + 1 + 1 + 1 ≤ 3 := hlen
        obtain rfl : l = [] := List.eq_nil_of_length_eq_zero (by omega)
        have hlt' := laterEpoch_of_lt ((List.pairwise_cons.1 hinc).1 e'' List.mem_cons_self)
        simp [keySetFieldsOf, slotKey_some, hlt, hlt', bind, Except.bind, pure, Except.pure]

end

end MatStack
