import MatStack.Controller.RotateIpk

/-!
# What the readers see of a rotation

Each call on a sound store as its readers see it: the key that sessions are set up with, and the
epoch keys. A begin and an abort leave what is read but for the pending key; an adoption leaves the
key in use; a commit puts the next key in use and records the one before it as the previous one.
-/

namespace MatStack

open Text Lines

/-- A store that can be rotated, whatever rotation is under way. -/
def SoundStore (env : RotationEnv) (cfid : Fixed 8) (i : UInt8) (text : List Char) : Prop :=
  ∃ begun, Rotation.Sound env (fun _ => cfid) i ⟨text, begun⟩

section
variable {env : RotationEnv} {cfid : Fixed 8} {i : UInt8} {file : FileAccess} {text text' : List Char}
  {t t' : KvsTxn} {keys : List Line} {epoch next cur operational : Fixed 16} {slot : IpkEpochSlot}

/-! ## What stays -/

theorem readMatIpkEpochSlot_of_sameBut (hcut : t.Cut) (hcut' : t'.Cut) (hsame : SameBut keys t t')
    (hkey : matIpkEpochSlotKey i slot ∉ keys)
    (h : readMatIpkEpochSlot env i t.commit slot = .ok (some epoch)) :
    readMatIpkEpochSlot env i t'.commit slot = .ok (some epoch) := by
  rw [readMatIpkEpochSlot_eq_some] at h ⊢
  rwa [found_of_sameBut hcut hcut' hsame hkey]

theorem readIpkOperational_of_sameBut (hcut : t.Cut) (hcut' : t'.Cut) (hsame : SameBut keys t t')
    (hkey : ipkKeysetKey i ∉ keys) (h : readIpkOperational env i t.commit = .ok operational) :
    readIpkOperational env i t'.commit = .ok operational := by
  rw [readIpkOperational_eq_ok] at h ⊢
  rwa [found_of_sameBut hcut hcut' hsame hkey]

/-- One line of the store was changed. -/
structure TouchedOnly (key : Line) (text text' : List Char) (t t' : KvsTxn) : Prop where
  opens : KvsTxn.openText text = .ok t
  commit : text' = t'.commit
  cut : t'.Cut
  same : SameBut [key] t t'

theorem TouchedOnly.readSlot (h : TouchedOnly (matIpkEpochSlotKey i slot) text text' t t')
    {slot' : IpkEpochSlot} (hne : slot' ≠ slot)
    (hread : readMatIpkEpochSlot env i text slot' = .ok (some epoch)) :
    readMatIpkEpochSlot env i text' slot' = .ok (some epoch) := by
  obtain ⟨hcut, hcommit⟩ := commit_of_openText h.opens
  rw [h.commit]
  refine readMatIpkEpochSlot_of_sameBut hcut h.cut h.same ?_ (hcommit.symm ▸ hread)
  rw [List.mem_singleton]
  exact fun he => hne (matIpkEpochSlotKey_inj he).2

theorem TouchedOnly.readOperational (h : TouchedOnly (matIpkEpochSlotKey i slot) text text' t t')
    (hread : readIpkOperational env i text = .ok operational) :
    readIpkOperational env i text' = .ok operational := by
  obtain ⟨hcut, hcommit⟩ := commit_of_openText h.opens
  rw [h.commit]
  refine readIpkOperational_of_sameBut hcut h.cut h.same ?_ (hcommit.symm ▸ hread)
  rw [List.mem_singleton]
  exact (matIpkEpochSlotKey_ne_ipkKeysetKey i i slot).symm

/-! ## The calls -/

theorem touchedOnly_of_set {epoch : Fixed 16} (hopen : KvsTxn.openText text = .ok t)
    (htext : text' = (t.set env.base64 (matIpkEpochSlotKey i slot) epoch.1).commit) :
    TouchedOnly (matIpkEpochSlotKey i slot) text text' t
      (t.set env.base64 (matIpkEpochSlotKey i slot) epoch.1) :=
  ⟨hopen, htext, (commit_of_openText hopen).1.set (isKey_matIpkEpochSlotKey i slot),
    (SameBut.refl _ t).set (isKey_matIpkEpochSlotKey i slot) (List.mem_singleton_self _)⟩

theorem touchedOnly_of_remove (hopen : KvsTxn.openText text = .ok t)
    (htext : text' = (t.remove (matIpkEpochSlotKey i slot)).commit) :
    TouchedOnly (matIpkEpochSlotKey i slot) text text' t (t.remove (matIpkEpochSlotKey i slot)) :=
  ⟨hopen, htext, (commit_of_openText hopen).1.remove,
    (SameBut.refl _ t).remove (List.mem_singleton_self _)⟩

/-- The current epoch key is recorded, and derives the key in use. -/
def Recorded (env : RotationEnv) (cfid : Fixed 8) (i : UInt8) (text : List Char) : Prop :=
  ∃ cur, readMatIpkEpochSlot env i text .current = .ok (some cur) ∧
    readIpkOperational env i text = .ok (env.deriveIpkOperational cur cfid)

/-- A store as the readers see it after a call that leaves the key in use. -/
structure SameKeys (env : RotationEnv) (cfid : Fixed 8) (i : UInt8) (text text' : List Char) : Prop where
  sound : SoundStore env cfid i text'
  operational : ∀ k, readIpkOperational env i text = .ok k → readIpkOperational env i text' = .ok k
  prev : ∀ e, readMatIpkEpochSlot env i text .prev = .ok (some e) →
    readMatIpkEpochSlot env i text' .prev = .ok (some e)
  recorded : Recorded env cfid i text → Recorded env cfid i text'

theorem SoundStore.same (h : SoundStore env cfid i text) : SameKeys env cfid i text text :=
  ⟨h, fun _ hk => hk, fun _ he => he, fun hr => hr⟩

theorem TouchedOnly.sameKeys (h : TouchedOnly (matIpkEpochSlotKey i .next) text text' t t')
    (hsound : SoundStore env cfid i text') : SameKeys env cfid i text text' where
  sound := hsound
  operational _ := h.readOperational
  prev _ := h.readSlot (by decide)
  recorded := by
    rintro ⟨cur, hcur, hread⟩
    exact ⟨cur, h.readSlot (by decide) hcur, h.readOperational hread⟩

theorem SoundStore.begin (h : SoundStore env cfid i text) :
    SameKeys env cfid i text (beginIpkRotation env i file text next).2 := by
  have hsame := h.same
  obtain ⟨begun, h'⟩ := h
  cases hcall : beginIpkRotation env i file text next with
  | mk r text' =>
    rcases r with e | b
    · rw [transact_of_error hcall]
      exact hsame
    · cases b with
      | false =>
        rw [(transact_of_idle hcall).1]
        exact hsame
      | true =>
        obtain ⟨t, t', hopen, hbody, htext⟩ := transact_of_replaced hcall
        obtain ⟨-, rfl⟩ := beginTxn_eq_some hbody
        exact (touchedOnly_of_set hopen htext).sameKeys ⟨_, h'.begin hcall⟩

theorem SoundStore.abort (h : SoundStore env cfid i text) :
    SameKeys env cfid i text (abortIpkRotation env i file text).2 := by
  have hsame := h.same
  obtain ⟨begun, h'⟩ := h
  cases hcall : abortIpkRotation env i file text with
  | mk r text' =>
    rcases r with e | b
    · rw [transact_of_error hcall]
      exact hsame
    · cases b with
      | false =>
        rw [(transact_of_idle hcall).1]
        exact hsame
      | true =>
        obtain ⟨t, t', hopen, hbody, htext⟩ := transact_of_replaced hcall
        obtain ⟨v, -, rfl⟩ := abortTxn_eq_some hbody
        exact (touchedOnly_of_remove hopen htext).sameKeys ⟨_, (h'.abort hcall).1⟩

/-- An adopted key is one that derives the key in use. -/
theorem SoundStore.adopt (h : SoundStore env cfid i text)
    (hread : readIpkOperational env i text = .ok (env.deriveIpkOperational epoch cfid)) :
    SameKeys env cfid i text (writeMatIpkEpoch env i file text epoch).2 := by
  have hsame := h.same
  obtain ⟨begun, h'⟩ := h
  cases hcall : writeMatIpkEpoch env i file text epoch with
  | mk r text' =>
    rcases r with e | b
    · rw [transact_of_error hcall]
      exact hsame
    · cases b with
      | false =>
        rw [(transact_of_idle hcall).1]
        exact hsame
      | true =>
        obtain ⟨t, t', hopen, hbody, htext⟩ := transact_of_replaced hcall
        cases hbody
        have htouched := touchedOnly_of_set hopen htext
        obtain ⟨t₁, hopen₁, hstore⟩ := h'.store
        obtain rfl := Except.ok.inj (hopen.symm.trans hopen₁)
        have hflush : (t.set env.base64 (matIpkEpochSlotKey i .current) epoch.1).isFlush = true := by
          rw [KvsTxn.isFlush, htouched.same.before]
          exact hstore.flush
        have hepoch : readMatIpkEpochSlot env i text' .current = .ok (some epoch) := by
          rw [htext]
          exact readMatIpkEpochSlot_eq_some.2 (found_commit_of_lineOf htouched.cut hflush
            (isKey_matIpkEpochSlotKey i .current) epoch.ne_nil
            (KvsTxn.find_set_self (isKey_matIpkEpochSlotKey i .current)))
        have hread' := htouched.readOperational hread
        refine ⟨⟨begun.map fun b => (b.1, none), ?_, ?_, ?_⟩, fun _ => htouched.readOperational,
          fun _ => htouched.readSlot (by decide), fun _ => ⟨epoch, hepoch, hread'⟩⟩
        · have hslot : matIpkEpochSlotKey i .next ∉ [matIpkEpochSlotKey i .current] := by
            rw [List.mem_singleton]
            exact fun he => absurd (matIpkEpochSlotKey_inj he).2 (by decide)
          have hkeyset : ipkKeysetKey i ∉ [matIpkEpochSlotKey i .current] := by
            rw [List.mem_singleton]
            exact (matIpkEpochSlotKey_ne_ipkKeysetKey i i .current).symm
          obtain ⟨t₂, hopen₂, hstore₂⟩ := (hstore.congr htouched.same.before
            (htouched.same.filter _ hslot) (htouched.same.filter _ hkeyset)).reopen htouched.cut
          refine ⟨t₂, htext ▸ hopen₂, ?_⟩
          rw [Option.map_map]
          exact hstore₂
        · intro e he
          obtain rfl := Option.some.inj (Except.ok.inj (hepoch.symm.trans he))
          exact hread'
        · intro e before hbegun
          obtain ⟨b, -, hb⟩ := Option.map_eq_some_iff.1 hbegun
          cases hb

/-- What a commit leaves: the next key in use, and the one before it as the previous one. -/
theorem SoundStore.commit (h : SoundStore env cfid i text)
    (hcall : commitIpkRotation env i file text cfid cur next = (.ok true, text')) :
    SoundStore env cfid i text' ∧
      readMatIpkEpochSlot env i text' .current = .ok (some next) ∧
      readIpkOperational env i text' = .ok (env.deriveIpkOperational next cfid) ∧
      readMatIpkEpochSlot env i text' .prev = .ok (some cur) := by
  obtain ⟨begun, h'⟩ := h
  obtain ⟨hsound, -, hepoch, hread⟩ := h'.commit hcall
  refine ⟨⟨none, hsound⟩, hepoch, hread, ?_⟩
  obtain ⟨t, t', hopen, hbody, rfl⟩ := transact_of_replaced hcall
  obtain ⟨blob, rewritten, hcommitted⟩ := commitTxn_eq_some hbody
  obtain ⟨hsame, hcut'⟩ := hcommitted.sameBut (commit_of_openText hopen).1
  obtain ⟨t₁, hopen₁, hstore⟩ := h'.store
  obtain rfl := Except.ok.inj (hopen.symm.trans hopen₁)
  have hflush : t'.isFlush = true := by
    rw [KvsTxn.isFlush, hsame.before]
    exact hstore.flush
  have hfind : t'.find (matIpkEpochSlotKey i .prev) =
      some (KvsTxn.lineOf env.base64 (matIpkEpochSlotKey i .prev) cur.1) := by
    rw [hcommitted.written, KvsTxn.find_remove_of_ne fun he =>
      absurd (matIpkEpochSlotKey_inj he).2 (by decide)]
    exact KvsTxn.find_set_self (isKey_matIpkEpochSlotKey i .prev)
  exact readMatIpkEpochSlot_eq_some.2 (found_commit_of_lineOf hcut' hflush
    (isKey_matIpkEpochSlotKey i .prev) cur.ne_nil hfind)

/-- A commit that fails leaves the text. -/
theorem commitIpkRotation_of_ne (h : (commitIpkRotation env i file text cfid cur next).1 ≠ .ok true) :
    (commitIpkRotation env i file text cfid cur next).2 = text :=
  @RotationCall.apply_of_not_replaced env (fun _ => cfid) ⟨file, i, .commit cur next⟩ text h

/-- **One pending key.** The store has at most one line of the pending key. -/
theorem SoundStore.pending (h : SoundStore env cfid i text) : ∃ t, KvsTxn.openText text = .ok t ∧
    (t.body.filter (isLineOf (matIpkEpochSlotKey i .next))).length ≤ 1 := by
  obtain ⟨begun, h⟩ := h
  obtain ⟨t, hopen, hstore⟩ := h.store
  refine ⟨t, hopen, ?_⟩
  have hpending := hstore.pending
  cases begun with
  | none =>
    rw [show t.body.filter _ = [] from hpending]
    exact Nat.zero_le 1
  | some b => exact Nat.le_of_eq hpending.1

end

end MatStack
