import MatStack.Controller.Keyset
import MatStack.Controller.Kvs.Agreement
import MatStack.Lib.Checked
import MatStack.Lib.Machine
import MatStack.Lib.Numeral

/-!
# Rotation of the identity protection key

The controller keeps three epoch keys of a fabric under names of its own (the current one, the next
one while it is being handed out, and the previous one), and the key that is derived of the current
one as the first key of key set 0, which sessions are set up with. A rotation begins by writing the
next key; a commit makes it current in one transaction, and an abort takes it back.

A transaction replaces the file as its last step. From a store whose header is flush, whose pending
key has a single line and whose key set 0 has one array of keys, any calls keep the two records of
the current key in agreement; and an abort leaves the text that the begin found.
-/

namespace MatStack

open Text Lines Machine

/-! ## Keys -/

inductive IpkEpochSlot where
  | current
  | next
  | prev
deriving DecidableEq

def IpkEpochSlot.suffix : IpkEpochSlot → Line
  | .current => "ipk-epoch".toList
  | .next => "ipk-epoch-next".toList
  | .prev => "ipk-epoch-prev".toList

/-- A number as it stands in a key. -/
def decimal (n : UInt8) : Line := Nat.toDigits 10 n.toNat

def matIpkEpochSlotKey (fabricIndex : UInt8) (slot : IpkEpochSlot) : Line :=
  "mat/f/".toList ++ (decimal fabricIndex ++ '/' :: slot.suffix)

/-- The key of key set 0. -/
def ipkKeysetKey (fabricIndex : UInt8) : Line := "f/".toList ++ (decimal fabricIndex ++ "/k/0".toList)

/-! ## Transactions on the store -/

inductive GroupSettingsError where
  | duplicateBind (groupId keysetId : UInt16)
  | corrupt (key : Line) (reason : String)
  | notFound (groupId : UInt16)
  | ipkKeysetReserved
  | kvs (e : KvsError)
  /-- The file cannot be locked, read or replaced. -/
  | io
  /-- A buffer would not fit in the address space. -/
  | panic
deriving Repr, DecidableEq

/-- What the file system does with a transaction. -/
inductive FileAccess where
  | ok
  | notOpened
  | notReplaced
deriving Repr, DecidableEq

/-- A transaction: what is done with the opened file is not to replace it (`none`), or to replace
it. The flag tells which. -/
def transact (file : FileAccess) (text : List Char)
    (body : KvsTxn → Except GroupSettingsError (Option KvsTxn)) :
    Except GroupSettingsError Bool × List Char :=
  if file = .notOpened then (.error .io, text)
  else
    match KvsTxn.openText text with
    | .error e => (.error (.kvs e), text)
    | .ok t =>
      match body t with
      | .error e => (.error e, text)
      | .ok none => (.ok false, text)
      | .ok (some t) => if file = .notReplaced then (.error .io, text) else (.ok true, t.commit)

/-- Base64, and the keys that are derived of an epoch key. -/
structure RotationEnv where
  base64 : Base64
  deriveIpkOperational : Fixed 16 → Fixed 8 → Fixed 16
  deriveGroupSessionId : Fixed 16 → UInt16

def epochStartTime : UInt64 := 1

section
variable (env : RotationEnv) (fabricIndex : UInt8)

def beginTxn (next : Fixed 16) (t : KvsTxn) : Except GroupSettingsError (Option KvsTxn) :=
  let key := matIpkEpochSlotKey fabricIndex .next
  match t.get env.base64 key with
  | .error e => .error (.kvs e)
  | .ok (some existing) =>
    if existing = next.1 then .ok none
    else .error (.corrupt key
      "a different ipk rotation is already pending (concurrent rotate-ipk?)")
  | .ok none => .ok (some (t.set env.base64 key next.1))

/-- Begins a rotation: the next key is pending. -/
def beginIpkRotation (file : FileAccess) (text : List Char) (next : Fixed 16) :
    Except GroupSettingsError Bool × List Char :=
  transact file text (beginTxn env fabricIndex next)

def commitTxn (cfid : Fixed 8) (cur next : Fixed 16) (t : KvsTxn) :
    Except GroupSettingsError (Option KvsTxn) :=
  let nextKey := matIpkEpochSlotKey fabricIndex .next
  match t.get env.base64 nextKey with
  | .error e => .error (.kvs e)
  | .ok none => .error (.corrupt nextKey "no ipk rotation pending")
  | .ok (some v) =>
    if v ≠ next.1 then .error (.corrupt nextKey
      "pending ipk epoch differs from the one being committed (concurrent rotate-ipk?)")
    else
      let k0 := ipkKeysetKey fabricIndex
      match t.get env.base64 k0 with
      | .error e => .error (.kvs e)
      | .ok none => .error (.corrupt k0 "missing IPK keyset record")
      | .ok (some blob) =>
        let operational := env.deriveIpkOperational next cfid
        let hash := env.deriveGroupSessionId operational
        match keysetWithSlot0 epochStartTime hash operational blob with
        | none => .error (.corrupt k0 "unparseable KeySetData")
        | some rewritten =>
          if usizeMax < rewritten.length then .error .panic
          else
            let t := t.set env.base64 k0 rewritten
            let t := t.set env.base64 (matIpkEpochSlotKey fabricIndex .current) next.1
            let t := t.set env.base64 (matIpkEpochSlotKey fabricIndex .prev) cur.1
            .ok (some (t.remove nextKey))

/-- Ends a rotation: the pending key is the current one, in key set 0 as well. -/
def commitIpkRotation (file : FileAccess) (text : List Char) (cfid : Fixed 8) (cur next : Fixed 16) :
    Except GroupSettingsError Bool × List Char :=
  transact file text (commitTxn env fabricIndex cfid cur next)

def abortTxn (t : KvsTxn) : Except GroupSettingsError (Option KvsTxn) :=
  let key := matIpkEpochSlotKey fabricIndex .next
  match t.get env.base64 key with
  | .error e => .error (.kvs e)
  | .ok none => .ok none
  | .ok (some _) => .ok (some (t.remove key))

/-- Takes a pending key back; the result is whether there was one. -/
def abortIpkRotation (file : FileAccess) (text : List Char) :
    Except GroupSettingsError Bool × List Char :=
  transact file text (abortTxn env fabricIndex)

/-! ## What is read -/

/-- An epoch key of the fabric. -/
def readMatIpkEpochSlot (text : List Char) (slot : IpkEpochSlot) :
    Except KvsError (Option (Fixed 16)) :=
  withDefaultSection text fun section_ => do
    match ← decodeB64 env.base64 section_ (matIpkEpochSlotKey fabricIndex slot) with
    | none => return none
    | some v =>
      match Fixed.ofBytes? 16 v with
      | some epoch => return some epoch
      | none => throw (.badKeyset fabricIndex "mat ipk epoch must be 16 bytes")

/-- The key that sessions are set up with. -/
def readIpkOperational (text : List Char) : Except KvsError (Fixed 16) :=
  withDefaultSection text fun section_ => do
    match ← decodeB64 env.base64 section_ (ipkKeysetKey fabricIndex) with
    | none => throw (.keyMissing (ipkKeysetKey fabricIndex))
    | some blob => parseKeyset fabricIndex blob

end

/-! ## Calls -/

inductive RotationOp where
  | begin (next : Fixed 16)
  | commit (cur next : Fixed 16)
  | abort
deriving DecidableEq

/-- One call, and what the file system does with it. -/
structure RotationCall where
  file : FileAccess
  fabricIndex : UInt8
  op : RotationOp
deriving DecidableEq

/-- The store, and the rotation that is under way on one fabric: the key that its begin was given,
and the text that it was given on, unless a call on another fabric has replaced the text since. -/
structure Rotation where
  text : List Char
  begun : Option (Fixed 16 × Option (List Char))
deriving DecidableEq

section
variable (env : RotationEnv) (cfid : UInt8 → Fixed 8) (j : UInt8)

/-- A call; a commit is given the compressed id of its fabric. -/
def RotationCall.apply (c : RotationCall) (text : List Char) :
    Except GroupSettingsError Bool × List Char :=
  match c.op with
  | .begin next => beginIpkRotation env c.fabricIndex c.file text next
  | .commit cur next => commitIpkRotation env c.fabricIndex c.file text (cfid c.fabricIndex) cur next
  | .abort => abortIpkRotation env c.fabricIndex c.file text

/-- A call, as fabric `j` sees it. -/
def Rotation.step (s : Rotation) (c : RotationCall) : Rotation :=
  match c.apply env cfid s.text with
  | (.ok true, text) =>
    { text
      begun :=
        if c.fabricIndex = j then
          match c.op with
          | .begin next => some (next, some s.text)
          | _ => none
        else s.begun.map fun b => (b.1, none) }
  | (_, _) => s

/-- The two records of the current key agree. -/
def Agrees (text : List Char) : Prop :=
  ∀ epoch, readMatIpkEpochSlot env j text .current = .ok (some epoch) →
    readIpkOperational env j text = .ok (env.deriveIpkOperational epoch (cfid j))

/-- The lines of a pending key: one, with the key, or none at all. -/
def KvsTxn.PendingIs (t : KvsTxn) (B : Base64) (key : Line) : Option (Fixed 16) → Prop
  | none => t.body.filter (isLineOf key) = []
  | some next => (t.body.filter (isLineOf key)).length = 1 ∧ t.get B key = .ok (some next.1)

/-- A store that can be rotated: its header is flush, the pending key has at most a single line, and
the record of key set 0 has the shape of one. -/
structure RotationStore (pending : Option (Fixed 16)) (t : KvsTxn) : Prop where
  flush : t.isFlush = true
  pending : t.PendingIs env.base64 (matIpkEpochSlotKey j .next) pending
  keyset : ∀ blob, t.get env.base64 (ipkKeysetKey j) = .ok (some blob) → hasKeysetShape blob = true

/-- A state that a rotation of fabric `j` can be in. -/
structure Rotation.Sound (s : Rotation) : Prop where
  store : ∃ t, KvsTxn.openText s.text = .ok t ∧ RotationStore env j (s.begun.map (·.1)) t
  agrees : Agrees env cfid j s.text
  /-- The text is the one that the begin was given on, with the line of the pending key. -/
  begun : ∀ next text, s.begun = some (next, some text) → ∃ t, KvsTxn.openText text = .ok t ∧
    t.find (matIpkEpochSlotKey j .next) = none ∧
    KvsTxn.openText s.text = .ok (t.set env.base64 (matIpkEpochSlotKey j .next) next.1)

end

/-! ## Keys of the fabrics -/

/-- A character that a key may have anywhere. -/
def isPlain (c : Char) : Bool := !isWhitespace c && c != '=' && c != '['

theorem isPlain_iff {c : Char} :
    isPlain c = true ↔ isWhitespace c = false ∧ c ≠ '=' ∧ c ≠ '[' := by
  simp [isPlain, and_assoc]

theorem isKey_of_forall {key : Line} (h : ∀ c ∈ key, isWhitespace c = false ∧ c ≠ '=' ∧ c ≠ '[') :
    IsKey key where
  trimmed := trim_of_not_whitespace fun c hc => (h c hc).1
  noEquals hm := (h _ hm).2.1 rfl
  noFeed hm := absurd (h _ hm).1 (by decide)
  noBracket hm := (h _ (List.mem_of_head? hm)).2.2 rfl

theorem isDigit_of_mem_decimal {i : UInt8} {c : Char} (h : c ∈ decimal i) : c.isDigit = true :=
  Nat.isDigit_of_mem_toDigits (by decide) (by decide) h

theorem slash_not_mem_decimal (i : UInt8) : '/' ∉ decimal i :=
  fun hm => absurd (isDigit_of_mem_decimal hm) (by decide)

theorem decimal_inj {i i' : UInt8} (h : decimal i = decimal i') : i = i' := by
  have hv := congrArg (Numeral.value 10) h
  rw [decimal, decimal, (Numeral.value_toDigits (by decide) (by decide) _).1,
    (Numeral.value_toDigits (by decide) (by decide) _).1] at hv
  exact UInt8.toNat_inj.1 hv

theorem isKey_decimal {pre post : Line} {i : UInt8}
    (hpre : pre.all isPlain = true) (hpost : post.all isPlain = true) :
    IsKey (pre ++ (decimal i ++ post)) := by
  refine isKey_of_forall fun c hc => ?_
  rw [List.mem_append, List.mem_append] at hc
  rcases hc with hc | hc | hc
  · exact isPlain_iff.1 (List.all_eq_true.1 hpre c hc)
  · have hdigit := isDigit_of_mem_decimal hc
    refine ⟨isWhitespace_of_isDigit hdigit, ?_, ?_⟩
    · rintro rfl
      exact absurd hdigit (by decide)
    · rintro rfl
      exact absurd hdigit (by decide)
  · exact isPlain_iff.1 (List.all_eq_true.1 hpost c hc)

theorem isKey_matIpkEpochSlotKey (i : UInt8) (slot : IpkEpochSlot) :
    IsKey (matIpkEpochSlotKey i slot) := by
  refine isKey_decimal (by decide) ?_
  cases slot with
  | current => decide
  | next => decide
  | prev => decide

theorem isKey_ipkKeysetKey (i : UInt8) : IsKey (ipkKeysetKey i) :=
  isKey_decimal (by decide) (by decide)

/-- Keys of two fabrics, and of two slots, are two keys. -/
theorem matIpkEpochSlotKey_inj {i i' : UInt8} {slot slot' : IpkEpochSlot}
    (h : matIpkEpochSlotKey i slot = matIpkEpochSlotKey i' slot') : i = i' ∧ slot = slot' := by
  have hslash : '/' ∉ slot.suffix := by
    cases slot with
    | current => decide
    | next => decide
    | prev => decide
  have h' := List.append_cancel_left h
  rw [List.append_cons_inj_of_notMem (slash_not_mem_decimal i) hslash] at h'
  obtain ⟨hdecimal, -, hsuffix⟩ := h'
  refine ⟨decimal_inj hdecimal, ?_⟩
  revert hsuffix
  cases slot <;> cases slot' <;> decide

theorem ipkKeysetKey_inj {i i' : UInt8} (h : ipkKeysetKey i = ipkKeysetKey i') : i = i' := by
  have h' := List.append_cancel_left h
  exact decimal_inj (List.append_cancel_right h')

theorem matIpkEpochSlotKey_ne_ipkKeysetKey (i i' : UInt8) (slot : IpkEpochSlot) :
    matIpkEpochSlotKey i slot ≠ ipkKeysetKey i' := by
  intro h
  have hhead : some 'm' = some 'f' := congrArg List.head? h
  cases hhead

/-! ## What a call does -/

section
variable {env : RotationEnv} {cfid : UInt8 → Fixed 8} {i : UInt8} {file : FileAccess}
  {text text' : List Char} {t t' : KvsTxn} {next cur : Fixed 16}
  {body : KvsTxn → Except GroupSettingsError (Option KvsTxn)}

theorem transact_of_error {e : GroupSettingsError} (h : transact file text body = (.error e, text')) :
    text' = text := by
  unfold transact at h
  split at h
  · cases h
    rfl
  · split at h
    · cases h
      rfl
    · split at h
      · cases h
        rfl
      · cases h
      · split at h
        · cases h
          rfl
        · cases h

theorem transact_of_idle (h : transact file text body = (.ok false, text')) :
    text' = text ∧ ∃ t, KvsTxn.openText text = .ok t ∧ body t = .ok none := by
  unfold transact at h
  split at h
  · cases h
  · split at h
    · cases h
    · next t hopen =>
      split at h
      · cases h
      · next hbody =>
        cases h
        exact ⟨rfl, t, hopen, hbody⟩
      · split at h
        · cases h
        · cases h

theorem transact_of_replaced (h : transact file text body = (.ok true, text')) :
    ∃ t t', KvsTxn.openText text = .ok t ∧ body t = .ok (some t') ∧ text' = t'.commit := by
  unfold transact at h
  split at h
  · cases h
  · split at h
    · cases h
    · next t hopen =>
      split at h
      · cases h
      · cases h
      · next t' hbody =>
        split at h
        · cases h
        · cases h
          exact ⟨t, t', hopen, hbody, rfl⟩

theorem beginTxn_eq_some (h : beginTxn env i next t = .ok (some t')) :
    t.get env.base64 (matIpkEpochSlotKey i .next) = .ok none ∧
      t' = t.set env.base64 (matIpkEpochSlotKey i .next) next.1 := by
  unfold beginTxn at h
  dsimp only at h
  split at h
  · cases h
  · split at h
    · cases h
    · cases h
  · next hget =>
    cases h
    exact ⟨hget, rfl⟩

/-- What a commit writes. -/
structure Committed (env : RotationEnv) (cfid : Fixed 8) (i : UInt8) (cur next : Fixed 16)
    (t t' : KvsTxn) (blob rewritten : Bytes) : Prop where
  pending : t.get env.base64 (matIpkEpochSlotKey i .next) = .ok (some next.1)
  keyset : t.get env.base64 (ipkKeysetKey i) = .ok (some blob)
  rewrites : keysetWithSlot0 epochStartTime
    (env.deriveGroupSessionId (env.deriveIpkOperational next cfid))
    (env.deriveIpkOperational next cfid) blob = some rewritten
  fits : rewritten.length ≤ usizeMax
  written : t' = (((t.set env.base64 (ipkKeysetKey i) rewritten).set env.base64
    (matIpkEpochSlotKey i .current) next.1).set env.base64
      (matIpkEpochSlotKey i .prev) cur.1).remove (matIpkEpochSlotKey i .next)

theorem commitTxn_eq_some {cfid : Fixed 8} (h : commitTxn env i cfid cur next t = .ok (some t')) :
    ∃ blob rewritten, Committed env cfid i cur next t t' blob rewritten := by
  unfold commitTxn at h
  dsimp only at h
  split at h
  · cases h
  · cases h
  · next v hpending =>
    split at h
    · cases h
    · next hv =>
      split at h
      · cases h
      · cases h
      · next blob hkeyset =>
        split at h
        · cases h
        · next rewritten hrewrites =>
          split at h
          · cases h
          · next hfits =>
            cases h
            rw [not_not.1 hv] at hpending
            exact ⟨blob, rewritten, hpending, hkeyset, hrewrites, Nat.le_of_not_lt hfits, rfl⟩

theorem commitTxn_ne_none {cfid : Fixed 8} : commitTxn env i cfid cur next t ≠ .ok none := by
  intro h
  unfold commitTxn at h
  dsimp only at h
  split at h
  · cases h
  · cases h
  · split at h
    · cases h
    · split at h
      · cases h
      · cases h
      · split at h
        · cases h
        · split at h
          · cases h
          · cases h

theorem abortTxn_eq_some (h : abortTxn env i t = .ok (some t')) :
    ∃ v, t.get env.base64 (matIpkEpochSlotKey i .next) = .ok (some v) ∧
      t' = t.remove (matIpkEpochSlotKey i .next) := by
  unfold abortTxn at h
  dsimp only at h
  split at h
  · cases h
  · cases h
  · next v hget =>
    cases h
    exact ⟨v, hget, rfl⟩

theorem abortTxn_eq_none (h : abortTxn env i t = .ok none) :
    t.get env.base64 (matIpkEpochSlotKey i .next) = .ok none := by
  unfold abortTxn at h
  dsimp only at h
  split at h
  · cases h
  · next hget => exact hget
  · cases h

/-- The keys whose lines a call of fabric `i` may touch. -/
def rotationKeys (i : UInt8) : List Line :=
  [matIpkEpochSlotKey i .current, matIpkEpochSlotKey i .next, matIpkEpochSlotKey i .prev,
    ipkKeysetKey i]

/-- Apart from the lines of the keys, two transactions hold the same lines. -/
structure SameBut (keys : List Line) (t t' : KvsTxn) : Prop where
  before : t'.before = t.before
  after : t'.after = t.after
  filter : ∀ key ∉ keys, t'.body.filter (isLineOf key) = t.body.filter (isLineOf key)

theorem SameBut.refl (keys : List Line) (t : KvsTxn) : SameBut keys t t := ⟨rfl, rfl, fun _ _ => rfl⟩

theorem SameBut.set {B : Base64} {keys : List Line} {key : Line} {value : Bytes}
    (h : SameBut keys t t') (hkey : IsKey key) (hmem : key ∈ keys) :
    SameBut keys t (t'.set B key value) := by
  obtain ⟨hbefore, hafter, -⟩ := @KvsTxn.frame_apply B t' (.set key value)
  refine ⟨hbefore.trans h.before, hafter.trans h.after, fun k hk => ?_⟩
  rw [← h.filter k hk]
  refine KvsTxn.filter_body_set hkey fun l hl => isLineOf_eq_false.2 ?_
  rw [hl]
  exact fun he => hk (Option.some.inj he ▸ hmem)

theorem SameBut.remove {keys : List Line} {key : Line} (h : SameBut keys t t') (hmem : key ∈ keys) :
    SameBut keys t (t'.remove key) := by
  refine ⟨h.before, h.after, fun k hk => ?_⟩
  rw [← h.filter k hk]
  refine KvsTxn.filter_body_remove fun l hl => isLineOf_eq_false.2 ?_
  rw [hl]
  exact fun he => hk (Option.some.inj he ▸ hmem)

/-- The first of the lines of a key goes. -/
theorem filter_remove_self {key : Line} : (t.remove key).body.filter (isLineOf key) =
    (t.body.filter (isLineOf key)).eraseP (isLineOf key) := by
  rw [KvsTxn.remove, List.eraseP_filter]
  simp only [Bool.and_self]

/-- A commit touches the lines of the four keys. -/
theorem Committed.sameBut {cfid : Fixed 8} {blob rewritten : Bytes}
    (h : Committed env cfid i cur next t t' blob rewritten) (hcut : t.Cut) :
    SameBut (rotationKeys i) t t' ∧ t'.Cut := by
  have hkey := isKey_matIpkEpochSlotKey i
  have hk0 := isKey_ipkKeysetKey i
  have hmem : ∀ slot, matIpkEpochSlotKey i slot ∈ rotationKeys i := by
    intro slot
    cases slot <;> simp [rotationKeys]
  have hmem0 : ipkKeysetKey i ∈ rotationKeys i := by simp [rotationKeys]
  rw [h.written]
  exact ⟨((((SameBut.refl _ t).set hk0 hmem0).set (hkey .current) (hmem .current)).set (hkey .prev)
      (hmem .prev)).remove (hmem .next),
    (((hcut.set hk0).set (hkey .current)).set (hkey .prev)).remove⟩

/-- The lines that a commit leaves: the new record, the new current key, and no pending one. -/
theorem Committed.find {cfid : Fixed 8} {blob rewritten : Bytes}
    (h : Committed env cfid i cur next t t' blob rewritten) :
    t'.find (ipkKeysetKey i) = some (KvsTxn.lineOf env.base64 (ipkKeysetKey i) rewritten) ∧
      t'.find (matIpkEpochSlotKey i .current) =
        some (KvsTxn.lineOf env.base64 (matIpkEpochSlotKey i .current) next.1) ∧
      t'.body.filter (isLineOf (matIpkEpochSlotKey i .next)) =
        (t.body.filter (isLineOf (matIpkEpochSlotKey i .next))).eraseP
          (isLineOf (matIpkEpochSlotKey i .next)) := by
  have hslot : ∀ slot slot', slot ≠ slot' →
      matIpkEpochSlotKey i slot ≠ matIpkEpochSlotKey i slot' := fun _ _ hne he =>
    hne (matIpkEpochSlotKey_inj he).2
  have hk0 : ∀ slot, ipkKeysetKey i ≠ matIpkEpochSlotKey i slot := fun slot =>
    (matIpkEpochSlotKey_ne_ipkKeysetKey i i slot).symm
  have hkey := isKey_matIpkEpochSlotKey i
  rw [h.written]
  refine ⟨?_, ?_, ?_⟩
  · rw [KvsTxn.find_remove_of_ne (hk0 .next), KvsTxn.find_set_of_ne (hkey .prev) (hk0 .prev),
      KvsTxn.find_set_of_ne (hkey .current) (hk0 .current),
      KvsTxn.find_set_self (isKey_ipkKeysetKey i)]
  · rw [KvsTxn.find_remove_of_ne (hslot _ _ (by decide)),
      KvsTxn.find_set_of_ne (hkey .prev) (hslot _ _ (by decide)), KvsTxn.find_set_self (hkey .current)]
  · have hsame : SameBut [ipkKeysetKey i, matIpkEpochSlotKey i .current, matIpkEpochSlotKey i .prev] t
        (((t.set env.base64 (ipkKeysetKey i) rewritten).set env.base64
          (matIpkEpochSlotKey i .current) next.1).set env.base64
            (matIpkEpochSlotKey i .prev) cur.1) :=
      (((SameBut.refl _ t).set (isKey_ipkKeysetKey i) (by simp)).set (hkey .current)
        (by simp)).set (hkey .prev) (by simp)
    rw [filter_remove_self, hsame.filter]
    simp only [List.mem_cons, List.not_mem_nil, or_false, not_or]
    exact ⟨(hk0 .next).symm, hslot _ _ (by decide), hslot _ _ (by decide)⟩

/-! ## What the readers find -/

theorem withDefaultSection_eq_ok {α : Type} {f : List Char → Except KvsError α} {a : α} :
    withDefaultSection text f = .ok a ↔ ∃ sec, defaultSection text = some sec ∧ f sec = .ok a := by
  unfold withDefaultSection
  cases defaultSection text with
  | none => simp
  | some sec => simp

theorem found_eq_some {text : List Char} {key : Line} {v : Bytes} :
    found (withDefaultSection text (decodeB64 env.base64 · key)) = some v ↔
      ∃ sec, defaultSection text = some sec ∧ decodeB64 env.base64 sec key = .ok (some v) := by
  rw [← withDefaultSection_eq_ok]
  cases withDefaultSection text (decodeB64 env.base64 · key) with
  | error e => simp [found]
  | ok v' => simp [found]

theorem readMatIpkEpochSlot_eq_some {slot : IpkEpochSlot} {epoch : Fixed 16} :
    readMatIpkEpochSlot env i text slot = .ok (some epoch) ↔
      found (withDefaultSection text (decodeB64 env.base64 · (matIpkEpochSlotKey i slot))) =
        some epoch.1 := by
  rw [found_eq_some, readMatIpkEpochSlot, withDefaultSection_eq_ok]
  refine exists_congr fun sec => and_congr_right fun _ => ?_
  rw [Checked.bind_eq_ok]
  constructor
  · rintro ⟨v, hv, h⟩
    cases v with
    | none => cases h
    | some v =>
      dsimp only at h
      split at h
      · next epoch' hepoch =>
        cases h
        unfold Fixed.ofBytes? at hepoch
        split at hepoch
        · cases hepoch
          exact hv
        · cases hepoch
      · cases h
  · intro hv
    refine ⟨_, hv, ?_⟩
    dsimp only
    rw [Fixed.ofBytes?, dif_pos epoch.2]
    rfl

theorem readIpkOperational_eq_ok {operational : Fixed 16} :
    readIpkOperational env i text = .ok operational ↔ ∃ blob,
      found (withDefaultSection text (decodeB64 env.base64 · (ipkKeysetKey i))) = some blob ∧
        parseKeyset i blob = .ok operational := by
  rw [readIpkOperational, withDefaultSection_eq_ok]
  simp only [found_eq_some, Checked.bind_eq_ok]
  constructor
  · rintro ⟨sec, hsec, v, hv, h⟩
    cases v with
    | none => cases h
    | some blob => exact ⟨blob, ⟨sec, hsec, hv⟩, h⟩
  · rintro ⟨blob, ⟨sec, hsec, hv⟩, h⟩
    exact ⟨sec, hsec, some blob, hv, h⟩

/-- A key whose lines stay is read as before. -/
theorem found_of_sameBut {keys : List Line} {key : Line} (hcut : t.Cut) (hcut' : t'.Cut)
    (h : SameBut keys t t') (hkey : key ∉ keys) :
    found (withDefaultSection t'.commit (decodeB64 env.base64 · key)) =
      found (withDefaultSection t.commit (decodeB64 env.base64 · key)) :=
  found_commit_congr hcut hcut' h.before h.after (KvsTxn.find_of_filter (h.filter key hkey))

variable {j : UInt8}

theorem Agrees.of_sameBut {keys : List Line} (h : Agrees env cfid j t.commit) (hcut : t.Cut)
    (hcut' : t'.Cut) (hsame : SameBut keys t t') (hcurrent : matIpkEpochSlotKey j .current ∉ keys)
    (hkeyset : ipkKeysetKey j ∉ keys) : Agrees env cfid j t'.commit := by
  intro epoch hepoch
  rw [readMatIpkEpochSlot_eq_some, found_of_sameBut hcut hcut' hsame hcurrent,
    ← readMatIpkEpochSlot_eq_some] at hepoch
  have hread := h epoch hepoch
  rw [readIpkOperational_eq_ok] at hread ⊢
  rwa [found_of_sameBut hcut hcut' hsame hkeyset]

theorem RotationStore.congr {p : Option (Fixed 16)} (h : RotationStore env j p t)
    (hbefore : t'.before = t.before)
    (hpending : t'.body.filter (isLineOf (matIpkEpochSlotKey j .next)) =
      t.body.filter (isLineOf (matIpkEpochSlotKey j .next)))
    (hkeyset : t'.body.filter (isLineOf (ipkKeysetKey j)) =
      t.body.filter (isLineOf (ipkKeysetKey j))) : RotationStore env j p t' where
  flush := by
    rw [KvsTxn.isFlush, hbefore]
    exact h.flush
  pending := by
    have hp := h.pending
    cases p with
    | none => exact hpending.trans hp
    | some next =>
      refine ⟨by rw [hpending]; exact hp.1, ?_⟩
      rw [KvsTxn.get_congr (KvsTxn.find_of_filter hpending)]
      exact hp.2
  keyset blob hblob := by
    rw [KvsTxn.get_congr (KvsTxn.find_of_filter hkeyset)] at hblob
    exact h.keyset blob hblob

/-- A store stays one when the file is opened again. -/
theorem RotationStore.reopen {p : Option (Fixed 16)} (h : RotationStore env j p t) (hcut : t.Cut) :
    ∃ t', KvsTxn.openText t.commit = .ok t' ∧ RotationStore env j p t' := by
  obtain ⟨t', hopen, -, hbefore, hfilter⟩ := hcut.reopen
  exact ⟨t', hopen, h.congr hbefore (hfilter _ rfl) (hfilter _ rfl)⟩

/-! ## One call -/

theorem commit_of_openText (h : KvsTxn.openText text = .ok t) : t.Cut ∧ t.commit = text := by
  obtain ⟨hcut, htext⟩ := KvsTxn.openText_spec h
  exact ⟨hcut, hcut.commit.trans htext.symm⟩

/-- No key of another fabric is touched. -/
theorem not_mem_rotationKeys (hne : i ≠ j) :
    (∀ slot, matIpkEpochSlotKey j slot ∉ rotationKeys i) ∧ ipkKeysetKey j ∉ rotationKeys i := by
  have hslot : ∀ slot slot', matIpkEpochSlotKey j slot ≠ matIpkEpochSlotKey i slot' :=
    fun _ _ he => hne (matIpkEpochSlotKey_inj he).1.symm
  refine ⟨fun slot => ?_, ?_⟩
  · simp only [rotationKeys, List.mem_cons, List.not_mem_nil, or_false, not_or]
    exact ⟨hslot slot .current, hslot slot .next, hslot slot .prev,
      matIpkEpochSlotKey_ne_ipkKeysetKey j i slot⟩
  · simp only [rotationKeys, List.mem_cons, List.not_mem_nil, or_false, not_or]
    exact ⟨(matIpkEpochSlotKey_ne_ipkKeysetKey i j .current).symm,
      (matIpkEpochSlotKey_ne_ipkKeysetKey i j .next).symm,
      (matIpkEpochSlotKey_ne_ipkKeysetKey i j .prev).symm, fun he => hne (ipkKeysetKey_inj he).symm⟩

/-- A call that replaces the text touches the lines of its fabric. -/
theorem RotationCall.apply_of_replaced {c : RotationCall}
    (h : c.apply env cfid text = (.ok true, text')) : ∃ t t', KvsTxn.openText text = .ok t ∧
      t'.Cut ∧ text' = t'.commit ∧ SameBut (rotationKeys c.fabricIndex) t t' := by
  have hnext : matIpkEpochSlotKey c.fabricIndex .next ∈ rotationKeys c.fabricIndex := by
    simp [rotationKeys]
  obtain ⟨file, i, op⟩ := c
  cases op with
  | begin next =>
    obtain ⟨t, t', hopen, hbody, htext⟩ := transact_of_replaced h
    obtain ⟨-, rfl⟩ := beginTxn_eq_some hbody
    exact ⟨t, _, hopen, (commit_of_openText hopen).1.set (isKey_matIpkEpochSlotKey i .next), htext,
      (SameBut.refl _ t).set (isKey_matIpkEpochSlotKey i .next) hnext⟩
  | commit cur next =>
    obtain ⟨t, t', hopen, hbody, htext⟩ := transact_of_replaced h
    obtain ⟨blob, rewritten, hcommitted⟩ := commitTxn_eq_some hbody
    obtain ⟨hsame, hcut'⟩ := hcommitted.sameBut (commit_of_openText hopen).1
    exact ⟨t, t', hopen, hcut', htext, hsame⟩
  | abort =>
    obtain ⟨t, t', hopen, hbody, htext⟩ := transact_of_replaced h
    obtain ⟨v, -, rfl⟩ := abortTxn_eq_some hbody
    exact ⟨t, _, hopen, (commit_of_openText hopen).1.remove, htext, (SameBut.refl _ t).remove hnext⟩

variable {begun : Option (Fixed 16 × Option (List Char))}

/-- A call on another fabric leaves the rotation sound, and its text is no longer that of the
begin. -/
theorem Rotation.Sound.other {c : RotationCall} (h : Rotation.Sound env cfid j ⟨text, begun⟩)
    (hne : c.fabricIndex ≠ j) (hcall : c.apply env cfid text = (.ok true, text')) :
    Rotation.Sound env cfid j ⟨text', begun.map fun b => (b.1, none)⟩ := by
  obtain ⟨t, t', hopen, hcut', rfl, hsame⟩ := RotationCall.apply_of_replaced hcall
  obtain ⟨hcut, hcommit⟩ := commit_of_openText hopen
  obtain ⟨hslot, hkeyset⟩ := not_mem_rotationKeys hne
  obtain ⟨t₁, hopen₁, hstore⟩ := h.store
  obtain rfl := Except.ok.inj (hopen.symm.trans hopen₁)
  refine ⟨?_, ?_, fun next text' hbegun => ?_⟩
  · obtain ⟨t₂, hopen₂, hstore₂⟩ := (hstore.congr hsame.before (hsame.filter _ (hslot .next))
      (hsame.filter _ hkeyset)).reopen hcut'
    refine ⟨t₂, hopen₂, ?_⟩
    rw [Option.map_map]
    exact hstore₂
  · have hagrees := h.agrees
    rw [← hcommit] at hagrees
    exact hagrees.of_sameBut hcut hcut' hsame (hslot .current) hkeyset
  · obtain ⟨b, -, hb⟩ := Option.map_eq_some_iff.1 hbegun
    cases hb

/-- A transaction that has no line of the key and sets it appends one line, which `remove` takes
back. -/
theorem remove_set {B : Base64} {key : Line} {value : Bytes} (hkey : IsKey key)
    (hfind : t.find key = none) : t.set B key value = { t with
      body := t.body ++ [KvsTxn.lineOf B key value] } ∧ (t.set B key value).remove key = t := by
  have hself : isLineOf key (KvsTxn.lineOf B key value) = true :=
    isLineOf_iff.2 (hkey.keyOf_lineOf (B := B))
  have hset : t.set B key value = { t with body := t.body ++ [KvsTxn.lineOf B key value] } := by
    rcases @KvsTxn.set_cases B t key value with ⟨-, hset⟩ | ⟨pre, line, post, hbody, hline, -, -⟩
    · exact hset
    · have hmem : line ∈ t.body := by simp [hbody]
      exact absurd (isLineOf_iff.2 hline) (List.find?_eq_none.1 hfind line hmem)
  refine ⟨hset, ?_⟩
  rw [hset, KvsTxn.remove, List.eraseP_append_right _ fun l hl => List.find?_eq_none.1 hfind l hl,
    List.eraseP_cons_of_pos hself, List.append_nil]

/-- After a begin the text is the one before it, with one more line. -/
theorem Rotation.Sound.begin (h : Rotation.Sound env cfid j ⟨text, begun⟩)
    (hcall : beginIpkRotation env j file text next = (.ok true, text')) :
    Rotation.Sound env cfid j ⟨text', some (next, some text)⟩ := by
  obtain ⟨t, t', hopen, hbody, rfl⟩ := transact_of_replaced hcall
  obtain ⟨hget, rfl⟩ := beginTxn_eq_some hbody
  obtain ⟨hcut, hcommit⟩ := commit_of_openText hopen
  have hkey := isKey_matIpkEpochSlotKey j .next
  obtain ⟨t₁, hopen₁, hstore⟩ := h.store
  obtain rfl := Except.ok.inj (hopen.symm.trans hopen₁)
  -- nothing is pending, so there is no line of the pending key
  have hnone : t.body.filter (isLineOf (matIpkEpochSlotKey j .next)) = [] := by
    have hpending := hstore.pending
    cases hbegun : begun with
    | none =>
      rw [hbegun] at hpending
      exact hpending
    | some b =>
      rw [hbegun] at hpending
      have hsome := hget.symm.trans hpending.2
      cases hsome
  have hfind : t.find (matIpkEpochSlotKey j .next) = none := by
    rw [KvsTxn.find, ← List.head?_filter, hnone]
    rfl
  obtain ⟨hset, -⟩ := @remove_set t env.base64 _ next.1 hkey hfind
  have hcut' : (t.set env.base64 (matIpkEpochSlotKey j .next) next.1).Cut := hcut.set hkey
  have hsame : SameBut [matIpkEpochSlotKey j .next] t
      (t.set env.base64 (matIpkEpochSlotKey j .next) next.1) :=
    (SameBut.refl _ t).set hkey (List.mem_singleton_self _)
  have hkeyset : ipkKeysetKey j ∉ [matIpkEpochSlotKey j .next] := by
    rw [List.mem_singleton]
    exact (matIpkEpochSlotKey_ne_ipkKeysetKey j j .next).symm
  have hopen' : KvsTxn.openText (t.set env.base64 (matIpkEpochSlotKey j .next) next.1).commit =
      .ok (t.set env.base64 (matIpkEpochSlotKey j .next) next.1) := by
    refine hcut'.openText_commit_eq ?_
    rw [hset]
    refine (KvsTxn.trailing_of_openText hopen).imp_right fun hlast => ?_
    rw [KvsTxn.lines] at hlast ⊢
    dsimp only
    by_cases hafter : t.after = []
    · rw [hafter, List.append_nil, ← List.append_assoc, List.getLast?_concat, KvsTxn.lineOf]
      simp
    · rw [List.getLast?_append_of_ne_nil _ hafter] at hlast ⊢
      exact hlast
  refine ⟨⟨_, hopen', ?_, ?_, fun blob hblob => ?_⟩, ?_, fun next' before hbegun => ?_⟩
  · rw [KvsTxn.isFlush, hsame.before]
    exact hstore.flush
  · have hne : next.1 ≠ [] := by
      intro he
      have hlen := next.2
      rw [he] at hlen
      cases hlen
    refine ⟨?_, ?_⟩
    · rw [hset, List.filter_append, hnone, List.nil_append,
        List.filter_cons_of_pos (isLineOf_iff.2 (hkey.keyOf_lineOf (B := env.base64)))]
      rfl
    · rw [KvsTxn.get_set_self hkey, if_neg hne]
  · rw [KvsTxn.get_congr (KvsTxn.find_of_filter (hsame.filter _ hkeyset))] at hblob
    exact hstore.keyset blob hblob
  · have hagrees := h.agrees
    rw [← hcommit] at hagrees
    refine hagrees.of_sameBut hcut hcut' hsame ?_ hkeyset
    rw [List.mem_singleton]
    exact fun he => absurd (matIpkEpochSlotKey_inj he).2 (by decide)
  · cases hbegun
    exact ⟨t, hopen, hfind, hopen'⟩

/-- With a flush header, a reader finds the value that was set. -/
theorem found_commit_of_lineOf {key : Line} {value : Bytes} (hcut : t.Cut) (hflush : t.isFlush = true)
    (hkey : IsKey key) (hne : value ≠ [])
    (hfind : t.find key = some (KvsTxn.lineOf env.base64 key value)) :
    found (withDefaultSection t.commit (decodeB64 env.base64 · key)) = some value := by
  have hget : found (t.get env.base64 key) = some value := by
    rw [KvsTxn.get_of_find hfind hkey, if_neg hne]
    rfl
  rw [found_commit_of_find hcut hflush hfind, ← hget, found_get, valueIn, ← KvsTxn.find, hfind,
    Option.bind_some]

theorem Fixed.ne_nil (epoch : Fixed 16) : epoch.1 ≠ [] := by
  intro he
  have hlen := epoch.2
  rw [he] at hlen
  cases hlen

/-- Where a key is read as pending, it is the one that the begin was given. -/
theorem Rotation.Sound.pending {v : Bytes} (h : Rotation.Sound env cfid j ⟨text, begun⟩)
    (hopen : KvsTxn.openText text = .ok t)
    (hget : t.get env.base64 (matIpkEpochSlotKey j .next) = .ok (some v)) :
    ∃ next before, begun = some (next, before) ∧ v = next.1 ∧
      (t.body.filter (isLineOf (matIpkEpochSlotKey j .next))).eraseP
        (isLineOf (matIpkEpochSlotKey j .next)) = [] := by
  obtain ⟨t₁, hopen₁, hstore⟩ := h.store
  obtain rfl := Except.ok.inj (hopen.symm.trans hopen₁)
  have hpending := hstore.pending
  cases hbegun : begun with
  | none =>
    rw [hbegun] at hpending
    have hnone : t.find (matIpkEpochSlotKey j .next) = none := by
      rw [KvsTxn.find, ← List.head?_filter, show t.body.filter _ = [] from hpending]
      rfl
    rw [KvsTxn.get, hnone] at hget
    cases hget
  | some b =>
    rw [hbegun] at hpending
    obtain ⟨next, before⟩ := b
    obtain ⟨hlen, hget'⟩ := hpending
    obtain ⟨l, hl⟩ := List.length_eq_one_iff.1 hlen
    refine ⟨next, before, rfl, Option.some.inj (Except.ok.inj (hget.symm.trans hget')), ?_⟩
    have hmem : l ∈ t.body.filter (isLineOf (matIpkEpochSlotKey j .next)) := by
      rw [hl]
      exact List.mem_singleton_self l
    rw [hl, List.eraseP_cons_of_pos (List.mem_filter.1 hmem).2]

/-- A commit makes the key that the begin was given the current one, in both records. -/
theorem Rotation.Sound.commit (h : Rotation.Sound env cfid j ⟨text, begun⟩)
    (hcall : commitIpkRotation env j file text (cfid j) cur next = (.ok true, text')) :
    Rotation.Sound env cfid j ⟨text', none⟩ ∧ begun.map (·.1) = some next ∧
      readMatIpkEpochSlot env j text' .current = .ok (some next) ∧
      readIpkOperational env j text' = .ok (env.deriveIpkOperational next (cfid j)) := by
  obtain ⟨t, t', hopen, hbody, rfl⟩ := transact_of_replaced hcall
  obtain ⟨blob, rewritten, hcommitted⟩ := commitTxn_eq_some hbody
  obtain ⟨hsame, hcut'⟩ := hcommitted.sameBut (commit_of_openText hopen).1
  obtain ⟨hkeyset, hcurrent, hnext⟩ := hcommitted.find
  obtain ⟨next', before, hbegun, hv, herase⟩ := h.pending hopen hcommitted.pending
  obtain ⟨t₁, hopen₁, hstore⟩ := h.store
  obtain rfl := Except.ok.inj (hopen.symm.trans hopen₁)
  obtain ⟨houtline, hparse⟩ := parseKeysetFirstEntry_keysetWithSlot0 j hcommitted.rewrites
    hcommitted.fits
  have hshape := hstore.keyset blob hcommitted.keyset
  have hparse := hparse hshape
  have hne : rewritten ≠ [] := by
    intro he
    rw [he] at hparse
    cases hparse
  have hflush : t'.isFlush = true := by
    rw [KvsTxn.isFlush, hsame.before]
    exact hstore.flush
  have hepoch : readMatIpkEpochSlot env j t'.commit .current = .ok (some next) :=
    readMatIpkEpochSlot_eq_some.2 (found_commit_of_lineOf hcut' hflush
      (isKey_matIpkEpochSlotKey j .current) next.ne_nil hcurrent)
  have hread : readIpkOperational env j t'.commit =
      .ok (env.deriveIpkOperational next (cfid j)) := by
    refine readIpkOperational_eq_ok.2 ⟨rewritten, found_commit_of_lineOf hcut' hflush
      (isKey_ipkKeysetKey j) hne hkeyset, ?_⟩
    rw [parseKeyset, hparse]
    rfl
  have hstore' : RotationStore env j none t' := by
    refine ⟨hflush, hnext.trans herase, fun blob' hblob' => ?_⟩
    rw [KvsTxn.get_of_find hkeyset (isKey_ipkKeysetKey j), if_neg hne] at hblob'
    cases hblob'
    rw [hasKeysetShape, houtline]
    exact hshape
  refine ⟨⟨hstore'.reopen hcut', ?_, ?_⟩, ?_, hepoch, hread⟩
  · intro epoch hepoch'
    obtain rfl := Option.some.inj (Except.ok.inj (hepoch.symm.trans hepoch'))
    exact hread
  · intro epoch before hnone
    cases hnone
  · rw [hbegun, Option.map_some, Subtype.ext hv]

/-- An abort takes the line of the pending key back. -/
theorem Rotation.Sound.abort (h : Rotation.Sound env cfid j ⟨text, begun⟩)
    (hcall : abortIpkRotation env j file text = (.ok true, text')) :
    Rotation.Sound env cfid j ⟨text', none⟩ ∧
      ∃ next before, begun = some (next, before) ∧ ∀ text, before = some text → text' = text := by
  obtain ⟨t, t', hopen, hbody, rfl⟩ := transact_of_replaced hcall
  obtain ⟨v, hget, rfl⟩ := abortTxn_eq_some hbody
  obtain ⟨hcut, hcommit⟩ := commit_of_openText hopen
  obtain ⟨next, before, hbegun, -, herase⟩ := h.pending hopen hget
  obtain ⟨t₁, hopen₁, hstore⟩ := h.store
  obtain rfl := Except.ok.inj (hopen.symm.trans hopen₁)
  have hcut' : (t.remove (matIpkEpochSlotKey j .next)).Cut := hcut.remove
  have hsame : SameBut [matIpkEpochSlotKey j .next] t (t.remove (matIpkEpochSlotKey j .next)) :=
    (SameBut.refl _ t).remove (List.mem_singleton_self _)
  have hkeyset : ipkKeysetKey j ∉ [matIpkEpochSlotKey j .next] := by
    rw [List.mem_singleton]
    exact (matIpkEpochSlotKey_ne_ipkKeysetKey j j .next).symm
  have hstore' : RotationStore env j none (t.remove (matIpkEpochSlotKey j .next)) := by
    refine ⟨hstore.flush, filter_remove_self.trans herase, fun blob hblob => ?_⟩
    rw [KvsTxn.get_congr (KvsTxn.find_of_filter (hsame.filter _ hkeyset))] at hblob
    exact hstore.keyset blob hblob
  refine ⟨⟨hstore'.reopen hcut', ?_, nofun⟩, next, before, hbegun, fun text₀ htext => ?_⟩
  · have hagrees := h.agrees
    rw [← hcommit] at hagrees
    refine hagrees.of_sameBut hcut hcut' hsame ?_ hkeyset
    rw [List.mem_singleton]
    exact fun he => absurd (matIpkEpochSlotKey_inj he).2 (by decide)
  · rw [htext] at hbegun
    obtain ⟨t₀, hopen₀, hfind, hopen'⟩ := h.begun next text₀ hbegun
    obtain rfl := Except.ok.inj (hopen.symm.trans hopen')
    rw [(remove_set (isKey_matIpkEpochSlotKey j .next) hfind).2]
    exact (commit_of_openText hopen₀).2

end

/-! ## Runs -/

/-- What a call on a rotation that is under way on fabric `j` guarantees. -/
structure AllOrNothing (env : RotationEnv) (cfid : UInt8 → Fixed 8) (j : UInt8) (s : Rotation)
    (c : RotationCall) : Prop where
  /-- A call that fails, or that has nothing to do, leaves the text. -/
  untouched : (c.apply env cfid s.text).1 ≠ .ok true → (c.apply env cfid s.text).2 = s.text
  agrees : ∀ b, (c.apply env cfid s.text).1 = .ok b → Agrees env cfid j (c.apply env cfid s.text).2
  /-- A commit makes the key that its begin was given the current one. -/
  commit : ∀ b cur next, c.fabricIndex = j → c.op = .commit cur next →
    (c.apply env cfid s.text).1 = .ok b → s.begun.map (·.1) = some next ∧
      readMatIpkEpochSlot env j (c.apply env cfid s.text).2 .current = .ok (some next) ∧
      readIpkOperational env j (c.apply env cfid s.text).2 =
        .ok (env.deriveIpkOperational next (cfid j))
  /-- An abort restores the text that its begin was given on. -/
  abort : c.fabricIndex = j → c.op = .abort → (c.apply env cfid s.text).1 = .ok true →
    ∃ next before, s.begun = some (next, before) ∧
      ∀ text, before = some text → (c.apply env cfid s.text).2 = text

section
variable {env : RotationEnv} {cfid : UInt8 → Fixed 8} {j : UInt8} {s : Rotation}

theorem RotationCall.apply_of_not_replaced {c : RotationCall} {text : List Char}
    (h : (c.apply env cfid text).1 ≠ .ok true) : (c.apply env cfid text).2 = text := by
  cases hcall : c.apply env cfid text with
  | mk r text' =>
    rw [hcall] at h
    obtain ⟨file, i, op⟩ := c
    rcases r with e | b
    · cases op <;> exact transact_of_error hcall
    · cases b with
      | true => exact absurd rfl h
      | false => cases op <;> exact (transact_of_idle hcall).1

/-- **One call.** A call on a sound rotation leaves a sound one. -/
theorem Rotation.Sound.step (h : s.Sound env cfid j) (c : RotationCall) :
    (s.step env cfid j c).Sound env cfid j := by
  unfold Rotation.step
  split
  · next text hcall =>
    by_cases hj : c.fabricIndex = j
    · rw [if_pos hj]
      obtain ⟨file, i, op⟩ := c
      obtain rfl : i = j := hj
      cases op with
      | begin next => exact h.begin hcall
      | commit cur next => exact (h.commit hcall).1
      | abort => exact (h.abort hcall).1
    · rw [if_neg hj]
      exact h.other hj hcall
  · exact h

theorem Rotation.Sound.allOrNothing (h : s.Sound env cfid j) (c : RotationCall) :
    AllOrNothing env cfid j s c where
  untouched := RotationCall.apply_of_not_replaced
  agrees b hok := by
    have hstep := (h.step c).agrees
    unfold Rotation.step at hstep
    cases b with
    | true =>
      rw [show c.apply env cfid s.text = (.ok true, (c.apply env cfid s.text).2) from
        Prod.ext hok rfl] at hstep
      exact hstep
    | false =>
      rw [RotationCall.apply_of_not_replaced (by rw [hok]; exact nofun)]
      exact h.agrees
  commit b cur next hj hop hok := by
    obtain ⟨file, i, op⟩ := c
    obtain rfl : i = j := hj
    obtain rfl : op = .commit cur next := hop
    cases b with
    | true => exact (h.commit (Prod.ext hok rfl)).2
    | false =>
      obtain ⟨-, t, -, hbody⟩ := transact_of_idle (Prod.ext hok rfl)
      exact absurd hbody commitTxn_ne_none
  abort hj hop hok := by
    obtain ⟨file, i, op⟩ := c
    obtain rfl : i = j := hj
    obtain rfl : op = .abort := hop
    exact (h.abort (Prod.ext hok rfl)).2

/-- **Rotation.** From a sound state, after any calls on any fabrics, the next call does all that it
is for or leaves the store: the records of the current key agree, a commit makes the key of its
begin the current one, and an abort restores the text before it. -/
theorem allOrNothing_of_run (h : s.Sound env cfid j) (cs : List RotationCall) (c : RotationCall) :
    AllOrNothing env cfid j (run (Rotation.step env cfid j) s cs) c :=
  (invariant h (fun _ c hs => hs.step c) cs).allOrNothing c

end

/-! ## Sample stores -/

def sampleEpoch (b : UInt8) : Fixed 16 := ⟨List.replicate 16 b, rfl⟩

def sampleCurrentOperational : Fixed 16 :=
  ⟨[0x5e, 0x79, 0x7f, 0x55, 0x71, 0xab, 0x36, 0xab, 0x9a, 0x60, 0xfc, 0xbd, 0xfe, 0xc7, 0x3a, 0xd3],
    rfl⟩

def sampleNextOperational : Fixed 16 :=
  ⟨[0xd6, 0x34, 0xf4, 0x2f, 0xf4, 0x78, 0xe5, 0x1f, 0xf5, 0x4e, 0x54, 0x5f, 0xd7, 0x1a, 0x9b, 0x87],
    rfl⟩

/-- The keys that are derived of two epoch keys. -/
def sampleRotationEnv : RotationEnv where
  base64 := .standard
  deriveIpkOperational epoch _ :=
    if epoch = sampleEpoch 0x0C then sampleCurrentOperational
    else if epoch = sampleEpoch 0x0E then sampleNextOperational
    else epoch
  deriveGroupSessionId operational :=
    if operational = sampleCurrentOperational then 0x35da
    else if operational = sampleNextOperational then 0x5b6c
    else 0

def sampleCfid (_ : UInt8) : Fixed 8 := ⟨[0xAA, 0xBB, 0xCC, 0xDD, 0xEE, 0xFF, 0x00, 0x11], rfl⟩

/-- A record with an array of one key for each of the keys. -/
def sampleKeyset (keys : List (Fixed 16)) : Bytes :=
  let w := ((Writer.new.startStruct .anonymous).putUint (.context 1) 0).putUint (.context 2) 1
  let w := keys.foldl (fun w key =>
    (((((w.startArray (.context 3)).startStruct .anonymous).putUint (.context 4) 1).putBytes
      (.context 6) key.1).endContainer).endContainer) w
  ((w.putUint (.context 7) 0xFFFF).endContainer).finish

/-- The store of fabric 2. -/
def sampleStore (header : String) (keys : List (Fixed 16)) (pending : List Line) : List Char :=
  Lines.unlines true (header.toList ::
    KvsTxn.lineOf .standard (matIpkEpochSlotKey 2 .current) (sampleEpoch 0x0C).1 ::
    KvsTxn.lineOf .standard (ipkKeysetKey 2) (sampleKeyset keys) :: pending)

def sampleBegin : RotationCall := ⟨.ok, 2, .begin (sampleEpoch 0x0E)⟩

def sampleCommit : RotationCall := ⟨.ok, 2, .commit (sampleEpoch 0x0C) (sampleEpoch 0x0E)⟩

def sampleAbort : RotationCall := ⟨.ok, 2, .abort⟩

/-- The lines of the store of a fabric that no rotation is under way on. -/
def sampleTxn : KvsTxn where
  before := ["[Default]".toList]
  body := [KvsTxn.lineOf .standard (matIpkEpochSlotKey 2 .current) (sampleEpoch 0x0C).1,
    KvsTxn.lineOf .standard (ipkKeysetKey 2) (sampleKeyset [sampleCurrentOperational])]
  after := []
  trailingNewline := true

theorem sound_sampleStore : Rotation.Sound sampleRotationEnv sampleCfid 2
    ⟨sampleStore "[Default]" [sampleCurrentOperational] [], none⟩ := by
  obtain ⟨hopen, hflush, hpending, hget, hshape, hepoch, hread⟩ :
      KvsTxn.openText (sampleStore "[Default]" [sampleCurrentOperational] []) = .ok sampleTxn ∧
      sampleTxn.isFlush = true ∧
      sampleTxn.body.filter (isLineOf (matIpkEpochSlotKey 2 .next)) = [] ∧
      sampleTxn.get .standard (ipkKeysetKey 2) = .ok (some (sampleKeyset [sampleCurrentOperational])) ∧
      hasKeysetShape (sampleKeyset [sampleCurrentOperational]) = true ∧
      readMatIpkEpochSlot sampleRotationEnv 2
        (sampleStore "[Default]" [sampleCurrentOperational] []) .current =
          .ok (some (sampleEpoch 0x0C)) ∧
      readIpkOperational sampleRotationEnv 2
        (sampleStore "[Default]" [sampleCurrentOperational] []) =
          .ok (sampleRotationEnv.deriveIpkOperational (sampleEpoch 0x0C) (sampleCfid 2)) := by
    decide +kernel
  refine ⟨⟨_, hopen, hflush, hpending, fun blob hblob => ?_⟩, fun epoch hepoch' => ?_, nofun⟩
  · obtain rfl := Option.some.inj (Except.ok.inj (hget.symm.trans hblob))
    exact hshape
  · obtain rfl := Option.some.inj (Except.ok.inj (hepoch.symm.trans hepoch'))
    exact hread

/-- A rotation is begun, aborted and begun again, and committed. -/
theorem allOrNothing_sampleCommit :
    AllOrNothing sampleRotationEnv sampleCfid 2 (run (Rotation.step sampleRotationEnv sampleCfid 2)
      ⟨sampleStore "[Default]" [sampleCurrentOperational] [], none⟩
      [sampleBegin, sampleAbort, sampleBegin]) sampleCommit ∧
    (sampleCommit.apply sampleRotationEnv sampleCfid
      (run (Rotation.step sampleRotationEnv sampleCfid 2)
        ⟨sampleStore "[Default]" [sampleCurrentOperational] [], none⟩
        [sampleBegin, sampleAbort, sampleBegin]).text).1 = .ok true :=
  ⟨allOrNothing_of_run sound_sampleStore [sampleBegin, sampleAbort, sampleBegin] sampleCommit,
    by decide +kernel⟩

/-- The rotation of fabric 2 on a store, begun. -/
def sampleBegun (header : String) (keys : List (Fixed 16)) (pending : List Line) : Rotation :=
  Rotation.step sampleRotationEnv sampleCfid 2 ⟨sampleStore header keys pending, none⟩ sampleBegin

/-- Records that do not agree at the start do not after a begin either; of two arrays of keys a
commit rewrites the first and the readers take the second; an abort removes an empty line of the
pending key that the begin found; and behind an indented header the readers see nothing of a commit.
-/
theorem not_allOrNothing :
    ¬AllOrNothing sampleRotationEnv sampleCfid 2
      ⟨sampleStore "[Default]" [sampleNextOperational] [], none⟩ sampleBegin ∧
    ¬AllOrNothing sampleRotationEnv sampleCfid 2
      (sampleBegun "[Default]" [sampleCurrentOperational, sampleCurrentOperational] [])
      sampleCommit ∧
    ¬AllOrNothing sampleRotationEnv sampleCfid 2
      (sampleBegun "[Default]" [sampleCurrentOperational] [matIpkEpochSlotKey 2 .next ++ ['=']])
      sampleAbort ∧
    ¬AllOrNothing sampleRotationEnv sampleCfid 2
      (sampleBegun " [Default]" [sampleCurrentOperational] []) sampleCommit := by
  refine ⟨fun h => ?_, fun h => ?_, fun h => ?_, fun h => ?_⟩
  · obtain ⟨hok, hepoch, hread⟩ :
        (sampleBegin.apply sampleRotationEnv sampleCfid
          (sampleStore "[Default]" [sampleNextOperational] [])).1 = .ok true ∧
        readMatIpkEpochSlot sampleRotationEnv 2 (sampleBegin.apply sampleRotationEnv sampleCfid
          (sampleStore "[Default]" [sampleNextOperational] [])).2 .current =
            .ok (some (sampleEpoch 0x0C)) ∧
        readIpkOperational sampleRotationEnv 2 (sampleBegin.apply sampleRotationEnv sampleCfid
          (sampleStore "[Default]" [sampleNextOperational] [])).2 ≠
            .ok (sampleRotationEnv.deriveIpkOperational (sampleEpoch 0x0C) (sampleCfid 2)) := by
      decide +kernel
    exact hread (h.agrees true hok _ hepoch)
  · obtain ⟨hok, hread⟩ :
        (sampleCommit.apply sampleRotationEnv sampleCfid (sampleBegun "[Default]"
          [sampleCurrentOperational, sampleCurrentOperational] []).text).1 = .ok true ∧
        readIpkOperational sampleRotationEnv 2
          (sampleCommit.apply sampleRotationEnv sampleCfid (sampleBegun "[Default]"
            [sampleCurrentOperational, sampleCurrentOperational] []).text).2 ≠
            .ok (sampleRotationEnv.deriveIpkOperational (sampleEpoch 0x0E) (sampleCfid 2)) := by
      decide +kernel
    exact hread (h.commit true _ _ rfl rfl hok).2.2
  · obtain ⟨hok, hbegun, htext⟩ :
        (sampleAbort.apply sampleRotationEnv sampleCfid (sampleBegun "[Default]"
          [sampleCurrentOperational] [matIpkEpochSlotKey 2 .next ++ ['=']]).text).1 = .ok true ∧
        (sampleBegun "[Default]" [sampleCurrentOperational]
          [matIpkEpochSlotKey 2 .next ++ ['=']]).begun = some (sampleEpoch 0x0E,
            some (sampleStore "[Default]" [sampleCurrentOperational]
              [matIpkEpochSlotKey 2 .next ++ ['=']])) ∧
        (sampleAbort.apply sampleRotationEnv sampleCfid (sampleBegun "[Default]"
          [sampleCurrentOperational] [matIpkEpochSlotKey 2 .next ++ ['=']]).text).2 ≠
            sampleStore "[Default]" [sampleCurrentOperational]
              [matIpkEpochSlotKey 2 .next ++ ['=']] := by decide +kernel
    obtain ⟨next, before, hbegun', habort⟩ := h.abort rfl rfl hok
    rw [hbegun] at hbegun'
    cases hbegun'
    exact htext (habort _ rfl)
  · obtain ⟨hok, hepoch⟩ :
        (sampleCommit.apply sampleRotationEnv sampleCfid (sampleBegun " [Default]"
          [sampleCurrentOperational] []).text).1 = .ok true ∧
        readMatIpkEpochSlot sampleRotationEnv 2
          (sampleCommit.apply sampleRotationEnv sampleCfid (sampleBegun " [Default]"
            [sampleCurrentOperational] []).text).2 .current ≠
            .ok (some (sampleEpoch 0x0E)) := by decide +kernel
    exact hepoch (h.commit true _ _ rfl rfl hok).2.1

end MatStack
