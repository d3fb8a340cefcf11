import MatStack.Controller.CommissionCodec
import MatStack.Lib.Checked

/-!
# Commissioning messages

The commands and answers of a commissioning, each with what its encoder takes and what the other
side's decoder finds (`CommissionMessage`). What one side encodes the other side decodes, a decoder
that rejects bytes names its own step, and an integer that an accepted message carries is the one
that was read (`commissionMessages_agree`).
-/

namespace MatStack

/-! ## The controller's other requests -/

def encodeUpdateFabricLabel (label : String) : Bytes :=
  encodeStruct fun w => w.putStr (.context 0) label

def encodeRemoveFabric (fabricIndex : UInt8) : Bytes :=
  encodeStruct fun w => w.putUint (.context 0) fabricIndex.toUInt64

def encodeOpenCommissioningWindow (timeoutS : UInt16) (verifier : Fixed 97)
    (discriminator : UInt16) (iterations : UInt32) (salt : Bytes) : Bytes :=
  encodeStruct fun w =>
    ((((w.putUint (.context 0) timeoutS.toUInt64).putBytes (.context 1) verifier.1).putUint
      (.context 2) discriminator.toUInt64).putUint (.context 3) iterations.toUInt64).putBytes
      (.context 4) salt

/-- `AddNOC` as a controller sends it whose root has an intermediate certificate sign. -/
def addNocWithIcac (nocTlv icacTlv : Bytes) (ipkEpoch : Fixed 16) (caseAdminSubject : UInt64)
    (adminVendorId : UInt16) : Bytes :=
  encodeStruct fun w =>
    ((((w.putBytes (.context 0) nocTlv).putBytes (.context 1) icacTlv).putBytes (.context 2)
      ipkEpoch.1).putUint (.context 3) caseAdminSubject).putUint (.context 4)
      adminVendorId.toUInt64

/-! ## Messages -/

/-- A message, as it is decoded. -/
inductive CommissionMessage where
  | armFailSafe (expiryS : UInt16) (breadcrumb : UInt64)
  | setRegulatoryConfig (config : UInt8) (country : String) (breadcrumb : UInt64)
  | attestationRequest (nonce : Fixed 32)
  | certChainRequest (certType : UInt8)
  | csrRequest (nonce : Fixed 32)
  | addTrustedRoot (rcacTlv : Bytes)
  | addNoc (fields : AddNocFields)
  | updateFabricLabel (label : String)
  | removeFabric (fabricIndex : UInt8)
  | openCommissioningWindow (fields : OpenCommissioningWindowFields)
  | commissioningStatusResponse (errorCode : UInt8) (debugText : String)
  | attestationResponse (elements : Bytes) (signature : Fixed 64)
  | certChainResponse (certDer : Bytes)
  | nocsrElements (csrDer nonce : Bytes)
  | csrResponse (nocsrElements : Bytes) (signature : Fixed 64)
  | nocResponse (status : UInt8) (fabricIndex : Option UInt8)

/-- Which message bytes are to be decoded as. -/
inductive CommissionKind where
  | armFailSafe
  | setRegulatoryConfig
  | attestationRequest
  | certChainRequest
  | csrRequest
  | addTrustedRoot
  | addNoc
  | updateFabricLabel
  | removeFabric
  | openCommissioningWindow
  | commissioningStatusResponse
  | attestationResponse
  | certChainResponse
  | nocsrElements
  | csrResponse
  | nocResponse
deriving DecidableEq

namespace CommissionMessage

def kind : CommissionMessage → CommissionKind
  | .armFailSafe .. => .armFailSafe
  | .setRegulatoryConfig .. => .setRegulatoryConfig
  | .attestationRequest .. => .attestationRequest
  | .certChainRequest .. => .certChainRequest
  | .csrRequest .. => .csrRequest
  | .addTrustedRoot .. => .addTrustedRoot
  | .addNoc .. => .addNoc
  | .updateFabricLabel .. => .updateFabricLabel
  | .removeFabric .. => .removeFabric
  | .openCommissioningWindow .. => .openCommissioningWindow
  | .commissioningStatusResponse .. => .commissioningStatusResponse
  | .attestationResponse .. => .attestationResponse
  | .certChainResponse .. => .certChainResponse
  | .nocsrElements .. => .nocsrElements
  | .csrResponse .. => .csrResponse
  | .nocResponse .. => .nocResponse

/-- What the side that sends the message writes. An encoder takes arrays of fixed length where the
decoder leaves the length to its caller. -/
def encode : CommissionMessage → Option Bytes
  | .armFailSafe expiryS breadcrumb => some (encodeArmFailSafe expiryS breadcrumb)
  | .setRegulatoryConfig config country breadcrumb =>
    some (encodeSetRegulatoryConfig config country breadcrumb)
  | .attestationRequest nonce => some (encodeAttestationRequest nonce)
  | .certChainRequest certType => some (encodeCertChainRequest certType)
  | .csrRequest nonce => some (encodeCsrRequest nonce)
  | .addTrustedRoot rcacTlv => some (encodeAddTrustedRoot rcacTlv)
  | .addNoc ⟨nocTlv, none, ipkEpoch, caseAdminSubject, adminVendorId⟩ =>
    some (encodeAddNoc nocTlv ipkEpoch caseAdminSubject adminVendorId)
  | .addNoc ⟨nocTlv, some icacTlv, ipkEpoch, caseAdminSubject, adminVendorId⟩ =>
    some (addNocWithIcac nocTlv icacTlv ipkEpoch caseAdminSubject adminVendorId)
  | .updateFabricLabel label => some (encodeUpdateFabricLabel label)
  | .removeFabric fabricIndex => some (encodeRemoveFabric fabricIndex)
  | .openCommissioningWindow f => (Fixed.ofBytes? 97 f.verifier).map fun verifier =>
    encodeOpenCommissioningWindow f.timeoutS verifier f.discriminator f.iterations f.salt
  | .commissioningStatusResponse errorCode debugText =>
    some (encodeCommissioningStatusResponse errorCode debugText)
  | .attestationResponse elements signature => some (encodeAttestationResponse elements signature)
  | .certChainResponse certDer => some (encodeCertChainResponse certDer)
  | .nocsrElements csrDer nonce =>
    (Fixed.ofBytes? 32 nonce).map fun nonce => encodeNocsrElements csrDer nonce
  | .csrResponse elements signature => some (encodeCsrResponse elements signature)
  | .nocResponse status fabricIndex => some (encodeNocResponse status fabricIndex)

/-- The one length that a decoder checks and an encoder does not. -/
def Admitted : CommissionMessage → Prop
  | .updateFabricLabel label => label.utf8ByteSize ≤ 32
  | _ => True

/-- The members that are written of a message, by context tag. -/
def fields : CommissionMessage → FieldMap
  | .armFailSafe expiryS breadcrumb => [(0, .uint expiryS.toUInt64), (1, .uint breadcrumb)]
  | .setRegulatoryConfig config country breadcrumb =>
    [(0, .uint config.toUInt64), (1, .utf8 country), (2, .uint breadcrumb)]
  | .attestationRequest nonce | .csrRequest nonce => [(0, .bytes nonce.1)]
  | .certChainRequest certType => [(0, .uint certType.toUInt64)]
  | .addTrustedRoot rcacTlv => [(0, .bytes rcacTlv)]
  | .addNoc f => (0, .bytes f.nocTlv) :: (f.icacTlv.toList.map fun icac => (1, .bytes icac)) ++
    [(2, .bytes f.ipkEpoch.1), (3, .uint f.caseAdminSubject), (4, .uint f.adminVendorId.toUInt64)]
  | .updateFabricLabel label => [(0, .utf8 label)]
  | .removeFabric fabricIndex => [(0, .uint fabricIndex.toUInt64)]
  | .openCommissioningWindow f => [(0, .uint f.timeoutS.toUInt64), (1, .bytes f.verifier),
    (2, .uint f.discriminator.toUInt64), (3, .uint f.iterations.toUInt64), (4, .bytes f.salt)]
  | .commissioningStatusResponse errorCode debugText =>
    [(0, .uint errorCode.toUInt64), (1, .utf8 debugText)]
  | .attestationResponse elements signature | .csrResponse elements signature =>
    [(0, .bytes elements), (1, .bytes signature.1)]
  | .certChainResponse certDer => [(0, .bytes certDer)]
  | .nocsrElements csrDer nonce => [(1, .bytes csrDer), (2, .bytes nonce)]
  | .nocResponse status fabricIndex => (0, .uint status.toUInt64) ::
    fabricIndex.toList.map fun idx => (1, .uint idx.toUInt64)

end CommissionMessage

namespace CommissionKind

/-- The decoder of the side that receives the message. -/
def decode : CommissionKind → Bytes → Except CommissionError CommissionMessage
  | .armFailSafe, b => (decodeArmFailSafe b).map fun x => .armFailSafe x.1 x.2
  | .setRegulatoryConfig, b =>
    (decodeSetRegulatoryConfig b).map fun x => .setRegulatoryConfig x.1 x.2.1 x.2.2
  | .attestationRequest, b => (decodeAttestationRequest b).map .attestationRequest
  | .certChainRequest, b => (decodeCertChainRequest b).map .certChainRequest
  | .csrRequest, b => (decodeCsrRequest b).map .csrRequest
  | .addTrustedRoot, b => (decodeAddTrustedRoot b).map .addTrustedRoot
  | .addNoc, b => (decodeAddNoc b).map .addNoc
  | .updateFabricLabel, b => (decodeUpdateFabricLabel b).map .updateFabricLabel
  | .removeFabric, b => (decodeRemoveFabric b).map .removeFabric
  | .openCommissioningWindow, b => (decodeOpenCommissioningWindow b).map .openCommissioningWindow
  | .commissioningStatusResponse, b =>
    (decodeCommissioningStatusResponse b).map fun x => .commissioningStatusResponse x.1 x.2
  | .attestationResponse, b =>
    (decodeAttestationResponse b).map fun x => .attestationResponse x.1 x.2
  | .certChainResponse, b => (decodeCertChainResponse b).map .certChainResponse
  | .nocsrElements, b => (parseNocsrElements b).map fun x => .nocsrElements x.1 x.2
  | .csrResponse, b => (decodeCsrResponse b).map fun x => .csrResponse x.1 x.2
  | .nocResponse, b => (decodeNocResponse b).map fun x => .nocResponse x.1 x.2

/-- The step that the decoder names in its errors. -/
def step : CommissionKind → String
  | .armFailSafe => "arm_fail_safe_request"
  | .setRegulatoryConfig => "set_regulatory_config_request"
  | .attestationRequest => "attestation_request"
  | .certChainRequest => "cert_chain_request"
  | .csrRequest => "csr_request"
  | .addTrustedRoot => "add_trusted_root_request"
  | .addNoc => "add_noc_request"
  | .updateFabricLabel => "update_fabric_label_request"
  | .removeFabric => "remove_fabric_request"
  | .openCommissioningWindow => "open_commissioning_window_request"
  | .commissioningStatusResponse => "commissioning_status_response"
  | .attestationResponse => "attestation_response"
  | .certChainResponse => "cert_chain_response"
  | .nocsrElements => "nocsr_elements"
  | .csrResponse => "csr_response"
  | .nocResponse => "noc_response"

/-- The integers that the decoder reads: their context tags and their widths in bits. -/
def widths : CommissionKind → List (UInt8 × Nat)
  | .armFailSafe => [(0, 16), (1, 64)]
  | .setRegulatoryConfig => [(0, 8), (2, 64)]
  | .addNoc => [(3, 64), (4, 16)]
  | .certChainRequest | .removeFabric | .commissioningStatusResponse => [(0, 8)]
  | .openCommissioningWindow => [(0, 16), (2, 16), (3, 32)]
  | .nocResponse => [(0, 8), (1, 8)]
  | _ => []

end CommissionKind

/-! ## What one side encodes -/

theorem Fixed.val_of_ofBytes? {n : Nat} {b : Bytes} {a : Fixed n}
    (h : Fixed.ofBytes? n b = some a) : a.1 = b := by
  unfold Fixed.ofBytes? at h
  split_ifs at h
  cases h
  rfl

section
variable {m : CommissionMessage} {kind : CommissionKind} {b : Bytes}

/-- An encoder writes the members of its message. -/
theorem CommissionMessage.encode_eq (h : m.encode = some b) : b = fieldsTlv m.fields := by
  cases m with
  | addNoc f =>
    obtain ⟨nocTlv, icacTlv, ipkEpoch, caseAdminSubject, adminVendorId⟩ := f
    cases icacTlv with
    | none | some icac =>
      cases h
      rfl
  | openCommissioningWindow f =>
    obtain ⟨verifier, hverifier, rfl⟩ := Option.map_eq_some_iff.1 h
    rw [CommissionMessage.fields, ← Fixed.val_of_ofBytes? hverifier]
    rfl
  | nocsrElements csrDer nonce =>
    obtain ⟨nonce', hnonce, rfl⟩ := Option.map_eq_some_iff.1 h
    rw [CommissionMessage.fields, ← Fixed.val_of_ofBytes? hnonce]
    rfl
  | nocResponse status fabricIndex =>
    cases fabricIndex with
    | none | some idx =>
      cases h
      rfl
  | _ =>
    cases h
    rfl

/-- The decoder finds the message whose members were written. -/
theorem CommissionKind.decode_fields (hm : m.Admitted)
    (hlen : (fieldsTlv m.fields).length ≤ usizeMax) :
    m.kind.decode (fieldsTlv m.fields) = .ok m := by
  have hscan (step : String) : scanStructFields (fieldsTlv m.fields) step = .ok m.fields.reverse :=
    scanStructFields_fieldsTlv hlen
  cases m with
  | addNoc f =>
    obtain ⟨nocTlv, icacTlv, ipkEpoch, caseAdminSubject, adminVendorId⟩ := f
    dsimp only [CommissionMessage.kind, decode, decodeAddNoc]
    rw [hscan]
    cases icacTlv with
    | none | some icac =>
      simp [bind, Except.bind, pure, Except.pure, Except.map, CommissionMessage.fields, takeBytes,
        takeU64, takeUint, required, List.lookup_cons, List.lookup_nil]
  | updateFabricLabel label =>
    dsimp only [CommissionMessage.kind, decode, decodeUpdateFabricLabel]
    rw [hscan]
    simp [bind, Except.bind, pure, Except.pure, Except.map, CommissionMessage.fields, takeUtf8,
      required, if_neg (Nat.not_lt.2 hm)]
  | nocResponse status fabricIndex =>
    dsimp only [CommissionMessage.kind, decode, decodeNocResponse]
    rw [hscan]
    cases fabricIndex with
    | none | some idx =>
      simp [bind, Except.bind, pure, Except.pure, Except.map, CommissionMessage.fields, takeUint,
        required, List.lookup_cons, List.lookup_nil]
  | _ =>
    dsimp only [CommissionMessage.kind, decode, decodeArmFailSafe, decodeSetRegulatoryConfig,
      decodeAttestationRequest, decodeCertChainRequest, decodeCsrRequest, decodeNonce32,
      decodeAddTrustedRoot, decodeRemoveFabric, decodeOpenCommissioningWindow,
      decodeCommissioningStatusResponse, decodeAttestationResponse, decodeCertChainResponse,
      parseNocsrElements, decodeCsrResponse]
    rw [hscan]
    simp [bind, Except.bind, pure, Except.pure, Except.map, CommissionMessage.fields, takeBytes,
      takeUtf8, takeU64, takeUint, required, List.lookup_cons]

end

/-! ## What a decoder rejects -/

/-- What fails names the step. -/
def NamesStep {α : Type} (step : String) (x : Except CommissionError α) : Prop :=
  ∀ e, x = .error e → ∃ detail, e = .malformed step detail

namespace NamesStep
variable {α β : Type} {step : String}

theorem ok (a : α) : NamesStep step (.ok a) := nofun

theorem malformed (detail : String) :
    NamesStep step (.error (.malformed step detail) : Except CommissionError α) := by
  rintro e ⟨⟩
  exact ⟨detail, rfl⟩

theorem bind {x : Except CommissionError α} {f : α → Except CommissionError β}
    (hx : NamesStep step x) (hf : ∀ a, NamesStep step (f a)) : NamesStep step (x >>= f) := by
  cases x with
  | error e =>
    rintro e' ⟨⟩
    exact hx e rfl
  | ok a => exact hf a

theorem map {x : Except CommissionError α} (hx : NamesStep step x) (f : α → β) :
    NamesStep step (x.map f) := by
  cases x with
  | error e =>
    rintro e' ⟨⟩
    exact hx e rfl
  | ok a => exact ok (f a)

theorem required (value : Option α) (detail : String) :
    NamesStep step (required value step detail) := by
  cases value with
  | none => exact malformed detail
  | some a => exact ok a

theorem takeUint (conv : UInt64 → Option α) (map : FieldMap) (tag : UInt8) (rangeDetail : String) :
    NamesStep step (takeUint conv map tag step rangeDetail) := by
  unfold MatStack.takeUint
  split
  · split
    · exact ok _
    · exact malformed rangeDetail
  · exact ok none

theorem fieldError (e : Option TlvError) :
    NamesStep step (.error (fieldError step e) : Except CommissionError α) := by
  cases e with
  | none | some e => exact malformed _

theorem skipField (r : Reader) : NamesStep step (skipField r step) := by
  unfold MatStack.skipField
  split
  · exact ok _
  · exact malformed _
  · exact malformed _

theorem scanMember (out : FieldMap) (el : Element) (r : Reader) :
    NamesStep step (scanMember step out el r) := by
  unfold MatStack.scanMember
  split
  · exact ok _
  · exact ok _
  · exact ok _
  · exact bind (skipField r) fun r => ok (out, r)
  · exact bind (skipField r) fun r => ok (out, r)
  · exact bind (skipField r) fun r => ok (out, r)
  · exact ok _

theorem walk (fuel : Nat) (out : FieldMap) (r : Reader) :
    NamesStep step (r.walk (MatStack.fieldError step) (MatStack.scanMember step) fuel out) := by
  induction fuel generalizing out r with
  | zero => exact fieldError none
  | succ fuel ih =>
    unfold Reader.walk
    split
    · exact fieldError _
    · exact fieldError none
    · rename_i el r _
      split_ifs
      · exact ok _
      · have hmember : NamesStep step (MatStack.scanMember step out el r) := scanMember out el r
        split
        · rename_i e he
          rw [he] at hmember
          exact hmember
        · exact ih _ _

theorem scanStructFields (fields : Bytes) : NamesStep step (scanStructFields fields step) := by
  have hopen : NamesStep step (expectStruct (.new fields) step) := by
    refine bind ?_ fun x => ?_
    · unfold nextEl
      split
      · exact fieldError _
      · exact fieldError none
      · exact ok _
    · obtain ⟨el, r⟩ := x
      dsimp only
      split
      · exact ok _
      · exact malformed _
  exact bind hopen fun r => bind (walk _ _ r) fun x => ok x.1

theorem decodeNonce32 (fields : Bytes) (tag : UInt8) :
    NamesStep step (decodeNonce32 fields tag step) :=
  bind (scanStructFields fields) fun _ => bind (required _ _) fun _ => required _ _

/-- **Errors.** A decoder that rejects bytes names its own step. -/
theorem decode (kind : CommissionKind) (b : Bytes) : NamesStep kind.step (kind.decode b) := by
  cases kind with
  | armFailSafe | setRegulatoryConfig | commissioningStatusResponse | nocResponse =>
    refine map (bind (scanStructFields b) fun fs => bind (takeUint _ fs _ _) fun _ =>
      bind (required _ _) fun _ => ?_) _
    first
    | exact ok _
    | exact bind (required _ _) fun _ => ok _
    | exact bind (takeUint _ fs _ _) fun _ => ok _
  | attestationRequest | csrRequest => exact map (decodeNonce32 b 0) _
  | certChainRequest | removeFabric =>
    exact map (bind (scanStructFields b) fun fs => bind (takeUint _ fs _ _) fun _ =>
      required _ _) _
  | addTrustedRoot | certChainResponse =>
    exact map (bind (scanStructFields b) fun _ => required _ _) _
  | addNoc =>
    exact map (bind (scanStructFields b) fun fs => bind (required _ _) fun _ =>
      bind (required _ _) fun _ => bind (required _ _) fun _ => bind (required _ _) fun _ =>
      bind (takeUint _ fs _ _) fun _ => bind (required _ _) fun _ => ok _) _
  | updateFabricLabel =>
    refine map (bind (scanStructFields b) fun _ => bind (required _ _) fun label => ?_) _
    split_ifs
    · exact malformed _
    · exact ok label
  | openCommissioningWindow =>
    exact map (bind (scanStructFields b) fun fs => bind (takeUint _ fs _ _) fun _ =>
      bind (required _ _) fun _ => bind (required _ _) fun _ => bind (takeUint _ fs _ _) fun _ =>
      bind (required _ _) fun _ => bind (takeUint _ fs _ _) fun _ => bind (required _ _) fun _ =>
      bind (required _ _) fun _ => ok _) _
  | attestationResponse | csrResponse =>
    exact map (bind (scanStructFields b) fun _ => bind (required _ _) fun _ =>
      bind (required _ _) fun _ => bind (required _ _) fun _ => ok _) _
  | nocsrElements =>
    exact map (bind (scanStructFields b) fun _ => bind (required _ _) fun _ =>
      bind (required _ _) fun _ => ok _) _

end NamesStep

/-! ## Integers -/

theorem toUInt64_of_tryU8 (v : UInt64) (a : UInt8) (h : tryU8 v = some a) : a.toUInt64 = v := by
  unfold tryU8 at h
  split_ifs at h with hv
  cases h
  exact UInt64.toNat_inj.1 (by simpa using hv)

theorem toUInt64_of_tryU16 (v : UInt64) (a : UInt16) (h : tryU16 v = some a) : a.toUInt64 = v := by
  unfold tryU16 at h
  split_ifs at h with hv
  cases h
  exact UInt64.toNat_inj.1 (by simpa using hv)

theorem toUInt64_of_tryU32 (v : UInt64) (a : UInt32) (h : tryU32 v = some a) : a.toUInt64 = v := by
  unfold tryU32 at h
  split_ifs at h with hv
  cases h
  exact UInt64.toNat_inj.1 (by simpa using hv)

section
variable {m : CommissionMessage} {kind : CommissionKind} {b : Bytes} {fs : FieldMap} {t : UInt8}
  {w : Nat} {v : UInt64} {α : Type} {conv : UInt64 → Option α} {step detail : String}

theorem required_eq_ok {value : Option α} {a : α} :
    required value step detail = .ok a ↔ value = some a := by
  cases value with
  | none => exact iff_of_false nofun nofun
  | some a' => simp [required]

/-- An integer that is taken is the one that was there. -/
theorem takeUint_eq_ok {o : Option α} {wide : α → UInt64}
    (hconv : ∀ v a, conv v = some a → wide a = v) (h : fs.lookup t = some (.uint v))
    (hok : takeUint conv fs t step detail = .ok o) : ∃ a, o = some a ∧ wide a = v := by
  unfold takeUint at hok
  rw [h] at hok
  dsimp only at hok
  cases ha : conv v with
  | none =>
    rw [ha] at hok
    cases hok
  | some a =>
    rw [ha] at hok
    cases hok
    exact ⟨a, rfl, hconv v a ha⟩

/-- So it is if it must be there. -/
theorem required_takeUint {o : Option α} {wide : α → UInt64} {detail' : String} {a : α}
    (hconv : ∀ v a, conv v = some a → wide a = v) (h : fs.lookup t = some (.uint v))
    (hok : takeUint conv fs t step detail = .ok o) (ha : required o step detail' = .ok a) :
    wide a = v := by
  obtain ⟨a', rfl, ha'⟩ := takeUint_eq_ok hconv h hok
  cases ha
  exact ha'

theorem takeU64_uint (h : fs.lookup t = some (.uint v)) : takeU64 fs t = some v := by
  rw [takeU64, h]

/-- The integers of a message fit their widths. -/
theorem CommissionMessage.lt_of_mem_fields (ht : (t, w) ∈ m.kind.widths)
    (h : (t, .uint v) ∈ m.fields) : v.toNat < 2 ^ w := by
  have h8 (n : UInt8) : n.toUInt64.toNat < 2 ^ 8 := n.toNat_lt
  have h16 (n : UInt16) : n.toUInt64.toNat < 2 ^ 16 := n.toNat_lt
  have h32 (n : UInt32) : n.toUInt64.toNat < 2 ^ 32 := n.toNat_lt
  have h64 : v.toNat < 2 ^ 64 := v.toNat_lt
  cases m <;> simp only [kind, CommissionKind.widths, fields, List.mem_cons, List.mem_append,
    List.mem_map, Option.mem_toList, Prod.mk.injEq, FieldValue.uint.injEq, List.not_mem_nil,
    or_false, reduceCtorEq, and_false, false_or, exists_const] at ht h
  all_goals grind

/-- **Integers.** An integer of an accepted message is the one that was read for it. -/
theorem CommissionKind.decode_uint (hscan : scanStructFields b kind.step = .ok fs)
    (ht : (t, w) ∈ kind.widths) (hv : fs.lookup t = some (.uint v))
    (h : kind.decode b = .ok m) : (t, .uint v) ∈ m.fields := by
  cases kind with
  | armFailSafe =>
    obtain ⟨x, hx, rfl⟩ := Checked.map_eq_ok.1 h
    obtain ⟨fs', hfs, hx⟩ := Checked.bind_eq_ok.1 hx
    cases hscan.symm.trans hfs
    obtain ⟨o, ho, hx⟩ := Checked.bind_eq_ok.1 hx
    obtain ⟨expiry, hexpiry, hx⟩ := Checked.bind_eq_ok.1 hx
    cases hx
    obtain ⟨rfl, -⟩ | ⟨rfl, -⟩ : t = 0 ∧ w = 16 ∨ t = 1 ∧ w = 64 := by simpa [widths] using ht
    · rw [← required_takeUint toUInt64_of_tryU16 hv ho hexpiry]
      exact .head _
    · rw [takeU64_uint hv]
      exact .tail _ (.head _)
  | setRegulatoryConfig =>
    obtain ⟨x, hx, rfl⟩ := Checked.map_eq_ok.1 h
    obtain ⟨fs', hfs, hx⟩ := Checked.bind_eq_ok.1 hx
    cases hscan.symm.trans hfs
    obtain ⟨o, ho, hx⟩ := Checked.bind_eq_ok.1 hx
    obtain ⟨config, hconfig, hx⟩ := Checked.bind_eq_ok.1 hx
    obtain ⟨country, -, hx⟩ := Checked.bind_eq_ok.1 hx
    cases hx
    obtain ⟨rfl, -⟩ | ⟨rfl, -⟩ : t = 0 ∧ w = 8 ∨ t = 2 ∧ w = 64 := by simpa [widths] using ht
    · rw [← required_takeUint toUInt64_of_tryU8 hv ho hconfig]
      exact .head _
    · rw [takeU64_uint hv]
      exact .tail _ (.tail _ (.head _))
  | certChainRequest | removeFabric =>
    obtain ⟨x, hx, rfl⟩ := Checked.map_eq_ok.1 h
    obtain ⟨fs', hfs, hx⟩ := Checked.bind_eq_ok.1 hx
    cases hscan.symm.trans hfs
    obtain ⟨o, ho, hx⟩ := Checked.bind_eq_ok.1 hx
    obtain ⟨rfl, -⟩ : t = 0 ∧ w = 8 := by simpa [widths] using ht
    rw [← required_takeUint toUInt64_of_tryU8 hv ho hx]
    exact .head _
  | commissioningStatusResponse =>
    obtain ⟨x, hx, rfl⟩ := Checked.map_eq_ok.1 h
    obtain ⟨fs', hfs, hx⟩ := Checked.bind_eq_ok.1 hx
    cases hscan.symm.trans hfs
    obtain ⟨o, ho, hx⟩ := Checked.bind_eq_ok.1 hx
    obtain ⟨code, hcode, hx⟩ := Checked.bind_eq_ok.1 hx
    cases hx
    obtain ⟨rfl, -⟩ : t = 0 ∧ w = 8 := by simpa [widths] using ht
    rw [← required_takeUint toUInt64_of_tryU8 hv ho hcode]
    exact .head _
  | addNoc =>
    obtain ⟨x, hx, rfl⟩ := Checked.map_eq_ok.1 h
    obtain ⟨fs', hfs, hx⟩ := Checked.bind_eq_ok.1 hx
    cases hscan.symm.trans hfs
    obtain ⟨noc, -, hx⟩ := Checked.bind_eq_ok.1 hx
    obtain ⟨ipkBytes, -, hx⟩ := Checked.bind_eq_ok.1 hx
    obtain ⟨ipk, -, hx⟩ := Checked.bind_eq_ok.1 hx
    obtain ⟨subject, hsubject, hx⟩ := Checked.bind_eq_ok.1 hx
    obtain ⟨o, ho, hx⟩ := Checked.bind_eq_ok.1 hx
    obtain ⟨vendor, hvendor, hx⟩ := Checked.bind_eq_ok.1 hx
    cases hx
    refine List.mem_cons_of_mem _ (List.mem_append_right _ (.tail _ ?_))
    obtain ⟨rfl, -⟩ | ⟨rfl, -⟩ : t = 3 ∧ w = 64 ∨ t = 4 ∧ w = 16 := by simpa [widths] using ht
    · rw [takeU64_uint hv] at hsubject
      cases hsubject
      exact .head _
    · rw [← required_takeUint toUInt64_of_tryU16 hv ho hvendor]
      exact .tail _ (.head _)
  | openCommissioningWindow =>
    obtain ⟨x, hx, rfl⟩ := Checked.map_eq_ok.1 h
    obtain ⟨fs', hfs, hx⟩ := Checked.bind_eq_ok.1 hx
    cases hscan.symm.trans hfs
    obtain ⟨o, ho, hx⟩ := Checked.bind_eq_ok.1 hx
    obtain ⟨timeout, htimeout, hx⟩ := Checked.bind_eq_ok.1 hx
    obtain ⟨verifier, -, hx⟩ := Checked.bind_eq_ok.1 hx
    obtain ⟨o', ho', hx⟩ := Checked.bind_eq_ok.1 hx
    obtain ⟨discriminator, hdiscriminator, hx⟩ := Checked.bind_eq_ok.1 hx
    obtain ⟨o'', ho'', hx⟩ := Checked.bind_eq_ok.1 hx
    obtain ⟨iterations, hiterations, hx⟩ := Checked.bind_eq_ok.1 hx
    obtain ⟨salt, -, hx⟩ := Checked.bind_eq_ok.1 hx
    cases hx
    obtain ⟨rfl, -⟩ | ⟨rfl, -⟩ | ⟨rfl, -⟩ : t = 0 ∧ w = 16 ∨ t = 2 ∧ w = 16 ∨ t = 3 ∧ w = 32 := by
      simpa [widths] using ht
    · rw [← required_takeUint toUInt64_of_tryU16 hv ho htimeout]
      exact .head _
    · rw [← required_takeUint toUInt64_of_tryU16 hv ho' hdiscriminator]
      exact .tail _ (.tail _ (.head _))
    · rw [← required_takeUint toUInt64_of_tryU32 hv ho'' hiterations]
      exact .tail _ (.tail _ (.tail _ (.head _)))
  | nocResponse =>
    obtain ⟨x, hx, rfl⟩ := Checked.map_eq_ok.1 h
    obtain ⟨fs', hfs, hx⟩ := Checked.bind_eq_ok.1 hx
    cases hscan.symm.trans hfs
    obtain ⟨o, ho, hx⟩ := Checked.bind_eq_ok.1 hx
    obtain ⟨status, hstatus, hx⟩ := Checked.bind_eq_ok.1 hx
    obtain ⟨o', ho', hx⟩ := Checked.bind_eq_ok.1 hx
    cases hx
    obtain ⟨rfl, -⟩ | ⟨rfl, -⟩ : t = 0 ∧ w = 8 ∨ t = 1 ∧ w = 8 := by simpa [widths] using ht
    · rw [← required_takeUint toUInt64_of_tryU8 hv ho hstatus]
      exact .head _
    · obtain ⟨idx, rfl, hidx⟩ := takeUint_eq_ok toUInt64_of_tryU8 hv ho'
      rw [← hidx]
      exact .tail _ (.head _)
  | _ => cases ht

theorem CommissionKind.kind_of_decode (h : kind.decode b = .ok m) : m.kind = kind := by
  cases kind with
  | _ =>
    obtain ⟨x, -, rfl⟩ := Checked.map_eq_ok.1 h
    rfl

/-- **Commissioning messages.** A message that is encoded is decoded again on the other side. Any
bytes are decoded to a message of the kind they are decoded as, or the decoder fails and names its
step. An integer is taken as it was read, and one that is too wide is rejected. -/
theorem commissionMessages_agree :
    (∀ (m : CommissionMessage) (b : Bytes), m.Admitted → m.encode = some b →
      b.length ≤ usizeMax → m.kind.decode b = .ok m) ∧
    (∀ (kind : CommissionKind) (b : Bytes), (∃ m, kind.decode b = .ok m ∧ m.kind = kind) ∨
      ∃ detail, kind.decode b = .error (.malformed kind.step detail)) ∧
    (∀ (kind : CommissionKind) (b : Bytes) (fs : FieldMap) (t : UInt8) (w : Nat) (v : UInt64),
      scanStructFields b kind.step = .ok fs → (t, w) ∈ kind.widths →
      fs.lookup t = some (.uint v) →
      (∀ m, kind.decode b = .ok m → (t, .uint v) ∈ m.fields) ∧
      (2 ^ w ≤ v.toNat → ∃ detail, kind.decode b = .error (.malformed kind.step detail))) := by
  have htotal (kind : CommissionKind) (b : Bytes) : (∃ m, kind.decode b = .ok m ∧ m.kind = kind) ∨
      ∃ detail, kind.decode b = .error (.malformed kind.step detail) := by
    cases h : kind.decode b with
    | ok m => exact .inl ⟨m, rfl, CommissionKind.kind_of_decode h⟩
    | error e =>
      obtain ⟨detail, rfl⟩ := NamesStep.decode kind b e h
      exact .inr ⟨detail, rfl⟩
  refine ⟨fun m b hm henc hlen => ?_, htotal, fun kind b fs t w v hscan ht hv => ⟨?_, ?_⟩⟩
  · obtain rfl := CommissionMessage.encode_eq henc
    exact CommissionKind.decode_fields hm hlen
  · exact fun m hm => CommissionKind.decode_uint hscan ht hv hm
  · intro hwide
    obtain ⟨m, hm, rfl⟩ | herr := htotal kind b
    · have hlt := CommissionMessage.lt_of_mem_fields ht (CommissionKind.decode_uint hscan ht hv hm)
      exact absurd hlt (Nat.not_lt.2 hwide)
    · exact herr

end

theorem commissionMessages_agree_sample :
    CommissionKind.decode .armFailSafe (encodeArmFailSafe 900 7) = .ok (.armFailSafe 900 7) ∧
    ∃ detail, CommissionKind.decode .removeFabric [0x15, 0x25, 0x00, 0x00, 0x01, 0x18] =
      .error (.malformed "remove_fabric_request" detail) := by
  obtain ⟨hcodec, -, hwide⟩ := commissionMessages_agree
  exact ⟨hcodec (.armFailSafe 900 7) _ trivial rfl (by decide),
    (hwide .removeFabric _ [(0, .uint 256)] 0 8 256 rfl (by decide) rfl).2 (by decide)⟩

end MatStack
