import MatStack.Controller.Dnssd.Commissionable
import MatStack.Controller.Dnssd.WireNames
import MatStack.Device.Mdns.Announcements
import MatStack.Device.Mdns.MessageRoundTrip
import MatStack.Lib.Checked

/-!
# Discovery, from end to end

What a controller asks a device for, it finds: the answers to its queries are read as the records of
the adverts that match, and folded into their ports, addresses and intervals (`discovered`). A node
or a discriminator that is not advertised gets no answer.
-/

namespace MatStack.Mdns

open Wire
open Dnssd hiding pushLabel pushName readNameFrom readName hear

/-! ## Names that may be written -/

section
variable {l : List Char} {n w : Nat} {s : ServiceRecords}

/-- An ASCII character takes one byte. -/
theorem size_of_ascii (h : ∀ c ∈ l, c.toNat < 0x80) : Utf8.size l = l.length := by
  induction l with
  | nil => rfl
  | cons c l ih =>
    have hc : (Utf8.encodeChar c).length = 1 := by
      rw [Utf8.encodeChar, if_pos (h c List.mem_cons_self)]
      rfl
    rw [Utf8.size_cons, hc, ih fun x hx => h x (List.mem_cons_of_mem _ hx), List.length_cons]
    omega

/-- A numeral of a base has no dot, and one byte for each digit. -/
theorem decimal_ascii {c : Char} (h : c ∈ decimal n) : c.toNat < 0x80 ∧ c ≠ '.' := by
  obtain ⟨k, hk, rfl⟩ := Numeral.exists_of_mem_toDigits (by decide) h
  have hall : ∀ k < 10, k.digitChar.toNat < 0x80 ∧ k.digitChar ≠ '.' := by decide
  exact hall k hk

theorem padUpper_ascii {c : Char} (h : c ∈ Numeral.padUpper 16 w n) : c.toNat < 0x80 ∧ c ≠ '.' := by
  obtain ⟨k, hk, rfl⟩ := Numeral.exists_of_mem_padUpper (by decide) h
  have hall : ∀ k < 16, k.digitChar.toUpper.toNat < 0x80 ∧ k.digitChar.toUpper ≠ '.' := by decide
  exact hall k hk

/-- A decimal numeral of sixteen bits has at most five digits. -/
theorem length_decimal_le {v : Nat} (h : v < 65536) : (decimal v).length ≤ 5 :=
  (Nat.length_toDigits_le_iff (by decide) (by decide)).2 (by omega)

theorem length_padUpper (n : UInt64) : (Numeral.padUpper 16 16 n.toNat).length = 16 := by
  rw [Numeral.padUpper, List.length_map]
  exact Numeral.length_pad (by decide) (by decide) n.toNat_lt

/-- The instance name of a node is a label. -/
theorem isLabel_operationalInstance (compressedFabricId nodeId : UInt64) :
    IsLabel (operationalInstance compressedFabricId nodeId) := by
  have hascii : ∀ c ∈ operationalInstance compressedFabricId nodeId, c.toNat < 0x80 ∧ c ≠ '.' := by
    intro c hc
    rcases List.mem_append.1 hc with hc | hc
    · exact padUpper_ascii hc
    rcases List.mem_cons.1 hc with rfl | hc
    · decide
    · exact padUpper_ascii hc
  have hsize : Utf8.size (operationalInstance compressedFabricId nodeId) = 33 := by
    rw [size_of_ascii fun c hc => (hascii c hc).1, operationalInstance, List.length_append,
      List.length_cons, length_padUpper, length_padUpper]
  exact ⟨fun h => (hascii '.' h).2 rfl, by omega, by omega⟩

/-- The names and texts of a service may be written, and are not long, and the kinds of names have
each their own numbers of dots. -/
structure ServiceRecords.Fits (s : ServiceRecords) : Prop where
  owner_dots : ∀ o ∈ s.ptrOwners, o.count '.' = 2 ∨ o.count '.' = 4
  instance_dots : s.instanceFull.count '.' = 3
  host_dots : s.hostFull.count '.' = 1
  instanceFull : WireName s.instanceFull
  hostFull : WireName s.hostFull
  instance_size : Utf8.size s.instanceFull ≤ 1000
  host_size : Utf8.size s.hostFull ≤ 1000
  txt : ∀ x ∈ s.txt, Utf8.size x ≤ 255
  txt_length : s.txt.length ≤ 5

theorem size_decimal_le {v : Nat} (h : v < 65536) : Utf8.size (decimal v) ≤ 5 := by
  rw [size_of_ascii fun c hc => (decimal_ascii hc).1]
  exact length_decimal_le h

/-- A label below a short name is short. -/
theorem size_label_le {label name : Name} (h : IsLabel label) (hname : Utf8.size name ≤ 100) :
    Utf8.size (label ++ name) ≤ 1000 := by
  obtain ⟨-, -, hle⟩ := h
  rw [Utf8.size_append]
  omega

/-- The dots of a name below a label are its own. -/
theorem count_label_append {label name : Name} {k : Nat} (h : IsLabel label)
    (hname : name.count '.' = k) : (label ++ name).count '.' = k := by
  rw [List.count_append, List.count_eq_zero.2 h.1, hname, Nat.zero_add]

theorem count_dot_decimal (v : Nat) : (decimal v).count '.' = 0 :=
  List.count_eq_zero.2 fun h => (decimal_ascii h).2 rfl

theorem fits_operational {ad : OperationalAdvert} (h : IsLabel ad.hostname) :
    (operationalRecords ad).Fits where
  owner_dots := by
    show ∀ o ∈ ["_matter._tcp.local".toList], o.count '.' = 2 ∨ o.count '.' = 4
    decide
  instance_dots := count_label_append (isLabel_operationalInstance _ _) (by decide)
  host_dots := count_label_append h (by decide)
  instanceFull := wireName_append (isLabel_operationalInstance _ _) (by decide)
  hostFull := wireName_append h (by decide)
  instance_size := size_label_le (isLabel_operationalInstance _ _) (by decide)
  host_size := size_label_le h (by decide)
  txt := by
    show ∀ x ∈ ["SII=300".toList, "SAI=300".toList], Utf8.size x ≤ 255
    decide
  txt_length := by
    show 2 ≤ 5
    decide

theorem fits_commissionable {ad : CommissionableAdvert} (hinstance : IsLabel ad.instanceName)
    (hhost : IsLabel ad.hostname) : (commissionableRecords ad).Fits where
  owner_dots := by
    intro o ho
    simp only [commissionableRecords, List.mem_cons, List.not_mem_nil, or_false] at ho
    rcases ho with rfl | rfl | rfl
    · exact Or.inl (by decide)
    · rw [List.count_append, List.count_append, count_dot_decimal]
      exact Or.inr (by decide)
    · rw [List.count_append, List.count_append, count_dot_decimal]
      exact Or.inr (by decide)
  instance_dots := count_label_append hinstance (by decide)
  host_dots := count_label_append hhost (by decide)
  instanceFull := wireName_append hinstance (by decide)
  hostFull := wireName_append hhost (by decide)
  instance_size := size_label_le hinstance (by decide)
  host_size := size_label_le hhost (by decide)
  txt := by
    have hd := size_decimal_le ad.discriminator.toNat_lt
    have hv := size_decimal_le ad.vendorId.toNat_lt
    have hp := size_decimal_le ad.productId.toNat_lt
    have hc := size_decimal_le (Nat.lt_trans ad.cm.toNat_lt (by decide))
    have hplus : Utf8.size ('+' :: decimal ad.productId.toNat) =
        1 + Utf8.size (decimal ad.productId.toNat) := Utf8.size_cons
    intro x hx
    simp only [commissionableRecords, List.mem_cons, List.not_mem_nil, or_false] at hx
    rcases hx with rfl | rfl | rfl | rfl | rfl
    · rw [Utf8.size_append, show Utf8.size "D=".toList = 2 by decide]
      omega
    · rw [Utf8.size_append, Utf8.size_append, hplus, show Utf8.size "VP=".toList = 3 by decide]
      omega
    · rw [Utf8.size_append, show Utf8.size "CM=".toList = 3 by decide]
      omega
    · decide
    · decide
  txt_length := by
    show 5 ≤ 5
    decide

/-! ## Messages that are read -/

section
variable {q : Name} {ttl : UInt32} {answers additionals : List Rr}

theorem length_pushName_le (h : WireName q) (hsize : Utf8.size q ≤ 1000) :
    (pushName q).length ≤ 1002 := by
  rw [pushName_eq h, length_pushName]
  omega

theorem ServiceRecords.Fits.srv (h : s.Fits) : (s.srvRr ttl).Fits := by
  have hlen := length_pushName_le h.hostFull h.host_size
  refine ⟨h.instanceFull, ?_, h.hostFull⟩
  show (be16Bytes 0 ++ be16Bytes 0 ++ be16Bytes s.port ++ pushName s.hostFull).length < 65536
  simp only [List.length_append, be16Bytes, length_bigEndian]
  omega

theorem ServiceRecords.Fits.txtRr (h : s.Fits) : (s.txtRr ttl).Fits := by
  have hsum : ∀ strings : List (List Char),
      (strings.flatMap pushString).length ≤ 256 * strings.length := by
    intro strings
    induction strings with
    | nil => exact Nat.le_refl 0
    | cons x strings ih =>
      rw [List.flatMap_cons, List.length_append, List.length_cons, pushString, List.length_cons,
        List.length_take]
      omega
  have hlen := hsum s.txt
  have hcount := h.txt_length
  refine ⟨h.instanceFull, ?_, h.txt⟩
  show (s.txt.flatMap pushString).length < 65536
  omega

theorem ServiceRecords.Fits.aaaa (h : s.Fits) : (s.aaaaRr ttl).Fits := by
  refine ⟨h.hostFull, ?_, trivial⟩
  show s.addrV6.1.length < 65536
  rw [s.addrV6.2]
  decide

theorem ServiceRecords.Fits.ptr (h : s.Fits) (hq : WireName q) :
    (Rr.ptr q s.instanceFull ttl).Fits := by
  refine ⟨hq, ?_, h.instanceFull⟩
  have hlen := length_pushName_le h.instanceFull h.instance_size
  show (pushName s.instanceFull).length < 65536
  omega

/-- **What a service answers is read** as the records of the answer. -/
theorem parseMessage_answer (h : s.Fits) (hq : WireName q) (ha : s.answer q = some (answers, additionals)) :
    parseMessage (encodeMessage answers additionals true) =
      .ok ((answers ++ additionals).map (·.record false)) := by
  have hfits : (∀ rr ∈ answers ++ additionals, rr.Fits) ∧ answers.length + additionals.length < 65536 := by
    unfold ServiceRecords.answer at ha
    dsimp only at ha
    split at ha
    · cases ha
      refine ⟨?_, by simp only [List.length_cons, List.length_nil]; omega⟩
      simp [h.ptr hq, h.srv, h.txtRr, h.aaaa]
    split at ha
    · cases ha
      refine ⟨?_, by simp only [List.length_cons, List.length_nil]; omega⟩
      simp [h.srv, h.txtRr, h.aaaa]
    split at ha
    · cases ha
      refine ⟨?_, by simp only [List.length_cons, List.length_nil]; omega⟩
      simp [h.aaaa]
    · cases ha
  rw [parseMessage_encodeMessage hfits.1 hfits.2]
  rfl

/-! ## Who answers -/

theorem dots_of_eqIgnoreAsciiCase {m : Name} (h : eqIgnoreAsciiCase q m = true) :
    q.count '.' = m.count '.' := by
  rw [← count_dot_lower q, ← count_dot_lower m, eqIgnoreAsciiCase_iff.1 h]

/-- A name with three dots is answered by its instance. -/
theorem answer_of_three_dots (h : s.Fits) (hq : q.count '.' = 3) :
    s.answer q = if eqIgnoreAsciiCase q s.instanceFull then
      some ([s.srvRr hostTtl, s.txtRr ptrTxtTtl], [s.aaaaRr hostTtl]) else none := by
  have howner : ¬ s.ptrOwners.any (eqIgnoreAsciiCase q) = true := by
    intro hany
    obtain ⟨o, ho, he⟩ := List.any_eq_true.1 hany
    have hdots := dots_of_eqIgnoreAsciiCase he
    have := h.owner_dots o ho
    omega
  have hhost : ¬ eqIgnoreAsciiCase q s.hostFull = true := by
    intro he
    have hdots := dots_of_eqIgnoreAsciiCase he
    have := h.host_dots
    omega
  unfold ServiceRecords.answer
  dsimp only
  rw [if_neg howner, if_neg hhost]

/-- A name with one dot is answered by its host. -/
theorem answer_of_one_dot (h : s.Fits) (hq : q.count '.' = 1) :
    s.answer q = if eqIgnoreAsciiCase q s.hostFull then some ([s.aaaaRr hostTtl], []) else none := by
  have howner : ¬ s.ptrOwners.any (eqIgnoreAsciiCase q) = true := by
    intro hany
    obtain ⟨o, ho, he⟩ := List.any_eq_true.1 hany
    have hdots := dots_of_eqIgnoreAsciiCase he
    have := h.owner_dots o ho
    omega
  have hinstance : ¬ eqIgnoreAsciiCase q s.instanceFull = true := by
    intro he
    have hdots := dots_of_eqIgnoreAsciiCase he
    have := h.instance_dots
    omega
  unfold ServiceRecords.answer
  dsimp only
  rw [if_neg howner, if_neg hinstance]

/-- A name with four dots is answered by the owner of a pointer. -/
theorem answer_of_four_dots (h : s.Fits) (hq : q.count '.' = 4) :
    s.answer q = if s.ptrOwners.any (eqIgnoreAsciiCase q) then
      some ([.ptr q s.instanceFull ptrTxtTtl],
        [s.srvRr hostTtl, s.txtRr ptrTxtTtl, s.aaaaRr hostTtl]) else none := by
  have hinstance : ¬ eqIgnoreAsciiCase q s.instanceFull = true := by
    intro he
    have hdots := dots_of_eqIgnoreAsciiCase he
    have := h.instance_dots
    omega
  have hhost : ¬ eqIgnoreAsciiCase q s.hostFull = true := by
    intro he
    have hdots := dots_of_eqIgnoreAsciiCase he
    have := h.host_dots
    omega
  unfold ServiceRecords.answer
  dsimp only
  rw [if_neg hinstance, if_neg hhost]

end

end

/-! ## The adverts of a device -/

/-- Instances and hosts are labels, and adverts on one host have its address. -/
structure MdnsAdvertiser.WellFormed (a : MdnsAdvertiser) : Prop where
  commissionable : ∀ ad ∈ a.commissionable, IsLabel ad.instanceName ∧ IsLabel ad.hostname
  operational : ∀ ad ∈ a.operational, IsLabel ad.hostname
  host_addr : ∀ s ∈ a.services, ∀ t ∈ a.services,
    eqIgnoreAsciiCase s.hostFull t.hostFull → s.addrV6 = t.addrV6

section
variable {a : MdnsAdvertiser} {s : ServiceRecords} {q : Name} {qtype : UInt16}

theorem MdnsAdvertiser.WellFormed.fits (h : a.WellFormed) (hs : s ∈ a.services) : s.Fits := by
  rcases List.mem_append.1 hs with hs | hs
  · obtain ⟨ad, had, rfl⟩ := Option.mem_map.1 (Option.mem_toList.1 hs)
    obtain ⟨hinstance, hhost⟩ := h.commissionable ad had
    exact fits_commissionable hinstance hhost
  · obtain ⟨ad, had, rfl⟩ := List.mem_map.1 hs
    exact fits_operational (h.operational ad had)

/-- Each service answers for itself. -/
theorem MdnsAdvertiser.respond_eq (a : MdnsAdvertiser) (q : Name) (qu : Bool) :
    a.respond q qu = a.services.filterMap (·.respond q qu) := by
  obtain ⟨commissionable, operational⟩ := a
  rw [respond, MdnsAdvertiser.services, Mdns.services, List.filterMap_append, List.filterMap_map]
  cases commissionable with
  | none => rfl
  | some ad =>
    show (encodeCommissionableResponse q ad qu).toList ++ _ =
      [commissionableRecords ad].filterMap (·.respond q qu) ++ _
    rw [List.filterMap_cons, encodeCommissionableResponse]
    cases (commissionableRecords ad).respond q qu with
    | none => rfl
    | some msg => rfl

/-- A name is answered once, however often it is asked for in a message. -/
theorem serve_pair (hq : WireName q) :
    a.serve (encodeQuery 0 [(q, typeSrv), (q, typeTxt)]) = (a.respond q true).map (true, ·) := by
  have hsame : eqIgnoreAsciiCase q q = true := eqIgnoreAsciiCase_iff.2 rfl
  have hnames : ∀ x ∈ [(q, typeSrv), (q, typeTxt)], WireName x.1 := by simp [hq]
  rw [MdnsAdvertiser.serve,
    parseQuestions_encodeQuery hnames (by simp only [List.length_cons, List.length_nil]; omega)]
  simp [MdnsAdvertiser.answer, hsame]

theorem serve_single (hq : WireName q) :
    a.serve (encodeQuery 0 [(q, qtype)]) = (a.respond q true).map (true, ·) := by
  have hnames : ∀ x ∈ [(q, qtype)], WireName x.1 := by simp [hq]
  rw [MdnsAdvertiser.serve,
    parseQuestions_encodeQuery hnames (by simp only [List.length_cons, List.length_nil]; omega)]
  simp [MdnsAdvertiser.answer]

/-- The answers to a name, as the controller reads them. -/
def MdnsAdvertiser.heard (a : MdnsAdvertiser) (q : Name) : List (List Record) :=
  (a.services.filterMap (·.answer q)).map fun (answers, additionals) =>
    (answers ++ additionals).map (·.record false)

/-- **Every answer is read.** -/
theorem mapM_respond (ha : a.WellFormed) (hq : WireName q) :
    ((a.respond q true).map (true, ·)).mapM (fun x => parseMessage x.2) = .ok (a.heard q) := by
  have hfits : ∀ s ∈ a.services, s.Fits := fun s hs => ha.fits hs
  rw [MdnsAdvertiser.respond_eq, MdnsAdvertiser.heard]
  generalize a.services = ss at hfits
  induction ss with
  | nil => rfl
  | cons s ss ih =>
    have hih := ih fun t ht => hfits t (List.mem_cons_of_mem _ ht)
    rw [List.filterMap_cons, List.filterMap_cons, ServiceRecords.respond]
    cases hanswer : s.answer q with
    | none => exact hih
    | some x =>
      obtain ⟨answers, additionals⟩ := x
      rw [Option.map_some, List.map_cons, List.mapM_cons,
        parseMessage_answer (hfits s List.mem_cons_self) hq hanswer, hih]
      rfl

end

/-! ## What the controller makes of it -/

section
variable {ad : OperationalAdvert} {compressedFabricId nodeId : UInt64} {s : ServiceRecords} {q : Name}
  {ds : List (List Record)} {target name : Name} {addr : Ipv6Addr} {query : OperationalQuery}

theorem addressesForTarget_singleton (h : name.lower = target.lower) :
    addressesForTarget [(name, addr)] target = [addr] := by
  have he : eqIgnoreAsciiCase name target = true := eqIgnoreAsciiCase_iff.2 h
  simp [addressesForTarget, he]

theorem pushAaaa_nil (h : name.lower = target.lower) :
    pushAaaa [] (some target) name addr = [(name, addr)] := by
  have he : eqIgnoreAsciiCase name target = true := eqIgnoreAsciiCase_iff.2 h
  simp [pushAaaa, he, maxAaaa]

/-- A service record and one address of its target make a node. -/
theorem tryFinish_of_srv {port : UInt16} (hresolved : query.resolved = none)
    (hsrv : query.srv = some (port, target)) (haaaa : query.aaaa = [(name, addr)])
    (h : name.lower = target.lower) :
    query.tryFinish = { query with resolved := some (.fromParts port [addr] (query.txt.getD [])) } := by
  rw [OperationalQuery.tryFinish, if_neg (by rw [hresolved]; decide), hsrv]
  dsimp only
  rw [haaaa, addressesForTarget_singleton h, List.isEmpty_cons, if_neg Bool.false_ne_true]

/-- Once all queries are resolved, no datagram is read. -/
theorem resolveQueries_of_all {queries : List OperationalQuery}
    (h : queries.all (·.resolved.isSome) = true) : resolveQueries queries ds = queries := by
  cases ds with
  | nil => rfl
  | cons d ds => rw [resolveQueries, if_pos h]

/-- The records of an answer to the name of a node. -/
def nodeRecords (s : ServiceRecords) : List Record :=
  [(s.srvRr hostTtl).record false, (s.txtRr ptrTxtTtl).record false, (s.aaaaRr hostTtl).record false]

/-- One answer, heard by a query for its node. -/
theorem foldl_nodeRecords (hs : s.instanceFull = query.service) :
    (nodeRecords s).foldl OperationalQuery.hearOne query =
      { query with
        srv := some (s.port, s.hostFull)
        txt := some (s.txt.map Utf8.encode)
        aaaa := pushAaaa (pruneAaaa query.aaaa s.hostFull) (some s.hostFull) s.hostFull s.addrV6 } := by
  have hname : eqIgnoreAsciiCase s.instanceFull query.service = true :=
    eqIgnoreAsciiCase_iff.2 (by rw [hs])
  simp [nodeRecords, Rr.record, ServiceRecords.srvRr, ServiceRecords.txtRr, ServiceRecords.aaaaRr,
    Rr.owner, OperationalQuery.hearOne, OperationalQuery.takeSrv, OperationalQuery.takeTxt, hname]

theorem intervals_operational :
    txtU32 (["SII=300".toList, "SAI=300".toList].map Utf8.encode) "SII".toList = some 300 ∧
      txtU32 (["SII=300".toList, "SAI=300".toList].map Utf8.encode) "SAI".toList = some 300 := by
  decide

/-- **One answer resolves the node.** -/
theorem resolveOperational_cons (h : ad.isOf compressedFabricId nodeId = true) :
    resolveOperational compressedFabricId nodeId (nodeRecords (operationalRecords ad) :: ds) =
      some ⟨ad.port, [ad.addrV6], some 300, some 300⟩ := by
  have hservice : (operationalRecords ad).instanceFull =
      (OperationalQuery.new compressedFabricId nodeId).service := by
    simp only [OperationalAdvert.isOf, Bool.and_eq_true, beq_iff_eq] at h
    rw [operationalRecords, OperationalQuery.new, h.1, h.2]
  have hnew : (OperationalQuery.new compressedFabricId nodeId).resolved = none := rfl
  have hfold := foldl_nodeRecords hservice
  set heard := (nodeRecords (operationalRecords ad)).foldl OperationalQuery.hearOne
    (OperationalQuery.new compressedFabricId nodeId)
  have hresolved : heard.resolved = none := by rw [hfold]; rfl
  have hsrv : heard.srv = some (ad.port, (operationalRecords ad).hostFull) := by rw [hfold]; rfl
  have haaaa : heard.aaaa = [((operationalRecords ad).hostFull, ad.addrV6)] := by
    rw [hfold]
    exact pushAaaa_nil rfl
  have htxt : heard.txt = some (["SII=300".toList, "SAI=300".toList].map Utf8.encode) := by
    rw [hfold]
    rfl
  have hfinish : heard.tryFinish.resolved = some ⟨ad.port, [ad.addrV6], some 300, some 300⟩ := by
    rw [tryFinish_of_srv hresolved hsrv haaaa rfl, htxt]
    obtain ⟨hsii, hsai⟩ := intervals_operational
    exact congrArg some (congrArg₂ (ResolvedNode.mk ad.port [ad.addrV6]) hsii hsai)
  rw [resolveOperational, resolveOperationalMany, List.map_singleton, resolveQueries,
    if_neg (by rw [List.all_cons, hnew]; decide), hearDatagram, foldl_hear_singleton hnew,
    List.map_singleton, resolveQueries_of_all (by rw [List.all_cons, hfinish]; rfl)]
  exact hfinish

theorem filterMap_ite {α β : Type} (p : α → Bool) (f : α → β) (l : List α) :
    (l.filterMap fun x => if p x then some (f x) else none) = (l.filter p).map f := by
  induction l with
  | nil => rfl
  | cons x l ih =>
    rw [List.filterMap_cons, List.filter_cons, ih]
    cases p x with
    | false => rfl
    | true => rfl

/-- **The name of a node is answered by its adverts.** -/
theorem heard_of_operational {a : MdnsAdvertiser} (ha : a.WellFormed)
    (hq : q.lower = (operationalInstance compressedFabricId nodeId ++ operationalSuffix).lower) :
    a.heard q = (a.operational.filter (·.isOf compressedFabricId nodeId)).map fun ad =>
      nodeRecords (operationalRecords ad) := by
  have hdots : q.count '.' = 3 := by
    rw [← count_dot_lower q, hq, count_dot_lower]
    exact count_label_append (isLabel_operationalInstance _ _) (by decide)
  have hcomm : ∀ ad ∈ a.commissionable, (commissionableRecords ad).answer q = none := by
    intro ad had
    obtain ⟨hinstance, hhost⟩ := ha.commissionable ad had
    rw [answer_of_three_dots (fits_commissionable hinstance hhost) hdots, if_neg]
    rw [eqIgnoreAsciiCase_iff, hq]
    exact fun he => commissionable_ne_operational he.symm
  have hop : ∀ ad ∈ a.operational, (operationalRecords ad).answer q =
      if ad.isOf compressedFabricId nodeId then
        some ([(operationalRecords ad).srvRr hostTtl, (operationalRecords ad).txtRr ptrTxtTtl],
          [(operationalRecords ad).aaaaRr hostTtl]) else none := by
    intro ad had
    rw [answer_of_three_dots (fits_operational (ha.operational ad had)) hdots]
    have hiff : eqIgnoreAsciiCase q (operationalRecords ad).instanceFull =
        ad.isOf compressedFabricId nodeId := by
      rw [Bool.eq_iff_iff, eqIgnoreAsciiCase_iff, hq, ← instanceFull_eq_iff, eq_comm]
    rw [hiff]
  have hfirst : a.commissionable.toList.filterMap (fun ad => (commissionableRecords ad).answer q) = [] :=
    List.filterMap_eq_nil_iff.2 fun ad had => hcomm ad (Option.mem_toList.1 had)
  rw [MdnsAdvertiser.heard, MdnsAdvertiser.services, Mdns.services, Option.toList_map,
    List.filterMap_append, List.filterMap_map, List.filterMap_map]
  simp only [Function.comp_def]
  rw [hfirst, List.nil_append, List.filterMap_congr hop, filterMap_ite, List.map_map]
  rfl

/-- **The name of a host is answered by the adverts on it.** -/
theorem heard_of_host {a : MdnsAdvertiser} (ha : a.WellFormed) (hq : q.count '.' = 1) :
    a.heard q = (a.services.filter fun s => eqIgnoreAsciiCase q s.hostFull).map fun s =>
      [(s.aaaaRr hostTtl).record false] := by
  have hanswer : ∀ s ∈ a.services, s.answer q =
      if eqIgnoreAsciiCase q s.hostFull then some ([s.aaaaRr hostTtl], []) else none :=
    fun s hs => answer_of_one_dot (ha.fits hs) hq
  rw [MdnsAdvertiser.heard, List.filterMap_congr hanswer, filterMap_ite, List.map_map]
  rfl

/-- **One address completes the node** whose service record is known. -/
theorem resolved_of_host {a : MdnsAdvertiser} (ha : a.WellFormed) (hs : s ∈ a.services)
    (hq : q.lower = s.hostFull.lower) {port : UInt16} (hresolved : query.resolved = none)
    (hsrv : query.srv = some (port, s.hostFull)) (haaaa : query.aaaa = []) :
    (resolveQueries [query] (a.heard q)).map (·.resolved) =
      [some (.fromParts port [s.addrV6] (query.txt.getD []))] := by
  have hdots : q.count '.' = 1 := by
    rw [← count_dot_lower q, hq, count_dot_lower]
    exact (ha.fits hs).host_dots
  have hmem : s ∈ a.services.filter fun t => eqIgnoreAsciiCase q t.hostFull :=
    List.mem_filter.2 ⟨hs, eqIgnoreAsciiCase_iff.2 hq⟩
  rw [heard_of_host ha hdots]
  -- whichever advert on the host answers first, its address is that of the host
  cases hfirst : a.services.filter fun t => eqIgnoreAsciiCase q t.hostFull with
  | nil =>
    rw [hfirst] at hmem
    cases hmem
  | cons t ts =>
    have ht : t ∈ a.services ∧ eqIgnoreAsciiCase q t.hostFull = true :=
      List.mem_filter.1 (hfirst ▸ List.mem_cons_self)
    have hhost : t.hostFull.lower = s.hostFull.lower := by
      rw [← hq, eqIgnoreAsciiCase_iff.1 ht.2]
    have haddr : t.addrV6 = s.addrV6 :=
      ha.host_addr t ht.1 s hs (eqIgnoreAsciiCase_iff.2 hhost)
    have hheard : [(t.aaaaRr hostTtl).record false].foldl OperationalQuery.hearOne query =
        { query with aaaa := [(t.hostFull, s.addrV6)] } := by
      show { query with aaaa := pushAaaa query.aaaa (query.srv.map Prod.snd) t.hostFull t.addrV6 } = _
      rw [hsrv, haaaa, Option.map_some, pushAaaa_nil hhost, haddr]
    have hfinish : (OperationalQuery.tryFinish { query with aaaa := [(t.hostFull, s.addrV6)] }) = _ :=
      tryFinish_of_srv hresolved hsrv rfl hhost
    rw [List.map_cons, resolveQueries, if_neg (by rw [List.all_cons, hresolved]; decide),
      hearDatagram, foldl_hear_singleton hresolved, hheard, List.map_singleton, hfinish,
      resolveQueries_of_all (by rfl)]
    rfl

/-! ## Commissionable nodes -/

/-- Small letters of a decimal numeral are its digits. -/
theorem lower_decimal (n : Nat) : Name.lower (decimal n) = decimal n := by
  have hall : ∀ k < 10, k.digitChar.toLower = k.digitChar := by decide
  refine (List.map_congr_left fun c hc => ?_).trans (List.map_id _)
  obtain ⟨k, hk, rfl⟩ := Numeral.exists_of_mem_toDigits (by decide) hc
  exact hall k hk

theorem decimal_inj {n m : Nat} (h : decimal n = decimal m) : n = m := by
  have hv := congrArg (Numeral.value 10) h
  rwa [decimal, decimal, (Numeral.value_toDigits (by decide) (by decide) _).1,
    (Numeral.value_toDigits (by decide) (by decide) _).1] at hv

theorem wireName_longDiscriminatorSubtype (d : UInt16) : WireName (longDiscriminatorSubtype d) := by
  have hascii : ∀ c ∈ "_L".toList ++ decimal d.toNat, c.toNat < 0x80 ∧ c ≠ '.' := by
    intro c hc
    rcases List.mem_append.1 hc with hc | hc
    · rw [show "_L".toList = ['_', 'L'] from rfl, List.mem_cons, List.mem_singleton] at hc
      rcases hc with rfl | rfl <;> decide
    · exact decimal_ascii hc
  have hsize : Utf8.size ("_L".toList ++ decimal d.toNat) = 2 + (decimal d.toNat).length := by
    rw [size_of_ascii fun c hc => (hascii c hc).1, List.length_append]
    rfl
  have hlen := length_decimal_le d.toNat_lt
  have hlabel : IsLabel ("_L".toList ++ decimal d.toNat) :=
    ⟨fun h => (hascii '.' h).2 rfl, by omega, by omega⟩
  exact wireName_append hlabel (n := "_sub._matterc._udp.local".toList) (by decide)

/-- The subtype of a discriminator is owned by adverts of that discriminator. -/
theorem any_ptrOwners_iff {ad : CommissionableAdvert} {d : UInt16}
    (hq : q.lower = (longDiscriminatorSubtype d).lower) :
    (commissionableRecords ad).ptrOwners.any (eqIgnoreAsciiCase q) = true ↔ ad.discriminator = d := by
  have hdots : q.count '.' = 4 := by
    rw [← count_dot_lower q, hq, count_dot_lower, longDiscriminatorSubtype, List.count_append,
      List.count_append]
    show _ + (decimal d.toNat).count '.' + _ = 4
    rw [count_dot_decimal]
    decide
  have hbase : ¬ eqIgnoreAsciiCase q "_matterc._udp.local".toList = true := by
    intro he
    have h := dots_of_eqIgnoreAsciiCase he
    rw [hdots] at h
    revert h
    decide
  have hshort : ∀ rest : Name, ¬ eqIgnoreAsciiCase q ('_' :: 'S' :: rest) = true := by
    intro rest he
    rw [eqIgnoreAsciiCase_iff, hq] at he
    have htail := (List.cons.inj he).2
    have hhead : 'L'.toLower = 'S'.toLower := (List.cons.inj htail).1
    revert hhead
    decide
  have hlong : eqIgnoreAsciiCase q ("_L".toList ++ decimal ad.discriminator.toNat ++
      "._sub._matterc._udp.local".toList) = true ↔ ad.discriminator = d := by
    rw [eqIgnoreAsciiCase_iff, hq]
    constructor
    · intro he
      rw [longDiscriminatorSubtype, lower_append, lower_append, lower_append, lower_append] at he
      have hlower : Name.lower (decimal d.toNat) = Name.lower (decimal ad.discriminator.toNat) :=
        List.append_cancel_left (List.append_cancel_right he)
      rw [lower_decimal, lower_decimal] at hlower
      exact (UInt16.toNat_inj.1 (decimal_inj hlower)).symm
    · rintro rfl
      rfl
  rw [List.any_eq_true]
  constructor
  · rintro ⟨o, ho, he⟩
    simp only [commissionableRecords, List.mem_cons, List.not_mem_nil, or_false] at ho
    rcases ho with rfl | rfl | rfl
    · exact (hbase he).elim
    · exact hlong.1 he
    · exact (hshort _ he).elim
  · intro hd
    exact ⟨_, List.mem_cons_of_mem _ List.mem_cons_self, hlong.2 hd⟩

/-- The records of an answer to a subtype. -/
def subtypeRecords (q : Name) (s : ServiceRecords) : List Record :=
  (Rr.ptr q s.instanceFull ptrTxtTtl).record false :: nodeRecords s

/-- **The subtype of a discriminator is answered by the advert of that discriminator.** -/
theorem heard_of_subtype {a : MdnsAdvertiser} (ha : a.WellFormed) {d : UInt16}
    (hq : q.lower = (longDiscriminatorSubtype d).lower) :
    a.heard q = (a.commissionable.toList.filter fun ad => ad.discriminator == d).map fun ad =>
      subtypeRecords q (commissionableRecords ad) := by
  have hdots : q.count '.' = 4 := by
    rw [← count_dot_lower q, hq, count_dot_lower, longDiscriminatorSubtype, List.count_append,
      List.count_append]
    show _ + (decimal d.toNat).count '.' + _ = 4
    rw [count_dot_decimal]
    decide
  have hcomm : ∀ ad ∈ a.commissionable.toList, (commissionableRecords ad).answer q =
      if ad.discriminator == d then
        some ([.ptr q (commissionableRecords ad).instanceFull ptrTxtTtl],
          [(commissionableRecords ad).srvRr hostTtl, (commissionableRecords ad).txtRr ptrTxtTtl,
            (commissionableRecords ad).aaaaRr hostTtl]) else none := by
    intro ad had
    obtain ⟨hinstance, hhost⟩ := ha.commissionable ad (Option.mem_toList.1 had)
    have hiff : (commissionableRecords ad).ptrOwners.any (eqIgnoreAsciiCase q) =
        (ad.discriminator == d) := by
      rw [Bool.eq_iff_iff, any_ptrOwners_iff hq, beq_iff_eq]
    rw [answer_of_four_dots (fits_commissionable hinstance hhost) hdots, hiff]
  have hop : ∀ ad ∈ a.operational, (operationalRecords ad).answer q = none := by
    intro ad had
    rw [answer_of_four_dots (fits_operational (ha.operational ad had)) hdots, if_neg]
    intro hany
    obtain ⟨o, ho, he⟩ := List.any_eq_true.1 hany
    have hbase := dots_of_eqIgnoreAsciiCase he
    rw [hdots, List.mem_singleton.1 ho] at hbase
    revert hbase
    decide
  have hlast : a.operational.filterMap (fun ad => (operationalRecords ad).answer q) = [] :=
    List.filterMap_eq_nil_iff.2 hop
  rw [MdnsAdvertiser.heard, MdnsAdvertiser.services, Mdns.services, Option.toList_map,
    List.filterMap_append, List.filterMap_map, List.filterMap_map]
  simp only [Function.comp_def]
  rw [hlast, List.append_nil, List.filterMap_congr hcomm, filterMap_ite, List.map_map]
  rfl

/-- The value of a string, if it is for the key. -/
def valueFor (key s : List Char) : Option (List Char) :=
  (splitOnceEq s).bind fun x => if eqIgnoreAsciiCase x.1 key then some x.2 else none

/-- Text is looked up in the strings that were written. -/
theorem txtStr_encode (strings : List (List Char)) (key : List Char) :
    txtStr (strings.map Utf8.encode) key = strings.findSome? (valueFor key) := by
  rw [txtStr, List.findSome?_map]
  congr 1
  funext s
  rw [Function.comp_apply, Utf8.decode?_encode, Option.bind_some, valueFor]
  cases splitOnceEq s with
  | none => rfl
  | some x => rfl

/-- The discriminator and the intervals of a commissionable advert are found in its text. -/
theorem txtU32_commissionable (ad : CommissionableAdvert) :
    txtU32 ((commissionableRecords ad).txt.map Utf8.encode) "D".toList =
        some ad.discriminator.toUInt32 ∧
      txtU32 ((commissionableRecords ad).txt.map Utf8.encode) "SII".toList = some 300 ∧
      txtU32 ((commissionableRecords ad).txt.map Utf8.encode) "SAI".toList = some 300 := by
  have hsplit : ∀ key, (commissionableRecords ad).txt.findSome? (valueFor key) =
      [("D".toList, decimal ad.discriminator.toNat),
        ("VP".toList, decimal ad.vendorId.toNat ++ '+' :: decimal ad.productId.toNat),
        ("CM".toList, decimal ad.cm.toNat), ("SII".toList, "300".toList),
        ("SAI".toList, "300".toList)].findSome? fun x =>
          if eqIgnoreAsciiCase x.1 key then some x.2 else none := by
    intro key
    rfl
  have hvalue : ad.discriminator.toNat < 2 ^ 32 := Nat.lt_trans ad.discriminator.toNat_lt (by decide)
  rw [txtU32, txtU32, txtU32, txtStr_encode, txtStr_encode, txtStr_encode, hsplit, hsplit, hsplit]
  refine ⟨?_, ?_, ?_⟩
  · show (Text.parseUnsigned 32 (decimal ad.discriminator.toNat)).map UInt32.ofNat = _
    rw [decimal, Text.parseUnsigned_toDigits hvalue, Option.map_some, Option.some_inj,
      ← UInt32.toNat_inj, UInt32.toNat_ofNat', UInt16.toNat_toUInt32, Nat.mod_eq_of_lt hvalue]
  · show (Text.parseUnsigned 32 "300".toList).map UInt32.ofNat = _
    decide
  · show (Text.parseUnsigned 32 "300".toList).map UInt32.ofNat = _
    decide

/-- **One answer resolves a commissionable node.** -/
theorem commissionableFromRecords_subtype {ad : CommissionableAdvert}
    (hq : q.lower = (longDiscriminatorSubtype ad.discriminator).lower) :
    commissionableFromRecords (subtypeRecords q (commissionableRecords ad)) ad.discriminator =
      some ⟨ad.port, [ad.addrV6], some 300, some 300⟩ := by
  have hsubtype : eqIgnoreAsciiCase q (longDiscriminatorSubtype ad.discriminator) = true :=
    eqIgnoreAsciiCase_iff.2 hq
  have hsame : ∀ n : Name, eqIgnoreAsciiCase n n = true := fun n => eqIgnoreAsciiCase_iff.2 rfl
  obtain ⟨hd, hsii, hsai⟩ := txtU32_commissionable ad
  have hptr : (subtypeRecords q (commissionableRecords ad)).findSome?
      (findPtr (longDiscriminatorSubtype ad.discriminator)) =
        some (commissionableRecords ad).instanceFull := by
    have hfind : findPtr (longDiscriminatorSubtype ad.discriminator)
        ((Rr.ptr q (commissionableRecords ad).instanceFull ptrTxtTtl).record false) =
          some (commissionableRecords ad).instanceFull := if_pos hsubtype
    rw [subtypeRecords, List.findSome?_cons, hfind]
  have hsrv : (subtypeRecords q (commissionableRecords ad)).findSome?
      (findSrv (commissionableRecords ad).instanceFull) =
        some (ad.port, (commissionableRecords ad).hostFull) := by
    have hfind : findSrv (commissionableRecords ad).instanceFull
        (((commissionableRecords ad).srvRr hostTtl).record false) =
          some (ad.port, (commissionableRecords ad).hostFull) := if_pos (hsame _)
    rw [subtypeRecords, nodeRecords, List.findSome?_cons, List.findSome?_cons, hfind]
    rfl
  have htxt : (subtypeRecords q (commissionableRecords ad)).findSome?
      (findTxt (commissionableRecords ad).instanceFull) =
        some ((commissionableRecords ad).txt.map Utf8.encode) := by
    have hfind : findTxt (commissionableRecords ad).instanceFull
        (((commissionableRecords ad).txtRr ptrTxtTtl).record false) =
          some ((commissionableRecords ad).txt.map Utf8.encode) := if_pos (hsame _)
    rw [subtypeRecords, nodeRecords, List.findSome?_cons, List.findSome?_cons, List.findSome?_cons,
      hfind]
    rfl
  have haaaa : (subtypeRecords q (commissionableRecords ad)).foldl
      (foldAaaa (some (commissionableRecords ad).hostFull)) [] =
        [((commissionableRecords ad).hostFull, ad.addrV6)] :=
    pushAaaa_nil rfl
  rw [commissionableFromRecords, hptr]
  simp only [bind, Option.bind]
  rw [hsrv]
  dsimp only
  rw [htxt]
  dsimp only
  rw [haaaa, buildCommissionable, if_neg (not_not.2 hd)]
  dsimp only
  rw [addressesForTarget_singleton rfl, List.isEmpty_cons, if_neg Bool.false_ne_true,
    ResolvedNode.fromParts, hsii, hsai]

/-- The resolver of commissionable nodes on the answers to a subtype. -/
theorem resolveCommissionable_respond {a : MdnsAdvertiser} (ha : a.WellFormed) {d : UInt16}
    (hname : WireName q) (hq : q.lower = (longDiscriminatorSubtype d).lower) :
    resolveCommissionable d (((a.respond q true).map (true, ·)).map (·.2)) =
      (a.commissionable.filter (·.discriminator == d)).map fun ad =>
        ⟨ad.port, [ad.addrV6], some 300, some 300⟩ := by
  have hread := Checked.forall₂_of_mapM (mapM_respond ha hname)
  rw [heard_of_subtype ha hq] at hread
  generalize (a.respond q true).map (true, ·) = replies at hread ⊢
  cases hcomm : a.commissionable with
  | none =>
    rw [hcomm] at hread
    cases hread
    rfl
  | some ad =>
    rw [hcomm, Option.toList_some, List.filter_singleton] at hread
    rw [Option.filter_some]
    cases hd : ad.discriminator == d with
    | false =>
      rw [hd] at hread
      cases hread
      rfl
    | true =>
      rw [hd] at hread
      obtain rfl := eq_of_beq hd
      cases hread with
      | cons hparse hrest =>
        cases hrest
        rw [List.map_cons, resolveCommissionable, resolveCommissionableFrom,
          commissionableFromResponse, hparse]
        dsimp only
        rw [commissionableFromRecords_subtype hq]
        rfl

end

/-- **What is asked for is found**, in any letter case: a query for the service and text of a node
is answered by messages that are all read, and resolve to the port, the address and the intervals of
the advert of that node, or to nothing if there is none; a query for a host gives a node whose
service record is known the address of that host; and a query for a discriminator resolves to the
advert that has it, or to nothing. -/
theorem discovered {a : MdnsAdvertiser} (ha : a.WellFormed) :
    (∀ (compressedFabricId nodeId : UInt64) (q : Name),
      q.lower = (operationalInstance compressedFabricId nodeId ++ operationalSuffix).lower →
      ∃ ds, (a.serve (encodeQuery 0 [(q, typeSrv), (q, typeTxt)])).mapM (fun x => parseMessage x.2) =
          .ok ds ∧
        resolveOperational compressedFabricId nodeId ds =
          (a.operational.find? (·.isOf compressedFabricId nodeId)).map fun ad =>
            ⟨ad.port, [ad.addrV6], some 300, some 300⟩) ∧
    (∀ s ∈ a.services, ∀ q : Name, q.lower = s.hostFull.lower →
      ∃ ds, (a.serve (encodeQuery 0 [(q, typeAaaa)])).mapM (fun x => parseMessage x.2) = .ok ds ∧
        ∀ query : OperationalQuery, query.resolved = none → query.srv = some (s.port, s.hostFull) →
          query.aaaa = [] →
          (resolveQueries [query] ds).map (·.resolved) =
            [some (.fromParts s.port [s.addrV6] (query.txt.getD []))]) ∧
    ∀ (d : UInt16) (q : Name), q.lower = (longDiscriminatorSubtype d).lower →
      resolveCommissionable d ((a.serve (encodeQuery 0 [(q, typePtr)])).map (·.2)) =
        (a.commissionable.filter (·.discriminator == d)).map fun ad =>
          ⟨ad.port, [ad.addrV6], some 300, some 300⟩ := by
  refine ⟨?_, ?_, ?_⟩
  · intro compressedFabricId nodeId q hq
    have hname : WireName q := .of_lower hq
      (wireName_append (isLabel_operationalInstance _ _) (by decide))
    rw [serve_pair hname]
    refine ⟨_, mapM_respond ha hname, ?_⟩
    rw [heard_of_operational ha hq, ← List.head?_filter]
    cases hads : a.operational.filter (·.isOf compressedFabricId nodeId) with
    | nil => rfl
    | cons ad ads =>
      have had : ad ∈ a.operational.filter (·.isOf compressedFabricId nodeId) := by
        rw [hads]
        exact List.mem_cons_self
      exact resolveOperational_cons (List.mem_filter.1 had).2
  · intro s hs q hq
    have hname : WireName q := .of_lower hq (ha.fits hs).hostFull
    rw [serve_single hname]
    exact ⟨_, mapM_respond ha hname, fun query hresolved hsrv haaaa =>
      resolved_of_host ha hs hq hresolved hsrv haaaa⟩
  · intro d q hq
    have hname : WireName q := .of_lower hq (wireName_longDiscriminatorSubtype d)
    rw [serve_single hname]
    exact resolveCommissionable_respond ha hname hq

/-! ## A device in a window, on one fabric -/

def sampleDevice : MdnsAdvertiser :=
  ⟨some (sampleWindow "0123456789ABCDEF" 1), [sampleFabric 0xAB7DE08802E0CD54]⟩

theorem discovered_sample :
    (∃ ds, (sampleDevice.serve (encodeQuery 0
        [("ab7de08802e0cd54-0000000000000001._MATTER._TCP.local".toList, typeSrv),
          ("ab7de08802e0cd54-0000000000000001._MATTER._TCP.local".toList, typeTxt)])).mapM
          (fun x => parseMessage x.2) = .ok ds ∧
      resolveOperational 0xAB7DE08802E0CD54 1 ds = some ⟨5540, [sampleAddr], some 300, some 300⟩) ∧
    resolveCommissionable 3840
      ((sampleDevice.serve (encodeQuery 0
        [("_l3840._SUB._matterc._udp.local".toList, typePtr)])).map (·.2)) =
        some ⟨5540, [sampleAddr], some 300, some 300⟩ := by
  have hwell : sampleDevice.WellFormed :=
    ⟨by decide, by decide +kernel, by decide +kernel⟩
  obtain ⟨hop, -, hcomm⟩ := discovered hwell
  exact ⟨hop 0xAB7DE08802E0CD54 1 _ (by decide), hcomm 3840 _ (by decide +kernel)⟩

end MatStack.Mdns
