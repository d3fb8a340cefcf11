import MatStack.Device.Mdns.Answers

/-!
# What the controller reads of a response

The device's writer of records and the controller's reader are two codecs of their own. They agree
on records whose names and strings may be written (`Rr.Fits`): a message is read as the records it
was made of (`parseMessage_encodeMessage`).
-/

namespace MatStack.Mdns

open Wire
open Dnssd hiding pushLabel pushName readNameFrom readName

/-- A record as the controller has it. -/
def Rr.record (rr : Rr) (cacheFlush : Bool) : Record where
  name := rr.owner
  rdata :=
    match rr with
    | .ptr _ target _ => .ptr target
    | .srv _ target port _ => .srv port target
    | .txt _ strings _ => .txt (strings.map Utf8.encode)
    | .aaaa _ addr _ => .aaaa addr
  ttl := rr.ttl
  cacheFlush := cacheFlush

/-- Names and strings of the record may be written, and its data have a length that may be. -/
def Rr.Fits (rr : Rr) : Prop :=
  WireName rr.owner ∧ rr.rdata.length < 65536 ∧
    match rr with
    | .ptr _ target _ => WireName target
    | .srv _ target _ _ => WireName target
    | .txt _ strings _ => ∀ s ∈ strings, Utf8.size s ≤ 255
    | .aaaa .. => True

section
variable {buf : Bytes} {pos : Nat} {name : Name} {strings : List (List Char)} {rr : Rr} {flush : Bool}

/-- The device cuts no label of a name that may be written. -/
theorem pushName_eq (h : WireName name) : pushName name = Dnssd.pushName name := by
  have hlabel : ∀ label ∈ name.splitOn '.', pushLabel label = Dnssd.pushLabel label := by
    intro label hlabel
    obtain ⟨-, hle⟩ := h label hlabel
    rw [pushLabel, Dnssd.pushLabel, Nat.min_eq_left hle, List.take_of_length_le hle]
  rw [pushName, Dnssd.pushName]
  congr 1
  rw [List.flatMap_def, List.flatMap_def, List.map_congr_left hlabel]

/-- Strings are read as they were written. -/
theorem readStrings_pushString (h : ∀ s ∈ strings, Utf8.size s ≤ 255) :
    readStrings (strings.flatMap pushString) = .ok (strings.map Utf8.encode) := by
  induction strings with
  | nil => rw [List.flatMap_nil, readStrings, List.map_nil]
  | cons s strings ih =>
    have hle : (Utf8.encode s).length ≤ 255 := h s List.mem_cons_self
    have hnat : (UInt8.ofNat (Utf8.encode s).length).toNat = (Utf8.encode s).length := by
      rw [UInt8.toNat_ofNat', Nat.mod_eq_of_lt (by omega)]
    have hstring : pushString s = UInt8.ofNat (Utf8.encode s).length :: Utf8.encode s := by
      rw [pushString, Utf8.size, Nat.min_eq_left hle, List.take_of_length_le hle]
    rw [List.flatMap_cons, hstring, List.cons_append, readStrings, hnat, List.take_left,
      List.drop_left, ih fun x hx => h x (List.mem_cons_of_mem _ hx), if_pos]
    · rfl
    · rw [List.length_append]
      exact Nat.le_add_right _ _

/-- **The data of a record** are read as they were written. -/
theorem readRData_of_has (flush : Bool) (hfits : rr.Fits) (h : Has buf pos rr.rdata) :
    readRData buf rr.rtype pos rr.rdata = .ok (rr.record flush).rdata := by
  obtain ⟨-, -, hdata⟩ := hfits
  cases rr with
  | ptr owner target ttl =>
    rw [Rr.rdata, pushName_eq hdata] at h
    show readRData buf typePtr pos _ = .ok (.ptr target)
    rw [readRData, if_pos rfl, Dnssd.readName_pushName h hdata]
  | srv owner target port ttl =>
    obtain ⟨hi, lo, hport⟩ := List.length_eq_two.1 (length_bigEndian 2 port.toNat)
    have hbytes : (Rr.srv owner target port ttl).rdata =
        [0, 0, 0, 0, hi, lo] ++ Dnssd.pushName target := by
      rw [Rr.rdata, be16Bytes, be16Bytes, hport, pushName_eq hdata]
      rfl
    have hvalue : UInt16.ofNat (ofBigEndian [hi, lo]) = port := by
      rw [← hport]
      exact ofBigEndian_be16Bytes port
    have hlen : ¬ ([0, 0, 0, 0, hi, lo] ++ Dnssd.pushName target).length < 7 := by
      simp only [Dnssd.pushName, List.length_append, List.length_cons, List.length_nil]
      omega
    rw [hbytes] at h
    have hname : Dnssd.readName buf (pos + 6) = .ok (target, _) :=
      Dnssd.readName_pushName (has_append.1 h).2 hdata
    show readRData buf typeSrv pos _ = .ok (.srv port target)
    rw [hbytes, readRData, if_neg (by decide), if_pos rfl, if_neg hlen, hname, ← hvalue]
    rfl
  | txt owner strings ttl =>
    show readRData buf typeTxt pos (strings.flatMap pushString) = .ok (.txt (strings.map Utf8.encode))
    rw [readRData, if_neg (by decide), if_neg (by decide), if_pos rfl, readStrings_pushString hdata]
    rfl
  | aaaa owner addr ttl =>
    show readRData buf typeAaaa pos addr.1 = .ok (.aaaa addr)
    rw [readRData, if_neg (by decide), if_neg (by decide), if_neg (by decide), if_pos rfl]
    exact dif_pos addr.2

/-- **A record** is read as it was written. -/
theorem readRecord_of_has_pushRr (hfits : rr.Fits) (h : Has buf pos (pushRr rr flush)) :
    readRecord buf pos = .ok (rr.record flush, pos + (pushRr rr flush).length) := by
  have hbytes : pushRr rr flush = Dnssd.pushName rr.owner ++
      recordTail rr.rtype (classIn ||| if flush then cacheFlushBit else 0) rr.ttl rr.rdata := by
    simp only [pushRr, recordTail, pushName_eq hfits.1, List.append_assoc]
  have hclass : decide ((classIn ||| if flush then cacheFlushBit else 0) &&& 0x8000 ≠ 0) = flush := by
    cases flush <;> decide
  rw [hbytes] at h ⊢
  rw [readRecord_pushName hfits.1 h hfits.2.1 (readRData_of_has flush hfits (has_rdata h)),
    hclass]
  rfl

/-- **A message** is read as the records it was made of. -/
theorem parseMessage_encodeMessage {answers additionals : List Rr} {unicast : Bool}
    (hfits : ∀ rr ∈ answers ++ additionals, rr.Fits)
    (hlen : answers.length + additionals.length < 65536) :
    parseMessage (encodeMessage answers additionals unicast) =
      .ok ((answers ++ additionals).map fun rr => rr.record (!unicast && !rr.isShared)) := by
  set flush : Rr → Bool := fun rr => !unicast && !rr.isShared with hflush
  set recs := (answers ++ additionals).map fun rr => (pushRr rr (flush rr), rr.record (flush rr))
    with hrecs
  have hbytes : encodeMessage answers additionals unicast =
      header 0 0x8400 0 (.ofNat answers.length) 0 (.ofNat additionals.length) ++
        recs.flatMap (·.1) := by
    rw [hrecs, List.flatMap_map, List.flatMap_append, encodeMessage, header]
    simp only [List.append_assoc, hflush]
  have hhas : Has (encodeMessage answers additionals unicast) 12 (recs.flatMap (·.1)) := by
    have h := has_append_append
      (header 0 0x8400 0 (.ofNat answers.length) 0 (.ofNat additionals.length))
      (recs.flatMap (·.1)) []
    rwa [List.append_nil, length_header, ← hbytes] at h
  have hread : ∀ x ∈ recs, ∀ pos, Has (encodeMessage answers additionals unicast) pos x.1 →
      readRecord (encodeMessage answers additionals unicast) pos = .ok (x.2, pos + x.1.length) := by
    intro x hx pos h
    obtain ⟨rr, hrr, rfl⟩ := List.mem_map.1 hx
    exact readRecord_of_has_pushRr (hfits rr hrr) h
  have hheader : Has (encodeMessage answers additionals unicast) 0
      (header 0 0x8400 0 (.ofNat answers.length) 0 (.ofNat additionals.length)) := by
    rw [hbytes]
    exact ⟨Nat.zero_le _, List.prefix_append _ _⟩
  have hcount : (UInt16.ofNat answers.length).toNat + (0 : UInt16).toNat +
      (UInt16.ofNat additionals.length).toNat = recs.length := by
    rw [UInt16.toNat_ofNat', UInt16.toNat_ofNat', Nat.mod_eq_of_lt (by omega),
      Nat.mod_eq_of_lt (by omega), hrecs, List.length_map, List.length_append]
    rfl
  refine parseMessage_of_has hheader rfl ?_
  rw [hcount, readRecords_of_has hread hhas, hrecs, List.map_map]
  rfl

end

end MatStack.Mdns
