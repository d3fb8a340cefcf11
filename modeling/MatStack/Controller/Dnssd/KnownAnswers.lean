import MatStack.Controller.Dnssd.WireNames

/-!
# Known answers

A query for the instances of a service echoes those that are known. Each name is cut where the
suffix of the service would begin, counted in bytes, so the cut has to lie between two characters
(`CutsBetween`); then the packets parse back to exactly the known answers that fit the service, in
order (`encodePtrQueryWithKnown_echo`).
-/

namespace MatStack.Dnssd

open Wire

/-! ## Names that fit -/

/-- The name is a label below the service: its end is the suffix, but for the case of letters, and
what is before that is a label that may be written. -/
def fits (service name : Name) : Bool :=
  let suffix := '.' :: service
  suffix.length < name.length &&
    eqIgnoreAsciiCase (name.drop (name.length - suffix.length)) suffix &&
    decide (Utf8.size (name.take (name.length - suffix.length)) ≤ 63)

/-- The known answers that fit. -/
def fitting (service : Name) (known : List (Name × UInt32)) : List (Name × UInt32) :=
  known.filter fun x => fits service x.1

/-- The suffix, counted in bytes from the end of the name, begins between two characters. -/
def CutsBetween (service name : Name) : Prop :=
  Utf8.size ('.' :: service) < Utf8.size name →
    ∃ label tail, name = label ++ tail ∧ Utf8.size tail = Utf8.size ('.' :: service)

section
variable {service name label tail suffix a b c d : Name} {ttl : UInt32}
  {known : List (Name × UInt32)} {tails : List Bytes}

theorem size_eq_zero : Utf8.size a = 0 ↔ a = [] := by
  cases a with
  | nil => exact ⟨fun _ => rfl, fun _ => rfl⟩
  | cons c a =>
    rw [Utf8.size_cons]
    have := Utf8.length_encodeChar_pos (c := c)
    exact ⟨fun h => by omega, by rintro ⟨⟩⟩

/-- Two cuts at the same byte are one. -/
theorem cut_unique (h : a ++ b = c ++ d) (hsize : Utf8.size b = Utf8.size d) : a = c ∧ b = d := by
  rcases List.append_eq_append_iff.1 h with ⟨x, rfl, rfl⟩ | ⟨x, rfl, rfl⟩
  · rw [Utf8.size_append] at hsize
    rw [size_eq_zero.1 (show Utf8.size x = 0 by omega)]
    exact ⟨(List.append_nil a).symm, rfl⟩
  · rw [Utf8.size_append] at hsize
    rw [size_eq_zero.1 (show Utf8.size x = 0 by omega)]
    exact ⟨List.append_nil c, rfl⟩

theorem fitting_cons :
    fitting service ((name, ttl) :: known) =
      if fits service name then (name, ttl) :: fitting service known else fitting service known :=
  List.filter_cons

/-- What fits, in parts. -/
theorem fits_iff : fits service name = true ↔ ∃ label tail, name = label ++ tail ∧
    tail.lower = Name.lower ('.' :: service) ∧ 0 < Utf8.size label ∧ Utf8.size label ≤ 63 := by
  rw [fits]
  simp only [Bool.and_eq_true, decide_eq_true_eq, eqIgnoreAsciiCase_iff]
  constructor
  · rintro ⟨⟨hlen, htail⟩, hle⟩
    refine ⟨_, _, (List.take_append_drop (name.length - (service.length + 1)) name).symm, htail, ?_, hle⟩
    refine Nat.pos_of_ne_zero fun h => ?_
    have hnil := congrArg List.length (size_eq_zero.1 h)
    rw [List.length_take, List.length_nil] at hnil
    rw [List.length_cons] at hlen
    omega
  · rintro ⟨label, tail, rfl, htail, hpos, hle⟩
    have hlen : tail.length = ('.' :: service).length := by
      rw [← length_lower, htail, length_lower]
    have hlabel : 0 < label.length := List.length_pos_of_ne_nil (size_pos_ne_nil hpos)
    have hcut : (label ++ tail).length - ('.' :: service).length = label.length := by
      rw [List.length_append, hlen, Nat.add_sub_cancel_right]
    rw [hcut, List.drop_left, List.take_left, List.length_append, ← hlen]
    exact ⟨⟨by omega, htail⟩, hle⟩

/-- The cut is where the splitting finds it. -/
theorem splitAt?_eq_some_iff (hlt : Utf8.size suffix < Utf8.size name) :
    Utf8.splitAt? name (Utf8.size name - Utf8.size suffix) = some (label, tail) ↔
      name = label ++ tail ∧ Utf8.size tail = Utf8.size suffix := by
  rw [Utf8.splitAt?_eq_some]
  refine and_congr_right ?_
  rintro rfl
  rw [Utf8.size_append] at hlt ⊢
  omega

/-- **No panic** exactly when every name is cut between two characters. -/
theorem kaTails_isSome_iff :
    (kaTails service known).isSome ↔ ∀ x ∈ known, CutsBetween service x.1 := by
  induction known with
  | nil => exact ⟨fun _ => List.forall_mem_nil _, fun _ => rfl⟩
  | cons x known ih =>
    obtain ⟨name, ttl⟩ := x
    rw [List.forall_mem_cons, ← ih, kaTails]
    dsimp only
    by_cases hle : Utf8.size name ≤ Utf8.size ('.' :: service)
    · rw [if_pos hle]
      exact (and_iff_right fun hlt => absurd hlt (Nat.not_lt.2 hle)).symm
    · rw [if_neg hle]
      have hlt := Nat.not_le.1 hle
      cases hsplit : Utf8.splitAt? name (Utf8.size name - Utf8.size ('.' :: service)) with
      | none =>
        refine ⟨by rintro ⟨⟩, fun h => ?_⟩
        obtain ⟨label, tail, hcut⟩ := h.1 hlt
        rw [(splitAt?_eq_some_iff hlt).2 hcut] at hsplit
        cases hsplit
      | some p =>
        obtain ⟨label, tail⟩ := p
        have hcuts : CutsBetween service name := fun _ =>
          ⟨label, tail, (splitAt?_eq_some_iff hlt).1 hsplit⟩
        dsimp only
        rw [and_iff_right hcuts]
        split
        · rfl
        · rw [Option.isSome_map]

/-- An answer to be written, and the label it is written with. -/
def Written (service : Name) (x y : Name × UInt32) : Prop :=
  Name.lower x.1 = Name.lower (y.1 ++ '.' :: service) ∧ x.2 = y.2 ∧ 0 < Utf8.size y.1 ∧
    Utf8.size y.1 ≤ 63

/-- What is written are the known answers that fit, in order. -/
theorem kaTails_eq (h : kaTails service known = some tails) :
    ∃ ys : List (Name × UInt32), tails = ys.map (fun y => kaTail y.1 y.2) ∧
      List.Forall₂ (Written service) (fitting service known) ys := by
  induction known generalizing tails with
  | nil =>
    cases h
    exact ⟨[], rfl, .nil⟩
  | cons x known ih =>
    obtain ⟨name, ttl⟩ := x
    rw [kaTails] at h
    by_cases hle : Utf8.size name ≤ Utf8.size ('.' :: service)
    · rw [if_pos hle] at h
      have hnot : ¬ fits service name = true := by
        rw [fits_iff]
        rintro ⟨label, tail, rfl, htail, hpos, -⟩
        rw [Utf8.size_append, ← size_lower tail, htail, size_lower] at hle
        omega
      rw [fitting_cons, if_neg hnot]
      exact ih h
    · rw [if_neg hle] at h
      have hlt := Nat.not_le.1 hle
      cases hsplit : Utf8.splitAt? name (Utf8.size name - Utf8.size ('.' :: service)) with
      | none =>
        rw [hsplit] at h
        cases h
      | some p =>
        obtain ⟨label, tail⟩ := p
        obtain ⟨rfl, hsize⟩ := (splitAt?_eq_some_iff hlt).1 hsplit
        rw [hsplit] at h
        dsimp only at h
        have hpos : 0 < Utf8.size label := by
          rw [Utf8.size_append] at hlt
          omega
        have hne : label.isEmpty = false := by
          simpa using size_pos_ne_nil hpos
        split at h
        · next hskip =>
          have hnot : ¬ fits service (label ++ tail) = true := by
            rw [fits_iff]
            rintro ⟨l, t, he, htail, -, hle63⟩
            have ht : Utf8.size tail = Utf8.size t := by
              rw [hsize, ← size_lower t, htail, size_lower]
            obtain ⟨rfl, rfl⟩ := cut_unique he ht
            rw [eqIgnoreAsciiCase_iff.2 htail, hne] at hskip
            simp only [Bool.not_true, Bool.or_self, Bool.false_or, decide_eq_true_eq] at hskip
            omega
          rw [fitting_cons, if_neg hnot]
          exact ih h
        · next hkeep =>
          obtain ⟨rest, hrest, rfl⟩ := Option.map_eq_some_iff.1 h
          simp only [hne, Bool.or_false, Bool.or_eq_true, Bool.not_eq_true', decide_eq_true_eq,
            not_or, Bool.not_eq_false, not_lt] at hkeep
          have htail := eqIgnoreAsciiCase_iff.1 hkeep.1
          have hfit : fits service (label ++ tail) = true :=
            fits_iff.2 ⟨label, tail, rfl, htail, hpos, hkeep.2⟩
          obtain ⟨ys, rfl, hys⟩ := ih hrest
          refine ⟨(label, ttl) :: ys, rfl, ?_⟩
          rw [fitting_cons, if_pos hfit]
          refine .cons ⟨?_, rfl, hpos, hkeep.2⟩ hys
          rw [Name.lower, List.map_append, Name.lower, List.map_append]
          exact congrArg _ htail

end

/-! ## Packets -/

/-- The question of a query for the instances of a service. -/
def ptrQuestion (service : Name) : Bytes :=
  pushName service ++ be16Bytes typePtr ++ be16Bytes classIn

/-- A known answer as it is read. -/
def kaRecord (service : Name) (y : Name × UInt32) : Record :=
  ⟨service, .ptr (y.1 ++ '.' :: service), y.2, false⟩

section
variable {service label : Name} {ttl : UInt32} {buf owner qname question : Bytes} {pos : Nat}
  {ys : List (Name × UInt32)} {first last : Bool} {tails : List Bytes} {tail : Bytes}

theorem kaTail_eq :
    kaTail label ttl = recordTail typePtr classIn ttl (pushLabel label ++ pointer) := by
  have hlen : (pushLabel label ++ pointer).length = 1 + Utf8.size label + 2 := by
    rw [List.length_append, length_pushLabel]
    rfl
  rw [kaTail, recordTail, hlen, List.append_assoc _ (pushLabel label)]

/-- A known answer, wherever its owner is read as the service. -/
theorem readRecord_kaTail (hservice : Has buf 12 (pushName service)) (hwire : WireName service)
    (hpos : 0 < Utf8.size label) (hle : Utf8.size label ≤ 63)
    (howner : readName buf pos = .ok (service, pos + owner.length))
    (h : Has buf pos (owner ++ kaTail label ttl)) :
    readRecord buf pos =
      .ok (kaRecord service (label, ttl), pos + (owner ++ kaTail label ttl).length) := by
  have hlen : (pushLabel label ++ pointer).length = 1 + Utf8.size label + 2 := by
    rw [List.length_append, length_pushLabel]
    rfl
  rw [has_append, kaTail_eq] at h
  have hdata := h.2
  rw [recordTail, has_append] at hdata
  simp only [List.length_append, be16Bytes, be32Bytes, length_bigEndian] at hdata
  have hread : readRData buf typePtr (pos + owner.length + 10) (pushLabel label ++ pointer) =
      .ok (.ptr (label ++ '.' :: service)) := by
    rw [readRData, if_pos rfl, readName_label_pointer hdata.2 hpos hle hservice hwire]
  have hend : pos + (owner ++ kaTail label ttl).length =
      pos + owner.length + 10 + (pushLabel label ++ pointer).length := by
    rw [kaTail_eq, List.length_append, length_recordTail]
    omega
  rw [readRecord_of_has howner h.2 (by omega) hread, hend]
  rfl

theorem kaRecords_true : kaRecords qname true tails = tails.flatMap (pointer ++ ·) := by
  cases tails with
  | nil => rfl
  | cons tail tails => rw [kaRecords, if_pos rfl, List.flatMap_cons]

/-- A packet begins with the header of a message. -/
theorem kaPacket_eq :
    kaPacket qname question first last tails =
      header 0 (if last then 0 else 0x0200) (if first then 1 else 0) (.ofNat tails.length) 0 0 ++
        (if first then question else []) ++ kaRecords qname first tails := by
  have hzero : ([0, 0, 0, 0] : Bytes) = be16Bytes 0 ++ be16Bytes 0 := by decide
  rw [kaPacket, header, hzero, ← List.append_assoc _ (be16Bytes 0) (be16Bytes 0)]

/-- **A packet** is read as its known answers. -/
theorem parseMessage_kaPacket (hwire : WireName service)
    (hys : ∀ y ∈ ys, 0 < Utf8.size y.1 ∧ Utf8.size y.1 ≤ 63) (hne : first = false → ys ≠ [])
    (hlen : ys.length < 65536) :
    parseMessage (kaPacket (pushName service) (ptrQuestion service) first last
      (ys.map fun y => kaTail y.1 y.2)) = .ok (ys.map (kaRecord service)) := by
  have hcount : (UInt16.ofNat (ys.map fun y => kaTail y.1 y.2).length).toNat = ys.length := by
    rw [List.length_map, UInt16.toNat_ofNat', Nat.mod_eq_of_lt hlen]
  generalize hbuf : kaPacket (pushName service) (ptrQuestion service) first last
    (ys.map fun y => kaTail y.1 y.2) = buf
  rw [kaPacket_eq] at hbuf
  generalize hh : header 0 (if last then 0 else 0x0200) (if first then 1 else 0)
    (.ofNat (ys.map fun y => kaTail y.1 y.2).length) 0 0 = h at hbuf
  have hlenh : h.length = 12 := by rw [← hh, length_header]
  have hheader : Has buf 0 h := by
    rw [← hbuf, List.append_assoc]
    exact has_append_append [] h _
  have hmiddle : Has buf 12 (if first then ptrQuestion service else []) := by
    rw [← hbuf, ← hlenh]
    exact has_append_append _ _ _
  have hrecords : Has buf (12 + (if first then ptrQuestion service else []).length)
      (kaRecords (pushName service) first (ys.map fun y => kaTail y.1 y.2)) := by
    have h3 := has_append_append (h ++ if first then ptrQuestion service else [])
      (kaRecords (pushName service) first (ys.map fun y => kaTail y.1 y.2)) []
    rwa [List.append_nil, hbuf, List.length_append, hlenh] at h3
  -- a record with a pointer for its owner
  have hpointer : Has buf 12 (pushName service) → ∀ y ∈ ys, ∀ pos,
      Has buf pos (pointer ++ kaTail y.1 y.2) →
      readRecord buf pos = .ok (kaRecord service y, pos + (pointer ++ kaTail y.1 y.2).length) := by
    intro hservice y hy pos hpos
    exact readRecord_kaTail hservice hwire (hys y hy).1 (hys y hy).2
      (readName_pointer (has_append.1 hpos).1 hservice hwire) hpos
  subst hh
  cases first with
  | true =>
    rw [if_pos rfl] at hmiddle hrecords
    have hservice : Has buf 12 (pushName service) := by
      rw [ptrQuestion, List.append_assoc, has_append] at hmiddle
      exact hmiddle.1
    refine parseMessage_of_has hheader (skipQuestions_of_has hwire hmiddle) ?_
    have hread := @readRecords_of_has buf (12 + (ptrQuestion service).length)
      (ys.map fun y => (pointer ++ kaTail y.1 y.2, kaRecord service y)) (by
        intro x hx pos hpos
        obtain ⟨y, hy, rfl⟩ := List.mem_map.1 hx
        exact hpointer hservice y hy pos hpos) (by
        rw [kaRecords_true] at hrecords
        rwa [List.flatMap_map] at hrecords ⊢)
    rw [List.length_map, List.map_map] at hread
    rw [hcount]
    exact hread
  | false =>
    obtain ⟨y, ys, rfl⟩ := List.exists_cons_of_ne_nil (hne rfl)
    rw [List.map_cons, kaRecords] at hrecords
    simp only [Bool.false_eq_true, if_false, List.length_nil, Nat.add_zero] at hrecords
    have hservice : Has buf 12 (pushName service) := by
      rw [List.append_assoc, has_append] at hrecords
      exact hrecords.1
    have hskip : skipQuestions buf (if false then (1 : UInt16) else 0).toNat 12 = .ok 12 := rfl
    refine parseMessage_of_has hheader hskip ?_
    have hread := @readRecords_of_has buf 12
      ((pushName service ++ kaTail y.1 y.2, kaRecord service y) ::
        ys.map fun y => (pointer ++ kaTail y.1 y.2, kaRecord service y)) (by
        intro x hx pos hpos
        rcases List.mem_cons.1 hx with rfl | hx
        · exact readRecord_kaTail hservice hwire (hys y List.mem_cons_self).1
            (hys y List.mem_cons_self).2 (readName_pushName (has_append.1 hpos).1 hwire) hpos
        · obtain ⟨z, hz, rfl⟩ := List.mem_map.1 hx
          exact hpointer hservice z (List.mem_cons_of_mem _ hz) pos hpos) (by
        rw [List.flatMap_cons, List.flatMap_map]
        rwa [List.flatMap_map] at hrecords)
    rw [List.length_cons, List.length_map, List.map_cons, List.map_map] at hread
    rw [hcount]
    exact hread

end

/-! ## Packing -/

/-- What a packet takes. -/
def packetSize (qname question : Bytes) (first : Bool) (tails : List Bytes) : Nat :=
  12 + (if first then question.length else 0) + (kaRecords qname first tails).length

/-- Packed as it should be: nothing is lost, no packet but perhaps the first is empty, and each
keeps to the budget or has only one record. -/
structure Grouped (qname question : Bytes) (tails : List Bytes) (g : Groups) : Prop where
  all : g.full.flatten ++ g.last = tails
  started : g.last = [] → g.full = []
  nonempty : ∀ group ∈ g.full, group ≠ []
  size : g.size = packetSize qname question g.full.isEmpty g.last
  full : ∀ i group, g.full[i]? = some group →
    packetSize qname question (i == 0) group ≤ knownAnswerPacketBudget ∨ group.length = 1
  last : g.last = [] ∨ packetSize qname question g.full.isEmpty g.last ≤ knownAnswerPacketBudget ∨
    g.last.length = 1

section
variable {qname question tail : Bytes} {tails done : List Bytes} {first last : Bool} {g : Groups}

theorem length_kaPacket :
    (kaPacket qname question first last tails).length = packetSize qname question first tails := by
  rw [kaPacket_eq, List.length_append, List.length_append, length_header, packetSize]
  split <;> rfl

/-- One more record takes its own bytes and those of its owner. -/
theorem packetSize_concat :
    packetSize qname question first (tails ++ [tail]) =
      packetSize qname question first tails +
        ((if first || !tails.isEmpty then 2 else qname.length) + tail.length) := by
  have hrecords : (kaRecords qname first (tails ++ [tail])).length =
      (kaRecords qname first tails).length +
        ((if first || !tails.isEmpty then 2 else qname.length) + tail.length) := by
    cases tails with
    | nil =>
      rw [List.nil_append, kaRecords, kaRecords]
      cases first
      · simp [pointer]
      · simp [pointer]
        omega
    | cons x tails =>
      rw [List.cons_append, kaRecords, kaRecords, List.flatMap_append, ← List.append_assoc,
        List.length_append]
      simp [pointer]
      omega
  rw [packetSize, packetSize, hrecords, ← Nat.add_assoc]

theorem grouped_start : Grouped qname question [] ⟨[], [], 12 + question.length⟩ where
  all := rfl
  started := fun _ => rfl
  nonempty := List.forall_mem_nil _
  size := rfl
  full := by rintro i _ ⟨⟩
  last := Or.inl rfl

/-- **One more known answer.** -/
theorem Grouped.add (h : Grouped qname question done g) :
    Grouped qname question (done ++ [tail]) (g.add qname tail) := by
  have hsize : packetSize qname question g.full.isEmpty (g.last ++ [tail]) =
      packetSize qname question g.full.isEmpty g.last +
        ((if g.full.isEmpty || !g.last.isEmpty then 2 else qname.length) + tail.length) :=
    packetSize_concat
  rw [← h.size] at hsize
  unfold Groups.add
  dsimp only
  generalize (if g.full.isEmpty || !g.last.isEmpty then 2 else qname.length) = nameLen at hsize ⊢
  split
  · next hfits =>
    refine ⟨?_, ?_, h.nonempty, hsize.symm, h.full, Or.inr ?_⟩
    · rw [← List.append_assoc, h.all]
    · intro hnil
      exact absurd hnil (List.append_ne_nil_of_right_ne_nil _ (List.cons_ne_nil _ _))
    · rcases Bool.or_eq_true_iff.1 hfits with hempty | hle
      · refine Or.inr ?_
        rw [List.isEmpty_iff.1 hempty]
        rfl
      · refine Or.inl ?_
        rw [hsize]
        exact of_decide_eq_true hle
  · next hfits =>
    have hne : g.last ≠ [] := by
      intro hnil
      rw [hnil] at hfits
      exact hfits rfl
    refine ⟨?_, ?_, ?_, ?_, ?_, Or.inr (Or.inr rfl)⟩
    · rw [List.flatten_append, List.flatten_singleton, h.all]
    · rintro ⟨⟩
    · intro group hgroup
      rcases List.mem_append.1 hgroup with hgroup | hgroup
      · exact h.nonempty group hgroup
      · rw [List.mem_singleton.1 hgroup]
        exact hne
    · have hfull : (g.full ++ [g.last]).isEmpty = false := by simp
      rw [packetSize, hfull, kaRecords]
      simp
    · intro i group hgroup
      rcases Nat.lt_trichotomy i g.full.length with hi | hi | hi
      · rw [List.getElem?_append_left hi] at hgroup
        exact h.full i group hgroup
      · subst hi
        rw [List.getElem?_concat_length] at hgroup
        cases hgroup
        have hflag : (g.full.length == 0) = g.full.isEmpty := by
          cases g.full <;> rfl
        rw [hflag]
        exact h.last.resolve_left hne
      · rw [List.getElem?_eq_none (by rw [List.length_append, List.length_singleton]; omega)] at hgroup
        cases hgroup

theorem Grouped.foldl (h : Grouped qname question done g) :
    Grouped qname question (done ++ tails) (tails.foldl (Groups.add qname) g) := by
  induction tails generalizing done g with
  | nil => rwa [List.append_nil]
  | cons tail tails ih =>
    rw [List.foldl_cons, List.append_cons]
    exact ih h.add

end

/-! ## Echoes -/

/-- A known answer comes back as a record. -/
def Echoed (service : Name) (x : Name × UInt32) (r : Record) : Prop :=
  r.name = service ∧ (∃ name, r.rdata = .ptr name ∧ Name.lower name = Name.lower x.1) ∧ r.ttl = x.2

/-- What the packets of a query must be: each can be read and keeps to the budget, or has one
record; together they give back the known answers that fit, in order; all but the last say that
there is more, and only the first asks. -/
structure Echo (service : Name) (known : List (Name × UInt32)) (packets : List Bytes) : Prop where
  records : ∃ parsed : List (List Record),
    List.Forall₂ (fun packet records => parseMessage packet = .ok records ∧
      (packet.length ≤ knownAnswerPacketBudget ∨ records.length = 1)) packets parsed ∧
    List.Forall₂ (Echoed service) (fitting service known) parsed.flatten
  more : ∀ i packet, packets[i]? = some packet →
    Has packet 2 (be16Bytes (if i + 1 = packets.length then 0 else 0x0200))
  asks : ∀ i packet, packets[i]? = some packet → Has packet 4 (be16Bytes (if i = 0 then 1 else 0)) ∧
    (i = 0 → Has packet 12 (pushName service ++ be16Bytes typePtr))

section
variable {service : Name} {known : List (Name × UInt32)}

/-- A query without known answers. -/
theorem echo_encodeQuery (hwire : WireName service)
    (hbudget : (ptrQuestion service).length ≤ knownAnswerPacketBudget - 12)
    (hnone : fitting service known = []) :
    Echo service known [encodeQuery 0 [(service, typePtr)]] := by
  have hquery : encodeQuery 0 [(service, typePtr)] =
      header 0 0 1 0 0 0 ++ (pushName service ++ be16Bytes typePtr ++ be16Bytes quClassIn) := by
    have hhead : header 0 0 1 0 0 0 = be16Bytes 0 ++ [0, 0] ++ be16Bytes 1 ++ [0, 0, 0, 0, 0, 0] := by
      decide
    rw [hhead, encodeQuery, List.flatMap_cons, List.flatMap_nil, List.append_nil]
    rfl
  have hheader : Has (encodeQuery 0 [(service, typePtr)]) 0 (header 0 0 1 0 0 0) := by
    rw [hquery]
    exact has_append_append [] _ _
  have hquestion : Has (encodeQuery 0 [(service, typePtr)]) 12
      (pushName service ++ be16Bytes typePtr ++ be16Bytes quClassIn) := by
    have h := has_append_append (header 0 0 1 0 0 0)
      (pushName service ++ be16Bytes typePtr ++ be16Bytes quClassIn) []
    rwa [List.append_nil, ← hquery, length_header] at h
  have hparts := hheader
  simp only [header, has_append, be16Bytes, length_bigEndian, List.length_append, Nat.zero_add] at hparts
  refine ⟨⟨[[]], .cons ⟨?_, Or.inl ?_⟩ .nil, ?_⟩, ?_, ?_⟩
  · exact parseMessage_of_has hheader (skipQuestions_of_has hwire hquestion) rfl
  · have hlen : (header 0 0 1 0 0 0).length = 12 := length_header
    rw [hquery, List.length_append, hlen]
    simp only [ptrQuestion, List.length_append, be16Bytes, length_bigEndian,
      knownAnswerPacketBudget] at hbudget ⊢
    omega
  · rw [hnone]
    exact .nil
  · intro i packet hi
    rcases i with _ | i
    · cases hi
      exact hparts.1.1.1.1.2
    · cases hi
  · intro i packet hi
    rcases i with _ | i
    · cases hi
      exact ⟨hparts.1.1.1.2, fun _ => (has_append.1 hquestion).1⟩
    · cases hi

/-- The pieces of a list of images are the images of its pieces. -/
theorem flatten_eq_map {α β : Type} {f : α → β} {l : List (List β)} {ys : List α}
    (h : l.flatten = ys.map f) : ∃ yss : List (List α), yss.flatten = ys ∧ l = yss.map (List.map f) := by
  induction l generalizing ys with
  | nil =>
    rw [List.flatten_nil, eq_comm, List.map_eq_nil_iff] at h
    exact ⟨[], h.symm, rfl⟩
  | cons group l ih =>
    rw [List.flatten_cons, eq_comm, List.map_eq_append_iff] at h
    obtain ⟨a, b, rfl, rfl, hb⟩ := h
    obtain ⟨yss, rfl, rfl⟩ := ih hb.symm
    exact ⟨a :: yss, rfl, rfl⟩

/-- A full packet, or the last one, keeps to the budget or has one record. -/
theorem Grouped.size_le {qname question : Bytes} {tails : List Bytes} {g : Groups}
    (h : Grouped qname question tails g) (hlast : g.last ≠ []) {i : Nat} {group : List Bytes}
    (hi : (g.full ++ [g.last])[i]? = some group) :
    group ≠ [] ∧ (packetSize qname question (i == 0) group ≤ knownAnswerPacketBudget ∨
      group.length = 1) := by
  rcases Nat.lt_trichotomy i g.full.length with hlt | rfl | hgt
  · rw [List.getElem?_append_left hlt] at hi
    exact ⟨h.nonempty group (List.mem_of_getElem? hi), h.full i group hi⟩
  · rw [List.getElem?_concat_length] at hi
    cases hi
    have hflag : (g.full.length == 0) = g.full.isEmpty := by
      cases g.full <;> rfl
    rw [hflag]
    exact ⟨hlast, h.last.resolve_left hlast⟩
  · rw [List.getElem?_eq_none (by rw [List.length_append, List.length_singleton]; omega)] at hi
    cases hi

theorem exists_of_forall₂ {α β : Type} {R : α → β → Prop} {l : List α} {l' : List β} {y : β}
    (h : List.Forall₂ R l l') (hy : y ∈ l') : ∃ x, R x y := by
  induction h with
  | nil => cases hy
  | cons hxy _ ih =>
    rcases List.mem_cons.1 hy with rfl | hy
    · exact ⟨_, hxy⟩
    · exact ih hy

theorem forall₂_of_getElem? {α β : Type} {R : α → β → Prop} {l : List α} {l' : List β}
    (hlen : l.length = l'.length)
    (h : ∀ (i : Nat) a b, l[i]? = some a → l'[i]? = some b → R a b) : List.Forall₂ R l l' := by
  refine List.forall₂_iff_get.2 ⟨hlen, fun i hi hi' => ?_⟩
  exact h i _ _ (List.getElem?_eq_getElem hi) (List.getElem?_eq_getElem hi')

/-- What the header of a packet says. -/
theorem kaPacket_header (qname question : Bytes) (first last : Bool) (tails : List Bytes) :
    Has (kaPacket qname question first last tails) 2 (be16Bytes (if last then 0 else 0x0200)) ∧
      Has (kaPacket qname question first last tails) 4 (be16Bytes (if first then 1 else 0)) ∧
      (first = true → Has (kaPacket qname question first last tails) 12 question) := by
  have hheader : Has (kaPacket qname question first last tails) 0
      (header 0 (if last then 0 else 0x0200) (if first then 1 else 0) (.ofNat tails.length) 0 0) := by
    rw [kaPacket_eq, List.append_assoc]
    exact has_append_append [] _ _
  simp only [header, has_append, be16Bytes, length_bigEndian, List.length_append, Nat.zero_add] at hheader
  refine ⟨hheader.1.1.1.1.2, hheader.1.1.1.2, ?_⟩
  rintro rfl
  have h := has_append_append (header 0 (if last then 0 else 0x0200) 1 (.ofNat tails.length) 0 0)
    question (kaRecords qname true tails)
  rw [length_header] at h
  rw [kaPacket_eq]
  exact h

/-- The packets of a list of groups of answers. -/
theorem echo_kaPackets (hwire : WireName service) {ys : List (Name × UInt32)}
    (hys : List.Forall₂ (Written service) (fitting service known) ys) (hlen : ys.length < 65536)
    {groups : List (List Bytes)} (hgroups : groups.flatten = ys.map fun y => kaTail y.1 y.2)
    (hsize : ∀ i group, groups[i]? = some group → group ≠ [] ∧
      (packetSize (pushName service) (ptrQuestion service) (i == 0) group ≤ knownAnswerPacketBudget ∨
        group.length = 1)) :
    Echo service known (kaPackets (pushName service) (ptrQuestion service) groups) := by
  obtain ⟨yss, rfl, rfl⟩ := flatten_eq_map hgroups
  have hget : ∀ i packet,
      (kaPackets (pushName service) (ptrQuestion service)
        (yss.map (List.map fun y => kaTail y.1 y.2)))[i]? = some packet →
      ∃ group, yss[i]? = some group ∧ packet = kaPacket (pushName service) (ptrQuestion service)
        (i == 0) (i + 1 == yss.length) (group.map fun y => kaTail y.1 y.2) := by
    intro i packet hi
    rw [kaPackets, List.getElem?_mapIdx, List.length_map] at hi
    obtain ⟨tails, htails, rfl⟩ := Option.map_eq_some_iff.1 hi
    rw [List.getElem?_map] at htails
    obtain ⟨group, hgroup, rfl⟩ := Option.map_eq_some_iff.1 htails
    exact ⟨group, hgroup, rfl⟩
  have hlength : (kaPackets (pushName service) (ptrQuestion service)
      (yss.map (List.map fun y => kaTail y.1 y.2))).length = yss.length := by
    rw [kaPackets, List.length_mapIdx, List.length_map]
  have hlabels : ∀ y ∈ yss.flatten, 0 < Utf8.size y.1 ∧ Utf8.size y.1 ≤ 63 := by
    intro y hy
    obtain ⟨x, hx⟩ := exists_of_forall₂ hys hy
    exact hx.2.2
  have hpart : ∀ (i : Nat) group, yss[i]? = some group → group ≠ [] ∧ group ⊆ yss.flatten ∧
      group.length < 65536 := by
    intro i group hgroup
    have hmem : group ∈ yss := List.mem_of_getElem? hgroup
    obtain ⟨hne, -⟩ := hsize i (group.map fun y => kaTail y.1 y.2) (by
      rw [List.getElem?_map, hgroup]
      rfl)
    refine ⟨fun hnil => hne (by rw [hnil]; rfl), fun y hy => List.mem_flatten.2 ⟨group, hmem, hy⟩, ?_⟩
    exact Nat.lt_of_le_of_lt (List.sublist_flatten_of_mem hmem).length_le hlen
  refine ⟨⟨yss.map (List.map (kaRecord service)), ?_, ?_⟩, ?_, ?_⟩
  · refine forall₂_of_getElem? (by rw [hlength, List.length_map]) ?_
    intro i packet records hpacket hrecords
    obtain ⟨group, hgroup, rfl⟩ := hget i packet hpacket
    rw [List.getElem?_map, hgroup] at hrecords
    cases hrecords
    obtain ⟨hne, hsub, hcount⟩ := hpart i group hgroup
    refine ⟨parseMessage_kaPacket hwire (fun y hy => hlabels y (hsub hy)) (fun _ => hne) hcount, ?_⟩
    obtain ⟨-, hfits⟩ := hsize i (group.map fun y => kaTail y.1 y.2) (by
      rw [List.getElem?_map, hgroup]
      rfl)
    rw [length_kaPacket]
    rwa [List.length_map] at hfits ⊢
  · rw [← List.map_flatten, List.forall₂_map_right_iff]
    refine hys.imp ?_
    rintro x y ⟨hname, httl, -, -⟩
    exact ⟨rfl, ⟨_, rfl, hname.symm⟩, httl.symm⟩
  · intro i packet hpacket
    obtain ⟨group, -, rfl⟩ := hget i packet hpacket
    rw [hlength]
    have hpacket := kaPacket_header (pushName service) (ptrQuestion service) (i == 0)
      (i + 1 == yss.length) (group.map fun y => kaTail y.1 y.2)
    simpa using hpacket.1
  · intro i packet hpacket
    obtain ⟨group, -, rfl⟩ := hget i packet hpacket
    have hpacket := kaPacket_header (pushName service) (ptrQuestion service) (i == 0)
      (i + 1 == yss.length) (group.map fun y => kaTail y.1 y.2)
    refine ⟨by simpa using hpacket.2.1, ?_⟩
    rintro rfl
    have hquestion := hpacket.2.2 rfl
    rw [ptrQuestion, has_append] at hquestion
    exact hquestion.1

/-- **Known answers are echoed**, where every name is cut between two characters. -/
theorem encodePtrQueryWithKnown_echo (hwire : WireName service)
    (hbudget : (ptrQuestion service).length ≤ knownAnswerPacketBudget - 12)
    (hlen : known.length < 65536) (h : ∀ x ∈ known, CutsBetween service x.1) :
    ∃ packets, encodePtrQueryWithKnown service known = some packets ∧ Echo service known packets := by
  rw [encodePtrQueryWithKnown]
  by_cases hempty : known.isEmpty
  · rw [if_pos hempty]
    rw [List.isEmpty_iff] at hempty
    subst hempty
    exact ⟨_, rfl, echo_encodeQuery hwire hbudget rfl⟩
  · rw [if_neg hempty]
    obtain ⟨tails, htails⟩ := Option.isSome_iff_exists.1 (kaTails_isSome_iff.2 h)
    obtain ⟨ys, rfl, hys⟩ := kaTails_eq htails
    rw [htails]
    refine ⟨_, rfl, ?_⟩
    dsimp only
    by_cases hnone : ys = []
    · subst hnone
      cases hfitting : fitting service known with
      | nil =>
        rw [List.map_nil, List.isEmpty_nil, if_pos rfl]
        exact echo_encodeQuery hwire hbudget hfitting
      | cons x l =>
        rw [hfitting] at hys
        cases hys
    · rw [if_neg (by simpa using hnone)]
      have hgrouped : Grouped (pushName service) (ptrQuestion service)
          ([] ++ ys.map fun y => kaTail y.1 y.2)
          ((ys.map fun y => kaTail y.1 y.2).foldl (Groups.add (pushName service))
            ⟨[], [], 12 + (ptrQuestion service).length⟩) := grouped_start.foldl
      rw [List.nil_append] at hgrouped
      have hlast : ((ys.map fun y => kaTail y.1 y.2).foldl (Groups.add (pushName service))
          ⟨[], [], 12 + (ptrQuestion service).length⟩).last ≠ [] := by
        intro hnil
        have hall := hgrouped.all
        rw [hgrouped.started hnil, hnil, eq_comm, List.append_nil, List.flatten_nil,
          List.map_eq_nil_iff] at hall
        exact hnone hall
      refine echo_kaPackets hwire hys ?_ ?_ fun i group hi => hgrouped.size_le hlast hi
      · rw [← hys.length_eq]
        exact Nat.lt_of_le_of_lt (List.length_filter_le _ _) hlen
      · rw [List.flatten_append, List.flatten_singleton]
        exact hgrouped.all

end

end MatStack.Dnssd
