import MatStack.Controller.Dnssd.Codec

/-!
# What the codec reads

No bytes make a reader panic (`parseMessage_safe`), and what is written is read back: a name that is
spelled out, or that ends in a pointer to one (`readName_pushName`, `readName_pointer`,
`readName_label_pointer`), a record whose parts are where they belong (`readRecord_of_has`), and a
sequence of records (`readRecords_of_has`).
-/

namespace MatStack.Dnssd

open Wire

/-! ## No panic -/

/-- It does not panic. -/
def Safe {α : Type} (x : Parsed α) : Prop := x ≠ .error .panicked

section
variable {α β : Type} {x : Parsed α} {f : α → Parsed β} {buf bs : Bytes} {pos : Nat}

theorem safe_ok (a : α) : Safe (.ok a : Parsed α) := by rintro ⟨⟩

theorem safe_malformed (what : String) : Safe (.error (.malformed what) : Parsed α) := by rintro ⟨⟩

theorem safe_bind (h : Safe x) (hf : ∀ a, x = .ok a → Safe (f a)) : Safe (x >>= f) := by
  cases x with
  | error e => exact fun he => h (by cases he; rfl)
  | ok a => exact hf a rfl

theorem readNameFrom_safe (buf : Bytes) (pos : Nat) (out : Name) (next : Option Nat) (hops : Nat) :
    Safe (readNameFrom buf pos out next hops) := by
  fun_induction readNameFrom buf pos out next hops with
  | case1 => exact safe_malformed _
  | case2 => exact safe_ok _
  | case3 => exact safe_malformed _
  | case4 => exact safe_malformed _
  | case5 _ _ _ _ _ _ _ _ _ _ _ ih => exact ih
  | case6 => exact safe_malformed _
  | case7 => exact safe_malformed _
  | case8 _ _ _ _ _ _ _ _ _ _ _ ih => exact ih

theorem readName_safe : Safe (readName buf pos) := readNameFrom_safe _ _ _ _ _

theorem be16_safe : Safe (be16 buf pos) := by
  unfold be16
  split
  · exact safe_malformed _
  · next bs hbs =>
    rw [if_pos (by have := length_of_slice hbs; omega)]
    exact safe_ok _

theorem be32_safe : Safe (be32 buf pos) := by
  unfold be32
  split
  · exact safe_malformed _
  · next bs hbs =>
    rw [if_pos (by have := length_of_slice hbs; omega)]
    exact safe_ok _

theorem byteAt_safe {i : Nat} (h : i < bs.length) : Safe (byteAt bs i) := by
  rw [byteAt, List.getElem?_eq_getElem h]
  exact safe_ok _

theorem readStrings_safe (bs : Bytes) : Safe (readStrings bs) := by
  fun_induction readStrings bs with
  | case1 => exact safe_ok _
  | case2 n bs h ih => exact safe_bind ih fun _ _ => safe_ok _
  | case3 => exact safe_malformed _

theorem readRData_safe {rtype : UInt16} : Safe (readRData buf rtype pos bs) := by
  unfold readRData
  split
  · have hname : Safe (readName buf pos) := readName_safe
    split
    · exact safe_ok _
    · next h => exact (hname h).elim
    · exact safe_ok _
  split
  · split
    · exact safe_malformed _
    · next hlen =>
      refine safe_bind (byteAt_safe (by omega)) fun hi _ => ?_
      refine safe_bind (byteAt_safe (by omega)) fun lo _ => ?_
      exact safe_bind readName_safe fun _ _ => safe_ok _
  split
  · exact safe_bind (readStrings_safe bs) fun _ _ => safe_ok _
  split
  · split
    · exact safe_ok _
    · exact safe_malformed _
  · exact safe_ok _

theorem readRecord_safe : Safe (readRecord buf pos) := by
  unfold readRecord
  refine safe_bind readName_safe fun a _ => ?_
  refine safe_bind be16_safe fun rtype _ => ?_
  refine safe_bind be16_safe fun cls _ => ?_
  refine safe_bind be32_safe fun ttl _ => ?_
  refine safe_bind be16_safe fun rdlen _ => ?_
  split
  · exact safe_malformed _
  · exact safe_bind readRData_safe fun _ _ => safe_ok _

theorem skipQuestions_safe (n : Nat) : Safe (skipQuestions buf n pos) := by
  induction n generalizing pos with
  | zero => exact safe_ok _
  | succ n ih =>
    refine safe_bind readName_safe fun a _ => ?_
    dsimp only
    split
    · exact safe_malformed _
    · exact ih

theorem readRecords_safe (n : Nat) : Safe (readRecords buf n pos) := by
  induction n generalizing pos with
  | zero => exact safe_ok _
  | succ n ih => exact safe_bind readRecord_safe fun a _ => safe_bind ih fun _ _ => safe_ok _

/-- **No bytes make the reader panic.** -/
theorem parseMessage_safe (buf : Bytes) : Safe (parseMessage buf) := by
  unfold parseMessage
  split
  · exact safe_malformed _
  · refine safe_bind be16_safe fun qd _ => ?_
    refine safe_bind be16_safe fun an _ => ?_
    refine safe_bind be16_safe fun ns _ => ?_
    refine safe_bind be16_safe fun ar _ => ?_
    exact safe_bind (skipQuestions_safe _) fun pos _ => readRecords_safe _

end

/-! ## Names -/

/-- Every label of the name may be written: it has a byte, and no more than 63. -/
def WireName (name : Name) : Prop :=
  ∀ label ∈ name.splitOn '.', 0 < Utf8.size label ∧ Utf8.size label ≤ 63

instance (name : Name) : Decidable (WireName name) := inferInstanceAs (Decidable (∀ _ ∈ _, _))

section
variable {buf bs : Bytes} {pos p hops : Nat} {out label name service : Name} {next : Option Nat}

theorem length_pushLabel : (pushLabel label).length = 1 + Utf8.size label := by
  rw [pushLabel, List.length_cons, Utf8.size, Nat.add_comm]

/-- The length byte of a label is neither the end nor a pointer. -/
theorem label_byte {n : Nat} (hpos : 0 < n) (hle : n ≤ 63) :
    UInt8.ofNat n ≠ 0 ∧ UInt8.ofNat n &&& 0xC0 = 0 ∧ (UInt8.ofNat n).toNat = n := by
  have hall : ∀ n < 64, n ≠ 0 → UInt8.ofNat n ≠ 0 ∧ UInt8.ofNat n &&& 0xC0 = 0 ∧
      (UInt8.ofNat n).toNat = n := by decide
  exact hall n (by omega) (by omega)

/-- One step of reading a name, from its byte. -/
theorem readNameFrom_of_some {len : UInt8} (h : buf[pos]? = some len) :
    readNameFrom buf pos out next hops =
      if len = 0 then .ok (out, next.getD (pos + 1))
      else if len &&& 0xC0 = 0xC0 then
        match buf[pos + 1]? with
        | none => .error (.malformed "pointer past end")
        | some lo =>
          if hops + 1 > 32 then .error (.malformed "compression pointer loop")
          else
            readNameFrom buf ((len &&& 0x3F).toNat <<< 8 ||| lo.toNat) out
              (some (next.getD (pos + 2))) (hops + 1)
      else if len &&& 0xC0 ≠ 0 then .error (.malformed "reserved label type")
      else
        match slice buf (pos + 1) (pos + 1 + len.toNat) with
        | none => .error (.malformed "label past end")
        | some label =>
          readNameFrom buf (pos + 1 + len.toNat) (joinLabel out (Utf8.decodeLossy label)) next
            hops := by
  conv_lhs => rw [readNameFrom]
  split
  · next hget =>
    rw [h] at hget
    cases hget
  · next hget =>
    rw [h] at hget
    cases hget
    rfl

theorem readNameFrom_of_none (h : buf[pos]? = none) :
    readNameFrom buf pos out next hops = .error (.malformed "name past end") := by
  rw [readNameFrom]
  split
  · rfl
  · next hget =>
    rw [h] at hget
    cases hget

/-- A label. -/
theorem readNameFrom_label (h : Has buf pos (pushLabel label)) (hpos : 0 < Utf8.size label)
    (hle : Utf8.size label ≤ 63) :
    readNameFrom buf pos out next hops =
      readNameFrom buf (pos + 1 + Utf8.size label) (joinLabel out label) next hops := by
  obtain ⟨hne, hmask, hnat⟩ := label_byte hpos hle
  obtain ⟨hlen, hbytes⟩ := has_cons.1 h
  have hslice : slice buf (pos + 1) (pos + 1 + (UInt8.ofNat (Utf8.size label)).toNat) =
      some (Utf8.encode label) := by
    rw [hnat]
    exact hbytes.slice
  rw [readNameFrom_of_some hlen.getElem?, if_neg hne, hmask, if_neg (by decide), if_neg (by simp),
    hslice]
  dsimp only
  rw [Utf8.decodeLossy_encode, hnat]

/-- The end of a name. -/
theorem readNameFrom_end (h : Has buf pos [0]) :
    readNameFrom buf pos out next hops = .ok (out, next.getD (pos + 1)) := by
  rw [readNameFrom_of_some h.getElem?, if_pos rfl]

/-- A pointer to the name after the header. -/
theorem readNameFrom_pointer (h : Has buf pos pointer) (hhops : hops < 32) :
    readNameFrom buf pos out next hops =
      readNameFrom buf 12 out (some (next.getD (pos + 2))) (hops + 1) := by
  obtain ⟨hhi, hlo⟩ := has_cons.1 h
  rw [readNameFrom_of_some hhi.getElem?, if_neg (by decide), if_pos (by decide), hlo.getElem?]
  dsimp only
  rw [if_neg (by omega)]
  rfl

theorem joinLabel_ne_nil (h : label ≠ []) : joinLabel out label ≠ [] := by
  unfold joinLabel
  split
  · exact h
  · exact List.append_ne_nil_of_right_ne_nil _ (List.cons_ne_nil _ _)

/-- Labels, one after the other. -/
theorem readNameFrom_labels {labels : List Name}
    (hl : ∀ label ∈ labels, 0 < Utf8.size label ∧ Utf8.size label ≤ 63)
    (h : Has buf pos (labels.flatMap pushLabel)) :
    readNameFrom buf pos out next hops =
      readNameFrom buf (pos + (labels.flatMap pushLabel).length) (labels.foldl joinLabel out) next
        hops := by
  induction labels generalizing pos out with
  | nil => rfl
  | cons label labels ih =>
    rw [List.flatMap_cons, has_append] at h
    obtain ⟨hpos, hle⟩ := hl label List.mem_cons_self
    rw [length_pushLabel, ← Nat.add_assoc] at h
    rw [readNameFrom_label h.1 hpos hle, ih (fun l hl' => hl l (List.mem_cons_of_mem _ hl')) h.2,
      List.flatMap_cons, List.length_append, length_pushLabel, List.foldl_cons]
    congr 1
    omega

/-- The labels of a name, joined after what is there. -/
theorem foldl_joinLabel (hne : out ≠ []) (labels : List Name) :
    labels.foldl joinLabel out = out ++ labels.flatMap fun label => '.' :: label := by
  induction labels generalizing out with
  | nil => exact (List.append_nil out).symm
  | cons label labels ih =>
    have hjoin : joinLabel out label = out ++ '.' :: label := by
      rw [joinLabel, if_neg (by simpa using hne)]
    rw [List.foldl_cons, hjoin, ih (List.append_ne_nil_of_left_ne_nil hne _), List.flatMap_cons,
      List.append_assoc]

/-- A name is its labels with dots between them. -/
theorem intercalate_labels (label : Name) (labels : List Name) :
    ['.'].intercalate (label :: labels) = label ++ labels.flatMap fun label => '.' :: label := by
  induction labels generalizing label with
  | nil => simp [List.intercalate]
  | cons next labels ih =>
    rw [List.intercalate_cons_cons, ih, List.flatMap_cons]
    simp

theorem size_pos_ne_nil (h : 0 < Utf8.size label) : label ≠ [] := by
  rintro rfl
  exact Nat.lt_irrefl 0 h

/-- The labels of a name, joined, are the name. -/
theorem foldl_joinLabel_splitOn (h : WireName name) :
    (name.splitOn '.').foldl joinLabel out = joinLabel out name := by
  obtain ⟨label, labels, hls⟩ := List.exists_cons_of_ne_nil (List.splitOn_ne_nil '.' name)
  have hname : name = label ++ labels.flatMap fun label => '.' :: label := by
    rw [← intercalate_labels, ← hls, List.intercalate_splitOn]
  have hlabel : label ≠ [] := size_pos_ne_nil (h label (hls ▸ List.mem_cons_self)).1
  rw [hls, List.foldl_cons, foldl_joinLabel (joinLabel_ne_nil hlabel)]
  unfold joinLabel
  split
  · exact hname.symm
  · rw [List.append_assoc, List.cons_append, ← hname]

/-- **A name that is spelled out.** -/
theorem readNameFrom_pushName (h : Has buf pos (pushName name)) (hname : WireName name) :
    readNameFrom buf pos out next hops =
      .ok (joinLabel out name, next.getD (pos + (pushName name).length)) := by
  rw [pushName, has_append] at h
  rw [readNameFrom_labels hname h.1, foldl_joinLabel_splitOn hname, readNameFrom_end h.2, pushName,
    List.length_append, List.length_singleton, Nat.add_assoc]

theorem readName_pushName (h : Has buf pos (pushName name)) (hname : WireName name) :
    readName buf pos = .ok (name, pos + (pushName name).length) :=
  readNameFrom_pushName h hname

/-- **A pointer** to a name after the header. -/
theorem readName_pointer (h : Has buf pos pointer) (hservice : Has buf 12 (pushName service))
    (hname : WireName service) : readName buf pos = .ok (service, pos + 2) := by
  rw [readName, readNameFrom_pointer h (by decide), readNameFrom_pushName hservice hname]
  rfl

/-- **A label before a pointer** to a name after the header. -/
theorem readName_label_pointer (h : Has buf pos (pushLabel label ++ pointer))
    (hpos : 0 < Utf8.size label) (hle : Utf8.size label ≤ 63)
    (hservice : Has buf 12 (pushName service)) (hname : WireName service) :
    readName buf pos = .ok (label ++ '.' :: service, pos + 1 + Utf8.size label + 2) := by
  rw [has_append, length_pushLabel, ← Nat.add_assoc] at h
  have hne : label ≠ [] := size_pos_ne_nil hpos
  rw [readName, readNameFrom_label h.1 hpos hle, readNameFrom_pointer h.2 (by decide),
    readNameFrom_pushName hservice hname]
  have hjoin : joinLabel (joinLabel [] label) service = label ++ '.' :: service := by
    rw [joinLabel, if_neg (by simpa [joinLabel] using hne)]
    rfl
  rw [hjoin]
  rfl

end

/-! ## Records and messages -/

section
variable {buf rdata : Bytes} {pos p n : Nat} {name : Name} {rtype cls v : UInt16} {ttl : UInt32}
  {x : RData}

theorem be16_of_has (h : Has buf pos (be16Bytes v)) : be16 buf pos = .ok v := by
  have hslice := h.slice
  rw [be16Bytes, length_bigEndian] at hslice
  rw [be16, hslice]
  dsimp only
  rw [length_bigEndian, if_pos rfl, ofBigEndian_bigEndian v.toNat_lt, UInt16.ofNat_toNat]

theorem be32_of_has {v : UInt32} (h : Has buf pos (be32Bytes v)) : be32 buf pos = .ok v := by
  have hslice := h.slice
  rw [be32Bytes, length_bigEndian] at hslice
  rw [be32, hslice]
  dsimp only
  rw [length_bigEndian, if_pos rfl, ofBigEndian_bigEndian v.toNat_lt, UInt32.ofNat_toNat]

/-- What comes after the owner name of a record. -/
def recordTail (rtype cls : UInt16) (ttl : UInt32) (rdata : Bytes) : Bytes :=
  be16Bytes rtype ++ be16Bytes cls ++ be32Bytes ttl ++ be16Bytes (.ofNat rdata.length) ++ rdata

theorem length_recordTail : (recordTail rtype cls ttl rdata).length = 10 + rdata.length := by
  simp only [recordTail, List.length_append, be16Bytes, be32Bytes, length_bigEndian]

/-- **A record** whose owner, data and the numbers between them are where they belong. -/
theorem readRecord_of_has (hname : readName buf pos = .ok (name, p))
    (h : Has buf p (recordTail rtype cls ttl rdata)) (hlen : rdata.length < 65536)
    (hx : readRData buf rtype (p + 10) rdata = .ok x) :
    readRecord buf pos = .ok (⟨name, x, ttl, cls &&& 0x8000 ≠ 0⟩, p + 10 + rdata.length) := by
  have hnat : (UInt16.ofNat rdata.length).toNat = rdata.length := by
    rw [UInt16.toNat_ofNat', Nat.mod_eq_of_lt hlen]
  simp only [recordTail, has_append, be16Bytes, be32Bytes, length_bigEndian, List.length_append] at h
  obtain ⟨⟨⟨⟨h1, h2⟩, h3⟩, h4⟩, h5⟩ := h
  have hslice := h5.slice
  rw [readRecord, hname]
  simp only [bind, Except.bind]
  rw [be16_of_has h1, be16_of_has h2, be32_of_has h3, be16_of_has h4]
  dsimp only
  rw [hnat, hslice]
  dsimp only
  rw [hx]
  rfl

/-- A record whose owner is spelled out. -/
theorem readRecord_pushName (hname : WireName name)
    (h : Has buf pos (pushName name ++ recordTail rtype cls ttl rdata)) (hlen : rdata.length < 65536)
    (hx : readRData buf rtype (pos + (pushName name).length + 10) rdata = .ok x) :
    readRecord buf pos = .ok (⟨name, x, ttl, cls &&& 0x8000 ≠ 0⟩,
      pos + (pushName name ++ recordTail rtype cls ttl rdata).length) := by
  rw [has_append] at h
  have hend : pos + (pushName name ++ recordTail rtype cls ttl rdata).length =
      pos + (pushName name).length + 10 + rdata.length := by
    rw [List.length_append, length_recordTail]
    omega
  rw [readRecord_of_has (readName_pushName h.1 hname) h.2 hlen hx, hend]

/-- The data of a record are found after the ten bytes before them. -/
theorem has_rdata (h : Has buf pos (pushName name ++ recordTail rtype cls ttl rdata)) :
    Has buf (pos + (pushName name).length + 10) rdata := by
  rw [has_append, recordTail, has_append] at h
  simpa only [List.length_append, be16Bytes, be32Bytes, length_bigEndian] using h.2.2

/-- **Records**, one after the other, each of which can be read wherever its bytes are. -/
theorem readRecords_of_has {recs : List (Bytes × Record)}
    (hread : ∀ x ∈ recs, ∀ pos, Has buf pos x.1 → readRecord buf pos = .ok (x.2, pos + x.1.length))
    (h : Has buf pos (recs.flatMap (·.1))) :
    readRecords buf recs.length pos = .ok (recs.map (·.2)) := by
  induction recs generalizing pos with
  | nil => rfl
  | cons x recs ih =>
    rw [List.flatMap_cons, has_append] at h
    rw [List.length_cons, readRecords, hread x List.mem_cons_self pos h.1]
    simp only [bind, Except.bind]
    rw [ih (fun y hy => hread y (List.mem_cons_of_mem _ hy)) h.2]
    rfl

/-- The header of a message, with its counts of questions and of records. -/
def header (id flags qd an ns ar : UInt16) : Bytes :=
  be16Bytes id ++ be16Bytes flags ++ be16Bytes qd ++ be16Bytes an ++ be16Bytes ns ++ be16Bytes ar

theorem length_header {id flags qd an ns ar : UInt16} :
    (header id flags qd an ns ar).length = 12 := by
  simp only [header, List.length_append, be16Bytes, length_bigEndian]

/-- **A message** from its header, its questions and its records. -/
theorem parseMessage_of_has {id flags qd an ns ar : UInt16} {records : List Record}
    (hheader : Has buf 0 (header id flags qd an ns ar))
    (hquestions : skipQuestions buf qd.toNat 12 = .ok pos)
    (hrecords : readRecords buf (an.toNat + ns.toNat + ar.toNat) pos = .ok records) :
    parseMessage buf = .ok records := by
  have hlen := hheader.le_length
  rw [length_header] at hlen
  simp only [header, has_append, be16Bytes, length_bigEndian, List.length_append, Nat.zero_add] at hheader
  obtain ⟨⟨⟨⟨⟨-, -⟩, hqd⟩, han⟩, hns⟩, har⟩ := hheader
  rw [parseMessage, if_neg (by omega), be16_of_has hqd]
  simp only [bind, Except.bind]
  rw [be16_of_has han, be16_of_has hns, be16_of_has har]
  dsimp only
  rw [hquestions]
  exact hrecords

/-- A question is skipped. -/
theorem skipQuestions_of_has {qtype qclass : UInt16} (hname : WireName name)
    (h : Has buf 12 (pushName name ++ be16Bytes qtype ++ be16Bytes qclass)) :
    skipQuestions buf 1 12 = .ok (12 + (pushName name ++ be16Bytes qtype ++ be16Bytes qclass).length) := by
  have hlen := h.le_length
  rw [has_append, has_append] at h
  simp only [List.length_append, be16Bytes, length_bigEndian] at hlen ⊢
  rw [skipQuestions, readName_pushName h.1.1 hname]
  simp only [bind, Except.bind]
  rw [if_neg (by omega), skipQuestions]
  congr 1

end

end MatStack.Dnssd
