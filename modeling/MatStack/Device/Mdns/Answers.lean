import MatStack.Controller.Dnssd.CodecRoundTrip
import MatStack.Device.Mdns.Advertiser

/-!
# Answers to queries

The device reads the questions of a datagram, as many as it can read, and answers each name once,
with one message for each advert that has the name. Its reader of names is a copy of the
controller's and reads the same (`readName_eq`), so the questions of a query are read as they were
asked (`parseQuestions_encodeQuery`).
-/

namespace MatStack.Mdns

open Wire
open Dnssd hiding pushLabel pushName readNameFrom readName

/-! ## Reading -/

/-- A name from a position on, and the position after it where it began. Pointers are followed for
so many hops. -/
def readNameFrom (buf : Bytes) (pos : Nat) (out : Name) (next : Option Nat) (hops : Nat) :
    Option (Name × Nat) :=
  match hlen : buf[pos]? with
  | none => none
  | some len =>
    if len = 0 then some (out, next.getD (pos + 1))
    else if len &&& 0xC0 = 0xC0 then
      match buf[pos + 1]? with
      | none => none
      | some lo =>
        if hhops : hops + 1 > 32 then none
        else
          readNameFrom buf ((len &&& 0x3F).toNat <<< 8 ||| lo.toNat) out (some (next.getD (pos + 2)))
            (hops + 1)
    else if len &&& 0xC0 ≠ 0 then none
    else
      match slice buf (pos + 1) (pos + 1 + len.toNat) with
      | none => none
      | some label =>
        readNameFrom buf (pos + 1 + len.toNat) (joinLabel out (Utf8.decodeLossy label)) next hops
termination_by (33 - hops, buf.length - pos)
decreasing_by
  · exact Prod.Lex.left _ _ (by omega)
  · have hpos : pos < buf.length := (List.getElem?_eq_some_iff.1 hlen).1
    exact Prod.Lex.right _ (by omega)

def readName (buf : Bytes) (pos : Nat) : Option (Name × Nat) := readNameFrom buf pos [] none 0

/-- Some questions from a position on, up to the first that cannot be read. -/
def parseQuestionsFrom (buf : Bytes) : Nat → Nat → List (Name × UInt16 × Bool)
  | 0, _ => []
  | n + 1, pos =>
    match readName buf pos with
    | none => []
    | some (name, p) =>
      match slice buf p (p + 2), slice buf (p + 2) (p + 4) with
      | some qtype, some qclass =>
        -- the top bit of the class asks for a unicast answer
        (name, .ofNat (ofBigEndian qtype), UInt16.ofNat (ofBigEndian qclass) &&& 0x8000 ≠ 0) ::
          parseQuestionsFrom buf n (p + 4)
      | _, _ => []

/-- The questions of a message: names, types, and whether a unicast answer is asked for. -/
def parseQuestions (buf : Bytes) : List (Name × UInt16 × Bool) :=
  if buf.length < 12 then []
  else parseQuestionsFrom buf (ofBigEndian ((buf.drop 4).take 2)) 12

/-! ## Answering -/

namespace MdnsAdvertiser

/-- The answers to one name. -/
def respond (a : MdnsAdvertiser) (name : Name) (qu : Bool) : List Bytes :=
  (a.commissionable.bind (encodeCommissionableResponse name · qu)).toList ++
    a.operational.filterMap (encodeOperationalResponse name · qu)

/-- The answers to some questions, each with whether it goes to the asker alone. A name is answered
once. -/
def answer (a : MdnsAdvertiser) : List (Name × UInt16 × Bool) → List Name → List (Bool × Bytes)
  | [], _ => []
  | (name, _, qu) :: questions, answered =>
    if answered.any (eqIgnoreAsciiCase · name) then a.answer questions answered
    else (a.respond name qu).map (qu, ·) ++ a.answer questions (answered ++ [name])

/-- The answers to a datagram. -/
def serve (a : MdnsAdvertiser) (datagram : Bytes) : List (Bool × Bytes) :=
  a.answer (parseQuestions datagram) []

end MdnsAdvertiser

/-! ## What is read -/

section
variable {buf : Bytes} {pos n : Nat} {questions : List (Name × UInt16)}

/-- **The two readers of names agree.** -/
theorem readNameFrom_eq (buf : Bytes) (pos : Nat) (out : Name) (next : Option Nat) (hops : Nat) :
    readNameFrom buf pos out next hops = (Dnssd.readNameFrom buf pos out next hops).toOption := by
  fun_induction readNameFrom buf pos out next hops with
  | case1 pos out next hops hlen =>
    rw [readNameFrom_of_none hlen]
    rfl
  | case2 pos out next hops hlen =>
    rw [readNameFrom_of_some hlen, if_pos rfl]
    rfl
  | case3 pos out next hops len hlen hne hptr hlo =>
    rw [readNameFrom_of_some hlen, if_neg hne, if_pos hptr, hlo]
    rfl
  | case4 pos out next hops len hlen hne hptr lo hlo hhops =>
    rw [readNameFrom_of_some hlen, if_neg hne, if_pos hptr, hlo]
    dsimp only
    rw [if_pos hhops]
    rfl
  | case5 pos out next hops len hlen hne hptr lo hlo hhops ih =>
    rw [readNameFrom_of_some hlen, if_neg hne, if_pos hptr, hlo]
    dsimp only
    rw [if_neg hhops]
    exact ih
  | case6 pos out next hops len hlen hne hptr hres =>
    rw [readNameFrom_of_some hlen, if_neg hne, if_neg hptr, if_pos hres]
    rfl
  | case7 pos out next hops len hlen hne hptr hres hslice =>
    rw [readNameFrom_of_some hlen, if_neg hne, if_neg hptr, if_neg hres, hslice]
    rfl
  | case8 pos out next hops len hlen hne hptr hres label hslice ih =>
    rw [readNameFrom_of_some hlen, if_neg hne, if_neg hptr, if_neg hres, hslice]
    exact ih

theorem readName_eq : readName buf pos = (Dnssd.readName buf pos).toOption := readNameFrom_eq ..

/-- A name that is spelled out. -/
theorem readName_pushName {name : Name} (h : Has buf pos (Dnssd.pushName name)) (hname : WireName name) :
    readName buf pos = some (name, pos + (Dnssd.pushName name).length) := by
  rw [readName_eq, Dnssd.readName_pushName h hname]
  rfl

theorem slice_of_has_be16 {v : UInt16} (h : Has buf pos (be16Bytes v)) :
    slice buf pos (pos + 2) = some (be16Bytes v) := by
  have hslice := h.slice
  rwa [be16Bytes, length_bigEndian] at hslice

theorem ofBigEndian_be16Bytes (v : UInt16) : UInt16.ofNat (ofBigEndian (be16Bytes v)) = v := by
  rw [be16Bytes, ofBigEndian_bigEndian v.toNat_lt, UInt16.ofNat_toNat]

/-- Questions, one after the other. -/
theorem parseQuestionsFrom_of_has (hnames : ∀ x ∈ questions, WireName x.1)
    (h : Has buf pos (questions.flatMap fun (name, qtype) =>
      Dnssd.pushName name ++ be16Bytes qtype ++ be16Bytes quClassIn)) :
    parseQuestionsFrom buf questions.length pos =
      questions.map fun (name, qtype) => (name, qtype, true) := by
  induction questions generalizing pos with
  | nil => rfl
  | cons x questions ih =>
    obtain ⟨name, qtype⟩ := x
    rw [List.flatMap_cons, has_append, has_append, has_append] at h
    obtain ⟨⟨⟨hname, htype⟩, hclass⟩, hrest⟩ := h
    simp only [List.length_append, be16Bytes, length_bigEndian, ← Nat.add_assoc] at hclass hrest
    have hih := ih (fun y hy => hnames y (List.mem_cons_of_mem _ hy)) hrest
    rw [List.length_cons, parseQuestionsFrom,
      readName_pushName hname (hnames _ List.mem_cons_self)]
    dsimp only
    rw [slice_of_has_be16 htype, slice_of_has_be16 hclass]
    dsimp only
    rw [ofBigEndian_be16Bytes, ofBigEndian_be16Bytes, hih]
    rfl

/-- **The questions of a query** are read as they were asked. -/
theorem parseQuestions_encodeQuery {id : UInt16} (hnames : ∀ x ∈ questions, WireName x.1)
    (hlen : questions.length < 65536) :
    parseQuestions (encodeQuery id questions) =
      questions.map fun (name, qtype) => (name, qtype, true) := by
  have hnat : (UInt16.ofNat questions.length).toNat = questions.length := by
    rw [UInt16.toNat_ofNat', Nat.mod_eq_of_lt hlen]
  have hhead : (be16Bytes id ++ [0, 0] ++ be16Bytes (.ofNat questions.length) ++
      [0, 0, 0, 0, 0, 0]).length = 12 := by
    simp only [List.length_append, be16Bytes, length_bigEndian, List.length_cons, List.length_nil]
  have hqd : ((encodeQuery id questions).drop 4).take 2 = be16Bytes (.ofNat questions.length) := by
    have hfour : (be16Bytes id ++ [0, 0]).length = 4 := by
      simp only [List.length_append, be16Bytes, length_bigEndian, List.length_cons, List.length_nil]
    rw [encodeQuery, List.append_assoc, List.append_assoc, ← hfour, List.drop_left]
    exact List.take_left' (by rw [be16Bytes, length_bigEndian])
  rw [parseQuestions, if_neg (by rw [encodeQuery, List.length_append, hhead]; omega), hqd, be16Bytes,
    ofBigEndian_bigEndian (UInt16.toNat_lt _), hnat]
  refine parseQuestionsFrom_of_has hnames ?_
  rw [← hhead, ← List.append_nil (encodeQuery id questions)]
  exact has_append_append _ _ _

end

end MatStack.Mdns
