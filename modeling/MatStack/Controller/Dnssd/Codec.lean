import MatStack.Controller.Dnssd.Records
import MatStack.Lib.Wire

/-!
# The wire codec of service discovery

Questions are written, known answers are packed into as many packets as they need, and the records
of a message are read, with compression pointers. A reader that meets what it cannot read fails with
a text, and a step of the source that would panic fails with `panicked`, so that the absence of
panics is a statement about the readers.
-/

namespace MatStack.Dnssd

open Wire

def typePtr : UInt16 := 12
def typeTxt : UInt16 := 16
def typeAaaa : UInt16 := 28
def typeSrv : UInt16 := 33
def classIn : UInt16 := 1

/-- A question that wants a unicast answer. -/
def quClassIn : UInt16 := 0x8000 ||| classIn

def be16Bytes (v : UInt16) : Bytes := bigEndian 2 v.toNat
def be32Bytes (v : UInt32) : Bytes := bigEndian 4 v.toNat

/-- How reading ends badly. -/
inductive Fault where
  | malformed (what : String)
  | panicked
deriving Repr, DecidableEq

abbrev Parsed := Except Fault

/-! ## Writing -/

/-- A label with its length in front. -/
def pushLabel (label : Name) : Bytes := .ofNat (Utf8.size label) :: Utf8.encode label

/-- A name, label by label. -/
def pushName (name : Name) : Bytes := (name.splitOn '.').flatMap pushLabel ++ [0]

/-- A query with some questions, each for a name and a type. -/
def encodeQuery (id : UInt16) (questions : List (Name × UInt16)) : Bytes :=
  be16Bytes id ++ [0, 0] ++ be16Bytes (.ofNat questions.length) ++ [0, 0, 0, 0, 0, 0] ++
    questions.flatMap fun (name, qtype) => pushName name ++ be16Bytes qtype ++ be16Bytes quClassIn

/-- What a packet with known answers may take. -/
def knownAnswerPacketBudget : Nat := 1400

/-- A compression pointer to the name right after the header. -/
def pointer : Bytes := [0xC0, 0x0C]

/-- A known answer after its owner name: the label of the instance, and a pointer to the service. -/
def kaTail (label : Name) (ttl : UInt32) : Bytes :=
  be16Bytes typePtr ++ be16Bytes classIn ++ be32Bytes ttl ++
    be16Bytes (.ofNat (1 + Utf8.size label + 2)) ++ pushLabel label ++ pointer

/-- The known answers that are names below the service. `none` is a panic: the cut is not between
two characters. -/
def kaTails (service : Name) : List (Name × UInt32) → Option (List Bytes)
  | [] => some []
  | (name, ttl) :: known =>
    let suffix := '.' :: service
    if Utf8.size name ≤ Utf8.size suffix then kaTails service known
    else
      match Utf8.splitAt? name (Utf8.size name - Utf8.size suffix) with
      | none => none
      | some (label, tail) =>
        if !eqIgnoreAsciiCase tail suffix || label.isEmpty || Utf8.size label > 63 then
          kaTails service known
        else (kaTails service known).map (kaTail label ttl :: ·)

/-- The known answers by packets, the last packet apart, and its size so far. -/
structure Groups where
  full : List (List Bytes)
  last : List Bytes
  size : Nat

/-- One more known answer, into the last packet or a new one. A record names its owner by a pointer,
but for the first of a packet without a question. -/
def Groups.add (qname : Bytes) (g : Groups) (tail : Bytes) : Groups :=
  let nameLen := if g.full.isEmpty || !g.last.isEmpty then 2 else qname.length
  let recLen := nameLen + tail.length
  if g.last.isEmpty || g.size + recLen ≤ knownAnswerPacketBudget then
    { g with last := g.last ++ [tail], size := g.size + recLen }
  else ⟨g.full ++ [g.last], [tail], 12 + (qname.length + tail.length)⟩

/-- The records of a packet. The first one of a packet without a question spells the service. -/
def kaRecords (qname : Bytes) (first : Bool) : List Bytes → Bytes
  | [] => []
  | tail :: tails =>
    (if first then pointer else qname) ++ tail ++ tails.flatMap fun tail => pointer ++ tail

/-- A packet of known answers. -/
def kaPacket (qname question : Bytes) (first last : Bool) (tails : List Bytes) : Bytes :=
  be16Bytes 0 ++ be16Bytes (if last then 0 else 0x0200) ++ be16Bytes (if first then 1 else 0) ++
    be16Bytes (.ofNat tails.length) ++ [0, 0, 0, 0] ++ (if first then question else []) ++
    kaRecords qname first tails

/-- All packets: only the first has the question, all but the last announce more. -/
def kaPackets (qname question : Bytes) (groups : List (List Bytes)) : List Bytes :=
  groups.mapIdx fun i tails => kaPacket qname question (i == 0) (i + 1 == groups.length) tails

/-- A query for the instances of a service, with those that are known. `none` is a panic. -/
def encodePtrQueryWithKnown (service : Name) (known : List (Name × UInt32)) : Option (List Bytes) :=
  if known.isEmpty then some [encodeQuery 0 [(service, typePtr)]]
  else
    let qname := pushName service
    let question := qname ++ be16Bytes typePtr ++ be16Bytes classIn
    (kaTails service known).map fun tails =>
      if tails.isEmpty then [encodeQuery 0 [(service, typePtr)]]
      else
        let g := tails.foldl (Groups.add qname) ⟨[], [], 12 + question.length⟩
        kaPackets qname question (g.full ++ [g.last])

/-! ## Reading -/

/-- One more label of a name. -/
def joinLabel (out label : Name) : Name := if out.isEmpty then label else out ++ '.' :: label

/-- A name from a position on, and the position after it where it began. Pointers are followed for
so many hops. -/
def readNameFrom (buf : Bytes) (pos : Nat) (out : Name) (next : Option Nat) (hops : Nat) :
    Parsed (Name × Nat) :=
  match hlen : buf[pos]? with
  | none => .error (.malformed "name past end")
  | some len =>
    if len = 0 then .ok (out, next.getD (pos + 1))
    else if len &&& 0xC0 = 0xC0 then
      match buf[pos + 1]? with
      | none => .error (.malformed "pointer past end")
      | some lo =>
        if hhops : hops + 1 > 32 then .error (.malformed "compression pointer loop")
        else
          readNameFrom buf ((len &&& 0x3F).toNat <<< 8 ||| lo.toNat) out (some (next.getD (pos + 2)))
            (hops + 1)
    else if len &&& 0xC0 ≠ 0 then .error (.malformed "reserved label type")
    else
      match slice buf (pos + 1) (pos + 1 + len.toNat) with
      | none => .error (.malformed "label past end")
      | some label =>
        readNameFrom buf (pos + 1 + len.toNat) (joinLabel out (Utf8.decodeLossy label)) next hops
termination_by (33 - hops, buf.length - pos)
decreasing_by
  · exact Prod.Lex.left _ _ (by omega)
  · have hpos : pos < buf.length := (List.getElem?_eq_some_iff.1 hlen).1
    exact Prod.Lex.right _ (by omega)

def readName (buf : Bytes) (pos : Nat) : Parsed (Name × Nat) := readNameFrom buf pos [] none 0

def be16 (buf : Bytes) (pos : Nat) : Parsed UInt16 :=
  match slice buf pos (pos + 2) with
  | none => .error (.malformed "truncated")
  | some bs => if bs.length = 2 then .ok (.ofNat (ofBigEndian bs)) else .error .panicked

def be32 (buf : Bytes) (pos : Nat) : Parsed UInt32 :=
  match slice buf pos (pos + 4) with
  | none => .error (.malformed "truncated")
  | some bs => if bs.length = 4 then .ok (.ofNat (ofBigEndian bs)) else .error .panicked

/-- A byte that must be there. -/
def byteAt (bs : Bytes) (i : Nat) : Parsed UInt8 :=
  match bs[i]? with
  | none => .error .panicked
  | some b => .ok b

/-- Strings with their lengths in front. -/
def readStrings : Bytes → Parsed (List Bytes)
  | [] => .ok []
  | n :: bs =>
    if n.toNat ≤ bs.length then do
      let strings ← readStrings (bs.drop n.toNat)
      return bs.take n.toNat :: strings
    else .error (.malformed "txt string past end")
termination_by bs => bs.length
decreasing_by
  rw [List.length_drop, List.length_cons]
  omega

/-- The data of a record, which is at a position of the message. -/
def readRData (buf : Bytes) (rtype : UInt16) (rdataPos : Nat) (rdata : Bytes) : Parsed RData :=
  if rtype = typePtr then
    -- a name that cannot be read does not spoil the other records
    match readName buf rdataPos with
    | .ok (name, _) => .ok (.ptr name)
    | .error .panicked => .error .panicked
    | .error (.malformed _) => .ok .other
  else if rtype = typeSrv then
    if rdata.length < 7 then .error (.malformed "short srv rdata")
    else do
      let hi ← byteAt rdata 4
      let lo ← byteAt rdata 5
      let (target, _) ← readName buf (rdataPos + 6)
      return .srv (.ofNat (ofBigEndian [hi, lo])) target
  else if rtype = typeTxt then do return .txt (← readStrings rdata)
  else if rtype = typeAaaa then
    if h : rdata.length = 16 then .ok (.aaaa ⟨rdata, h⟩)
    else .error (.malformed "aaaa rdata not 16 bytes")
  else .ok .other

/-- A record at a position, and the position after it. -/
def readRecord (buf : Bytes) (pos : Nat) : Parsed (Record × Nat) := do
  let (name, p) ← readName buf pos
  let rtype ← be16 buf p
  let cls ← be16 buf (p + 2)
  let ttl ← be32 buf (p + 4)
  let rdlen ← be16 buf (p + 8)
  match slice buf (p + 10) (p + 10 + rdlen.toNat) with
  | none => .error (.malformed "rdata past end")
  | some bytes => do
    let rdata ← readRData buf rtype (p + 10) bytes
    return (⟨name, rdata, ttl, cls &&& 0x8000 ≠ 0⟩, p + 10 + rdlen.toNat)

/-- The position after some questions. -/
def skipQuestions (buf : Bytes) : Nat → Nat → Parsed Nat
  | 0, pos => .ok pos
  | n + 1, pos => do
    let (_, p) ← readName buf pos
    if p + 4 > buf.length then .error (.malformed "truncated question")
    else skipQuestions buf n (p + 4)

def readRecords (buf : Bytes) : Nat → Nat → Parsed (List Record)
  | 0, _ => .ok []
  | n + 1, pos => do
    let (r, p) ← readRecord buf pos
    let rs ← readRecords buf n p
    return r :: rs

/-- The answer, authority and additional records of a message. -/
def parseMessage (buf : Bytes) : Parsed (List Record) :=
  if buf.length < 12 then .error (.malformed "short header")
  else do
    let qd ← be16 buf 4
    let an ← be16 buf 6
    let ns ← be16 buf 8
    let ar ← be16 buf 10
    let pos ← skipQuestions buf qd.toNat 12
    readRecords buf (an.toNat + ns.toNat + ar.toNat) pos

end MatStack.Dnssd
