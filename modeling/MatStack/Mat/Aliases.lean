import Mathlib.Tactic.Linarith
import MatStack.Lib.Checked
import MatStack.Lib.Numeral
import MatStack.Lib.Text

/-!
# Aliases

`aliases.toml` gives names to nodes, groups and endpoints. A name that is typed is read as a number
where it can be, and looked up otherwise; the endpoints of a node stand in sections under its number
or under an alias of it. What a name comes to is what the file says, and a node that is removed
leaves nothing behind, as long as no name and no section is a number in disguise (`Plain`): a name
may not consist of digits, but the numbers that are read may also have a sign, and a section may
give its number with a sign or with zeros in front.

The text of the file is left to the TOML library; a file is the value that its text stands for.
-/

namespace MatStack

/-- A map from texts, in the order of the texts. -/
abbrev TextMap (β : Type) := Std.ExtTreeMap (List Char) β compare

/-! ## References -/

/-- What is typed for a node, a group or an endpoint. -/
inductive Ref (ν : Type) where
  | id (n : ν)
  | alias (name : List Char)
deriving DecidableEq

def parseU64 (s : List Char) : Option UInt64 := (Text.parseUnsigned 64 s).map UInt64.ofNat

def parseU16 (s : List Char) : Option UInt16 := (Text.parseUnsigned 16 s).map UInt16.ofNat

/-- A number where the text is one, else an alias. -/
def Ref.fromStr {ν : Type} (parse : List Char → Option ν) (s : List Char) : Ref ν :=
  match parse s with
  | some n => .id n
  | none => .alias s

abbrev NodeRef := Ref UInt64

abbrev GroupRef := Ref UInt16

abbrev EndpointRef := Ref UInt16

def NodeRef.fromStr (s : List Char) : NodeRef := Ref.fromStr parseU64 s

def GroupRef.fromStr (s : List Char) : GroupRef := Ref.fromStr parseU16 s

def EndpointRef.fromStr (s : List Char) : EndpointRef := Ref.fromStr parseU16 s

/-! ## The file -/

structure AliasFile where
  version : UInt32
  nodes : TextMap UInt64
  groups : TextMap UInt16
  /-- The endpoints of a node, under an alias of it or its number. -/
  endpoints : TextMap (TextMap UInt16)
  colors : TextMap (List Char)
  thread : TextMap (List Char)

def aliasVersion : UInt32 := 1

def AliasFile.default : AliasFile := ⟨aliasVersion, ∅, ∅, ∅, ∅, ∅⟩

inductive AliasError where
  | invalidName (name : List Char)
  | emptyNodeKey
  | invalidColor (name : List Char)
  | invalidThread (key : List Char)
  | unknownNode (name : List Char) (known : List (List Char))
  | unknownGroup (name : List Char) (known : List (List Char))
  | unknownEndpoint (name : List Char) (nodeId : UInt64) (known : List (List Char))
  | exists (name : List Char)
  | save
deriving DecidableEq

/-- A name is not empty and not all digits. -/
def isValidAliasName (name : List Char) : Bool := !name.isEmpty && !name.all Char.isDigit

def isHexDigit (c : Char) : Bool :=
  c.isDigit || ('a' ≤ c && c ≤ 'f') || ('A' ≤ c && c ≤ 'F')

/-- Two digits to the base sixteen. -/
def hexByte (a b : Char) : UInt8 :=
  UInt8.ofNat (16 * Numeral.digitValue a + Numeral.digitValue b)

/-- The colour that a text stands for: three numbers, or six digits to the base sixteen. -/
def parseRgb (s : List Char) : Option (UInt8 × UInt8 × UInt8) :=
  let t := Text.trim s
  if t.contains ',' then
    match (t.splitOn ',').map Text.trim with
    | [r, g, b] => do
      return (UInt8.ofNat (← Text.parseUnsigned 8 r), UInt8.ofNat (← Text.parseUnsigned 8 g),
        UInt8.ofNat (← Text.parseUnsigned 8 b))
    | _ => none
  else
    let hex := if t.head? = some '#' then t.tail else t
    match hex with
    | [a, b, c, d, e, f] =>
      if hex.all isHexDigit then some (hexByte a b, hexByte c d, hexByte e f) else none
    | _ => none

namespace AliasFile

variable (f : AliasFile)

/-- The names of nodes, groups, endpoints and colours. -/
def aliasNames : List (List Char) :=
  f.nodes.keys ++ f.groups.keys ++ f.endpoints.toList.flatMap (·.2.keys) ++ f.colors.keys

def validate : Except AliasError Unit :=
  match f.aliasNames.find? (!isValidAliasName ·) with
  | some name => .error (.invalidName name)
  | none =>
    if f.endpoints.keys.any List.isEmpty then .error .emptyNodeKey
    else
      match f.colors.toList.find? fun c => (parseRgb c.2).isNone with
      | some c => .error (.invalidColor c.1)
      | none =>
        match f.thread.toList.find? fun t =>
            !(t.1.length == 16 && t.1.all isHexDigit) || t.2.isEmpty with
        | some t => .error (.invalidThread t.1)
        | none => .ok ()

/-- The node that a section is for: a number, else an alias. -/
def outerId (outer : List Char) : Option UInt64 := parseU64 outer <|> f.nodes[outer]?

end AliasFile

/-! ## The book -/

/-- What was read, and whether there was a file. -/
structure AliasBook where
  file : AliasFile
  present : Bool

namespace AliasBook

/-- Reads the file, which may be absent. -/
def load (disk : Option AliasFile) : Except AliasError AliasBook :=
  match disk with
  | none => .ok ⟨.default, false⟩
  | some file =>
    match file.validate with
    | .error e => .error e
    | .ok () => .ok ⟨file, true⟩

variable (b : AliasBook)

def resolveNode : NodeRef → Except AliasError UInt64
  | .id n => .ok n
  | .alias name =>
    match b.file.nodes[name]? with
    | some n => .ok n
    | none => .error (.unknownNode name b.file.nodes.keys)

def resolveGroup : GroupRef → Except AliasError UInt16
  | .id n => .ok n
  | .alias name =>
    match b.file.groups[name]? with
    | some n => .ok n
    | none => .error (.unknownGroup name b.file.groups.keys)

/-- The sections of a node. -/
def sectionsOf (nodeId : UInt64) : List (TextMap UInt16) :=
  (b.file.endpoints.toList.filter fun s => b.file.outerId s.1 = some nodeId).map Prod.snd

/-- An alias of an endpoint is looked up in the sections of its node, one after the other. -/
def resolveEndpoint (nodeId : UInt64) : EndpointRef → Except AliasError UInt16
  | .id n => .ok n
  | .alias name =>
    match (b.sectionsOf nodeId).findSome? (·[name]?) with
    | some ep => .ok ep
    | none => .error (.unknownEndpoint name nodeId ((b.sectionsOf nodeId).flatMap (·.keys)))

/-- The node, and then the endpoint on it. -/
def resolveNodeEndpoint (node : NodeRef) (endpoint : EndpointRef) :
    Except AliasError (NodeRef × EndpointRef) := do
  let n ← b.resolveNode node
  let e ← b.resolveEndpoint n endpoint
  return (.id n, .id e)

def validateNewNodeAlias (name : List Char) : Except AliasError Unit :=
  if !isValidAliasName name then .error (.invalidName name)
  else if b.file.nodes.contains name then .error (.exists name)
  else .ok ()

end AliasBook

/-- A book and the file it was read from. -/
structure AliasStore where
  book : AliasBook
  disk : Option AliasFile

namespace AliasStore

/-- Writes the book back. -/
def save (s : AliasStore) (saved : Except AliasError Unit) : Except AliasError Unit × AliasStore :=
  match saved with
  | .error e => (.error e, s)
  | .ok () => (.ok (), ⟨{ s.book with present := true }, some s.book.file⟩)

/-- Adds an alias of a node. -/
def insertNodeAlias (s : AliasStore) (name : List Char) (nodeId : UInt64)
    (saved : Except AliasError Unit) : Except AliasError Unit × AliasStore :=
  match s.book.validateNewNodeAlias name with
  | .error e => (.error e, s)
  | .ok () =>
    let file := { s.book.file with nodes := s.book.file.nodes.insert name nodeId }
    save { s with book := { s.book with file } } saved

/-- Removes an alias and the endpoints under it. -/
def removeAlias (r : AliasFile × Bool) (name : List Char) : AliasFile × Bool :=
  ({ r.1 with
      nodes := r.1.nodes.erase name
      endpoints := r.1.endpoints.erase name }, r.2 || r.1.endpoints.contains name)

/-- Removes the aliases of a node and the endpoints under them and under its number. Nothing is
written if nothing was removed. -/
def removeNode (s : AliasStore) (nodeId : UInt64) (saved : Except AliasError Unit) :
    Except AliasError (List (List Char)) × AliasStore :=
  if !s.book.present then (.ok [], s)
  else
    let names := (s.book.file.nodes.toList.filter (·.2 = nodeId)).map Prod.fst
    let (file, changed) := names.foldl removeAlias (s.book.file, false)
    let digits := Nat.toDigits 10 nodeId.toNat
    let changed := changed || file.endpoints.contains digits
    let file := { file with endpoints := file.endpoints.erase digits }
    let s := { s with book := { s.book with file } }
    if !names.isEmpty || changed then
      match save s saved with
      | (.ok (), s) => (.ok names, s)
      | (.error e, s) => (.error e, s)
    else (.ok names, s)

end AliasStore

/-! ## Numerals -/

section
variable {name : List Char} {n : UInt64}

/-- A number in digits is read. -/
theorem parseU64_toDigits (n : UInt64) : parseU64 (Nat.toDigits 10 n.toNat) = some n := by
  rw [parseU64, Text.parseUnsigned_toDigits n.toNat_lt]
  exact congrArg some UInt64.ofNat_toNat

/-- What digits are read as. -/
theorem parseUnsigned_digits {w : Nat} {s : List Char} (hne : s ≠ [])
    (hdigits : s.all Char.isDigit) :
    Text.parseUnsigned w s =
      if Nat.ofDigitChars 10 s 0 < 2 ^ w then some (Nat.ofDigitChars 10 s 0) else none := by
  have hunsign : Text.unsign s = s := by
    unfold Text.unsign
    split
    · simp at hdigits
    · rfl
  rw [Text.parseUnsigned, hunsign]
  simp [hne, hdigits]

theorem fromStr_of_none {ν : Type} {parse : List Char → Option ν} {s : List Char}
    (h : parse s = none) : Ref.fromStr parse s = .alias s := by
  rw [Ref.fromStr, h]

theorem fromStr_of_some {ν : Type} {parse : List Char → Option ν} {s : List Char} {n : ν}
    (h : parse s = some n) : Ref.fromStr parse s = .id n := by
  rw [Ref.fromStr, h]

end

/-! ## Maps -/

section
variable {β : Type} {m : TextMap β} {k a : List Char} {names : List (List Char)}

theorem getElem?_erase_text : (m.erase k)[a]? = if k = a then none else m[a]? := by
  rw [Std.ExtTreeMap.getElem?_erase]
  simp only [Std.LawfulEqOrd.compare_eq_iff_eq]

theorem getElem?_foldl_erase :
    (names.foldl Std.ExtTreeMap.erase m)[a]? = if a ∈ names then none else m[a]? := by
  induction names generalizing m with
  | nil => simp
  | cons name names ih =>
    rw [List.foldl_cons, ih, getElem?_erase_text]
    by_cases hmem : a ∈ names
    · rw [if_pos hmem, if_pos (List.mem_cons_of_mem _ hmem)]
    · by_cases hname : name = a
      · rw [if_neg hmem, if_pos hname, if_pos (hname ▸ List.mem_cons_self)]
      · rw [if_neg hmem, if_neg hname, if_neg fun h => (List.mem_cons.1 h).elim
          (fun h => hname h.symm) hmem]

theorem erase_of_not_contains (h : m.contains k = false) : m.erase k = m := by
  refine Std.ExtTreeMap.ext_getElem? fun {a} => ?_
  rw [getElem?_erase_text]
  split
  · next hk =>
    rw [← hk, getElem?_neg]
    rwa [← Std.ExtTreeMap.contains_iff_mem, Bool.not_eq_true]
  · rfl

theorem mem_toList_iff {v : β} : (k, v) ∈ m.toList ↔ m[k]? = some v :=
  Std.ExtTreeMap.mem_toList_iff_getElem?_eq_some

end

/-! ## What a removal does -/

/-- The file without the aliases of a node, the sections under them, and the section under its
number. -/
structure AliasFile.Removed (f f' : AliasFile) (n : UInt64) : Prop where
  nodes : ∀ a : List Char, f'.nodes[a]? = if f.nodes[a]? = some n then none else f.nodes[a]?
  endpoints : ∀ o : List Char, f'.endpoints[o]? =
    if f.nodes[o]? = some n ∨ o = Nat.toDigits 10 n.toNat then none else f.endpoints[o]?
  groups : f'.groups = f.groups
  colors : f'.colors = f.colors
  thread : f'.thread = f.thread

namespace AliasStore

variable {s s' : AliasStore} {f : AliasFile} {n : UInt64} {saved : Except AliasError Unit}
  {names : List (List Char)}

theorem foldl_removeAlias (names : List (List Char)) (f : AliasFile) (changed : Bool) :
    (names.foldl removeAlias (f, changed)).1 =
      { f with
        nodes := names.foldl Std.ExtTreeMap.erase f.nodes
        endpoints := names.foldl Std.ExtTreeMap.erase f.endpoints } := by
  induction names generalizing f changed with
  | nil => rfl
  | cons name names ih =>
    rw [List.foldl_cons, removeAlias, ih]
    rfl

/-- The names that a removal finds. -/
theorem mem_names_iff {a : List Char} :
    a ∈ (f.nodes.toList.filter (·.2 = n)).map Prod.fst ↔ f.nodes[a]? = some n := by
  rw [List.mem_map]
  constructor
  · rintro ⟨⟨a, v⟩, hmem, rfl⟩
    obtain ⟨hmem, hv⟩ := List.mem_filter.1 hmem
    rw [mem_toList_iff.1 hmem]
    exact congrArg some (of_decide_eq_true hv)
  · intro h
    exact ⟨(a, n), List.mem_filter.2 ⟨mem_toList_iff.2 h, decide_eq_true rfl⟩, rfl⟩

/-- The file that is left. -/
theorem removed_erase (f : AliasFile) (n : UInt64) (changed : Bool) :
    let file := (((f.nodes.toList.filter (·.2 = n)).map Prod.fst).foldl removeAlias (f, changed)).1
    f.Removed { file with endpoints := file.endpoints.erase (Nat.toDigits 10 n.toNat) } n := by
  intro file
  have hfile : file = _ := foldl_removeAlias _ f changed
  refine ⟨fun a => ?_, fun o => ?_, ?_, ?_, ?_⟩
  · rw [hfile]
    dsimp only
    rw [getElem?_foldl_erase]
    by_cases ha : f.nodes[a]? = some n
    · rw [if_pos (mem_names_iff.2 ha), if_pos ha]
    · rw [if_neg (mt mem_names_iff.1 ha), if_neg ha]
  · rw [hfile]
    dsimp only
    rw [getElem?_erase_text, getElem?_foldl_erase]
    by_cases hdigits : o = Nat.toDigits 10 n.toNat
    · rw [if_pos hdigits.symm, if_pos (.inr hdigits)]
    · rw [if_neg (Ne.symm hdigits)]
      by_cases ho : f.nodes[o]? = some n
      · rw [if_pos (mem_names_iff.2 ho), if_pos (.inl ho)]
      · rw [if_neg (mt mem_names_iff.1 ho), if_neg (not_or.2 ⟨ho, hdigits⟩)]
  · rw [hfile]
  · rw [hfile]
  · rw [hfile]

/-- A removal that succeeds. -/
theorem removeNode_ok (hpresent : s.book.present = true)
    (h : s.removeNode n saved = (.ok names, s')) :
    s.book.file.Removed s'.book.file n ∧
      (s' = s ∨ s'.book.present = true ∧ s'.disk = some s'.book.file) := by
  have hremoved := removed_erase s.book.file n false
  rw [removeNode, hpresent, Bool.not_true, if_neg Bool.false_ne_true] at h
  dsimp only at h hremoved
  split at h
  · cases saved with
    | error e => cases h
    | ok =>
      cases h
      exact ⟨hremoved, .inr ⟨rfl, rfl⟩⟩
  · next hquiet =>
    cases h
    refine ⟨hremoved, .inl ?_⟩
    simp only [Bool.or_eq_true, Bool.not_eq_true', not_or, Bool.not_eq_true,
      Bool.not_eq_false, List.isEmpty_iff] at hquiet
    obtain ⟨hempty, -, hdigits⟩ := hquiet
    rw [hempty, List.foldl_nil] at hdigits ⊢
    dsimp only at hdigits ⊢
    rw [erase_of_not_contains hdigits]

/-- A removal where there is nothing to write succeeds, and so does one that is written. -/
theorem exists_removeNode (s : AliasStore) (n : UInt64) :
    ∃ names s', s.removeNode n (.ok ()) = (.ok names, s') := by
  rw [removeNode]
  split
  · exact ⟨_, _, rfl⟩
  · dsimp only
    split
    · exact ⟨_, _, rfl⟩
    · exact ⟨_, _, rfl⟩

end AliasStore

/-! ## What a file may hold -/

/-- No name that is a number is a name of anything else; the sections of a node agree; and a section
with a number is the one that a removal looks for. -/
structure AliasFile.Plain (f : AliasFile) : Prop where
  nodes : ∀ (name : List Char) (n k : UInt64),
    f.nodes[name]? = some n → parseU64 name = some k → k = n
  groups : ∀ (name : List Char) (n k : UInt16),
    f.groups[name]? = some n → parseU16 name = some k → k = n
  endpoints : ∀ (outer : List Char) (eps : TextMap UInt16) (n : UInt64) (name : List Char)
    (ep k : UInt16), f.endpoints[outer]? = some eps → f.outerId outer = some n →
    eps[name]? = some ep → parseU16 name = some k → k = ep
  sections : ∀ (outer outer' : List Char) (eps eps' : TextMap UInt16) (n : UInt64)
    (name : List Char) (ep ep' : UInt16), f.endpoints[outer]? = some eps →
    f.endpoints[outer']? = some eps' → f.outerId outer = some n → f.outerId outer' = some n →
    eps[name]? = some ep → eps'[name]? = some ep' → ep = ep'
  numbers : ∀ (outer : List Char) (eps : TextMap UInt16) (n : UInt64) (name : List Char)
    (ep : UInt16), f.endpoints[outer]? = some eps → eps[name]? = some ep →
    parseU64 outer = some n → outer = Nat.toDigits 10 n.toNat ∨ f.nodes[outer]? = some n

namespace AliasBook

variable (b : AliasBook)

/-- What a name comes to when it is typed is what the file says. -/
structure Faithful : Prop where
  nodes : ∀ (name : List Char) (n : UInt64), b.file.nodes[name]? = some n →
    b.resolveNode (NodeRef.fromStr name) = .ok n
  groups : ∀ (name : List Char) (n : UInt16), b.file.groups[name]? = some n →
    b.resolveGroup (GroupRef.fromStr name) = .ok n
  endpoints : ∀ (outer : List Char) (eps : TextMap UInt16) (n : UInt64) (name : List Char)
    (ep : UInt16), b.file.endpoints[outer]? = some eps → b.file.outerId outer = some n →
    eps[name]? = some ep → b.resolveEndpoint n (EndpointRef.fromStr name) = .ok ep

/-- A text that is read as a number is that number, and digits are no other. -/
structure Numeric : Prop where
  nodes : ∀ (s : List Char) (k : UInt64), parseU64 s = some k →
    b.resolveNode (NodeRef.fromStr s) = .ok k
  groups : ∀ (s : List Char) (k : UInt16), parseU16 s = some k →
    b.resolveGroup (GroupRef.fromStr s) = .ok k
  endpoints : ∀ (n : UInt64) (s : List Char) (k : UInt16), parseU16 s = some k →
    b.resolveEndpoint n (EndpointRef.fromStr s) = .ok k
  nodeDigits : ∀ (s : List Char) (k : UInt64), s.all Char.isDigit →
    b.resolveNode (NodeRef.fromStr s) = .ok k → k.toNat = Nat.ofDigitChars 10 s 0
  groupDigits : ∀ (s : List Char) (k : UInt16), s.all Char.isDigit →
    b.resolveGroup (GroupRef.fromStr s) = .ok k → k.toNat = Nat.ofDigitChars 10 s 0
  endpointDigits : ∀ (n : UInt64) (s : List Char) (k : UInt16), s.all Char.isDigit →
    b.resolveEndpoint n (EndpointRef.fromStr s) = .ok k → k.toNat = Nat.ofDigitChars 10 s 0

/-- A node may be named by its number or by an alias. -/
def AgreesOnNodes : Prop :=
  ∀ (name : List Char) (n : UInt64) (e : EndpointRef), b.file.nodes[name]? = some n →
    b.resolveNodeEndpoint (NodeRef.fromStr name) e =
      b.resolveNodeEndpoint (NodeRef.fromStr (Nat.toDigits 10 n.toNat)) e

/-- After the removal of a node no name comes to it and no name is one of its endpoints, all other
nodes keep theirs, and the file that is read back is the same. -/
structure Forgets (n : UInt64) (s' : AliasStore) : Prop where
  nodes : ∀ name : List Char, s'.book.resolveNode (.alias name) ≠ .ok n
  typed : ∀ (name : List Char) (m : UInt64), s'.book.file.nodes[name]? = some m →
    s'.book.resolveNode (NodeRef.fromStr name) ≠ .ok n
  endpoints : ∀ (name : List Char) (ep : UInt16), s'.book.resolveEndpoint n (.alias name) ≠ .ok ep
  others : ∀ (name : List Char) (m : UInt64), b.file.nodes[name]? = some m → m ≠ n →
    s'.book.resolveNode (NodeRef.fromStr name) = b.resolveNode (NodeRef.fromStr name)
  otherEndpoints : ∀ (m : UInt64) (e : EndpointRef), m ≠ n →
    s'.book.resolveEndpoint m e = b.resolveEndpoint m e
  groups : s'.book.file.groups = b.file.groups
  reload : load s'.disk = .ok s'.book

end AliasBook

/-! ## Accepted files -/

section
variable {f f' : AliasFile} {n : UInt64} {a : List Char}

theorem mem_keys_iff {β : Type} {m : TextMap β} {k : List Char} :
    k ∈ m.keys ↔ ∃ v, m[k]? = some v := by
  rw [Std.ExtTreeMap.mem_keys, Std.ExtTreeMap.mem_iff_isSome_getElem?, Option.isSome_iff_exists]

theorem AliasFile.mem_aliasNames :
    a ∈ f.aliasNames ↔ (∃ n, f.nodes[a]? = some n) ∨ (∃ n, f.groups[a]? = some n) ∨
      (∃ (o : List Char) (eps : TextMap UInt16) (ep : UInt16),
        f.endpoints[o]? = some eps ∧ eps[a]? = some ep) ∨
      ∃ c, f.colors[a]? = some c := by
  have hsections : a ∈ f.endpoints.toList.flatMap (·.2.keys) ↔
      ∃ (o : List Char) (eps : TextMap UInt16) (ep : UInt16),
        f.endpoints[o]? = some eps ∧ eps[a]? = some ep := by
    rw [List.mem_flatMap]
    constructor
    · rintro ⟨⟨o, eps⟩, hmem, hkeys⟩
      obtain ⟨ep, hep⟩ := mem_keys_iff.1 hkeys
      exact ⟨o, eps, ep, mem_toList_iff.1 hmem, hep⟩
    · rintro ⟨o, eps, ep, hmem, hep⟩
      exact ⟨(o, eps), mem_toList_iff.2 hmem, mem_keys_iff.2 ⟨ep, hep⟩⟩
  rw [AliasFile.aliasNames, List.mem_append, List.mem_append, List.mem_append, mem_keys_iff,
    mem_keys_iff, mem_keys_iff, hsections, or_assoc, or_assoc]

/-- What is checked of a file. -/
theorem AliasFile.validate_eq_ok : f.validate = .ok () ↔
    (∀ a ∈ f.aliasNames, isValidAliasName a = true) ∧
    (∀ o ∈ f.endpoints.keys, o.isEmpty = false) ∧
    (∀ c ∈ f.colors.toList, (parseRgb c.2).isNone = false) ∧
    ∀ t ∈ f.thread.toList, (!(t.1.length == 16 && t.1.all isHexDigit) || t.2.isEmpty) = false := by
  have hfind : ∀ {γ : Type} {l : List γ} {p : γ → Bool},
      l.find? p = none ↔ ∀ x ∈ l, p x = false := by
    intro γ l p
    simp only [List.find?_eq_none, Bool.not_eq_true]
  constructor
  · intro h
    rw [AliasFile.validate] at h
    split at h
    · cases h
    next hnames =>
    split at h
    · cases h
    next hkeys =>
    split at h
    · cases h
    next hcolors =>
    split at h
    · cases h
    next hthread =>
    refine ⟨fun a ha => ?_, ?_, hfind.1 hcolors, hfind.1 hthread⟩
    · simpa using hfind.1 hnames a ha
    · intro o ho
      have hany := List.any_eq_false.1 (Bool.eq_false_of_not_eq_true hkeys) o ho
      rwa [Bool.not_eq_true] at hany
  · rintro ⟨hnames, hkeys, hcolors, hthread⟩
    have hnone : f.aliasNames.find? (!isValidAliasName ·) = none :=
      hfind.2 fun a ha => by rw [hnames a ha, Bool.not_true]
    have hany : f.endpoints.keys.any List.isEmpty = false :=
      List.any_eq_false.2 fun o ho => by rw [hkeys o ho]; exact Bool.false_ne_true
    rw [AliasFile.validate, hnone, hfind.2 hcolors, hfind.2 hthread, hany]
    rfl

/-- A smaller file is accepted too. -/
theorem AliasFile.Removed.validate (h : f.Removed f' n) (hf : f.validate = .ok ()) :
    f'.validate = .ok () := by
  obtain ⟨hnames, hkeys, hcolors, hthread⟩ := AliasFile.validate_eq_ok.1 hf
  have hendpoints : ∀ (o : List Char) (eps : TextMap UInt16),
      f'.endpoints[o]? = some eps → f.endpoints[o]? = some eps := by
    intro o eps ho
    rw [h.endpoints] at ho
    split at ho
    · cases ho
    · exact ho
  refine AliasFile.validate_eq_ok.2 ⟨fun a ha => hnames a ?_, fun o ho => hkeys o ?_, ?_, ?_⟩
  · rw [AliasFile.mem_aliasNames, h.groups, h.colors] at ha
    refine AliasFile.mem_aliasNames.2 (ha.imp ?_ (Or.imp_right (Or.imp_left ?_)))
    · rintro ⟨v, hv⟩
      rw [h.nodes] at hv
      split at hv
      · cases hv
      · exact ⟨v, hv⟩
    · rintro ⟨o, eps, ep, ho, hep⟩
      exact ⟨o, eps, ep, hendpoints o eps ho, hep⟩
  · obtain ⟨eps, ho⟩ := mem_keys_iff.1 ho
    exact mem_keys_iff.2 ⟨eps, hendpoints o eps ho⟩
  · rwa [h.colors]
  · rwa [h.thread]

end

namespace AliasBook

variable {b b' : AliasBook} {disk : Option AliasFile} {f f' : AliasFile} {n m : UInt64}
  {name : List Char}

/-! ## Resolution -/

theorem load_ok (h : load disk = .ok b) : b.file.validate = .ok () ∧
    (b.present = true ∧ disk = some b.file ∨ b.present = false ∧ b.file = .default) := by
  cases disk with
  | none =>
    cases h
    exact ⟨rfl, .inr ⟨rfl, rfl⟩⟩
  | some file =>
    simp only [load] at h
    split at h
    · cases h
    · next hvalid =>
      cases h
      exact ⟨hvalid, .inl ⟨rfl, rfl⟩⟩

theorem load_file (h : f.validate = .ok ()) : load (some f) = .ok ⟨f, true⟩ := by
  simp only [load, h]

theorem resolveNode_alias : b.resolveNode (.alias name) = .ok n ↔ b.file.nodes[name]? = some n := by
  rw [resolveNode]
  cases b.file.nodes[name]? with
  | none => simp
  | some v => simp

theorem resolveGroup_alias {g : UInt16} :
    b.resolveGroup (.alias name) = .ok g ↔ b.file.groups[name]? = some g := by
  rw [resolveGroup]
  cases b.file.groups[name]? with
  | none => simp
  | some v => simp

theorem mem_sectionsOf {eps : TextMap UInt16} : eps ∈ b.sectionsOf n ↔
    ∃ o : List Char, b.file.endpoints[o]? = some eps ∧ b.file.outerId o = some n := by
  rw [sectionsOf, List.mem_map]
  constructor
  · rintro ⟨⟨o, eps⟩, hmem, rfl⟩
    obtain ⟨hmem, ho⟩ := List.mem_filter.1 hmem
    exact ⟨o, mem_toList_iff.1 hmem, of_decide_eq_true ho⟩
  · rintro ⟨o, hmem, ho⟩
    exact ⟨(o, eps), List.mem_filter.2 ⟨mem_toList_iff.2 hmem, decide_eq_true ho⟩, rfl⟩

/-- An alias of an endpoint stands in a section of its node. -/
theorem exists_of_resolveEndpoint {ep : UInt16} (h : b.resolveEndpoint n (.alias name) = .ok ep) :
    ∃ (o : List Char) (eps : TextMap UInt16), b.file.endpoints[o]? = some eps ∧
      b.file.outerId o = some n ∧ eps[name]? = some ep := by
  rw [resolveEndpoint] at h
  split at h
  · next found hfound =>
    cases h
    obtain ⟨eps, hmem, heps⟩ := List.exists_of_findSome?_eq_some hfound
    obtain ⟨o, ho, houter⟩ := mem_sectionsOf.1 hmem
    exact ⟨o, eps, ho, houter, heps⟩
  · cases h

/-- An alias in a section of a node is an endpoint. -/
theorem exists_resolveEndpoint {o : List Char} {eps : TextMap UInt16} {ep : UInt16}
    (ho : b.file.endpoints[o]? = some eps) (houter : b.file.outerId o = some n)
    (hep : eps[name]? = some ep) : ∃ ep', b.resolveEndpoint n (.alias name) = .ok ep' := by
  rw [resolveEndpoint]
  split
  · exact ⟨_, rfl⟩
  · next hnone =>
    have hall := List.findSome?_eq_none_iff.1 hnone eps (mem_sectionsOf.2 ⟨o, ho, houter⟩)
    rw [hep] at hall
    cases hall

theorem outerId_of_parse {o : List Char} (h : parseU64 o = some n) : f.outerId o = some n := by
  rw [AliasFile.outerId, h]
  rfl

theorem outerId_of_none {o : List Char} (h : parseU64 o = none) : f.outerId o = f.nodes[o]? := by
  rw [AliasFile.outerId, h]
  rfl

/-! ## Names and numbers -/

/-- In an accepted file digits are no name. -/
theorem not_name_of_digits (hf : f.validate = .ok ()) {s : List Char}
    (hdigits : s.all Char.isDigit) : s ∉ f.aliasNames := by
  intro hmem
  have hvalid := (AliasFile.validate_eq_ok.1 hf).1 s hmem
  rw [isValidAliasName, hdigits] at hvalid
  simp at hvalid

theorem toNat_of_parseUnsigned {s : List Char} {w k : Nat} (hdigits : s.all Char.isDigit)
    (h : Text.parseUnsigned w s = some k) : k = Nat.ofDigitChars 10 s 0 := by
  by_cases hne : s = []
  · subst hne
    cases h
  · rw [parseUnsigned_digits hne hdigits] at h
    split at h
    · exact (Option.some.inj h).symm
    · cases h

theorem toNat_of_parseU64 {s : List Char} {k : UInt64} (hdigits : s.all Char.isDigit)
    (h : parseU64 s = some k) : k.toNat = Nat.ofDigitChars 10 s 0 := by
  obtain ⟨v, hv, rfl⟩ := Option.map_eq_some_iff.1 h
  rw [← toNat_of_parseUnsigned hdigits hv]
  exact UInt64.toNat_ofNat_of_lt' (Text.parseUnsigned_lt hv)

theorem toNat_of_parseU16 {s : List Char} {k : UInt16} (hdigits : s.all Char.isDigit)
    (h : parseU16 s = some k) : k.toNat = Nat.ofDigitChars 10 s 0 := by
  obtain ⟨v, hv, rfl⟩ := Option.map_eq_some_iff.1 h
  rw [← toNat_of_parseUnsigned hdigits hv]
  exact UInt16.toNat_ofNat_of_lt' (Text.parseUnsigned_lt hv)

/-- **Numbers stay numbers** in every accepted file. -/
theorem numeric (hf : b.file.validate = .ok ()) : b.Numeric := by
  refine ⟨fun s k hk => ?_, fun s k hk => ?_, fun n s k hk => ?_, fun s k hs h => ?_,
    fun s k hs h => ?_, fun n s k hs h => ?_⟩
  · rw [NodeRef.fromStr, fromStr_of_some hk, resolveNode]
  · rw [GroupRef.fromStr, fromStr_of_some hk, resolveGroup]
  · rw [EndpointRef.fromStr, fromStr_of_some hk, resolveEndpoint]
  · rw [NodeRef.fromStr] at h
    cases hparse : parseU64 s with
    | none =>
      rw [fromStr_of_none hparse, resolveNode_alias] at h
      exact absurd (AliasFile.mem_aliasNames.2 (.inl ⟨k, h⟩)) (not_name_of_digits hf hs)
    | some v =>
      rw [fromStr_of_some hparse] at h
      cases h
      exact toNat_of_parseU64 hs hparse
  · rw [GroupRef.fromStr] at h
    cases hparse : parseU16 s with
    | none =>
      rw [fromStr_of_none hparse, resolveGroup_alias] at h
      exact absurd (AliasFile.mem_aliasNames.2 (.inr (.inl ⟨k, h⟩))) (not_name_of_digits hf hs)
    | some v =>
      rw [fromStr_of_some hparse] at h
      cases h
      exact toNat_of_parseU16 hs hparse
  · rw [EndpointRef.fromStr] at h
    cases hparse : parseU16 s with
    | none =>
      rw [fromStr_of_none hparse] at h
      obtain ⟨o, eps, ho, -, hep⟩ := exists_of_resolveEndpoint h
      exact absurd (AliasFile.mem_aliasNames.2 (.inr (.inr (.inl ⟨o, eps, k, ho, hep⟩))))
        (not_name_of_digits hf hs)
    | some v =>
      rw [fromStr_of_some hparse] at h
      cases h
      exact toNat_of_parseU16 hs hparse

/-- **A plain file is faithful.** -/
theorem Faithful.of_plain (hplain : b.file.Plain) : b.Faithful := by
  refine ⟨fun name n hname => ?_, fun name n hname => ?_, fun o eps n name ep ho houter hep => ?_⟩
  · rw [NodeRef.fromStr]
    cases hparse : parseU64 name with
    | none =>
      rw [fromStr_of_none hparse]
      exact resolveNode_alias.2 hname
    | some k =>
      rw [fromStr_of_some hparse, resolveNode, hplain.nodes name n k hname hparse]
  · rw [GroupRef.fromStr]
    cases hparse : parseU16 name with
    | none =>
      rw [fromStr_of_none hparse]
      exact resolveGroup_alias.2 hname
    | some k =>
      rw [fromStr_of_some hparse, resolveGroup, hplain.groups name n k hname hparse]
  · rw [EndpointRef.fromStr]
    cases hparse : parseU16 name with
    | none =>
      rw [fromStr_of_none hparse]
      obtain ⟨ep', hep'⟩ := exists_resolveEndpoint ho houter hep
      obtain ⟨o', eps', ho', houter', hname'⟩ := exists_of_resolveEndpoint hep'
      rw [hep', hplain.sections o o' eps eps' n name ep ep' ho ho' houter houter' hep hname']
    | some k =>
      rw [fromStr_of_some hparse, resolveEndpoint,
        hplain.endpoints o eps n name ep k ho houter hep hparse]

theorem Faithful.agreesOnNodes (h : b.Faithful) : b.AgreesOnNodes := by
  intro name n e hname
  have hnumber : b.resolveNode (NodeRef.fromStr (Nat.toDigits 10 n.toNat)) = .ok n := by
    rw [NodeRef.fromStr, fromStr_of_some (parseU64_toDigits n), resolveNode]
  rw [resolveNodeEndpoint, resolveNodeEndpoint, h.nodes name n hname, hnumber]

/-! ## A new alias -/

/-- A file with a new alias is accepted. -/
theorem validate_insert (hf : f.validate = .ok ()) (hname : isValidAliasName name = true) :
    AliasFile.validate { f with nodes := f.nodes.insert name n } = .ok () := by
  obtain ⟨hnames, hrest⟩ := AliasFile.validate_eq_ok.1 hf
  refine AliasFile.validate_eq_ok.2 ⟨fun a ha => ?_, hrest⟩
  obtain ⟨v, hv⟩ | ha := AliasFile.mem_aliasNames.1 ha
  · rw [Std.ExtTreeMap.getElem?_insert] at hv
    split at hv
    · next hk => rwa [← Std.LawfulEqOrd.compare_eq_iff_eq.1 hk]
    · exact hnames a (AliasFile.mem_aliasNames.2 (.inl ⟨v, hv⟩))
  · exact hnames a (AliasFile.mem_aliasNames.2 (.inr ha))

/-- **A new alias** stands for its node, takes no other's name and is there when the file is read
back. -/
theorem insertNodeAlias_ok {s' : AliasStore} {saved : Except AliasError Unit}
    (hload : load disk = .ok b)
    (h : (AliasStore.mk b disk).insertNodeAlias name n saved = (.ok (), s')) :
    s'.book.resolveNode (.alias name) = .ok n ∧ load s'.disk = .ok s'.book ∧
      ∀ (name' : List Char) (m : UInt64), b.resolveNode (.alias name') = .ok m →
        s'.book.resolveNode (.alias name') = .ok m := by
  rw [AliasStore.insertNodeAlias, validateNewNodeAlias] at h
  dsimp only at h
  split at h
  · cases h
  next hok =>
  split at hok
  · cases hok
  next hvalid =>
  split at hok
  · cases hok
  next hfree =>
  rw [Bool.not_eq_true', Bool.not_eq_false] at hvalid
  cases saved with
  | error e => cases h
  | ok =>
    cases h
    refine ⟨resolveNode_alias.2 Std.ExtTreeMap.getElem?_insert_self,
      load_file (validate_insert (load_ok hload).1 hvalid), fun name' m hm => ?_⟩
    rw [resolveNode_alias] at hm ⊢
    dsimp only
    rw [Std.ExtTreeMap.getElem?_insert, if_neg, hm]
    intro hk
    rw [Std.LawfulEqOrd.compare_eq_iff_eq] at hk
    refine hfree ?_
    rw [Std.ExtTreeMap.contains_iff_mem, Std.ExtTreeMap.mem_iff_isSome_getElem?, hk, hm]
    rfl

/-! ## What a removal leaves -/

/-- The sections of the other nodes stay. -/
theorem sectionsOf_removed (h : b.file.Removed b'.file n) (hplain : b.file.Plain) (hm : m ≠ n) :
    b'.sectionsOf m = b.sectionsOf m := by
  let keep : List Char → Bool := fun o =>
    !decide (b.file.nodes[o]? = some n ∨ o = Nat.toDigits 10 n.toNat)
  have hendpoints : b'.file.endpoints = b.file.endpoints.filter fun o _ => keep o := by
    refine Std.ExtTreeMap.ext_getElem? fun {o} => ?_
    rw [h.endpoints, Std.ExtTreeMap.getElem?_filter']
    split
    · next hgone =>
      have hkeep : keep o = false := by rw [Bool.not_eq_false', decide_eq_true hgone]
      rw [hkeep]
      cases b.file.endpoints[o]? <;> rfl
    · next hstay =>
      have hkeep : keep o = true := by rw [Bool.not_eq_true', decide_eq_false hstay]
      rw [hkeep]
      cases b.file.endpoints[o]? <;> rfl
  have hsame : ∀ o : List Char,
      (b'.file.outerId o = some m ∧ keep o = true) ↔ b.file.outerId o = some m := by
    intro o
    rw [Bool.not_eq_true', decide_eq_false_iff_not, not_or]
    cases hparse : parseU64 o with
    | some k =>
      rw [outerId_of_parse hparse, outerId_of_parse hparse]
      refine and_iff_left_of_imp fun hk => ⟨fun hname => ?_, fun hdigits => ?_⟩
      · exact hm ((Option.some.inj hk).symm.trans (hplain.nodes o n k hname hparse))
      · rw [hdigits, parseU64_toDigits] at hparse
        exact hm ((Option.some.inj hk).symm.trans (Option.some.inj hparse).symm)
    | none =>
      rw [outerId_of_none hparse, outerId_of_none hparse, h.nodes]
      by_cases hname : b.file.nodes[o]? = some n
      · rw [if_pos hname, hname]
        exact ⟨fun hcontra => (Option.some_ne_none m hcontra.1.symm).elim,
          fun hcontra => absurd (Option.some.inj hcontra).symm hm⟩
      · rw [if_neg hname]
        refine and_iff_left_of_imp fun _ => ⟨hname, fun hdigits => ?_⟩
        rw [hdigits, parseU64_toDigits] at hparse
        cases hparse
  rw [sectionsOf, sectionsOf, hendpoints, Std.ExtTreeMap.toList_filter, List.filter_filter]
  refine congrArg _ (List.filter_congr fun s _ => ?_)
  rw [Bool.eq_iff_iff, Bool.and_eq_true, decide_eq_true_iff, decide_eq_true_iff]
  exact hsame s.1

/-- No section of the node itself has a name in it. -/
theorem resolveEndpoint_removed (h : b.file.Removed b'.file n) (hplain : b.file.Plain)
    (ep : UInt16) : b'.resolveEndpoint n (.alias name) ≠ .ok ep := by
  intro hep
  obtain ⟨o, eps, ho, houter, hname⟩ := exists_of_resolveEndpoint hep
  rw [h.endpoints] at ho
  split at ho
  · cases ho
  next hstay =>
  cases hparse : parseU64 o with
  | some k =>
    rw [outerId_of_parse hparse] at houter
    cases houter
    exact hstay (hplain.numbers o eps n name ep ho hname hparse).symm
  | none =>
    rw [outerId_of_none hparse, h.nodes] at houter
    split at houter
    · cases houter
    · next hother => exact hother houter

/-- What was read and removed from is what is read next. -/
theorem removed_of_removeNode {saved : Except AliasError Unit} {names : List (List Char)}
    {s' : AliasStore} (hload : load disk = .ok b)
    (h : (AliasStore.mk b disk).removeNode n saved = (.ok names, s')) :
    b.file.Removed s'.book.file n ∧ load s'.disk = .ok s'.book := by
  obtain ⟨hvalid, ⟨hpresent, -⟩ | ⟨habsent, hfile⟩⟩ := load_ok hload
  · obtain ⟨hremoved, rfl | ⟨hpresent', hdisk⟩⟩ := AliasStore.removeNode_ok hpresent h
    · exact ⟨hremoved, hload⟩
    · refine ⟨hremoved, ?_⟩
      rw [hdisk, load_file (hremoved.validate hvalid), ← hpresent']
  · rw [AliasStore.removeNode] at h
    dsimp only at h
    rw [habsent, Bool.not_false, if_pos rfl] at h
    cases h
    refine ⟨?_, hload⟩
    rw [hfile]
    refine ⟨fun a => ?_, fun o => ?_, rfl, rfl, rfl⟩
    · rw [AliasFile.default]
      simp
    · rw [AliasFile.default]
      simp

/-- **A plain file forgets** a node that is removed. -/
theorem Forgets.of_plain {s' : AliasStore} (hplain : b.file.Plain)
    (h : b.file.Removed s'.book.file n) (hload : load s'.disk = .ok s'.book) : b.Forgets n s' := by
  have hnodes : ∀ (name : List Char) (m : UInt64), s'.book.file.nodes[name]? = some m →
      b.file.nodes[name]? = some m ∧ m ≠ n := by
    intro name m hname
    rw [h.nodes] at hname
    split at hname
    · cases hname
    · next hother => exact ⟨hname, fun hm => hother (hm ▸ hname)⟩
  have hresolve : ∀ (name : List Char) (m : UInt64), b.file.nodes[name]? = some m → m ≠ n →
      s'.book.resolveNode (NodeRef.fromStr name) = .ok m := by
    intro name m hname hm
    rw [NodeRef.fromStr]
    cases hparse : parseU64 name with
    | some k =>
      rw [fromStr_of_some hparse, resolveNode, hplain.nodes name m k hname hparse]
    | none =>
      rw [fromStr_of_none hparse, resolveNode_alias, h.nodes, if_neg, hname]
      rwa [hname, Option.some_inj]
  refine ⟨fun name hname => ?_, fun name m hname htyped => ?_,
    fun name ep => resolveEndpoint_removed h hplain ep, fun name m hname hm => ?_,
    fun m e hm => ?_, h.groups, hload⟩
  · exact (hnodes name n (resolveNode_alias.1 hname)).2 rfl
  · obtain ⟨hname, hm⟩ := hnodes name m hname
    rw [hresolve name m hname hm] at htyped
    exact hm (Except.ok.inj htyped)
  · rw [hresolve name m hname hm, (Faithful.of_plain hplain).nodes name m hname]
  · obtain k | name := e
    · rfl
    · rw [resolveEndpoint, resolveEndpoint, sectionsOf_removed h hplain hm]

/-- **Aliases and numbers.** A file that is accepted gives every name its value, numbers their
meaning and a node the same endpoints under all of its names, and forgets a node that is removed and
nothing else, exactly when it is plain. -/
theorem aliases_iff_plain (hload : load disk = .ok b) :
    (b.Faithful ∧ b.Numeric ∧ b.AgreesOnNodes ∧
      ∀ (n : UInt64) (saved : Except AliasError Unit) (names : List (List Char)) (s' : AliasStore),
        (AliasStore.mk b disk).removeNode n saved = (.ok names, s') → b.Forgets n s') ↔
      b.file.Plain := by
  constructor
  · rintro ⟨hfaithful, -, -, hforgets⟩
    refine ⟨fun name n k hname hparse => ?_, fun name n k hname hparse => ?_,
      fun o eps n name ep k ho houter hep hparse => ?_,
      fun o o' eps eps' n name ep ep' ho ho' houter houter' hep hep' => ?_,
      fun o eps n name ep ho hep hparse => ?_⟩
    · have htyped := hfaithful.nodes name n hname
      rw [NodeRef.fromStr, fromStr_of_some hparse] at htyped
      exact Except.ok.inj htyped
    · have htyped := hfaithful.groups name n hname
      rw [GroupRef.fromStr, fromStr_of_some hparse] at htyped
      exact Except.ok.inj htyped
    · have htyped := hfaithful.endpoints o eps n name ep ho houter hep
      rw [EndpointRef.fromStr, fromStr_of_some hparse] at htyped
      exact Except.ok.inj htyped
    · have htyped := hfaithful.endpoints o eps n name ep ho houter hep
      rw [hfaithful.endpoints o' eps' n name ep' ho' houter' hep'] at htyped
      exact (Except.ok.inj htyped).symm
    · by_contra hstay
      obtain ⟨names, s', hs'⟩ := AliasStore.exists_removeNode ⟨b, disk⟩ n
      obtain ⟨hremoved, -⟩ := removed_of_removeNode hload hs'
      have hleft : s'.book.file.endpoints[o]? = some eps := by
        rw [hremoved.endpoints, if_neg fun hgone => hstay hgone.symm, ho]
      obtain ⟨ep', hep'⟩ := exists_resolveEndpoint hleft (outerId_of_parse hparse) hep
      exact (hforgets n _ names s' hs').endpoints name ep' hep'
  · intro hplain
    have hfaithful := Faithful.of_plain hplain
    refine ⟨hfaithful, numeric (load_ok hload).1, hfaithful.agreesOnNodes,
      fun n saved names s' hs' => ?_⟩
    obtain ⟨hremoved, hreload⟩ := removed_of_removeNode hload hs'
    exact Forgets.of_plain hplain hremoved hreload

/-! ## Two files -/

/-- A lamp with one endpoint, under its number. -/
def lampFile : AliasFile :=
  { AliasFile.default with
    nodes := (∅ : TextMap UInt64).insert "lamp".toList 5
    endpoints := (∅ : TextMap (TextMap UInt16)).insert "5".toList
      ((∅ : TextMap UInt16).insert "main".toList 1) }

theorem getElem?_insert_empty {β : Type} {k a : List Char} {v w : β}
    (h : ((∅ : TextMap β).insert k v)[a]? = some w) : a = k ∧ w = v := by
  rw [Std.ExtTreeMap.getElem?_insert] at h
  split at h
  · next hk =>
    exact ⟨(Std.LawfulEqOrd.compare_eq_iff_eq.1 hk).symm, (Option.some.inj h).symm⟩
  · simp at h

theorem plain_lampFile : lampFile.Plain where
  nodes name n k hname hparse := by
    obtain ⟨rfl, -⟩ := getElem?_insert_empty hname
    have hnone : parseU64 "lamp".toList = none := by decide
    rw [hnone] at hparse
    cases hparse
  groups name n k hname _ := by
    rw [show lampFile.groups = ∅ from rfl] at hname
    simp at hname
  endpoints o eps n name ep k ho _ hep hparse := by
    obtain ⟨-, rfl⟩ := getElem?_insert_empty ho
    obtain ⟨rfl, -⟩ := getElem?_insert_empty hep
    have hnone : parseU16 "main".toList = none := by decide
    rw [hnone] at hparse
    cases hparse
  sections o o' eps eps' n name ep ep' ho ho' _ _ hep hep' := by
    obtain ⟨-, rfl⟩ := getElem?_insert_empty ho
    obtain ⟨-, rfl⟩ := getElem?_insert_empty ho'
    rw [(getElem?_insert_empty hep).2, (getElem?_insert_empty hep').2]
  numbers o eps n name ep ho _ hparse := by
    obtain ⟨rfl, -⟩ := getElem?_insert_empty ho
    have hnumber : parseU64 "5".toList = some 5 := by decide
    rw [hnumber] at hparse
    cases hparse
    exact .inl (by decide)

theorem aliases_iff_plain_lamp :
    load (some lampFile) = .ok ⟨lampFile, true⟩ ∧ Faithful ⟨lampFile, true⟩ ∧
      ∀ (n : UInt64) (saved : Except AliasError Unit) (names : List (List Char)) (s' : AliasStore),
        (AliasStore.mk ⟨lampFile, true⟩ (some lampFile)).removeNode n saved = (.ok names, s') →
          Forgets ⟨lampFile, true⟩ n s' :=
  have hload : load (some lampFile) = .ok ⟨lampFile, true⟩ := load_file (by rfl)
  have h := (aliases_iff_plain hload).2 plain_lampFile
  ⟨hload, h.1, h.2.2.2⟩

/-- A name with a sign. -/
def signFile : AliasFile :=
  { AliasFile.default with nodes := (∅ : TextMap UInt64).insert "+5".toList 7 }

/-- The name is accepted and stands for node 7, and typing it addresses node 5. -/
theorem signed_name_is_a_number :
    load (some signFile) = .ok ⟨signFile, true⟩ ∧
      signFile.nodes["+5".toList]? = some 7 ∧
      resolveNode ⟨signFile, true⟩ (NodeRef.fromStr "+5".toList) = .ok 5 ∧
      ¬ Faithful ⟨signFile, true⟩ := by
  have hname : signFile.nodes["+5".toList]? = some 7 := by decide
  have htyped : resolveNode ⟨signFile, true⟩ (NodeRef.fromStr "+5".toList) = .ok 5 := rfl
  refine ⟨load_file rfl, hname, htyped, fun h => ?_⟩
  have h7 := h.nodes "+5".toList 7 hname
  rw [htyped] at h7
  exact absurd (Except.ok.inj h7) (by decide)

end AliasBook

end MatStack
