import MatStack.Controller.Json
import MatStack.Mat.Hex

/-!
# Names, values and their types

A cluster, an attribute or a command is typed by its name or by its number, and a value as a literal
or as JSON. A table says what the names stand for and which type a value has; where a number is
typed instead there is no type, and the value is what its literal looks like. `classifyWrite` and
`classifyInvoke` put this together for the two kinds of operation that carry values.

The generated table is a parameter; so is how floating-point numbers and JSON are read and shown.
-/

namespace MatStack.Ids

/-! ## Types -/

/-- A scalar type. -/
inductive TypeTag where
  | bool
  | uint
  | int
  | f32
  | f64
  | str
  | bytes
  | unknown
deriving DecidableEq

mutual

/-- The type of a value. -/
inductive Ty where
  | scalar (tag : TypeTag)
  | struct (d : StructDef)
  | list (elem : TypeTag)
  | listOfStruct (d : StructDef)

inductive StructDef where
  | mk (name : String) (fields : List StructField)

inductive StructField where
  | mk (name : String) (id : UInt8) (ty : Ty) (optional : Bool)

end

def StructDef.name : StructDef → String
  | mk name _ => name

def StructDef.fields : StructDef → List StructField
  | mk _ fields => fields

def StructField.name : StructField → String
  | mk name .. => name

/-- The context tag. -/
def StructField.id : StructField → UInt8
  | mk _ id .. => id

def StructField.ty : StructField → Ty
  | mk _ _ ty _ => ty

def StructField.optional : StructField → Bool
  | mk _ _ _ optional => optional

def TypeTag.describe : TypeTag → String
  | bool => "bool"
  | uint => "uint"
  | int => "int"
  | f32 => "float (single)"
  | f64 => "float (double)"
  | str => "string"
  | bytes => "bytes"
  | unknown => "unknown"

def Ty.describe : Ty → String
  | scalar t => t.describe
  | struct d => "struct " ++ d.name
  | list t => "list of " ++ t.describe
  | listOfStruct d => "list of struct " ++ d.name

/-! ## The table -/

structure AttrDef where
  name : String
  id : UInt32
  ty : Ty
  timedWrite : Bool

structure FieldDef where
  name : String
  ty : Ty

/-- The context tag of a field is its place. -/
structure CmdDef where
  name : String
  id : UInt32
  timed : Bool
  fields : List FieldDef

structure ClusterDef where
  name : String
  id : UInt32
  attrs : List AttrDef
  cmds : List CmdDef

structure AttrRef where
  id : UInt32
  defn : Option AttrDef

structure CmdRef where
  id : UInt32
  defn : Option CmdDef

/-- The value of an unsigned hexadecimal numeral in 64 bits. -/
def parseHexU64 (s : List Char) : Option UInt64 :=
  let digits := Text.unsign s
  if digits ≠ [] ∧ digits.all isHexDigit ∧ Numeral.value 16 digits < 2 ^ 64 then
    some (UInt64.ofNat (Numeral.value 16 digits))
  else none

/-- The value of a signed decimal numeral in 64 bits. -/
def parseI64 : List Char → Option Int64
  | '-' :: digits =>
    if digits ≠ [] ∧ digits.all Char.isDigit ∧ Nat.ofDigitChars 10 digits 0 ≤ 2 ^ 63 then
      some (Int64.ofInt (-Nat.ofDigitChars 10 digits 0))
    else none
  | s => (Text.parseUnsigned 63 s).map fun n => Int64.ofInt n

/-- A number, decimal or hexadecimal. -/
def parseNum (input : String) : Option UInt64 :=
  let s := Text.trim input.toList
  if "0x".toList.isPrefixOf s || "0X".toList.isPrefixOf s then parseHexU64 (s.drop 2)
  else parseU64 s

/-- A number that fits in 32 bits. -/
def toU32 (n : UInt64) : Option UInt32 := if n.toNat < 2 ^ 32 then some n.toUInt32 else none

section
variable (clusters : List ClusterDef)

/-- The table is in the order of its names, which are distinct. -/
def resolveCluster (input : String) : Option UInt32 :=
  match parseNum input with
  | some n => toU32 n
  | none => (clusters.find? (·.name = input)).map ClusterDef.id

def findCluster (id : UInt32) : Option ClusterDef := clusters.find? (·.id = id)

def resolveAttribute (cluster : UInt32) (input : String) : Option AttrRef :=
  match parseNum input with
  | some n => (toU32 n).map fun id => ⟨id, none⟩
  | none => do
    let c ← findCluster clusters cluster
    let a ← c.attrs.find? (·.name = input)
    return ⟨a.id, some a⟩

def resolveCommand (cluster : UInt32) (input : String) : Option CmdRef :=
  match parseNum input with
  | some n => (toU32 n).map fun id => ⟨id, none⟩
  | none => do
    let c ← findCluster clusters cluster
    let cmd ← c.cmds.find? (·.name = input)
    return ⟨cmd.id, some cmd⟩

end

/-! ## Values -/

/-- The value of an attribute or of an argument. Floating-point numbers are carried as their
bits. -/
inductive ArgValue where
  | bool (b : Bool)
  | uint (v : UInt64)
  | int (v : Int64)
  | f32 (bits : UInt32)
  | f64 (bits : UInt64)
  | str (s : String)
  | bytes (b : Bytes)
  | null
  | list (items : List ArgValue)
  | struct (fields : List (UInt8 × ArgValue))

/-- How floating-point numbers and JSON are read and shown. -/
structure Formats where
  readJson : String → Except String Json
  writeJson : Json → String
  readFloat : String → Option UInt64
  showFloat : UInt64 → String
  /-- The single-precision number nearest to a double-precision one. -/
  toSingle : UInt64 → UInt32
  /-- The double-precision number nearest to an integer. -/
  ofInt : Int → UInt64
  /-- A text in quotes, with escapes. -/
  quote : String → String

def isFiniteF64 (bits : UInt64) : Bool := (bits >>> 52) &&& 0x7FF ≠ 0x7FF

def isFiniteF32 (bits : UInt32) : Bool := (bits >>> 23) &&& 0xFF ≠ 0xFF

/-- The characters in front that fill so many bytes at most. -/
def headWithin : Nat → List Char → List Char
  | _, [] => []
  | n, c :: s => if c.utf8Size ≤ n then c :: headWithin (n - c.utf8Size) s else []

def detailEchoMaxBytes : Nat := 80

/-- The head of a text that is too long for an error. -/
def echoHead (s : String) : Option String :=
  if Text.utf8Length s.toList ≤ detailEchoMaxBytes then none
  else some (String.ofList (headWithin detailEchoMaxBytes s.toList))

section
variable (fmt : Formats)

def shortJson (j : Json) : String :=
  let s := fmt.writeJson j
  match echoHead s with
  | none => s
  | some head => head ++ "… (" ++ toString (Text.utf8Length s.toList) ++ " bytes)"

def shortLiteral (s : String) : String :=
  match echoHead s with
  | none => fmt.quote s
  | some head => fmt.quote head ++ "… (" ++ toString (Text.utf8Length s.toList) ++ " bytes)"

def parseHexBytes (s : String) : Except String Bytes :=
  (Hex.parseHexBytes s.toList).mapError fun
    | .noPrefix => "bytes value must use hex: prefix"
    | .oddLength _ => "odd-length hex literal: " ++ shortLiteral fmt s
    | .invalid _ => "invalid hex literal: " ++ shortLiteral fmt s

def parseFiniteF64 (s : String) : Except String UInt64 :=
  match (fmt.readFloat s).filter isFiniteF64 with
  | some f => .ok f
  | none => .error ("not a finite float literal: " ++ shortLiteral fmt s)

def toFiniteF32 (f : UInt64) : Except String UInt32 :=
  if isFiniteF32 (fmt.toSingle f) then .ok (fmt.toSingle f)
  else .error ("float value " ++ fmt.showFloat f ++
    " is out of range for a single-precision (f32) attribute")

/-! ### From JSON -/

/-- A scalar, and which value was wanted where it is another. -/
def jsonScalar (j : Json) (tag : TypeTag) (at' : String) : Except String ArgValue :=
  let orBad (x : Option ArgValue) (want : String) : Except String ArgValue :=
    match x with
    | some v => .ok v
    | none => .error (at' ++ ": expected " ++ want ++ ", got " ++ shortJson fmt j)
  let asF64 : Option UInt64 :=
    match j with
    | .int v => some (fmt.ofInt v)
    | .float bits => some bits
    | _ => none
  match tag with
  | .bool =>
    orBad (match j with | .bool b => some (.bool b) | _ => none) "a bool"
  | .uint =>
    orBad
      (match j with
        | .int v => if 0 ≤ v ∧ v < 2 ^ 64 then some (.uint (UInt64.ofNat v.toNat)) else none
        | .string s => (parseNum s).map .uint
        | _ => none)
      "an unsigned integer (number or \"0x..\" string)"
  | .int =>
    orBad
      (match j with
        | .int v => if -2 ^ 63 ≤ v ∧ v < 2 ^ 63 then some (.int (Int64.ofInt v)) else none
        | .string s => (parseI64 (Text.trim s.toList)).map .int
        | _ => none)
      "an integer"
  | .f32 =>
    match asF64 with
    | some f => ((toFiniteF32 fmt f).map .f32).mapError fun e => at' ++ ": " ++ e
    | none => orBad none "a number"
  | .f64 => orBad (asF64.map .f64) "a number"
  | .str => orBad (match j with | .string s => some (.str s) | _ => none) "a string"
  | .bytes =>
    match j with
    | .string s =>
      let h := if "hex:".toList.isPrefixOf s.toList then s.toList.drop 4 else s.toList
      ((parseHexBytes fmt (String.ofList ("hex:".toList ++ h))).map .bytes).mapError fun e =>
        at' ++ ": " ++ e
    | _ => orBad none "a hex string"
  | .unknown => .error (at' ++ ": type unknown; cannot encode value")

/-- The field that a key names: by its name, else by its number. -/
def StructDef.lookup (d : StructDef) (k : String) : Option StructField :=
  d.fields.find? (·.name = k) <|>
    (Text.parseUnsigned 8 k.toList).bind fun id => d.fields.find? (·.id.toNat = id)

/-- A field that must be there is missing. -/
def StructDef.missing (d : StructDef) (out : List (UInt8 × ArgValue)) : Option StructField :=
  d.fields.find? fun f => !f.optional && !out.any (·.1 = f.id)

/-- The fields in the order of their numbers, and else in the order in which they came. -/
def insertById (x : UInt8 × ArgValue) : List (UInt8 × ArgValue) → List (UInt8 × ArgValue)
  | [] => [x]
  | y :: out => if x.1 ≤ y.1 then x :: y :: out else y :: insertById x out

def sortById (out : List (UInt8 × ArgValue)) : List (UInt8 × ArgValue) := out.foldr insertById []

/-- The type of the elements of a list. -/
def Ty.elem : Ty → Option Ty
  | list t => some (scalar t)
  | listOfStruct d => some (struct d)
  | _ => none

mutual

/-- A value of the type; `at'` says where it stands. -/
def jsonToValue : Json → Ty → String → Except String ArgValue
  | .null, _, _ => .ok .null
  | j, .scalar tag, at' => jsonScalar fmt j tag at'
  | .object obj, .struct d, at' => do
    let out ← jsonFields obj d at' []
    match d.missing out with
    | some f =>
      .error (at' ++ ": missing required field " ++ fmt.quote f.name ++ " of " ++ d.name)
    | none => .ok (.struct (sortById out))
  | j, .struct d, at' =>
    .error (at' ++ ": expected a JSON object (" ++ d.name ++ "), got " ++ shortJson fmt j)
  | .array items, .list t, at' => (jsonItems items (.scalar t) at' 0).map .list
  | .array items, .listOfStruct d, at' => (jsonItems items (.struct d) at' 0).map .list
  | j, .list t, at' =>
    .error (at' ++ ": expected a JSON array (list of " ++ (Ty.scalar t).describe ++ "), got " ++
      shortJson fmt j)
  | j, .listOfStruct d, at' =>
    .error (at' ++ ": expected a JSON array (list of " ++ (Ty.struct d).describe ++ "), got " ++
      shortJson fmt j)

/-- The elements from the `i`-th on. -/
def jsonItems : List Json → Ty → String → Nat → Except String (List ArgValue)
  | [], _, _, _ => .ok []
  | j :: items, elem, at', i => do
    let v ← jsonToValue j elem (at' ++ "[" ++ toString i ++ "]")
    let vs ← jsonItems items elem at' (i + 1)
    return v :: vs

/-- The fields, behind those that were read. -/
def jsonFields : List (String × Json) → StructDef → String → List (UInt8 × ArgValue) →
    Except String (List (UInt8 × ArgValue))
  | [], _, _, out => .ok out
  | (k, j) :: obj, d, at', out =>
    match d.lookup k with
    | none =>
      .error (at' ++ ": unknown field " ++ fmt.quote k ++ " of " ++ d.name ++
        "; valid fields: " ++ ", ".intercalate (d.fields.map StructField.name))
    | some field =>
      if out.any (·.1 = field.id) then
        .error (at' ++ ": field " ++ fmt.quote field.name ++ " given twice (by name and by id)")
      else do
        let v ← jsonToValue j field.ty (at' ++ "." ++ field.name)
        jsonFields obj d at' (out ++ [(field.id, v)])

end

/-! ### From literals -/

def parseScalarLiteral (s : String) (ty : TypeTag) : Except String ArgValue :=
  if s = "null" then .ok .null
  else
    match ty with
    | .bool =>
      if s = "true" ∨ s = "1" then .ok (.bool true)
      else if s = "false" ∨ s = "0" then .ok (.bool false)
      else .error ("not a bool literal: " ++ shortLiteral fmt s)
    | .uint =>
      match parseNum s with
      | some n => .ok (.uint n)
      | none => .error ("not an unsigned integer: " ++ shortLiteral fmt s)
    | .int =>
      match parseI64 s.toList with
      | some n => .ok (.int n)
      | none => .error ("not an integer: " ++ shortLiteral fmt s)
    | .f32 => (parseFiniteF64 fmt s).bind fun f => (toFiniteF32 fmt f).map .f32
    | .f64 => (parseFiniteF64 fmt s).map .f64
    | .str => .ok (.str s)
    | .bytes => (parseHexBytes fmt s).map .bytes
    | .unknown => .error "attribute type unknown; cannot encode value"

/-- The text without white space around it. -/
def trim (s : String) : String := String.ofList (Text.trim s.toList)

/-- A literal of a scalar type, or JSON. -/
def parseValueTyped (input : String) (ty : Ty) : Except String ArgValue :=
  match ty with
  | .scalar tag => parseScalarLiteral fmt (trim input) tag
  | ty =>
    match fmt.readJson (trim input) with
    | .error e => .error (ty.describe ++ " value must be JSON: " ++ e)
    | .ok json => jsonToValue fmt json ty "value"

/-- What a literal without a type looks like. -/
def parseScalarInferred (input : String) : ArgValue :=
  let s := trim input
  if s = "true" then .bool true
  else if s = "false" then .bool false
  else if s = "null" then .null
  else
    match parseHexBytes fmt s with
    | .ok b => .bytes b
    | .error _ =>
      match parseNum s with
      | some u => .uint u
      | none =>
        match parseI64 s.toList with
        | some i => .int i
        | none =>
          let isFloat := s.toList.any (fun c => c = '.' ∨ c = 'e' ∨ c = 'E') &&
            !"0x".toList.isPrefixOf s.toList
          if isFloat then
            match parseFiniteF64 fmt s with
            | .ok f => .f64 f
            | .error _ => .str s
          else .str s

/-! ## Operations -/

inductive WriteClass where
  | native (cluster attr : UInt32) (value : ArgValue) (timed : Bool)
  | reject (msg : String)
  | notNative

inductive InvokeClass where
  | native (cluster command : UInt32) (fields : List ArgValue) (timed : Bool)
  | reject (msg : String)
  | notNative

/-- Without a type only scalars can be written. -/
def rejectContainerLiteral (what v : String) : Option String :=
  let t := Text.trim v.toList
  if t.head? = some '[' ∨ t.head? = some '\x7b' then
    some (what ++ ": list/struct values need a cluster/attribute name the table knows " ++
      "(numeric ids carry no schema)")
  else none

variable (clusters : List ClusterDef)

def classifyWrite (cluster attr value : String) : WriteClass :=
  match resolveCluster clusters cluster with
  | none => .notNative
  | some clusterId =>
    match resolveAttribute clusters clusterId attr with
    | none => .notNative
    | some ⟨id, some d⟩ =>
      match parseValueTyped fmt value d.ty with
      | .ok v => .native clusterId id v d.timedWrite
      | .error msg => .reject ("write " ++ cluster ++ "/" ++ attr ++ ": " ++ msg)
    | some ⟨id, none⟩ =>
      match rejectContainerLiteral ("write " ++ cluster ++ "/" ++ attr) value with
      | some msg => .reject msg
      | none => .native clusterId id (parseScalarInferred fmt value) false

/-- The arguments of a command that is in the table, from the `i`-th on. -/
def parseArgs (what : String) : Nat → List String → List FieldDef → Except String (List ArgValue)
  | i, arg :: args, field :: fields =>
    match parseValueTyped fmt arg field.ty with
    | .error msg => .error (what ++ " arg " ++ toString i ++ " (" ++ field.name ++ "): " ++ msg)
    | .ok v => (parseArgs what (i + 1) args fields).map (v :: ·)
  | _, _, _ => .ok []

/-- The arguments of a command that is not, from the `i`-th on. -/
def rejectArgs (what : String) : Nat → List String → Option String
  | _, [] => none
  | i, arg :: args =>
    rejectContainerLiteral (what ++ " arg " ++ toString i) arg <|> rejectArgs what (i + 1) args

def classifyInvoke (cluster command : String) (args : List String) : InvokeClass :=
  let what := "invoke " ++ cluster ++ "/" ++ command
  match resolveCluster clusters cluster with
  | none => .notNative
  | some clusterId =>
    match resolveCommand clusters clusterId command with
    | none => .notNative
    | some ⟨id, some d⟩ =>
      if d.fields.length < args.length then
        .reject (what ++ ": too many arguments (" ++ toString args.length ++ " > " ++
          toString d.fields.length ++ ")")
      else
        match parseArgs fmt what 0 args d.fields with
        | .error msg => .reject msg
        | .ok values => .native clusterId id values d.timed
    | some ⟨id, none⟩ =>
      match rejectArgs what 0 args with
      | some msg => .reject msg
      | none => .native clusterId id (args.map (parseScalarInferred fmt)) false

end

end MatStack.Ids
