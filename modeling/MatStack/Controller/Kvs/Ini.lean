import MatStack.Controller.Btp.Packet
import MatStack.Lib.Base64
import MatStack.Lib.Lines

/-!
# The key/value file

The controller keeps its fabrics and groups in an ini file: the lines of the `[Default]` section,
each a key, `=` and a Base64 value. The readers cut the section out of the text (`defaultSection`)
and search it (`lookup`). A transaction (`KvsTxn`) keeps the lines of the whole file, cut at the
places where it finds the section to begin and to end, changes lines of the section, and writes the
lines back. The lock and the replacement of the file are outside the model: a transaction is opened
on a text, and `commit` is the text that replaces it.
-/

namespace MatStack

open Text Lines

/-- A line, or a key, of the file. -/
abbrev Line := List Char

/-- Base64, as the file uses it: what was encoded is decoded, and an encoding has no white space and
is empty only for the empty string. -/
structure Base64 where
  encodeString : Bytes → List Char
  decodeVec : List Char → Option Bytes
  decode_encode : ∀ b, decodeVec (encodeString b) = some b
  not_whitespace : ∀ b, ∀ c ∈ encodeString b, isWhitespace c = false
  encode_nil : encodeString [] = []

/-- The standard alphabet, padded. -/
def Base64.standard : Base64 where
  encodeString := Base64Standard.encode
  decodeVec := Base64Standard.decode
  decode_encode := Base64Standard.decode_encode
  not_whitespace b c hc := by
    have hall : (Base64Standard.alphabet.all fun c => !isWhitespace c) = true := by decide
    obtain h | rfl := Base64Standard.mem_encode hc
    · exact Bool.not_eq_true' _ ▸ List.all_eq_true.1 hall c h
    · decide
  encode_nil := rfl

/-- Why an access to the file fails. -/
inductive KvsError where
  | sectionMissing
  | keyMissing (key : Line)
  | badBase64 (key : Line)
  | badKeyset (fabricIndex : UInt8) (reason : String)
  | groupNotFound (fabricIndex : UInt8) (groupId : UInt16)
deriving Repr, DecidableEq

/-- The line the section begins after. -/
def defaultHeader : Line := "[Default]".toList

/-- The text before the first `=` of a line, and the text after it. -/
def splitOnce : Line → Option (Line × Line)
  | [] => none
  | c :: cs => if c = '=' then some ([], cs) else (splitOnce cs).map fun kv => (c :: kv.1, kv.2)

/-! ## The readers -/

/-- A line without the carriage returns and line feeds at its end. -/
def trimEol (line : Line) : Line := line.rdropWhile fun c => c == '\r' || c == '\n'

/-- The text from a place inside the section to its end: the next line that starts with `[`. -/
def sectionBody : List Line → List Char
  | [] => []
  | line :: ls => if (trimEol line).head? = some '[' then [] else line ++ sectionBody ls

/-- The loop over the lines before the section. -/
def sectionOf : List Line → Option (List Char)
  | [] => none
  | line :: ls => if trimEol line = defaultHeader then some (sectionBody ls) else sectionOf ls

/-- The text of the `[Default]` section. -/
def defaultSection (text : List Char) : Option (List Char) := sectionOf (splitInclusive text)

/-- The value of the first line with the key. -/
def lookup (section_ : List Char) (key : Line) : Option Line :=
  (lines section_).findSome? fun line =>
    match splitOnce line with
    | none => none
    | some (k, v) => if trim k = key then some (trim v) else none

/-- The decoded value of a key; a missing and an empty value are the same. -/
def decodeB64 (B : Base64) (section_ : List Char) (key : Line) : Except KvsError (Option Bytes) :=
  match lookup section_ key with
  | none => .ok none
  | some v =>
    if v = [] then .ok none
    else
      match B.decodeVec v with
      | some b => .ok (some b)
      | none => .error (.badBase64 key)

/-- What every reader starts with. -/
def withDefaultSection {α : Type} (text : List Char) (f : List Char → Except KvsError α) :
    Except KvsError α :=
  match defaultSection text with
  | none => .error .sectionMissing
  | some section_ => f section_

/-! ## The transaction -/

/-- The lines of the file, cut where the section begins (`default_start`) and ends
(`default_end`). -/
structure KvsTxn where
  before : List Line
  body : List Line
  after : List Line
  trailingNewline : Bool
deriving DecidableEq

/-- The lines up to the header of the section, and those behind it. -/
def cutAtHeader : List Line → Option (List Line × List Line)
  | [] => none
  | line :: ls =>
    if trim line = defaultHeader then some ([line], ls)
    else (cutAtHeader ls).map fun cut => (line :: cut.1, cut.2)

/-- The line begins another section. -/
def beginsSection (line : Line) : Bool := (trimStart line).head? == some '['

/-- The line is one of the key. -/
def isLineOf (key line : Line) : Bool :=
  match splitOnce line with
  | some (k, _) => trim k == key
  | none => false

/-- What stands behind the `=` of a line. -/
def valueOf (line : Line) : Line :=
  match splitOnce line with
  | some (_, v) => trim v
  | none => []

namespace KvsTxn

/-- The cut of the lines. -/
def cutLines (trailingNewline : Bool) (ls : List Line) : Except KvsError KvsTxn :=
  match cutAtHeader ls with
  | none => .error .sectionMissing
  | some (before, rest) =>
    .ok ⟨before, rest.takeWhile (!beginsSection ·), rest.dropWhile (!beginsSection ·),
      trailingNewline⟩

/-- A transaction on the text of a file. -/
def openText (text : List Char) : Except KvsError KvsTxn :=
  let ls := text.splitOn '\n'
  let trailingNewline := text.getLast? == some '\n'
  -- the split leaves an empty line behind the last line feed
  cutLines trailingNewline
    (if trailingNewline && ls.getLast? == some [] then ls.dropLast else ls)

/-- A transaction on a new file. -/
def create : KvsTxn := ⟨[defaultHeader], [], [], true⟩

/-- The first line of the key in the section. -/
def find (t : KvsTxn) (key : Line) : Option Line := t.body.find? (isLineOf key)

/-- The decoded value of a key; a missing and an empty value are the same. -/
def get (B : Base64) (t : KvsTxn) (key : Line) : Except KvsError (Option Bytes) :=
  match t.find key with
  | none => .ok none
  | some line =>
    if valueOf line = [] then .ok none
    else
      match B.decodeVec (valueOf line) with
      | some b => .ok (some b)
      | none => .error (.badBase64 key)

/-- The line `set` writes. -/
def lineOf (B : Base64) (key : Line) (value : Bytes) : Line := key ++ '=' :: B.encodeString value

/-- Replaces the line of the key, or appends one to the section. -/
def set (B : Base64) (t : KvsTxn) (key : Line) (value : Bytes) : KvsTxn :=
  let line := lineOf B key value
  match t.body.findIdx? (isLineOf key) with
  | some i => { t with body := t.body.set i line }
  | none => { t with body := t.body ++ [line] }

/-- Removes the first line of the key. -/
def remove (t : KvsTxn) (key : Line) : KvsTxn := { t with body := t.body.eraseP (isLineOf key) }

/-- All lines of the file. -/
def lines (t : KvsTxn) : List Line := t.before ++ t.body ++ t.after

/-- The text that replaces the file. -/
def commit (t : KvsTxn) : List Char :=
  ['\n'].intercalate t.lines ++ if t.trailingNewline && !t.lines.isEmpty then ['\n'] else []

end KvsTxn

end MatStack
