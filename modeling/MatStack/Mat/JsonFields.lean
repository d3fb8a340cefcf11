import MatStack.Controller.Json
import Mathlib.Data.List.Nodup

/-!
# Fields of an object

An object is built field by field, in the order of the names (`insertField`). A `Codec` is how a
value stands in a field, and carries the proof that it is read back; a record is read through the
codecs of its fields, each of which must be there or has a default.
-/

namespace MatStack

/-- The value under a name. -/
def valueAt {β : Type} (k : String) : List (String × β) → Option β
  | [] => none
  | f :: fields => if f.1 = k then some f.2 else valueAt k fields

namespace Json

variable {α : Type} {k l : String} {v : Json} {fields : List (String × Json)}

/-- The fields with one more, which takes the place of one of its name. -/
def insertField (k : String) (v : Json) : List (String × Json) → List (String × Json)
  | [] => [(k, v)]
  | f :: fields =>
    if k < f.1 then (k, v) :: f :: fields
    else if f.1 = k then (k, v) :: fields
    else f :: insertField k v fields

/-- The fields of an object that is built from them. -/
def objectFields (fields : List (String × Json)) : List (String × Json) :=
  fields.foldl (fun out f => insertField f.1 f.2 out) []

/-- An object with one more field; nothing else has fields. -/
def insert (j : Json) (k : String) (v : Json) : Json :=
  match j with
  | object fields => object (insertField k v fields)
  | j => j

@[simp]
theorem valueAt_insertField : valueAt l (insertField k v fields) =
    if k = l then some v else valueAt l fields := by
  induction fields with
  | nil => rfl
  | cons f fields ih =>
    rw [insertField]
    split
    · rfl
    · split
      · next heq =>
        subst heq
        rw [valueAt, valueAt]
        split <;> rfl
      · next hne =>
        rw [valueAt, ih, valueAt]
        by_cases hk : k = l
        · subst hk
          rw [if_neg hne, if_pos rfl, if_pos rfl]
        · rw [if_neg hk, if_neg hk]

theorem valueAt_append {β : Type} {sent fields : List (String × β)} {k : String} :
    valueAt k (sent ++ fields) = (valueAt k sent).or (valueAt k fields) := by
  induction sent with
  | nil => rfl
  | cons f sent ih =>
    rw [List.cons_append, valueAt, ih, valueAt]
    split <;> rfl

theorem valueAt_foldl_insertField (sent fields : List (String × Json)) (k : String) :
    valueAt k (sent.foldl (fun out f => insertField f.1 f.2 out) fields) =
      (valueAt k sent.reverse).or (valueAt k fields) := by
  induction sent generalizing fields with
  | nil => rfl
  | cons f sent ih =>
    rw [List.foldl_cons, ih, valueAt_insertField, List.reverse_cons, valueAt_append,
      Option.or_assoc, valueAt, valueAt]
    split <;> rfl

/-- Fields are taken away by their names. -/
theorem valueAt_filter {p : String → Bool} :
    valueAt k (fields.filter fun f => p f.1) = if p k then valueAt k fields else none := by
  induction fields with
  | nil => exact (ite_self _).symm
  | cons f fields ih =>
    rw [List.filter_cons, valueAt]
    by_cases hk : f.1 = k
    · subst hk
      split
      · rw [valueAt, if_pos rfl, if_pos rfl]
      · next hp => rw [ih, if_neg hp]
    · rw [if_neg hk, ← ih]
      split
      · rw [valueAt, if_neg hk]
      · rfl

theorem filter_insertField {p : String → Bool} (hp : p k = false) :
    (insertField k v fields).filter (fun f => p f.1) = fields.filter fun f => p f.1 := by
  have hdrop : ∀ (v : Json) (fields : List (String × Json)),
      ((k, v) :: fields).filter (fun f => p f.1) = fields.filter fun f => p f.1 := fun _ _ =>
    List.filter_cons_of_neg (ne_true_of_eq_false hp)
  induction fields with
  | nil => exact hdrop v []
  | cons f fields ih =>
    rw [insertField]
    split
    · exact hdrop v _
    · split
      · next heq =>
        subst heq
        exact (hdrop v fields).trans (hdrop f.2 fields).symm
      · rw [List.filter_cons, List.filter_cons, ih]

/-! ## Codecs -/

/-- How a value stands in a field. -/
structure Codec (α : Type) where
  encode : α → Json
  decode : Json → Option α
  decode_encode : ∀ a, decode (encode a) = some a

namespace Codec

attribute [simp] decode_encode

theorem decode_unsigned {bound : Nat} {toNat : α → Nat} {ofNat : Nat → α} {a : α}
    (hlt : toNat a < bound) (hof : ofNat (toNat a) = a) :
    (if 0 ≤ (toNat a : Int) ∧ (toNat a : Int) < bound then some (ofNat (toNat a : Int).toNat)
      else none) = some a := by
  rw [if_pos ⟨Int.natCast_nonneg _, Int.ofNat_lt.2 hlt⟩, Int.toNat_natCast, hof]

/-- A number below a bound. -/
def unsigned (bound : Nat) (toNat : α → Nat) (ofNat : Nat → α) (hlt : ∀ a, toNat a < bound)
    (hof : ∀ a, ofNat (toNat a) = a) : Codec α where
  encode a := .int (toNat a)
  decode
    | .int v => if 0 ≤ v ∧ v < bound then some (ofNat v.toNat) else none
    | _ => none
  decode_encode a := decode_unsigned (hlt a) (hof a)

def u8 : Codec UInt8 :=
  unsigned (2 ^ 8) UInt8.toNat UInt8.ofNat UInt8.toNat_lt @UInt8.ofNat_toNat

def u16 : Codec UInt16 :=
  unsigned (2 ^ 16) UInt16.toNat UInt16.ofNat UInt16.toNat_lt @UInt16.ofNat_toNat

def u32 : Codec UInt32 :=
  unsigned (2 ^ 32) UInt32.toNat UInt32.ofNat UInt32.toNat_lt @UInt32.ofNat_toNat

def u64 : Codec UInt64 :=
  unsigned (2 ^ 64) UInt64.toNat UInt64.ofNat UInt64.toNat_lt @UInt64.ofNat_toNat

def boolean : Codec Bool where
  encode := .bool
  decode
    | .bool b => some b
    | _ => none
  decode_encode _ := rfl

def text : Codec String where
  encode := .string
  decode
    | .string s => some s
    | _ => none
  decode_encode _ := rfl

theorem mapM_decode (c : Codec α) (as : List α) : (as.map c.encode).mapM c.decode = some as := by
  induction as with
  | nil => rfl
  | cons a as ih => rw [List.map_cons, List.mapM_cons, c.decode_encode, ih]; rfl

/-- A list, from and to an array. -/
def list (c : Codec α) : Codec (List α) where
  encode as := .array (as.map c.encode)
  decode
    | .array items => items.mapM c.decode
    | _ => none
  decode_encode := mapM_decode c

section
variable (c : Codec α) {a d : α}

/-- The value of a field that must be there. -/
def required (field : Option Json) : Option α := field.bind c.decode

/-- The value of a field that has a default. -/
def orDefault (d : α) (field : Option Json) : Option α :=
  match field with
  | none => some d
  | some j => c.decode j

/-- The value of a field that may be left out, or be null. -/
def optional (field : Option Json) : Option (Option α) :=
  match field with
  | none => some none
  | some .null => some none
  | some j => (c.decode j).map some

@[simp]
theorem required_encode : c.required (some (c.encode a)) = some a := c.decode_encode a

@[simp]
theorem orDefault_encode : c.orDefault d (some (c.encode a)) = some a := c.decode_encode a

@[simp]
theorem orDefault_none : c.orDefault d none = some d := rfl

@[simp]
theorem optional_none : c.optional none = some none := rfl

@[simp]
theorem optional_null : c.optional (some .null) = some none := rfl

theorem optional_encode (h : c.encode a ≠ .null) :
    c.optional (some (c.encode a)) = some (some a) := by
  rw [optional.eq_def]
  split
  · next heq => cases heq
  · next heq => exact absurd (Option.some.inj heq) h
  · next heq =>
    rw [← Option.some.inj heq, c.decode_encode]
    rfl

end

@[simp]
theorem orDefault_bool (d b : Bool) : boolean.orDefault d (some (.bool b)) = some b := rfl

@[simp]
theorem required_string (s : String) : text.required (some (.string s)) = some s := rfl

@[simp]
theorem optional_string (s : String) : text.optional (some (.string s)) = some (some s) := rfl

end Codec

end Json

end MatStack
