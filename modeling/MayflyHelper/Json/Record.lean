import MayflyHelper.Json.Value

/-! Records read from JSON values, as derived deserialisers do it: from an
object with its members in any order and strange ones skipped, or from an
array of the fields in their order. A field given twice is an error; an
optional field may be left out or be null. -/
namespace Json

variable {Field : Type}

/-- The named values of a record. -/
def entries (names : List Text) : Value → Option (List (Text × Value))
  | .object members =>
      members.mapM (fun member => (decodeString member.1).map (fun key => (key, member.2)))
  | .array items => if items.length ≤ names.length then some (names.zip items) else none
  | _ => none

/-- The value of a field, if there is one. -/
def lookup (name : Text) (found : List (Text × Value)) : Option (Option Value) :=
  match found.filter (fun entry => entry.1 == name) with
  | [] => some none
  | [entry] => some (some entry.2)
  | _ => none

def required (read : Value → Option Field) (name : Text) (found : List (Text × Value)) :
    Option Field :=
  match lookup name found with
  | some (some value) => read value
  | _ => none

def optional (read : Value → Option Field) (name : Text) (found : List (Text × Value)) :
    Option (Option Field) :=
  match lookup name found with
  | none => none
  | some none => some none
  | some (some .null) => some none
  | some (some value) => (read value).map some

def asText : Value → Option Text
  | .string raw => decodeString raw
  | _ => none

def asBool : Value → Option Bool
  | .bool b => some b
  | _ => none

/-- An unsigned integer below `bound`. -/
def asUnsigned (bound : Nat) : Value → Option Nat
  | .number literal => ((Text.fromUtf8 literal).bind (Text.decimalValue 0)).filter (· < bound)
  | _ => none

/-- A variant without data: its tag, or the object of that tag and null. -/
def asVariant (ofTag : Text → Option Field) : Value → Option Field
  | .string raw => (decodeString raw).bind ofTag
  | .object [(raw, .null)] => (decodeString raw).bind ofTag
  | _ => none

def Member.text (key value : Text) : Member :=
  ⟨key, encodeString value, .string (escape value), renders_string value⟩

def Member.bool (key : Text) (b : Bool) : Member := ⟨key, encodeBool b, .bool b, renders_bool b⟩

def Member.unsigned (key : Text) (n : Nat) : Member :=
  ⟨key, encodeNat n, .number (encodeNat n), renders_number n⟩

@[simp] theorem asText_escape (t : Text) : asText (.string (escape t)) = some t :=
  decodeString_escape t

@[simp] theorem asUnsigned_encodeNat {bound n : Nat} (h : n < bound) :
    asUnsigned bound (.number (encodeNat n)) = some n := by
  rw [asUnsigned, encodeNat, Text.fromUtf8_asBytes, Option.bind_some, decimalValue_toDigits,
    Option.filter_some,
    if_pos (decide_eq_true h)]

theorem asVariant_escape {ofTag : Text → Option Field} (t : Text) :
    asVariant ofTag (.string (escape t)) = ofTag t := by
  rw [asVariant, decodeString_escape, Option.bind_some]

/-- The entries of an object are the members it was written from. -/
theorem entries_encodeObject (names : List Text) (list : List Member) :
    entries names (.object (list.map (fun member => (escape member.key, member.read)))) =
      some (list.map (fun member => (member.key, member.read))) := by
  rw [entries]
  induction list with
  | nil => rfl
  | cons member list ih =>
      rw [List.map_cons, List.mapM_cons, decodeString_escape]
      simp only [Option.map_some, Option.bind_eq_bind, Option.bind_some, List.map_cons]
      rw [ih]
      rfl

end Json
