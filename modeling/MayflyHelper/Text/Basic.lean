import Mathlib.Data.List.DropRight

/-! Text as a list of Unicode scalar values, with the standard-library string
operations the parsers are written in. Whitespace is the Unicode property,
not the ASCII one: a parser that trims and a consumer that splits at ASCII
blanks need not see the same fields. -/

abbrev Text := List Char

abbrev Bytes := List UInt8

namespace Text

/-- `char::is_whitespace`: the Unicode `White_Space` property. -/
def isWhitespace (c : Char) : Bool :=
  let n := c.toNat
  (0x9 ≤ n && n ≤ 0xd) || n == 0x20 || n == 0x85 || n == 0xa0 || n == 0x1680 ||
    (0x2000 ≤ n && n ≤ 0x200a) || n == 0x2028 || n == 0x2029 || n == 0x202f ||
    n == 0x205f || n == 0x3000

/-- `char::is_control`: the general category `Cc`. -/
def isControl (c : Char) : Bool :=
  let n := c.toNat
  n ≤ 0x1f || (0x7f ≤ n && n ≤ 0x9f)

def trimStart (t : Text) : Text := t.dropWhile isWhitespace

def trimEnd (t : Text) : Text := t.rdropWhile isWhitespace

def trim (t : Text) : Text := trimEnd (trimStart t)

/-- `str::trim_end_matches` for a single character. -/
def trimEndMatches (c : Char) (t : Text) : Text := t.rdropWhile (· == c)

/-- `str::trim_start_matches` for a single character. -/
def trimStartMatches (c : Char) (t : Text) : Text := t.dropWhile (· == c)

def startsWith (t : Text) (c : Char) : Bool := t.head? == some c

def stripPrefix (first : Text) (t : Text) : Option Text :=
  if first.isPrefixOf t then some (t.drop first.length) else none

def stripCarriageReturn (t : Text) : Text :=
  if t.getLast? = some '\r' then t.dropLast else t

/-- The pieces between line feeds, as lines: a terminated piece loses one
carriage return, the unterminated rest is kept as it stands, and an empty
rest is no line. -/
def terminated : List Text → List Text
  | [] => []
  | [rest] => if rest = [] then [] else [rest]
  | piece :: pieces => stripCarriageReturn piece :: terminated pieces

/-- `str::lines`. -/
def lines (t : Text) : List Text := terminated (t.splitOn '\n')

/-- Maximal non-empty runs of characters that are not separators. -/
def fields (separator : Char → Bool) (t : Text) : List Text :=
  (t.splitOnP separator).filter (fun field => !field.isEmpty)

/-- `str::split_whitespace`. -/
def splitWhitespace (t : Text) : List Text := fields isWhitespace t

/-- `str::split_once`: cut at the first separator. -/
def splitOnce (separator : Char → Bool) (t : Text) : Option (Text × Text) :=
  match t.dropWhile (fun c => !separator c) with
  | [] => none
  | _ :: rest => some (t.takeWhile (fun c => !separator c), rest)

/-- `str::rsplit_once`: cut at the last separator. -/
def rsplitOnce (separator : Char → Bool) (t : Text) : Option (Text × Text) :=
  (splitOnce separator t.reverse).map (fun cut => (cut.2.reverse, cut.1.reverse))

/-- `char::to_ascii_lowercase`. -/
def toAsciiLowercase (c : Char) : Char :=
  if 0x41 ≤ c.toNat && c.toNat ≤ 0x5a then Char.ofNat (c.toNat + 0x20) else c

def eqIgnoreAsciiCase (s t : Text) : Bool :=
  s.map toAsciiLowercase == t.map toAsciiLowercase

/-- `str::as_bytes`. -/
def asBytes (t : Text) : Bytes := t.flatMap String.utf8EncodeChar

/-- `String::from_utf8`. -/
def fromUtf8 (bytes : Bytes) : Option Text :=
  bytes.toByteArray.utf8Decode?.map Array.toList

@[simp] theorem fromUtf8_asBytes (t : Text) : fromUtf8 (asBytes t) = some t := by
  have h : (asBytes t).toByteArray = t.utf8Encode := rfl
  rw [fromUtf8, h, List.utf8Decode?_utf8Encode]
  rfl

def digitValue (c : Char) : Option Nat :=
  if 0x30 ≤ c.toNat && c.toNat ≤ 0x39 then some (c.toNat - 0x30) else none

def checked (bound n : Nat) : Option Nat := if n < bound then some n else none

def parseDigits (bound : Nat) : Nat → Text → Option Nat
  | value, [] => some value
  | value, c :: rest => do
      let scaled ← checked bound (value * 10)
      let digit ← digitValue c
      let next ← checked bound (scaled + digit)
      parseDigits bound next rest

/-- `str::parse` to an unsigned type: an optional plus sign and at least one
digit, with overflow checked at every digit. -/
def parseUnsigned (bound : Nat) : Text → Option Nat
  | [] => none
  | ['+'] => none
  | '+' :: digits => parseDigits bound 0 digits
  | digits => parseDigits bound 0 digits

/-- The value of a digit string read from the left, starting at `value`. -/
def decimalValue (value : Nat) (t : Text) : Option Nat :=
  t.foldlM (fun value c => (digitValue c).map (fun digit => value * 10 + digit)) value

/-- `t` is a decimal numeral of `n`. A leading plus sign and leading zeros
are allowed; there must be at least one digit. -/
def IsNumeralOf (t : Text) (n : Nat) : Prop :=
  ∃ digits, (t = digits ∨ t = '+' :: digits) ∧ digits ≠ [] ∧ decimalValue 0 digits = some n

end Text
