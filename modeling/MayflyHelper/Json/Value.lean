import MayflyHelper.Json.String
import MayflyHelper.Text.Numeral

/-! JSON values on bytes. Strings and numbers are kept as they are written, so
that a value nobody asks for is checked for its syntax only. Compact objects
are read back member by member. -/
namespace Json

inductive Value
  | null
  | bool (b : Bool)
  | number (literal : Bytes)
  | string (raw : Bytes)
  | array (items : List Value)
  | object (members : List (Bytes × Value))
  deriving Repr

def isSpace (b : UInt8) : Bool := b == 0x20 || b == 0x09 || b == 0x0a || b == 0x0d

def skipSpace (s : Bytes) : Bytes := s.dropWhile isSpace

def isDigit (b : UInt8) : Bool := 0x30 ≤ b && b ≤ 0x39

/-- One digit at least. -/
def digits (s : Bytes) : Option (Bytes × Bytes) :=
  if (s.takeWhile isDigit).isEmpty then none else some (s.takeWhile isDigit, s.dropWhile isDigit)

/-- Digits without a leading zero. -/
def integer (s : Bytes) : Option (Bytes × Bytes) :=
  (digits s).filter (fun found => !(found.1.head? == some 0x30 && found.1.length > 1))

/-- The bytes in front that are in `marks`, one at most. -/
def mark (marks : List UInt8) : Bytes → Bytes × Bytes
  | [] => ([], [])
  | b :: rest => if marks.contains b then ([b], rest) else ([], b :: rest)

def fraction (s : Bytes) : Option (Bytes × Bytes) :=
  let point := mark [0x2e] s
  if point.1.isEmpty then some ([], s) else (digits point.2).map (fun found =>
    (point.1 ++ found.1, found.2))

def exponent (s : Bytes) : Option (Bytes × Bytes) :=
  let letter := mark [0x65, 0x45] s
  if letter.1.isEmpty then some ([], s)
  else
    let sign := mark [0x2b, 0x2d] letter.2
    (digits sign.2).map (fun found => (letter.1 ++ sign.1 ++ found.1, found.2))

/-- An optional minus sign, an integer without leading zeros, a fraction and an
exponent. -/
def number (s : Bytes) : Option (Bytes × Bytes) := do
  let sign := mark [0x2d] s
  let int ← integer sign.2
  let frac ← fraction int.2
  let exp ← exponent frac.2
  some (sign.1 ++ int.1 ++ frac.1 ++ exp.1, exp.2)

/-- The rest after a fixed word. -/
def word (expected : Bytes) (value : Value) (s : Bytes) : Option (Value × Bytes) :=
  if expected.isPrefixOf s then some (value, s.drop expected.length) else none

def comma : UInt8 := 0x2c

def colon : UInt8 := 0x3a

def openBrace : UInt8 := 0x7b

def closeBrace : UInt8 := 0x7d

def openBracket : UInt8 := 0x5b

def closeBracket : UInt8 := 0x5d

mutual

/-- A value in front, and what follows it. The fuel bounds the nesting. -/
def value : Nat → Bytes → Option (Value × Bytes)
  | 0, _ => none
  | fuel + 1, s =>
      match skipSpace s with
      | [] => none
      | b :: rest =>
          if b = quote then (rawString rest).map (fun found => (.string found.1, found.2))
          else if b = openBrace then
            if (skipSpace rest).head? = some closeBrace then
              some (.object [], (skipSpace rest).tail)
            else (members fuel rest).map (fun found => (.object found.1, found.2))
          else if b = openBracket then
            if (skipSpace rest).head? = some closeBracket then
              some (.array [], (skipSpace rest).tail)
            else (items fuel rest).map (fun found => (.array found.1, found.2))
          else if b = 0x6e then word [0x6e, 0x75, 0x6c, 0x6c] .null (b :: rest)
          else if b = 0x74 then word [0x74, 0x72, 0x75, 0x65] (.bool true) (b :: rest)
          else if b = 0x66 then word [0x66, 0x61, 0x6c, 0x73, 0x65] (.bool false) (b :: rest)
          else (number (b :: rest)).map (fun found => (.number found.1, found.2))

/-- The items up to the closing bracket. -/
def items : Nat → Bytes → Option (List Value × Bytes)
  | 0, _ => none
  | fuel + 1, s =>
      match value fuel s with
      | none => none
      | some (first, s) =>
          match skipSpace s with
          | [] => none
          | b :: rest =>
              if b = comma then (items fuel rest).map (fun found => (first :: found.1, found.2))
              else if b = closeBracket then some ([first], rest)
              else none

/-- The members up to the closing brace. -/
def members : Nat → Bytes → Option (List (Bytes × Value) × Bytes)
  | 0, _ => none
  | fuel + 1, s =>
      match skipSpace s with
      | [] => none
      | b :: rest =>
          if b ≠ quote then none
          else
            match rawString rest with
            | none => none
            | some (key, s) =>
                match skipSpace s with
                | [] => none
                | b :: rest =>
                    if b ≠ colon then none
                    else
                      match value fuel rest with
                      | none => none
                      | some (first, s) =>
                          match skipSpace s with
                          | [] => none
                          | b :: rest =>
                              if b = comma then
                                (members fuel rest).map (fun found =>
                                  ((key, first) :: found.1, found.2))
                              else if b = closeBrace then some ([(key, first)], rest)
                              else none

end

/-- A whole text: one value and nothing but white space around it. -/
def parse (s : Bytes) : Option Value :=
  match value (2 * s.length + 2) s with
  | some (found, rest) => if (skipSpace rest).isEmpty then some found else none
  | none => none

def encodeNat (n : Nat) : Bytes := Text.asBytes (Nat.toDigits 10 n)

def encodeBool (b : Bool) : Bytes :=
  if b then [0x74, 0x72, 0x75, 0x65] else [0x66, 0x61, 0x6c, 0x73, 0x65]

/-- Inside an object, `written` is read as `read`. -/
def Renders (written : Bytes) (read : Value) : Prop :=
  ∀ fuel rest, (∀ b ∈ rest.head?, b = comma ∨ b = closeBrace) →
    value (fuel + 1) (written ++ rest) = some (read, rest)

/-- A member of an object to be written, with how it is read back. -/
structure Member where
  key : Text
  written : Bytes
  read : Value
  renders : Renders written read

def encodeMembers : List Member → Bytes
  | [] => []
  | [last] => encodeString last.key ++ colon :: last.written
  | first :: rest => encodeString first.key ++ colon :: first.written ++ comma :: encodeMembers rest

def encodeObject (list : List Member) : Bytes := openBrace :: encodeMembers list ++ [closeBrace]

theorem encodeMembers_cons_cons (first second : Member) (tail : List Member) :
    encodeMembers (first :: second :: tail) =
      encodeString first.key ++ colon :: first.written ++
        comma :: encodeMembers (second :: tail) := by
  rw [encodeMembers]
  simp

theorem length_encodeBool (b : Bool) : (encodeBool b).length ≤ 5 := by
  cases b <;> decide

/-- The length of an object, by the longest member. -/
theorem length_encodeObject {list : List Member} {bound : Nat}
    (h : ∀ member ∈ list, (encodeString member.key).length + member.written.length + 2 ≤ bound) :
    (encodeObject list).length ≤ list.length * bound + 2 := by
  induction list with
  | nil => simp [encodeObject, encodeMembers]
  | cons first tail ih =>
      have hFirst := h first List.mem_cons_self
      have hTail := ih fun member hMember => h member (List.mem_cons_of_mem first hMember)
      cases tail with
      | nil =>
          simp only [encodeObject, encodeMembers, List.length_append,
            List.length_cons, List.length_nil]
          omega
      | cons second tail =>
          simp only [encodeObject, encodeMembers_cons_cons, List.length_append,
            List.length_cons, List.length_nil,
            Nat.add_mul, Nat.one_mul] at hTail ⊢
          omega

theorem skipSpace_cons {b : UInt8} (h : isSpace b = false) (s : Bytes) :
    skipSpace (b :: s) = b :: s := by
  rw [skipSpace, List.dropWhile_cons_of_neg (by simp [h])]

/-- A string is read back with its escapes undone. -/
theorem renders_string (t : Text) : Renders (encodeString t) (.string (escape t)) := by
  intro fuel rest _
  have hWhole : encodeString t ++ rest = quote ::
    (escape t ++ quote :: rest) := by simp [encodeString]
  rw [hWhole, value, skipSpace_cons (by decide)]
  dsimp only
  rw [if_pos rfl, rawString_escape]
  rfl

theorem renders_bool (b : Bool) : Renders (encodeBool b) (.bool b) := by
  intro fuel rest _
  cases b <;> rfl

theorem ascii_toDigits (n : Nat) : ∀ c ∈ Nat.toDigits 10 n, 0x30 ≤ c.toNat ∧ c.toNat ≤ 0x39 := by
  intro c hc
  have hDigit := Nat.isDigit_of_mem_toDigits (by omega) (by omega) hc
  simp only [Char.isDigit, Bool.and_eq_true, decide_eq_true_eq, UInt32.le_iff_toNat_le] at hDigit
  exact hDigit

theorem encodeNat_eq (n : Nat) :
    encodeNat n = (Nat.toDigits 10 n).map (fun c => UInt8.ofNat c.toNat) :=
  Text.asBytes_of_ascii fun c hc => by
    have := ascii_toDigits n c hc
    omega

theorem isDigit_of_mem_encodeNat (n : Nat) : ∀ b ∈ encodeNat n, isDigit b = true := by
  intro b hb
  rw [encodeNat_eq] at hb
  obtain ⟨c, hc, rfl⟩ := List.mem_map.mp hb
  have hRange := ascii_toDigits n c hc
  simp only [isDigit, Bool.and_eq_true, decide_eq_true_eq, UInt8.le_iff_toNat_le,
    UInt8.toNat_ofNat']
  rw [Nat.mod_eq_of_lt (by omega)]
  exact hRange

theorem digitChar_ne_zero : ∀ n < 10, 0 < n → n.digitChar ≠ '0' := by decide

/-- A positive numeral does not begin with a zero. -/
theorem head?_toDigits (n : Nat) (h : 0 < n) : (Nat.toDigits 10 n).head? ≠ some '0' := by
  induction n using Nat.strong_induction_on with
  | _ n ih =>
      by_cases hSmall : n < 10
      · rw [Nat.toDigits_of_lt_base hSmall, List.head?_cons, Ne, Option.some.injEq]
        exact digitChar_ne_zero n hSmall h
      · rw [Nat.toDigits_of_base_le (by omega) (by omega),
          List.head?_append_of_ne_nil _ Nat.toDigits_ne_nil]
        exact ih (n / 10) (by omega) (by omega)

/-- A numeral has no leading zero, unless it is zero. -/
theorem encodeNat_noLeadingZero (n : Nat) :
    ((encodeNat n).head? == some 0x30 && decide ((encodeNat n).length > 1)) = false := by
  by_cases hZero : n = 0
  · rw [hZero]
    rfl
  rw [Bool.and_eq_false_iff]
  left
  rw [beq_eq_false_iff_ne, encodeNat_eq, List.head?_map]
  intro hHead
  obtain ⟨c, hc, hByte⟩ := Option.map_eq_some_iff.mp hHead
  have hRange := ascii_toDigits n c (List.mem_of_mem_head? hc)
  have hNat := congrArg UInt8.toNat hByte
  rw [UInt8.toNat_ofNat', Nat.mod_eq_of_lt (by omega)] at hNat
  have hChar : c = '0' := Char.toNat_inj.mp hNat
  rw [hChar] at hc
  exact head?_toDigits n (by omega) hc

theorem digitValue_digitChar : ∀ n < 10, Text.digitValue n.digitChar = some n := by decide

/-- A numeral has the value it was written for. -/
theorem decimalValue_toDigits (n : Nat) : Text.decimalValue 0 (Nat.toDigits 10 n) = some n := by
  induction n using Nat.strong_induction_on with
  | _ n ih =>
      by_cases hSmall : n < 10
      · rw [Nat.toDigits_of_lt_base hSmall, Text.decimalValue, List.foldlM_cons,
          digitValue_digitChar n hSmall]
        simp
      · have hFront : Text.decimalValue 0 (Nat.toDigits 10 (n / 10)) = some (n / 10) :=
          ih (n / 10) (by omega)
        rw [Text.decimalValue] at hFront
        rw [Nat.toDigits_of_base_le (by omega) (by omega), Text.decimalValue,
          List.foldlM_append, hFront]
        simp only [Option.bind_eq_bind, Option.bind_some, List.foldlM_cons, List.foldlM_nil,
          digitValue_digitChar (n % 10) (by omega), Option.map_some, Option.pure_def,
            Option.some.injEq]
        omega

/-- Nothing inside an object continues a number. -/
theorem integer_encodeNat (n : Nat) {rest : Bytes}
    (hRest : ∀ b ∈ rest.head?, b = comma ∨ b = closeBrace) :
    integer (encodeNat n ++ rest) = some (encodeNat n, rest) := by
  have hStop : rest.takeWhile isDigit = [] ∧ rest.dropWhile isDigit = rest := by
    cases rest with
    | nil => exact ⟨rfl, rfl⟩
    | cons b rest =>
        have hDigit : isDigit b = false := by
          rcases hRest b rfl with rfl | rfl <;> rfl
        simp [hDigit]
  have hTake : (encodeNat n ++ rest).takeWhile isDigit = encodeNat n := by
    rw [List.takeWhile_append_of_pos (isDigit_of_mem_encodeNat n), hStop.1, List.append_nil]
  have hDrop : (encodeNat n ++ rest).dropWhile isDigit = rest := by
    rw [List.dropWhile_append_of_pos (isDigit_of_mem_encodeNat n), hStop.2]
  have hNonempty : (encodeNat n).isEmpty = false := by
    rw [encodeNat_eq]
    simp
  rw [integer, digits, hTake, hDrop, hNonempty, if_neg (by simp), Option.filter_some, if_pos]
  rw [encodeNat_noLeadingZero]
  rfl

/-- A numeral ends where a comma or a brace follows. -/
theorem number_encodeNat (n : Nat) {rest : Bytes}
    (hRest : ∀ b ∈ rest.head?, b = comma ∨ b = closeBrace) :
    number (encodeNat n ++ rest) = some (encodeNat n, rest) := by
  have hSign : mark [0x2d] (encodeNat n ++ rest) = ([], encodeNat n ++ rest) := by
    cases hText : encodeNat n with
    | nil => simp [encodeNat_eq] at hText
    | cons b tail =>
        have hDigit := isDigit_of_mem_encodeNat n b (by rw [hText]; exact List.mem_cons_self)
        have hNe : b ≠ 0x2d := by
          rintro rfl
          cases hDigit
        simp [mark, hNe]
  have hAfter : fraction rest = some ([], rest) ∧ exponent rest = some ([], rest) := by
    cases rest with
    | nil => exact ⟨rfl, rfl⟩
    | cons b rest => rcases hRest b rfl with rfl | rfl <;> exact ⟨rfl, rfl⟩
  simp only [number, hSign, integer_encodeNat n hRest, hAfter, Option.bind_eq_bind,
    Option.bind_some,
    List.nil_append, List.append_nil]

/-- A numeral is read back digit for digit. -/
theorem renders_number (n : Nat) : Renders (encodeNat n) (.number (encodeNat n)) := by
  intro fuel rest hRest
  have hNumber := number_encodeNat n hRest
  cases hText : encodeNat n with
  | nil => simp [encodeNat_eq] at hText
  | cons b tail =>
      have hDigit := isDigit_of_mem_encodeNat n b (by rw [hText]; exact List.mem_cons_self)
      rw [hText] at hNumber
      have hNe : ∀ c, isDigit c = false → b ≠ c := by
        rintro c hc rfl
        rw [hc] at hDigit
        cases hDigit
      have hSpace : isSpace b = false := by
        simp only [isSpace, Bool.or_eq_false_iff, beq_eq_false_iff_ne]
        exact ⟨⟨⟨hNe _ rfl, hNe _ rfl⟩, hNe _ rfl⟩, hNe _ rfl⟩
      rw [value, List.cons_append, skipSpace_cons hSpace]
      dsimp only
      rw [if_neg (hNe quote rfl), if_neg (hNe openBrace rfl), if_neg (hNe openBracket rfl),
        if_neg (hNe 0x6e rfl),
        if_neg (hNe 0x74 rfl), if_neg (hNe 0x66 rfl), ← List.cons_append, hNumber]
      rfl

/-- One member and what comes after it. -/
theorem members_member (member : Member) (fuel : Nat) {b : UInt8} (rest : Bytes)
    (hb : b = comma ∨ b = closeBrace) :
    members (fuel + 2) (encodeString member.key ++ colon :: member.written ++ b :: rest) =
      if b = comma then
        (members (fuel + 1) rest).map
          (fun found => ((escape member.key, member.read) :: found.1, found.2))
      else some ([(escape member.key, member.read)], rest) := by
  have hWhole : encodeString member.key ++ colon :: member.written ++ b :: rest =
      quote :: (escape member.key ++ quote :: (colon :: (member.written ++ b :: rest))) := by
    simp [encodeString]
  have hValue := member.renders fuel (b :: rest) (fun c hc => by cases hc; exact hb)
  have hSpace : isSpace b = false := by rcases hb with rfl | rfl <;> rfl
  rw [hWhole, members, skipSpace_cons (by decide)]
  dsimp only
  rw [if_neg (by simp), rawString_escape]
  dsimp only
  rw [skipSpace_cons (by decide)]
  dsimp only
  rw [if_neg (by simp), hValue]
  dsimp only
  rw [skipSpace_cons hSpace]
  dsimp only
  rcases hb with rfl | rfl
  · rw [if_pos rfl, if_pos rfl]
  · rw [if_neg (by decide), if_pos rfl, if_neg (by decide)]

/-- Members are read back in their order. -/
theorem members_encodeMembers (list : List Member) (hNe : list ≠ []) (fuel : Nat)
    (hFuel : list.length < fuel)
    (rest : Bytes) :
    members fuel (encodeMembers list ++ closeBrace :: rest) =
      some (list.map (fun member => (escape member.key, member.read)), rest) := by
  induction list generalizing fuel with
  | nil => exact absurd rfl hNe
  | cons first tail ih =>
      rw [List.length_cons] at hFuel
      obtain ⟨fuel, rfl⟩ : ∃ n, fuel = n + 2 := ⟨fuel - 2, by omega⟩
      cases tail with
      | nil =>
          rw [encodeMembers, members_member first fuel rest (.inr rfl), if_neg (by decide)]
          rfl
      | cons second tail =>
          have hRest := ih (by simp) (fuel + 1) (by omega)
          have hWhole : encodeMembers (first :: second :: tail) ++ closeBrace :: rest =
              encodeString first.key ++ colon :: first.written ++
                comma :: (encodeMembers (second :: tail) ++ closeBrace :: rest) := by
            rw [encodeMembers_cons_cons]
            simp
          rw [hWhole, members_member first fuel _ (.inl rfl), if_pos rfl, hRest]
          rfl

/-- Each member takes a byte at least. -/
theorem length_encodeMembers (list : List Member) : list.length ≤ (encodeMembers list).length := by
  induction list with
  | nil => exact Nat.le_refl _
  | cons first tail ih =>
      cases tail with
      | nil =>
          simp only [encodeMembers, List.length_append, List.length_cons, List.length_nil]
          omega
      | cons second tail =>
          simp only [encodeMembers_cons_cons, List.length_append, List.length_cons] at ih ⊢
          omega

/-- A compact object is read back. -/
theorem parse_encodeObject (list : List Member) (hNe : list ≠ []) :
    parse (encodeObject list) =
      some (.object (list.map (fun member => (escape member.key, member.read)))) := by
  have hLength := length_encodeMembers list
  have hFirst : (skipSpace (encodeMembers list ++ [closeBrace])).head? ≠ some closeBrace := by
    cases list with
    | nil => exact absurd rfl hNe
    | cons first tail =>
        have hQuote : ∃ s, encodeMembers (first :: tail) ++ [closeBrace] = quote :: s := by
          cases tail <;> exact ⟨_, rfl⟩
        obtain ⟨s, hs⟩ := hQuote
        rw [hs, skipSpace_cons (by decide)]
        simp [quote, closeBrace]
  have hMembers := members_encodeMembers list hNe (2 * (encodeObject list).length + 1)
    (by simp only [encodeObject, List.length_append, List.length_cons]; omega) []
  rw [parse, value]
  unfold encodeObject at hMembers ⊢
  rw [List.cons_append, skipSpace_cons (by decide)]
  dsimp only
  rw [if_neg (by decide), if_pos rfl, if_neg hFirst, ← List.cons_append, hMembers]
  rfl

end Json
