import MayflyHelper.Text.Utf8

/-! JSON strings on bytes, as `serde_json` writes and reads them. Reading takes
two passes: the first finds the closing quote and checks the escapes, which is
all that a skipped string needs, and the second resolves them. -/
namespace Json

def quote : UInt8 := 0x22

def backslash : UInt8 := 0x5c

/-- The letter of an escape with four hexadecimal digits. -/
def unicodeLetter : UInt8 := 0x75

/-- The byte a two-character escape stands for, by its second character. -/
def simpleEscape (letter : UInt8) : Option UInt8 :=
  if letter = quote then some quote
  else if letter = backslash then some backslash
  else if letter = 0x2f then some 0x2f
  else if letter = 0x62 then some 0x08
  else if letter = 0x66 then some 0x0c
  else if letter = 0x6e then some 0x0a
  else if letter = 0x72 then some 0x0d
  else if letter = 0x74 then some 0x09
  else none

def hexValue (b : UInt8) : Option Nat :=
  if 0x30 ≤ b && b ≤ 0x39 then some (b.toNat - 0x30)
  else if 0x61 ≤ b && b ≤ 0x66 then some (b.toNat - 0x57)
  else if 0x41 ≤ b && b ≤ 0x46 then some (b.toNat - 0x37)
  else none

/-- Hexadecimal digits are written in lower case. -/
def hexDigit (n : Nat) : UInt8 := if n < 10 then UInt8.ofNat (0x30 + n) else UInt8.ofNat (0x57 + n)

def codeUnit (a b c d : UInt8) : Option Nat := do
  let a ← hexValue a
  let b ← hexValue b
  let c ← hexValue c
  let d ← hexValue d
  some (((a * 16 + b) * 16 + c) * 16 + d)

def isHighSurrogate (unit : Nat) : Bool := 0xd800 ≤ unit && unit ≤ 0xdbff

def isLowSurrogate (unit : Nat) : Bool := 0xdc00 ≤ unit && unit ≤ 0xdfff

/-- The string up to its closing quote, with its escapes checked but left as
they are, and what follows the quote. -/
def rawString : Bytes → Option (Bytes × Bytes)
  | [] => none
  | b :: rest =>
      if b = quote then some ([], rest)
      else if b < 0x20 then none
      else if b = backslash then
        match rest with
        | [] => none
        | letter :: rest =>
            if (simpleEscape letter).isSome then
              (rawString rest).map (fun found => (b :: letter :: found.1, found.2))
            else if letter = unicodeLetter then
              match rest with
              | h₁ :: h₂ :: h₃ :: h₄ :: rest =>
                  if (codeUnit h₁ h₂ h₃ h₄).isSome then
                    (rawString rest).map (fun found =>
                      (b :: letter :: h₁ :: h₂ :: h₃ :: h₄ :: found.1, found.2))
                  else none
              | _ => none
            else none
      else (rawString rest).map (fun found => (b :: found.1, found.2))

/-- Resolve the escapes. A surrogate has to be the high half of a pair. -/
def unescape : Bytes → Option Bytes
  | [] => some []
  | b :: rest =>
      if b = backslash then
        match rest with
        | [] => none
        | letter :: rest =>
            match simpleEscape letter with
            | some c => (unescape rest).map (c :: ·)
            | none =>
                if letter = unicodeLetter then
                  match rest with
                  | h₁ :: h₂ :: h₃ :: h₄ :: rest =>
                      match codeUnit h₁ h₂ h₃ h₄ with
                      | none => none
                      | some unit =>
                          if isHighSurrogate unit then
                            match rest with
                            | slash :: letter :: l₁ :: l₂ :: l₃ :: l₄ :: rest =>
                                match codeUnit l₁ l₂ l₃ l₄ with
                                | none => none
                                | some low =>
                                    if slash = backslash ∧ letter = unicodeLetter ∧
                                      isLowSurrogate low = true then
                                      (unescape rest).map (String.utf8EncodeChar
                                        (Char.ofNat (0x10000 + (unit - 0xd800) * 0x400 +
                                          (low - 0xdc00))) ++ ·)
                                    else none
                            | _ => none
                          else if isLowSurrogate unit then none
                          else (unescape rest).map (String.utf8EncodeChar (Char.ofNat unit) ++ ·)
                  | _ => none
                else none
      else (unescape rest).map (b :: ·)

/-- The text of a string, by what stands between its quotes. -/
def decodeString (raw : Bytes) : Option Text := (unescape raw).bind Text.fromUtf8

/-- Only quotes, backslashes and control characters are escaped. -/
def escapeChar (c : Char) : Bytes :=
  if c = '"' then [backslash, quote]
  else if c = '\\' then [backslash, backslash]
  else if c.toNat = 0x08 then [backslash, 0x62]
  else if c.toNat = 0x09 then [backslash, 0x74]
  else if c.toNat = 0x0a then [backslash, 0x6e]
  else if c.toNat = 0x0c then [backslash, 0x66]
  else if c.toNat = 0x0d then [backslash, 0x72]
  else if c.toNat < 0x20 then
    [backslash, unicodeLetter, 0x30, 0x30, hexDigit (c.toNat / 16), hexDigit (c.toNat % 16)]
  else String.utf8EncodeChar c

def escape (t : Text) : Bytes := t.flatMap escapeChar

/-- A string with its quotes. -/
def encodeString (t : Text) : Bytes := quote :: escape t ++ [quote]

theorem length_escapeChar (c : Char) : (escapeChar c).length ≤ 6 := by
  have hSize : (String.utf8EncodeChar c).length ≤ 4 := by
    rw [String.length_utf8EncodeChar]
    exact c.utf8Size_le_four
  unfold escapeChar
  repeat' split
  all_goals first | omega | simp

theorem length_encodeString (t : Text) : (encodeString t).length ≤ 6 * t.length + 2 := by
  induction t with
  | nil => exact Nat.le_refl _
  | cons c t ih =>
      have hChar := length_escapeChar c
      simp only [encodeString, escape, List.flatMap_cons, List.length_append, List.length_cons,
        List.length_nil] at ih ⊢
      omega

/-- A byte that stands for itself. -/
def Plain (b : UInt8) : Prop := b ≠ quote ∧ b ≠ backslash ∧ 0x20 ≤ b

theorem rawString_plain {bytes : Bytes} (h : ∀ b ∈ bytes, Plain b) (s : Bytes) :
    rawString (bytes ++ s) = (rawString s).map (fun found => (bytes ++ found.1, found.2)) := by
  induction bytes with
  | nil => simp
  | cons b bytes ih =>
      obtain ⟨hQuote, hSlash, hControl⟩ := h b List.mem_cons_self
      have hRest := ih fun other hOther => h other (List.mem_cons_of_mem _ hOther)
      rw [List.cons_append, rawString.eq_def]
      dsimp only
      rw [if_neg hQuote, if_neg (UInt8.not_lt.mpr hControl), if_neg hSlash, hRest,
        Option.map_map]
      rfl

theorem unescape_plain {bytes : Bytes} (h : ∀ b ∈ bytes, Plain b) (s : Bytes) :
    unescape (bytes ++ s) = (unescape s).map (bytes ++ ·) := by
  induction bytes with
  | nil => simp
  | cons b bytes ih =>
      have hSlash := (h b List.mem_cons_self).2.1
      have hRest := ih fun other hOther => h other (List.mem_cons_of_mem _ hOther)
      rw [List.cons_append, unescape.eq_def]
      dsimp only
      rw [if_neg hSlash, hRest, Option.map_map]
      rfl

/-- A character outside the escaped ones is written in plain bytes. -/
theorem plain_of_not_escaped {c : Char} (hQuote : c ≠ '"') (hSlash : c ≠ '\\')
    (hControl : 0x20 ≤ c.toNat) :
    ∀ b ∈ String.utf8EncodeChar c, Plain b := by
  intro b hb
  by_cases hAscii : c.toNat < 0x80
  · rw [Text.utf8EncodeChar_of_ascii hAscii, List.mem_singleton] at hb
    have hByte : b.toNat = c.toNat := by
      rw [hb, UInt8.toNat_ofNat', Nat.mod_eq_of_lt (by omega)]
    refine ⟨?_, ?_, ?_⟩
    · rintro rfl
      exact hQuote (Char.toNat_inj.mp hByte.symm)
    · rintro rfl
      exact hSlash (Char.toNat_inj.mp hByte.symm)
    · rw [UInt8.le_iff_toNat_le, hByte]
      exact hControl
  · have hHigh := Text.high_of_mem_utf8EncodeChar (Nat.le_of_not_lt hAscii) hb
    rw [UInt8.le_iff_toNat_le] at hHigh
    have hLarge : 128 ≤ b.toNat := hHigh
    refine ⟨?_, ?_, ?_⟩
    · rintro rfl
      exact absurd hLarge (by decide)
    · rintro rfl
      exact absurd hLarge (by decide)
    · rw [UInt8.le_iff_toNat_le]
      show 32 ≤ b.toNat
      omega

theorem hexValue_hexDigit : ∀ n < 16, hexValue (hexDigit n) = some n := by decide

/-- The code unit of a control character written with `\u00`. -/
theorem codeUnit_control {n : Nat} (h : n < 0x20) :
    codeUnit 0x30 0x30 (hexDigit (n / 16)) (hexDigit (n % 16)) = some n := by
  have hZero : hexValue 0x30 = some 0 := by decide
  rw [codeUnit, hZero, hexValue_hexDigit _ (by omega), hexValue_hexDigit _ (by omega)]
  simp only [Option.bind_eq_bind, Option.bind_some, Option.some.injEq]
  omega

theorem utf8EncodeChar_eq {c : Char} {n : Nat} (hn : n < 0x80) (h : c.toNat = n) :
    String.utf8EncodeChar c = [UInt8.ofNat n] := by
  rw [Text.utf8EncodeChar_of_ascii (by omega), h]

theorem simpleEscape_spec {letter c : UInt8} (h : simpleEscape letter = some c) (s : Bytes) :
    rawString (backslash :: letter :: s) =
        (rawString s).map (fun found => (backslash :: letter :: found.1, found.2)) ∧
      unescape (backslash :: letter :: s) = (unescape s).map (c :: ·) := by
  have hSlash : ¬backslash = quote ∧ ¬backslash < 0x20 := by decide
  constructor
  · rw [rawString.eq_def]
    simp only [hSlash, h, Option.isSome_some, if_false, if_true]
  · rw [unescape.eq_def]
    simp only [h, if_true]

theorem unicodeEscape_spec {n : Nat} (h : n < 0x20) (s : Bytes) :
    rawString
      (backslash :: unicodeLetter :: 0x30 :: 0x30 :: hexDigit (n / 16) :: hexDigit (n % 16) :: s) =
        (rawString s).map (fun found =>
          (backslash :: unicodeLetter :: 0x30 :: 0x30 :: hexDigit (n / 16) ::
            hexDigit (n % 16) :: found.1,
            found.2)) ∧
      unescape (backslash :: unicodeLetter :: 0x30 :: 0x30 :: hexDigit (n / 16) ::
        hexDigit (n % 16) :: s) =
        (unescape s).map (String.utf8EncodeChar (Char.ofNat n) ++ ·) := by
  have hSlash : ¬backslash = quote ∧ ¬backslash < 0x20 := by decide
  have hLetter : simpleEscape unicodeLetter = none := by decide
  have hHigh : isHighSurrogate n = false := by
    simp only [isHighSurrogate, Bool.and_eq_false_iff, decide_eq_false_iff_not]
    omega
  have hLow : isLowSurrogate n = false := by
    simp only [isLowSurrogate, Bool.and_eq_false_iff, decide_eq_false_iff_not]
    omega
  constructor
  · rw [rawString.eq_def]
    simp only [hSlash, hLetter, codeUnit_control h, Option.isSome_none, Option.isSome_some,
      Bool.false_eq_true, if_false, if_true]
  · rw [unescape.eq_def]
    simp only [hLetter, codeUnit_control h, hHigh, hLow, Bool.false_eq_true, if_false, if_true]

/-- One character: the lexer steps over its escape, and the escape stands for it. -/
theorem escapeChar_spec (c : Char) (s : Bytes) :
    rawString (escapeChar c ++ s) =
      (rawString s).map (fun found => (escapeChar c ++ found.1, found.2)) ∧
      unescape (escapeChar c ++ s) = (unescape s).map (String.utf8EncodeChar c ++ ·) := by
  unfold escapeChar
  split
  · rename_i h
    rw [utf8EncodeChar_eq (by decide) (congrArg Char.toNat h)]
    exact simpleEscape_spec rfl s
  split
  · rename_i h
    rw [utf8EncodeChar_eq (by decide) (congrArg Char.toNat h)]
    exact simpleEscape_spec rfl s
  split
  · rename_i h
    rw [utf8EncodeChar_eq (by omega) h]
    exact simpleEscape_spec rfl s
  split
  · rename_i h
    rw [utf8EncodeChar_eq (by omega) h]
    exact simpleEscape_spec rfl s
  split
  · rename_i h
    rw [utf8EncodeChar_eq (by omega) h]
    exact simpleEscape_spec rfl s
  split
  · rename_i h
    rw [utf8EncodeChar_eq (by omega) h]
    exact simpleEscape_spec rfl s
  split
  · rename_i h
    rw [utf8EncodeChar_eq (by omega) h]
    exact simpleEscape_spec rfl s
  split
  · rename_i h
    have hSpec := unicodeEscape_spec h s
    rwa [Char.ofNat_toNat] at hSpec
  · rename_i hQuote hSlash _ _ _ _ _ hControl
    have hPlain := plain_of_not_escaped hQuote hSlash (Nat.le_of_not_lt hControl)
    exact ⟨rawString_plain hPlain s, unescape_plain hPlain s⟩

theorem rawString_escape (t : Text) (s : Bytes) :
    rawString (escape t ++ quote :: s) = some (escape t, s) := by
  induction t with
  | nil =>
      show rawString (quote :: s) = some ([], s)
      rw [rawString.eq_def]
      rfl
  | cons c t ih =>
      rw [escape, List.flatMap_cons, List.append_assoc, (escapeChar_spec c _).1]
      have hRest : rawString (t.flatMap escapeChar ++ quote :: s) =
        some (t.flatMap escapeChar, s) := ih
      rw [hRest]
      rfl

theorem unescape_escape (t : Text) : unescape (escape t) = some (Text.asBytes t) := by
  induction t with
  | nil => rfl
  | cons c t ih =>
      rw [escape, List.flatMap_cons, (escapeChar_spec c _).2]
      have hRest : unescape (t.flatMap escapeChar) = some (Text.asBytes t) := ih
      rw [hRest]
      rfl

/-- A string is what was escaped. -/
theorem decodeString_escape (t : Text) : decodeString (escape t) = some t := by
  rw [decodeString, unescape_escape, Option.bind_some, Text.fromUtf8_asBytes]

end Json
