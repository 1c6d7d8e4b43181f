import MayflyHelper.Grammar

/-! The trusted-CA file is validated by one tokeniser and consumed by another.
A consumer that splits at ASCII blanks finds no key in an accepted file that
the validation has not seen; the one disagreement is what counts as the start
of a comment line. -/
namespace MayflyHelper

namespace Consumer

def isBlank (c : Char) : Bool := c == ' ' || c == '\t'

def isFieldSeparator (c : Char) : Bool := c == ' ' || c == '\t' || c == '\r'

def isPrintable (c : Char) : Bool := 0x20 ≤ c.toNat && c.toNat ≤ 0x7e

/-- One of `A-Z a-z 0-9 + / =`. -/
def isKeyCharacter (c : Char) : Bool :=
  let n := c.toNat
  (0x41 ≤ n && n ≤ 0x5a) || (0x61 ≤ n && n ≤ 0x7a) || (0x30 ≤ n && n ≤ 0x39) ||
    n == 0x2b || n == 0x2f || n == 0x3d

/-- The fields of a line that is neither empty nor a comment. -/
def lineFields (line : Text) : List Text :=
  if (line.dropWhile isBlank).isEmpty || Text.startsWith (line.dropWhile isBlank) '#' then []
  else Text.fields isFieldSeparator (line.dropWhile isBlank)

/-- Type and key of a line, where they look like a type and a key. -/
def linePair (line : Text) : Option (Text × Text) :=
  match lineFields line with
  | type :: key :: _ =>
      if type.all isPrintable && key.all isKeyCharacter then some (type, key) else none
  | _ => none

def pairs (contents : Text) : List (Text × Text) := (contents.splitOn '\n').filterMap linePair

/-- A blank to the consumer is white space to the validation. -/
theorem whitespace_of_separator (c : Char) (h : isFieldSeparator c = true) :
    Text.isWhitespace c = true := by
  simp only [isFieldSeparator, Bool.or_eq_true, beq_iff_eq] at h
  rcases h with (rfl | rfl) | rfl <;> rfl

theorem separator_of_blank (c : Char) (h : isBlank c = true) : isFieldSeparator c = true := by
  simp only [isBlank, isFieldSeparator] at h ⊢
  rw [h, Bool.true_or]

theorem not_whitespace_of_printable {c : Char} (h : isPrintable c = true)
    (hField : isFieldSeparator c = false) : Text.isWhitespace c = false := by
  have hSpace : c.toNat ≠ 0x20 := by
    intro hEq
    have : c = ' ' := Char.toNat_inj.mp hEq
    subst this
    cases hField
  simp only [isPrintable, Bool.and_eq_true, decide_eq_true_eq] at h
  simp only [Text.isWhitespace, Bool.or_eq_false_iff, Bool.and_eq_false_iff,
    decide_eq_false_iff_not,
    beq_eq_false_iff_ne]
  omega

theorem printable_of_keyCharacter {c : Char} (h : isKeyCharacter c = true) :
    isPrintable c = true := by
  simp only [isKeyCharacter, Bool.or_eq_true, Bool.and_eq_true, decide_eq_true_eq, beq_iff_eq] at h
  simp only [isPrintable, Bool.and_eq_true, decide_eq_true_eq]
  omega

/-- Leading blanks make no field. -/
theorem lineFields_eq_cons {line type : Text} {more : List Text}
    (h : lineFields line = type :: more) :
    Text.fields isFieldSeparator line = type :: more := by
  unfold lineFields at h
  split at h
  · cases h
  · have hLead : ∀ c ∈ line.takeWhile isBlank, isFieldSeparator c = true :=
      fun c hc => separator_of_blank c (List.mem_takeWhile_imp hc)
    rw [← List.takeWhile_append_dropWhile (p := isBlank) (l := line),
      Text.fields_of_all_append hLead]
    exact h

/-- The consumer's type and key are the first two fields of the line to the
validation as well. -/
theorem splitWhitespace_of_linePair {line type key : Text} (h : linePair line = some (type, key)) :
    ∃ more, Text.splitWhitespace line = type :: key :: more := by
  unfold linePair at h
  split at h
  case h_2 => cases h
  case h_1 first second others hFields =>
    split at h
    case isFalse => cases h
    case isTrue hLooks =>
      cases h
      rw [Bool.and_eq_true, List.all_eq_true, List.all_eq_true] at hLooks
      have hLine := lineFields_eq_cons hFields
      have hType : ∀ c ∈ type, Text.isWhitespace c = false := fun c hc =>
        not_whitespace_of_printable (hLooks.1 c hc) (Text.not_separator_of_fields_eq_cons hLine hc)
      obtain ⟨rest, hRest, hFirst⟩ := Text.fields_cons_of_wider whitespace_of_separator hLine hType
      have hKey : ∀ c ∈ key, Text.isWhitespace c = false := fun c hc =>
        not_whitespace_of_printable (printable_of_keyCharacter (hLooks.2 c hc))
          (Text.not_separator_of_fields_eq_cons hRest hc)
      obtain ⟨last, -, hSecond⟩ := Text.fields_cons_of_wider whitespace_of_separator hRest hKey
      exact ⟨_, hFirst.trans (congrArg (type :: ·) hSecond)⟩

end Consumer

namespace TrustedCaKeys

/-- One line, as the consumer cuts it and as the validation sees it: the two
have the same fields. -/
theorem linePair_of_parse {piece line type key : Text}
    (hLine : Text.splitWhitespace line = Text.splitWhitespace piece)
    (hPair : Consumer.linePair piece = some (type, key))
    (hComment : Text.startsWith type '#' = false) :
    ignored line = false ∧
      ∀ parsed, CaPublicKey.parse line = .ok parsed →
        (type, key) = (parsed.algorithm, parsed.keyData) := by
  obtain ⟨more, hFields⟩ := Consumer.splitWhitespace_of_linePair hPair
  rw [← hLine] at hFields
  constructor
  · by_contra hIgnored
    rw [startsWith_of_ignored (by simpa using hIgnored) hFields] at hComment
    cases hComment
  · intro parsed hParsed
    obtain ⟨others, hParsedFields⟩ := ((Grammar.parse_iff_keyLine line parsed).mp hParsed).fields
    rw [hFields] at hParsedFields
    simp only [List.cons.injEq] at hParsedFields
    rw [hParsedFields.1, hParsedFields.2.1]

/-- The pair the consumer takes from a line, comments apart. -/
def keyPair (piece : Text) : Option (Text × Text) :=
  (Consumer.linePair piece).filter (fun pair => !Text.startsWith pair.1 '#')

/-- One line more, as the consumer cuts it and as the validation sees it. -/
theorem sublist_cons {piece line : Text} {lines : List Text} {keys : List CaPublicKey}
    {found : List (Text × Text)} (hLine : Text.splitWhitespace line = Text.splitWhitespace piece)
    (h : parseLines (line :: lines) = .ok keys)
    (hFound : ∀ rest, parseLines lines = .ok rest →
      found.Sublist (rest.map (fun key => (key.algorithm, key.keyData)))) :
    ((keyPair piece).toList ++ found).Sublist
      (keys.map (fun key => (key.algorithm, key.keyData))) := by
  cases hPair : keyPair piece with
  | none =>
      rcases parseLines_cons h with ⟨-, hRest⟩ | ⟨-, key, rest, -, hRest, rfl⟩
      · exact hFound keys hRest
      · exact (hFound rest hRest).cons _
  | some pair =>
      obtain ⟨hPair, hComment⟩ := Option.filter_eq_some_iff.mp hPair
      obtain ⟨hSeen, hSame⟩ := linePair_of_parse hLine hPair (by simpa using hComment)
      rcases parseLines_cons h with ⟨hIgnored, -⟩ | ⟨-, key, rest, hKey, hRest, rfl⟩
      · rw [hSeen] at hIgnored
        cases hIgnored
      · have hPairs : pair = (key.algorithm, key.keyData) := hSame key hKey
        rw [hPairs]
        exact (hFound rest hRest).cons_cons _

/-- The induction is on the pieces between line feeds: each is one line to the
validation, but for a carriage return, and the empty rest is none. -/
theorem parseLines_sublist (pieces : List Text) (keys : List CaPublicKey)
    (h : parseLines (Text.terminated pieces) = .ok keys) :
    (pieces.filterMap keyPair).Sublist (keys.map (fun key => (key.algorithm, key.keyData))) := by
  rw [List.filterMap_eq_flatMap_toList]
  induction pieces using Text.terminated.induct generalizing keys with
  | case1 => exact List.nil_sublist _
  | case2 => exact List.nil_sublist _
  | case3 rest hRest =>
      rw [Text.terminated, if_neg hRest] at h
      exact sublist_cons rfl h (fun keys _ => List.nil_sublist _)
  | case4 piece pieces hPieces ih =>
      rw [Text.terminated] at h
      · exact sublist_cons (Text.splitWhitespace_stripCarriageReturn piece) h ih
      · exact hPieces

theorem parseLines_valid {lines : List Text} {keys : List CaPublicKey}
    (h : parseLines lines = .ok keys) :
    ∀ key ∈ keys, key.algorithm ∈ allowedAlgorithms ∧ isValidBase64 key.keyData = true := by
  induction lines generalizing keys with
  | nil =>
      cases h
      simp
  | cons line lines ih =>
      rcases parseLines_cons h with ⟨-, hRest⟩ | ⟨-, key, rest, hKey, hRest, rfl⟩
      · exact ih hRest
      · have hLine := (Grammar.parse_iff_keyLine line key).mp hKey
        have hValid := Grammar.valid_of_isBase64Word hLine.keyData
        exact List.forall_mem_cons.mpr ⟨⟨hLine.algorithm, hValid⟩, ih hRest⟩

end TrustedCaKeys

/-- No key is smuggled past the validation: what the consumer takes for keys
in an accepted file are, in order, keys the validation has seen. -/
theorem consumed_keys_are_validated (contents : Text) (file : TrustedCaKeys)
    (hParse : TrustedCaKeys.parse contents = .ok file) :
    ((Consumer.pairs contents).filter (fun pair => !Text.startsWith pair.1 '#')).Sublist
        (file.keys.map (fun key => (key.algorithm, key.keyData))) ∧
      ∀ pair ∈ Consumer.pairs contents, Text.startsWith pair.1 '#' = false →
        pair.1 ∈ allowedAlgorithms ∧ isValidBase64 pair.2 = true := by
  have hLines := TrustedCaKeys.parse_ok hParse
  have hPairs : (Consumer.pairs contents).filter (fun pair => !Text.startsWith pair.1 '#') =
      (contents.splitOn '\n').filterMap TrustedCaKeys.keyPair := by
    rw [Consumer.pairs, List.filter_filterMap]
    rfl
  have hSublist := hPairs ▸ TrustedCaKeys.parseLines_sublist _ _ hLines
  refine ⟨hSublist, fun pair hPair hComment => ?_⟩
  have hSeen := hSublist.subset (List.mem_filter.mpr ⟨hPair, by rw [hComment]; rfl⟩)
  obtain ⟨key, hKey, rfl⟩ := List.mem_map.mp hSeen
  exact TrustedCaKeys.parseLines_valid hLines key hKey

/-- Two keys, the second after a no-break space, which only the validation
takes for a blank. -/
theorem consumed_keys_are_validated_nbsp :
    (Consumer.pairs "# CA\r\nssh-ed25519 AAAA\r\nssh-rsa\u00a0AAAA x\n".toList).filter
        (fun pair => !Text.startsWith pair.1 '#') = [("ssh-ed25519".toList, "AAAA".toList)] ∧
      ((Consumer.pairs "# CA\r\nssh-ed25519 AAAA\r\nssh-rsa\u00a0AAAA x\n".toList).filter
        (fun pair => !Text.startsWith pair.1 '#')).Sublist
        [("ssh-ed25519".toList, "AAAA".toList), ("ssh-rsa".toList, "AAAA".toList)] :=
  ⟨by decide, (consumed_keys_are_validated _
    ⟨[⟨"ssh-ed25519".toList, "AAAA".toList, none⟩, ⟨"ssh-rsa".toList, "AAAA".toList, some ['x']⟩]⟩
    (by decide +kernel)).1⟩

/-- After a carriage return the validation sees a comment, the consumer a line
with two fields. -/
theorem consumed_comment_after_carriage_return :
    TrustedCaKeys.parse "\r# x".toList = .ok ⟨[]⟩ ∧
      ¬(Consumer.pairs "\r# x".toList).Sublist
        ((TrustedCaKeys.mk []).keys.map (fun key => (key.algorithm, key.keyData))) := by
  decide

end MayflyHelper
