import MayflyHelper.Directive
import MayflyHelper.Include

/-! What may stand between a keyword and its value. `sshd` takes white space
or one `=`, and so does the search for `TrustedUserCAKeys`. The check for the
`Include` cuts at white space only, so there the sign becomes a part of the
keyword or of a pattern. -/
namespace MayflyHelper.SshdConfig

def includeKeyword : Text := "Include".toList

/-- A run of blanks and tabs with at most one `=`. -/
structure Separator where
  text : Text
  nonempty : text ≠ []
  characters : ∀ c ∈ text, c = ' ' ∨ c = '\t' ∨ c = '='
  oneSign : text.count '=' ≤ 1

def Separator.space : Separator := ⟨[' '], by decide, by simp, by decide⟩

def Separator.sign : Separator := ⟨['='], by decide, by simp, by decide⟩

/-- A directive of the configuration, up to its separator. -/
structure DirectiveLine where
  lead : Text
  keyword : Text
  value : Text
  leadBlank : Text.Blank lead
  known : Text.eqIgnoreAsciiCase keyword includeKeyword = true ∨
    Text.eqIgnoreAsciiCase keyword directiveKeyword = true
  nonempty : value ≠ []
  valueStarts : ∀ c ∈ value.head?, Text.isWhitespace c = false ∧ c ≠ '='
  oneLine : '\n' ∉ lead ++ value

def DirectiveLine.render (directive : DirectiveLine) (separator : Separator) : Text :=
  directive.lead ++ (directive.keyword ++ (separator.text ++ directive.value))

/-- The configuration with the directive written on one of its lines. -/
def configWith (before after : List Text) (directive : DirectiveLine) (separator : Separator) :
    Text :=
  ['\n'].intercalate (before ++ directive.render separator :: after)

/-- The test of the check on one pattern. -/
def names (dir pattern : Text) : Bool :=
  Text.trimEndMatches '/' (patternDir pattern) == Text.trimEndMatches '/' dir

/-- Some pattern of an `Include` with this value names the directory. -/
def valueNames (dir value : Text) : Bool := (Text.splitWhitespace value).any (names dir)

/-- The separator makes no difference to an `Include` of `value`. A sign right
after the keyword hides every pattern, a sign right before the value joins the
first pattern, and a sign between white space is a pattern of its own. -/
structure Harmless (dir : Text) (separator : Separator) (value : Text) : Prop where
  afterKeyword : separator.text.head? = some '=' → valueNames dir value = false
  beforeValue : separator.text.head? ≠ some '=' → separator.text.getLast? = some '=' →
    ∀ first later, Text.splitWhitespace value = first :: later →
      later.any (names dir) = true ∨
        (names dir first = false ∧ names dir ('=' :: first) = false)
  between : '=' ∈ separator.text → separator.text.head? ≠ some '=' →
    separator.text.getLast? ≠ some '=' →
      Text.trimEndMatches '/' dir = ['='] → valueNames dir value = true

/-- Characters that cannot stand in a keyword. -/
def isForeign (c : Char) : Bool := Text.isWhitespace c || c == '=' || c == '#'

/-- Case does not bring a foreign character into a keyword. -/
theorem toAsciiLowercase_of_isForeign {c : Char} (h : isForeign c = true) :
    Text.toAsciiLowercase c = c := by
  rw [Text.toAsciiLowercase, if_neg]
  intro hUpper
  simp only [Bool.and_eq_true, decide_eq_true_eq] at hUpper
  simp only [isForeign, Text.isWhitespace, Bool.or_eq_true, Bool.and_eq_true,
    decide_eq_true_eq, beq_iff_eq] at h
  rcases h with (h | rfl) | rfl
  · omega
  · exact absurd hUpper (by decide)
  · exact absurd hUpper (by decide)

/-- What is spelled as a keyword but for case has no foreign character. -/
theorem free_of_eqIgnoreAsciiCase {keyword word : Text}
    (h : Text.eqIgnoreAsciiCase keyword word = true)
    (hWord : (word.map Text.toAsciiLowercase).any isForeign = false) :
    ∀ c ∈ keyword, isForeign c = false := by
  intro c hc
  by_contra hForeign
  rw [Bool.not_eq_false] at hForeign
  have hMem : c ∈ word.map Text.toAsciiLowercase := by
    rw [← beq_iff_eq.mp h, ← toAsciiLowercase_of_isForeign hForeign]
    exact List.mem_map_of_mem hc
  exact absurd hForeign (by rw [Text.free_of_any hWord c hMem]; decide)

namespace DirectiveLine
variable (directive : DirectiveLine)

/-- The directives in question have keywords without foreign characters. -/
theorem keyword_free : ∀ c ∈ directive.keyword, isForeign c = false := by
  rcases directive.known with hKnown | hKnown
  · exact free_of_eqIgnoreAsciiCase hKnown (by decide)
  · exact free_of_eqIgnoreAsciiCase hKnown (by decide)

theorem keyword_ne_nil : directive.keyword ≠ [] := by
  intro hNil
  rcases directive.known with hKnown | hKnown
  · rw [hNil] at hKnown
    exact absurd hKnown (by decide)
  · rw [hNil] at hKnown
    exact absurd hKnown (by decide)

theorem keyword_not_whitespace : ∀ c ∈ directive.keyword, Text.isWhitespace c = false := by
  intro c hc
  have hFree := directive.keyword_free c hc
  simp only [isForeign, Bool.or_eq_false_iff] at hFree
  exact hFree.1.1

/-- The value starts at once; white space may follow it. -/
theorem value_eq : Text.Solid (Text.trim directive.value) ∧ ∃ tail, Text.Blank tail ∧
    directive.value = Text.trim directive.value ++ tail := by
  obtain ⟨c, rest, hValue⟩ := List.exists_cons_of_ne_nil directive.nonempty
  have hc : Text.isWhitespace c = false := (directive.valueStarts c (by rw [hValue]; rfl)).1
  rcases Text.blank_or_solid directive.value with hBlank | ⟨lead, tail, hLead, hSolid, hTail, hCut⟩
  · have hWhite := hBlank c (by rw [hValue]; exact List.mem_cons_self)
    rw [hc] at hWhite
    cases hWhite
  · refine ⟨hSolid, tail, hTail, ?_⟩
    cases lead with
    | nil => exact hCut
    | cons d lead =>
        rw [hValue, List.cons_append, List.cons_append, List.cons.injEq] at hCut
        have hWhite := hLead d List.mem_cons_self
        rw [← hCut.1, hc] at hWhite
        cases hWhite

/-- The value has a first pattern. -/
theorem splitWhitespace_value :
    ∃ first later, Text.splitWhitespace directive.value = first :: later := by
  obtain ⟨word, more, hValue, hWord, hStops⟩ := Text.exists_word Text.isWhitespace directive.value
  have hNe : word ≠ [] := by
    rintro rfl
    obtain ⟨c, hc⟩ :=
      Option.ne_none_iff_exists'.mp (mt List.head?_eq_none_iff.mp directive.nonempty)
    have hWhite := hStops c (by rw [List.nil_append] at hValue; rw [← hValue]; exact hc)
    rw [(directive.valueStarts c hc).1] at hWhite
    cases hWhite
  refine ⟨word, Text.splitWhitespace more, ?_⟩
  rw [hValue]
  exact Text.fields_field_append hNe hWord hStops

/-- The line less the white space around it. -/
theorem trim_render (separator : Separator) :
    Text.trim (directive.render separator) =
      directive.keyword ++ (separator.text ++ Text.trim directive.value) := by
  obtain ⟨hSolid, tail, hTail, hValue⟩ := directive.value_eq
  have hKeyword := Text.solid_of_free directive.keyword_ne_nil directive.keyword_not_whitespace
  have hTrim := Text.trim_of_solid directive.leadBlank (hKeyword.append hSolid separator.text) hTail
  rw [List.append_assoc, List.append_assoc, List.append_assoc, ← hValue] at hTrim
  rw [render, hTrim, List.append_assoc]

/-- A rendered directive is neither blank nor a comment. -/
theorem not_skipped (separator : Separator) :
    skipped (Text.trim (directive.render separator)) = false := by
  obtain ⟨c, rest, hKeyword⟩ := List.exists_cons_of_ne_nil directive.keyword_ne_nil
  have hc := directive.keyword_free c (by rw [hKeyword]; exact List.mem_cons_self)
  simp only [isForeign, Bool.or_eq_false_iff, beq_eq_false_iff_ne] at hc
  rw [trim_render, hKeyword]
  simp [skipped, Text.startsWith, hc.2]

/-- And it stays on its line. -/
theorem render_one_line (separator : Separator) : '\n' ∉ directive.render separator := by
  have hLine := directive.oneLine
  rw [List.mem_append, not_or] at hLine
  have hKeyword : '\n' ∉ directive.keyword :=
    fun hMem => by cases directive.keyword_not_whitespace _ hMem
  have hSeparator : '\n' ∉ separator.text := fun hMem => by
    have hCharacter := separator.characters _ hMem
    exact absurd hCharacter (by decide)
  simp [render, hLine, hKeyword, hSeparator]

end DirectiveLine

namespace Separator
variable (separator : Separator)

/-- Blanks and tabs. -/
def Plain (t : Text) : Prop := ∀ c ∈ t, c = ' ' ∨ c = '\t'

theorem Plain.blank {t : Text} (h : Plain t) : Text.Blank t := by
  intro c hc
  rcases h c hc with rfl | rfl
  · rfl
  · rfl

theorem Plain.not_sign {t : Text} (h : Plain t) : '=' ∉ t := by
  intro hMem
  exact absurd (h _ hMem) (by decide)

/-- A separator is plain, or has the sign somewhere. -/
theorem plain_or_sign : Plain separator.text ∨
    ∃ front rest, separator.text = front ++ '=' :: rest ∧ Plain front ∧ Plain rest := by
  have hPlain : ∀ t : Text, (∀ c ∈ t, c ∈ separator.text) → '=' ∉ t → Plain t := by
    intro t hPart hSign c hc
    rcases separator.characters c (hPart c hc) with rfl | rfl | rfl
    · exact .inl rfl
    · exact .inr rfl
    · exact absurd hc hSign
  by_cases hMem : '=' ∈ separator.text
  · right
    obtain ⟨front, rest, hText⟩ := List.append_of_mem hMem
    have hCount := separator.oneSign
    rw [hText, List.count_append, List.count_cons_self] at hCount
    have hFront : '=' ∉ front := List.count_eq_zero.mp (by omega)
    have hRest : '=' ∉ rest := List.count_eq_zero.mp (by omega)
    refine ⟨front, rest, hText, hPlain front ?_ hFront, hPlain rest ?_ hRest⟩
    · intro c hc
      rw [hText]
      exact List.mem_append_left _ hc
    · intro c hc
      rw [hText]
      exact List.mem_append_right _ (List.mem_cons_of_mem _ hc)
  · exact .inl (hPlain _ (fun _ hc => hc) hMem)

end Separator

/-- What the search reads after a separator it has cut at its first
character. -/
theorem trim_value {value : Text} (hSolid : Text.Solid value) (hStart : value.head? ≠ some '=')
    (separator : Separator) :
    Text.trim (Text.trimStartMatches '=' (Text.trim (separator.text.tail ++ value))) = value := by
  have hPlain : ∀ blank : Text, Separator.Plain blank → Text.trim (blank ++ value) = value := by
    intro blank hBlank
    have h := Text.trim_of_solid hBlank.blank hSolid Text.blank_nil
    rwa [List.append_nil] at h
  have hKept : ∀ t : Text, t.head? ≠ some '=' → Text.trimStartMatches '=' t = t := by
    intro t hHead
    cases t with
    | nil => rfl
    | cons c t => exact List.dropWhile_cons_of_neg (by simpa using hHead)
  have hNoSign : ∀ blank : Text, Separator.Plain blank →
      Text.trim (Text.trimStartMatches '=' (Text.trim (blank ++ value))) = value := by
    intro blank hBlank
    rw [hPlain blank hBlank, hKept value hStart, Text.trim_eq_self hSolid]
  rcases separator.plain_or_sign with hAll | ⟨front, rest, hText, hFront, hRest⟩
  · exact hNoSign _ fun c hc => hAll c (List.mem_of_mem_tail hc)
  · cases front with
    | nil =>
        rw [hText]
        exact hNoSign rest hRest
    | cons c front =>
        have hBlank : Separator.Plain front := fun d hd => hFront d (List.mem_cons_of_mem c hd)
        have hSign : Text.Solid ['='] :=
          Text.solid_of_free (by decide) (Text.free_of_any (by decide))
        have hWhole := Text.trim_of_solid hBlank.blank (hSign.append hSolid rest) Text.blank_nil
        have hHead : (rest ++ value).head? ≠ some '=' := by
          cases rest with
          | nil => exact hStart
          | cons d rest =>
              intro hd
              exact hRest.not_sign (by rw [← Option.some.inj hd]; exact List.mem_cons_self)
        have hDrop : Text.trimStartMatches '=' (['='] ++ rest ++ value) = rest ++ value :=
          hKept (rest ++ value) hHead
        have hTail : separator.text.tail ++ value = front ++ (['='] ++ rest ++ value) ++ [] := by
          rw [hText]
          simp
        rw [hTail, hWhole, hDrop, hPlain rest hRest]

/-- The value of a directive is what stands after the separator. -/
theorem directiveOnLine_render (directive : DirectiveLine) (separator : Separator) :
    directiveOnLine (directive.render separator) =
      if Text.eqIgnoreAsciiCase directive.keyword directiveKeyword then
        some (some (Text.trim directive.value))
      else none := by
  obtain ⟨hSolid, tail, -, hValue⟩ := directive.value_eq
  have hStart : (Text.trim directive.value).head? ≠ some '=' := by
    intro hHead
    have hStarts :=
      directive.valueStarts '='
        (by rw [hValue, List.head?_append_of_ne_nil _ hSolid.1]; exact hHead)
    exact hStarts.2 rfl
  obtain ⟨c, rest, hText⟩ := List.exists_cons_of_ne_nil separator.nonempty
  have hKeyword : ∀ d ∈ directive.keyword, (Text.isWhitespace d || d == '=') = false := by
    intro d hd
    have hFree := directive.keyword_free d hd
    rw [isForeign, Bool.or_eq_false_iff] at hFree
    exact hFree.1
  have hc : (Text.isWhitespace c || c == '=') = true := by
    rcases separator.characters c (by rw [hText]; exact List.mem_cons_self) with
      rfl | rfl | rfl <;> rfl
  have hCut : Text.splitOnce (fun c => Text.isWhitespace c || c == '=')
      (directive.keyword ++ (separator.text ++ Text.trim directive.value)) =
        some (directive.keyword, separator.text.tail ++ Text.trim directive.value) := by
    rw [hText]
    exact Text.splitOnce_append hKeyword hc
  have hSeen := directive.not_skipped separator
  rw [directiveOnLine]
  rw [directive.trim_render] at hSeen ⊢
  have hFull : (Text.trim directive.value).isEmpty = false := by simp [hSolid.1]
  simp only [hSeen, hCut, trim_value hSolid hStart separator, hFull, Bool.false_eq_true, if_false]

/-- The check for the `Include` by the fields of the line. -/
theorem includesOnLine_of_fields {dir line keyword : Text} {patterns : List Text}
    (hSeen : skipped (Text.trim line) = false)
    (hFields : Text.splitWhitespace line = keyword :: patterns) :
    includesOnLine (Text.trimEndMatches '/' dir) line =
      (Text.eqIgnoreAsciiCase keyword includeKeyword && patterns.any (names dir)) := by
  rw [splitWhitespace_of_not_skipped hSeen] at hFields
  rw [includesOnLine]
  simp only [hSeen, Bool.false_eq_true, if_false]
  cases hCut : Text.splitOnce Text.isWhitespace (Text.trim line) with
  | none =>
      simp only [hCut] at hFields
      cases hFields
      simp
  | some cut =>
      simp only [hCut] at hFields
      cases hFields
      rfl

section Patterns
variable (directive : DirectiveLine) {separator : Separator} (dir : Text)

/-- The fields of a rendered directive. -/
theorem splitWhitespace_render :
    Text.splitWhitespace (directive.render separator) =
      Text.splitWhitespace (directive.keyword ++ (separator.text ++ directive.value)) :=
  Text.fields_of_all_append directive.leadBlank _

/-- After white space the keyword is a word of its own. -/
theorem includesOnLine_blank {front rest : Text} (hText : separator.text = front ++ rest)
    (hFront : Separator.Plain front) (hNe : front ≠ []) :
    includesOnLine (Text.trimEndMatches '/' dir) (directive.render separator) =
      (Text.eqIgnoreAsciiCase directive.keyword includeKeyword &&
        valueNames dir (rest ++ directive.value)) := by
  apply includesOnLine_of_fields (directive.not_skipped separator)
  have hStops : ∀ c ∈ (front ++ (rest ++ directive.value)).head?, Text.isWhitespace c = true := by
    intro c hc
    rw [List.head?_append_of_ne_nil _ hNe] at hc
    exact hFront.blank c (List.mem_of_mem_head? hc)
  rw [splitWhitespace_render, hText, List.append_assoc, Text.splitWhitespace,
    Text.fields_field_append directive.keyword_ne_nil directive.keyword_not_whitespace hStops,
    Text.fields_of_all_append hFront.blank]
  rfl

/-- A sign right after the keyword is a part of it. -/
theorem includesOnLine_joined {rest : Text} (hText : separator.text = '=' :: rest) :
    includesOnLine (Text.trimEndMatches '/' dir) (directive.render separator) = false := by
  obtain ⟨word, more, hMore, hWord, hStops⟩ :=
    Text.exists_word Text.isWhitespace (rest ++ directive.value)
  have hKeyword : ∀ c ∈ directive.keyword ++ '=' :: word, Text.isWhitespace c = false := by
    intro c hc
    rcases List.mem_append.mp hc with hc | hc
    · exact directive.keyword_not_whitespace c hc
    · rcases List.mem_cons.mp hc with rfl | hc
      · rfl
      · exact hWord c hc
  have hFields : Text.splitWhitespace (directive.render separator) =
      (directive.keyword ++ '=' :: word) :: Text.splitWhitespace more := by
    have hSplit := Text.fields_field_append (by simp) hKeyword hStops
    rw [List.append_assoc, List.cons_append, ← hMore] at hSplit
    rw [splitWhitespace_render, hText]
    exact hSplit
  have hOther : Text.eqIgnoreAsciiCase (directive.keyword ++ '=' :: word) includeKeyword =
    false := by
    rw [← Bool.not_eq_true]
    intro hSame
    have hSign := free_of_eqIgnoreAsciiCase hSame (by decide) '=' (by simp)
    cases hSign
  rw [includesOnLine_of_fields (directive.not_skipped separator) hFields, hOther, Bool.false_and]

/-- A sign between white space is a pattern. -/
theorem valueNames_sign {rest : Text} (hRest : Separator.Plain rest) (hNe : rest ≠ [])
    (value : Text) :
    valueNames dir ('=' :: (rest ++ value)) = (names dir ['='] || valueNames dir value) := by
  have hStops : ∀ c ∈ (rest ++ value).head?, Text.isWhitespace c = true := by
    intro c hc
    rw [List.head?_append_of_ne_nil _ hNe] at hc
    exact hRest.blank c (List.mem_of_mem_head? hc)
  have hSign : (['='] : Text) ≠ [] := by simp
  have hSplit := Text.fields_field_append hSign (Text.free_of_any (by decide)) hStops
  rw [Text.fields_of_all_append hRest.blank] at hSplit
  rw [valueNames, Text.splitWhitespace]
  exact (congrArg (List.any · (names dir)) hSplit).trans List.any_cons

end Patterns

/-- A sign in front is no slash at the end. -/
theorem trimEndMatches_sign (t : Text) :
    Text.trimEndMatches '/' ('=' :: t) = '=' :: Text.trimEndMatches '/' t := by
  have hReverse : ('=' :: t).reverse.dropWhile (· == '/') =
    t.reverse.dropWhile (· == '/') ++ ['='] := by
    rw [List.reverse_cons, List.dropWhile_append]
    split
    · rename_i hEmpty
      rw [List.isEmpty_iff.mp hEmpty]
      rfl
    · rfl
  rw [Text.trimEndMatches, List.rdropWhile, hReverse, List.reverse_append]
  rfl

/-- A sign in front of a pattern is one in front of its directory. -/
theorem patternDir_sign (pattern : Text) :
    patternDir ('=' :: pattern) = '=' :: patternDir pattern := by
  rcases Text.free_or_last_cut (· == '/') pattern with hFree | ⟨before, c, file, rfl, hc, hFile⟩
  · have hFreeSign : ∀ c ∈ '=' :: pattern, (c == '/') = false := by
      intro c hc
      rcases List.mem_cons.mp hc with rfl | hc
      · rfl
      · exact hFree c hc
    rw [patternDir, patternDir, Text.rsplitOnce_of_free hFree, Text.rsplitOnce_of_free hFreeSign]
    rfl
  · cases beq_iff_eq.mp hc
    have hSlash := not_mem_slash hFile
    have hCut := rsplitOnce_slash ('=' :: before) hSlash
    rw [List.cons_append] at hCut
    rw [patternDir, patternDir, hCut, rsplitOnce_slash before hSlash]
    rfl

/-- A pattern does not name the same directory with a sign in front as
without. -/
theorem names_sign {dir pattern : Text} (hNames : names dir pattern = true) :
    names dir ('=' :: pattern) = false := by
  rw [names, beq_iff_eq] at hNames
  rw [names, patternDir_sign, trimEndMatches_sign, hNames, beq_eq_false_iff_ne]
  exact List.cons_ne_self '=' _

/-- A sign right before the value changes the first pattern only. -/
theorem valueNames_joined {dir value first : Text} {later : List Text}
    (hStart : ∀ c ∈ value.head?, Text.isWhitespace c = false)
    (hFields : Text.splitWhitespace value = first :: later) :
    valueNames dir ('=' :: value) = (names dir ('=' :: first) || later.any (names dir)) := by
  obtain ⟨word, more, rfl, hWord, hStops⟩ := Text.exists_word Text.isWhitespace value
  have hNe : word ≠ [] := by
    rintro rfl
    cases more with
    | nil => cases hFields
    | cons c more =>
        have hWhite := hStops c rfl
        rw [hStart c rfl] at hWhite
        cases hWhite
  have hSign : ∀ c ∈ '=' :: word, Text.isWhitespace c = false := by
    intro c hc
    rcases List.mem_cons.mp hc with rfl | hc
    · rfl
    · exact hWord c hc
  rw [Text.splitWhitespace, Text.fields_field_append hNe hWord hStops, List.cons.injEq] at hFields
  obtain ⟨rfl, rfl⟩ := hFields
  have hJoined := Text.fields_field_append (List.cons_ne_nil '=' word) hSign hStops
  rw [valueNames, Text.splitWhitespace]
  exact (congrArg (List.any · (names dir)) hJoined).trans List.any_cons

/-- Joining a sign to the value makes no difference just when a later pattern
names the directory, or the first one does so neither with nor without it. -/
theorem valueNames_joined_iff {dir value first : Text} {later : List Text}
    (hStart : ∀ c ∈ value.head?, Text.isWhitespace c = false)
    (hFields : Text.splitWhitespace value = first :: later) :
    valueNames dir ('=' :: value) = valueNames dir value ↔
      later.any (names dir) = true ∨
        (names dir first = false ∧ names dir ('=' :: first) = false) := by
  have hBare : valueNames dir value = (names dir first || later.any (names dir)) := by
    rw [valueNames, hFields, List.any_cons]
  rw [valueNames_joined hStart hFields, hBare]
  cases hFirst : names dir first with
  | true =>
      rw [names_sign hFirst]
      cases later.any (names dir) <;> simp
  | false => cases later.any (names dir) <;> simp

section Harm
variable {dir value front rest : Text} {separator : Separator}

/-- White space alone is always harmless. -/
theorem harmless_of_plain (hPlain : Separator.Plain separator.text) :
    Harmless dir separator value where
  afterKeyword := fun hHead => absurd (List.mem_of_mem_head? hHead) hPlain.not_sign
  beforeValue := fun _ hLast => absurd (List.mem_of_mem_getLast? hLast) hPlain.not_sign
  between := fun hMem => absurd hMem hPlain.not_sign

/-- A sign right behind the keyword is harmless where the value does not name
the directory. -/
theorem harmless_iff_of_first (hText : separator.text = '=' :: rest) :
    Harmless dir separator value ↔ valueNames dir value = false := by
  have hHead : separator.text.head? = some '=' := by rw [hText]; rfl
  constructor
  · intro hHarmless
    exact hHarmless.afterKeyword hHead
  · intro hNone
    exact ⟨fun _ => hNone, fun h => absurd hHead h, fun _ h => absurd hHead h⟩

/-- With something in front of the sign, the separator does not begin with
it. -/
theorem head_ne_sign (hText : separator.text = front ++ '=' :: rest)
    (hFront : Separator.Plain front)
    (hFirst : front ≠ []) : separator.text.head? ≠ some '=' := by
  rw [hText, List.head?_append_of_ne_nil _ hFirst]
  intro hHead
  exact hFront.not_sign (List.mem_of_mem_head? hHead)

/-- A sign at the end goes into the first pattern, and is harmless where that
makes no difference. -/
theorem harmless_iff_of_last {first : Text} {later : List Text}
    (hText : separator.text = front ++ ['=']) (hFront : Separator.Plain front) (hFirst : front ≠ [])
    (hStart : ∀ c ∈ value.head?, Text.isWhitespace c = false)
    (hFields : Text.splitWhitespace value = first :: later) :
    Harmless dir separator value ↔ valueNames dir ('=' :: value) = valueNames dir value := by
  have hHead := head_ne_sign hText hFront hFirst
  have hLast : separator.text.getLast? = some '=' := by rw [hText]; simp
  rw [valueNames_joined_iff hStart hFields]
  constructor
  · intro hHarmless
    exact hHarmless.beforeValue hHead hLast first later hFields
  · intro hPatterns
    refine ⟨fun h => absurd h hHead, fun _ _ other more hOther => ?_, fun _ _ h => absurd hLast h⟩
    rw [hFields, List.cons.injEq] at hOther
    rw [← hOther.1, ← hOther.2]
    exact hPatterns

/-- A sign between blanks is a pattern of its own, and harmless unless it names
the directory. -/
theorem harmless_iff_of_between (hText : separator.text = front ++ '=' :: rest)
    (hFront : Separator.Plain front)
    (hFirst : front ≠ []) (hRest : Separator.Plain rest) (hEnd : rest ≠ []) :
    Harmless dir separator value ↔
      (Text.trimEndMatches '/' dir = ['='] → valueNames dir value = true) := by
  have hHead := head_ne_sign hText hFront hFirst
  have hLast : separator.text.getLast? ≠ some '=' := by
    rw [hText, List.getLast?_append_of_ne_nil _ (by simp), List.getLast?_cons_of_ne_nil hEnd]
    intro hLast
    exact hRest.not_sign (List.mem_of_mem_getLast? hLast)
  have hMem : '=' ∈ separator.text := by rw [hText]; simp
  constructor
  · intro hHarmless
    exact hHarmless.between hMem hHead hLast
  · intro hNamed
    exact ⟨fun h => absurd h hHead, fun _ h => absurd h hLast, fun _ _ _ => hNamed⟩

end Harm

/-- What the check finds on the line, by where the sign stands. -/
theorem includesOnLine_render_iff (directive : DirectiveLine) (separator : Separator) (dir : Text)
    (hInclude : Text.eqIgnoreAsciiCase directive.keyword includeKeyword = true) :
    includesOnLine (Text.trimEndMatches '/' dir) (directive.render separator) =
      valueNames dir directive.value ↔
      Harmless dir separator directive.value := by
  rcases separator.plain_or_sign with hPlain | ⟨front, rest, hText, hFront, hRest⟩
  · have hSame :=
      includesOnLine_blank directive dir (List.append_nil _).symm hPlain separator.nonempty
    rw [hInclude, Bool.true_and, List.nil_append] at hSame
    exact iff_of_true hSame (harmless_of_plain hPlain)
  by_cases hFirst : front = []
  · rw [hFirst, List.nil_append] at hText
    rw [includesOnLine_joined directive dir hText, harmless_iff_of_first hText]
    exact eq_comm
  rw [includesOnLine_blank directive dir hText hFront hFirst, hInclude, Bool.true_and]
  by_cases hEnd : rest = []
  · rw [hEnd] at hText ⊢
    obtain ⟨first, later, hFields⟩ := directive.splitWhitespace_value
    exact (harmless_iff_of_last hText hFront hFirst
      (fun c hc => (directive.valueStarts c hc).1) hFields).symm
  · have hSign : names dir ['='] = true ↔ Text.trimEndMatches '/' dir = ['='] := by
      rw [names, beq_iff_eq, eq_comm]
      rfl
    rw [List.cons_append, valueNames_sign dir hRest hEnd,
      harmless_iff_of_between hText hFront hFirst hRest hEnd,
      ← hSign]
    cases names dir ['='] <;> cases valueNames dir directive.value <;> simp

/-- Only an `Include` includes. -/
theorem includesOnLine_render_of_other (directive : DirectiveLine) (separator : Separator)
    (dir : Text)
    (hInclude : Text.eqIgnoreAsciiCase directive.keyword includeKeyword = false) :
    includesOnLine (Text.trimEndMatches '/' dir) (directive.render separator) = false := by
  rcases separator.plain_or_sign with hPlain | ⟨front, rest, hText, hFront, -⟩
  · rw [includesOnLine_blank directive dir (List.append_nil _).symm hPlain
      separator.nonempty, hInclude,
      Bool.false_and]
  · by_cases hFirst : front = []
    · rw [hFirst] at hText
      exact includesOnLine_joined directive dir hText
    · rw [includesOnLine_blank directive dir hText hFront hFirst, hInclude, Bool.false_and]

section Config
variable (before after : List Text) (directive : DirectiveLine) (separator : Separator)

/-- The lines of a configuration around one directive. -/
theorem splitOn_configWith :
    (configWith before after directive separator).splitOn '\n' =
      before.flatMap (fun piece => piece.splitOn '\n') ++
        directive.render separator :: after.flatMap (fun piece => piece.splitOn '\n') := by
  rw [configWith, Text.splitOn_intercalate _ (by simp), List.flatMap_append, List.flatMap_cons,
    Text.splitOn_of_not_mem (directive.render_one_line separator), List.singleton_append]

/-- To the search every separator is alike. -/
theorem findTrustedUserCaKeys_configWith (other : Separator) :
    findTrustedUserCaKeys (configWith before after directive separator) =
      findTrustedUserCaKeys (configWith before after directive other) := by
  simp only [findTrustedUserCaKeys_eq, splitOn_configWith, List.findSome?_append,
    List.findSome?_cons,
    directiveOnLine_render]

/-- The directory is included on that line or on another. -/
theorem includesDropinDir_configWith (dir : Text) :
    includesDropinDir (configWith before after directive separator) dir =
      ((before ++ after).any (fun text => includesDropinDir text dir) ||
        includesOnLine (Text.trimEndMatches '/' dir) (directive.render separator)) := by
  simp only [includesDropinDir_eq, splitOn_configWith, List.any_append, List.any_cons,
    List.any_flatMap]
  ac_rfl

/-- Writing the directive with another separator leaves both results as they
were just when it is no `Include`, or another line includes the directory, or
the check does not miss or misread a pattern for the sign. -/
theorem separator_immaterial_iff (dir : Text) :
    (findTrustedUserCaKeys (configWith before after directive separator) =
        findTrustedUserCaKeys (configWith before after directive .space) ∧
      includesDropinDir (configWith before after directive separator) dir =
        includesDropinDir (configWith before after directive .space) dir) ↔
      Text.eqIgnoreAsciiCase directive.keyword directiveKeyword = true ∨
        (∃ text ∈ before ++ after, includesDropinDir text dir = true) ∨
        Harmless dir separator directive.value := by
  have hPlain : Separator.Plain Separator.space.text := by simp [Separator.Plain, Separator.space]
  have hSpace :=
    includesOnLine_blank directive dir (List.append_nil _).symm hPlain Separator.space.nonempty
  rw [List.nil_append] at hSpace
  rw [findTrustedUserCaKeys_configWith before after directive separator .space,
    includesDropinDir_configWith, includesDropinDir_configWith,
      ← List.any_eq_true (l := before ++ after)]
  simp only [true_and]
  cases (before ++ after).any (fun text => includesDropinDir text dir) with
  | true => simp
  | false =>
      rw [Bool.false_or, Bool.false_or, hSpace]
      cases hInclude : Text.eqIgnoreAsciiCase directive.keyword includeKeyword with
      | true =>
          have hOther : Text.eqIgnoreAsciiCase directive.keyword directiveKeyword = false := by
            rw [← Bool.not_eq_true]
            intro hSame
            have hBoth := (beq_iff_eq.mp hInclude).symm.trans (beq_iff_eq.mp hSame)
            exact absurd hBoth (by decide)
          rw [Bool.true_and, includesOnLine_render_iff directive separator dir hInclude]
          simp [hOther]
      | false =>
          have hKnown := directive.known.resolve_left (by rw [hInclude]; decide)
          rw [includesOnLine_render_of_other directive separator dir hInclude]
          simp [hKnown]

end Config

/-- The `Include` of the distributed configuration. -/
def defaultInclude : DirectiveLine :=
  ⟨[], includeKeyword, "/etc/ssh/sshd_config.d/*.conf".toList, Text.blank_nil,
    .inl (by decide), by decide,
    fun c hc => by cases hc; decide, by decide⟩

/-- An `Include` written with the sign alone is missed. -/
theorem include_with_sign_missed :
    configWith [] [] defaultInclude .space = "Include /etc/ssh/sshd_config.d/*.conf".toList ∧
      configWith [] [] defaultInclude .sign = "Include=/etc/ssh/sshd_config.d/*.conf".toList ∧
      includesDropinDir (configWith [] [] defaultInclude .space) dropinDir = true ∧
      includesDropinDir (configWith [] [] defaultInclude .sign) dropinDir = false := by
  have hSpace : configWith [] [] defaultInclude .space =
    "Include /etc/ssh/sshd_config.d/*.conf".toList := by decide
  have hSign : configWith [] [] defaultInclude .sign =
    "Include=/etc/ssh/sshd_config.d/*.conf".toList := by decide
  refine ⟨hSpace, hSign, ?_, ?_⟩
  · rw [hSpace]
    decide
  · rw [hSign]
    decide

end MayflyHelper.SshdConfig
