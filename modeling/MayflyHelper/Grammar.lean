import MayflyHelper.Base64
import MayflyHelper.Text.Lines

/-! The grammar of trusted-CA files, stated apart from the parser. The parser
accepts exactly this grammar, reports the first line that is not in it, and
reads back what is rendered. -/
namespace MayflyHelper

namespace Grammar

/-- What may follow the key: white space, or a comment set off by it. -/
def Trailer : Option Text → Text → Prop
  | none, rest => Text.Blank rest
  | some comment, rest =>
      ∃ gap tail, gap ≠ [] ∧ Text.Blank gap ∧ Text.Solid comment ∧ Text.Blank tail ∧
        rest = gap ++ comment ++ tail

/-- No control character. -/
def Legal (line : Text) : Prop := ∀ c ∈ line, Text.isControl c = false

/-- `ws* A ws+ B (ws+ C)? ws*`. -/
structure KeyLine (line : Text) (key : CaPublicKey) : Prop where
  legal : Legal line
  algorithm : key.algorithm ∈ allowedAlgorithms
  keyData : IsBase64Word key.keyData
  form : ∃ lead gap rest, Text.Blank lead ∧ gap ≠ [] ∧ Text.Blank gap ∧ Trailer key.comment rest ∧
    line = lead ++ (key.algorithm ++ (gap ++ (key.keyData ++ rest)))

/-- Blank, or a comment line. -/
def Skipped (line : Text) : Prop := Text.trim line = [] ∨ (Text.trim line).head? = some '#'

/-- The lines of a file: cut at line feeds, with a carriage return before one
dropped. -/
def fileLines (contents : Text) : List Text :=
  (contents.splitOn '\n').dropLast.map Text.stripCarriageReturn ++
    (contents.splitOn '\n').getLast?.toList

/-- Lines with the keys on them, in line order. -/
inductive File : List Text → List CaPublicKey → Prop
  | nil : File [] []
  | skip {line lines keys} : Skipped line → File lines keys → File (line :: lines) keys
  | key {line lines key keys} :
      KeyLine line key → File lines keys → File (line :: lines) (key :: keys)

/-- Why a line is no key line. Each reason presumes that the ones before it
do not apply. -/
inductive Offends : Text → TrustedCaError → Prop
  | illegalCharacter {line} : ¬Legal line → Offends line .illegalCharacter
  | malformed {line} : Legal line → (Text.splitWhitespace line).length < 2 → Offends line .malformed
  | disallowedAlgorithm {line algorithm keyData more} : Legal line →
      Text.splitWhitespace line = algorithm :: keyData :: more → algorithm ∉ allowedAlgorithms →
      Offends line .disallowedAlgorithm
  | invalidEncoding {line algorithm keyData more} : Legal line →
      Text.splitWhitespace line = algorithm :: keyData :: more → algorithm ∈ allowedAlgorithms →
      ¬IsBase64Word keyData → Offends line .invalidEncoding

/-- An algorithm is one word of printable ASCII, and begins no comment. -/
theorem graphic_of_algorithm {algorithm : Text} (h : algorithm ∈ allowedAlgorithms) :
    algorithm ≠ [] ∧ algorithm.head? ≠ some '#' ∧ ∀ c ∈ algorithm, 0x20 < c.toNat ∧
      c.toNat < 0x7f := by
  have hAll : ∀ algorithm ∈ allowedAlgorithms, algorithm ≠ [] ∧ algorithm.head? ≠ some '#' ∧
      algorithm.all (fun c => 0x20 < c.toNat && c.toNat < 0x7f) = true := by decide
  obtain ⟨hNe, hHead, hGraphic⟩ := hAll algorithm h
  refine ⟨hNe, hHead, fun c hc => ?_⟩
  have hc := List.all_eq_true.mp hGraphic c hc
  rwa [Bool.and_eq_true, decide_eq_true_eq, decide_eq_true_eq] at hc

/-- The known algorithms have no white space in their names. -/
theorem free_of_algorithm {algorithm : Text} (h : algorithm ∈ allowedAlgorithms) :
    ∀ c ∈ algorithm, Text.isWhitespace c = false := by
  intro c hc
  obtain ⟨hLow, hHigh⟩ := (graphic_of_algorithm h).2.2 c hc
  exact not_whitespace_of_graphic hLow hHigh

/-- What follows the key is set off from it. -/
theorem Trailer.head {comment : Option Text} {rest : Text} (h : Trailer comment rest) :
    ∀ c ∈ rest.head?, Text.isWhitespace c = true := by
  intro c hc
  cases comment with
  | none => exact h c (List.mem_of_mem_head? hc)
  | some comment =>
      obtain ⟨gap, tail, hGap, hBlank, -, -, rfl⟩ := h
      rw [List.append_assoc, List.head?_append_of_ne_nil _ hGap] at hc
      exact hBlank c (List.mem_of_mem_head? hc)

/-- After a field there is always a trailer. -/
theorem exists_trailer {rest : Text} (h : ∀ c ∈ rest.head?, Text.isWhitespace c = true) :
    ∃ comment, Trailer comment rest := by
  rcases Text.blank_or_solid rest with hBlank | ⟨gap, tail, hGap, hSolid, hTail, hRest⟩
  · exact ⟨none, hBlank⟩
  · refine ⟨some (Text.trim rest), gap, tail, ?_, hGap, hSolid, hTail, hRest⟩
    rintro rfl
    obtain ⟨c, comment, hComment⟩ := List.exists_cons_of_ne_nil hSolid.1
    have hFirst := hSolid.2.1 c (by rw [hComment]; rfl)
    have hHead := h c (by rw [hRest, hComment]; rfl)
    rw [hFirst] at hHead
    cases hHead

/-- Where the first two fields of a line stand. -/
theorem form_of_fields {line algorithm keyData : Text} {more : List Text}
    (h : Text.splitWhitespace line = algorithm :: keyData :: more) :
    ∃ lead gap rest, Text.Blank lead ∧ gap ≠ [] ∧ Text.Blank gap ∧
      (∀ c ∈ rest.head?, Text.isWhitespace c = true) ∧
      line = lead ++ (algorithm ++ (gap ++ (keyData ++ rest))) := by
  obtain ⟨lead, tail, rfl, hLead, -, -, hStops, hTail⟩ := Text.fields_eq_cons h
  obtain ⟨gap, rest, rfl, hGap, hKey, hFree, hEnds, -⟩ := Text.fields_eq_cons hTail
  refine ⟨lead, gap, rest, hLead, ?_, hGap, hEnds, rfl⟩
  rintro rfl
  obtain ⟨c, key, rfl⟩ := List.exists_cons_of_ne_nil hKey
  have hStop := hStops c rfl
  rw [hFree c List.mem_cons_self] at hStop
  cases hStop

section Form
variable {lead algorithm gap keyData rest : Text} {comment : Option Text}

/-- The fields of a line of that form. -/
theorem fields_of_form (hLead : Text.Blank lead) (hGap : Text.Blank gap) (hGapNe : gap ≠ [])
    (hAlgorithm : algorithm ≠ []) (hAlgorithmFree : ∀ c ∈ algorithm, Text.isWhitespace c = false)
    (hKey : keyData ≠ []) (hKeyFree : ∀ c ∈ keyData, Text.isWhitespace c = false)
    (hRest : ∀ c ∈ rest.head?, Text.isWhitespace c = true) :
    Text.splitWhitespace (lead ++ (algorithm ++ (gap ++ (keyData ++ rest)))) =
      algorithm :: keyData :: Text.splitWhitespace rest := by
  have hStops : ∀ c ∈ (gap ++ (keyData ++ rest)).head?, Text.isWhitespace c = true := by
    intro c hc
    rw [List.head?_append_of_ne_nil _ hGapNe] at hc
    exact hGap c (List.mem_of_mem_head? hc)
  unfold Text.splitWhitespace
  rw [Text.fields_of_all_append hLead, Text.fields_field_append hAlgorithm hAlgorithmFree hStops,
    Text.fields_of_all_append hGap, Text.fields_field_append hKey hKeyFree hRest]

/-- A prefix comes off what it was put before. -/
theorem stripPrefix_append (first t : Text) : Text.stripPrefix first (first ++ t) = some t := by
  simp [Text.stripPrefix]

/-- The comment is what is left when algorithm and key are stripped. -/
theorem collectComment_of_solid (hAlgorithm : Text.Solid algorithm) (hGap : Text.Blank gap)
    (hKey : Text.Solid keyData) (rest : Text) :
    collectComment (algorithm ++ (gap ++ (keyData ++ rest))) algorithm keyData =
      if (Text.trim rest).isEmpty then none else some (Text.trim rest) := by
  have hStart : Text.trimStart (algorithm ++ (gap ++ (keyData ++ rest))) =
      algorithm ++ (gap ++ (keyData ++ rest)) := by
    apply Text.trimStart_of_head
    rw [List.head?_append_of_ne_nil _ hAlgorithm.1]
    exact hAlgorithm.2.1
  have hMiddle : Text.trimStart (gap ++ (keyData ++ rest)) = keyData ++ rest := by
    rw [Text.trimStart_append hGap]
    apply Text.trimStart_of_head
    rw [List.head?_append_of_ne_nil _ hKey.1]
    exact hKey.2.1
  unfold collectComment
  rw [hStart, stripPrefix_append]
  simp only [Option.bind_eq_bind, Option.bind_some]
  rw [hMiddle, stripPrefix_append]
  rfl

/-- The comment is what is left behind the algorithm and the key, whatever the
gaps are. -/
theorem collectComment_of_trailer (hLead : Text.Blank lead) (hAlgorithm : Text.Solid algorithm)
    (hGap : Text.Blank gap) (hKey : Text.Solid keyData) (hTrailer : Trailer comment rest) :
    collectComment
      (Text.trim (lead ++ (algorithm ++ (gap ++ (keyData ++ rest))))) algorithm keyData =
      comment := by
  have hBody : Text.Solid (algorithm ++ gap ++ keyData) := hAlgorithm.append hKey gap
  cases comment with
  | none =>
      have hTrim : Text.trim (lead ++ (algorithm ++ (gap ++ (keyData ++ rest)))) =
          algorithm ++ (gap ++ (keyData ++ [])) := by
        have h := Text.trim_of_solid hLead hBody hTrailer
        simpa only [List.append_assoc, List.append_nil] using h
      rw [hTrim, collectComment_of_solid hAlgorithm hGap hKey, Text.trim_of_blank Text.blank_nil]
      rfl
  | some comment =>
      obtain ⟨gap', tail, -, hGap', hComment, hTail, rfl⟩ := hTrailer
      have hTrim :
          Text.trim (lead ++ (algorithm ++ (gap ++ (keyData ++ (gap' ++ comment ++ tail))))) =
          algorithm ++ (gap ++ (keyData ++ (gap' ++ comment))) := by
        have h := Text.trim_of_solid hLead (hBody.append hComment gap') hTail
        simpa only [List.append_assoc] using h
      have hLast : Text.trim (gap' ++ comment) = comment := by
        have h := Text.trim_of_solid hGap' hComment Text.blank_nil
        rwa [List.append_nil] at h
      rw [hTrim, collectComment_of_solid hAlgorithm hGap hKey, hLast, if_neg (by simp [hComment.1])]

end Form

/-- The check for control characters accepts the legal lines. -/
theorem legal_iff (line : Text) : line.any Text.isControl = false ↔ Legal line := by
  rw [List.any_eq_false]
  exact forall₂_congr fun c _ => by simp

/-- Two fields are there: what is left is to check them. -/
theorem parse_of_fields {line algorithm keyData : Text} {more : List Text} (hLegal : Legal line)
    (hFields : Text.splitWhitespace line = algorithm :: keyData :: more) :
    CaPublicKey.parse line =
      if !allowedAlgorithms.contains algorithm then .error .disallowedAlgorithm
      else if !isValidBase64 keyData then .error .invalidEncoding
      else .ok
        { algorithm, keyData, comment := collectComment (Text.trim line) algorithm keyData } := by
  rw [← Text.splitWhitespace_trim] at hFields
  have hNe : (Text.trim line).isEmpty = false := by
    cases hTrim : Text.trim line with
    | nil => simp [hTrim, Text.splitWhitespace] at hFields
    | cons c rest => rfl
  unfold CaPublicKey.parse
  rw [(legal_iff line).mpr hLegal]
  simp only [Bool.false_eq_true, if_false, hNe, hFields]

/-- A key line is parsed to its key. -/
theorem parse_of_keyLine {line : Text} {key : CaPublicKey} (h : KeyLine line key) :
    CaPublicKey.parse line = .ok key := by
  obtain ⟨lead, gap, rest, hLead, hGapNe, hGap, hTrailer, hLine⟩ := h.form
  have hAlgorithm := graphic_of_algorithm h.algorithm
  have hAlgorithmFree := free_of_algorithm h.algorithm
  have hFields :=
    fields_of_form hLead hGap hGapNe hAlgorithm.1 hAlgorithmFree h.keyData.ne_nil h.keyData.free
    hTrailer.head
  rw [← hLine] at hFields
  have hComment :=
    collectComment_of_trailer hLead (Text.solid_of_free hAlgorithm.1 hAlgorithmFree) hGap
    (Text.solid_of_free h.keyData.ne_nil h.keyData.free) hTrailer
  rw [← hLine] at hComment
  rw [parse_of_fields h.legal hFields, hComment, valid_of_isBase64Word h.keyData,
    List.contains_iff_mem.mpr h.algorithm]
  rfl

/-- A line that offends is refused for the first offence. -/
theorem parse_of_offends {line : Text} {reason : TrustedCaError} (hNe : Text.trim line ≠ [])
    (h : Offends line reason) : CaPublicKey.parse line = .error reason := by
  cases h with
  | illegalCharacter hIllegal =>
      have hControl : line.any Text.isControl = true := by
        rw [← Bool.not_eq_false, legal_iff]
        exact hIllegal
      rw [CaPublicKey.parse, if_pos hControl]
  | malformed hLegal hFew =>
      unfold CaPublicKey.parse
      rw [(legal_iff line).mpr hLegal]
      simp only [Bool.false_eq_true, if_false, List.isEmpty_iff, hNe, Text.splitWhitespace_trim]
      split
      · rename_i hFields
        rw [hFields, List.length_cons, List.length_cons] at hFew
        omega
      · rfl
  | disallowedAlgorithm hLegal hFields hAlgorithm =>
      rw [parse_of_fields hLegal hFields, if_pos (by simp [hAlgorithm])]
  | invalidEncoding hLegal hFields hAlgorithm hKey =>
      have hInvalid : isValidBase64 _ = false := Bool.eq_false_iff.mpr fun hValid =>
        hKey (isBase64Word_of_valid hValid)
      rw [parse_of_fields hLegal hFields, hInvalid, if_neg (by simp [hAlgorithm])]
      rfl

/-- Every line is a key line or offends for one of the reasons. -/
theorem keyLine_or_offends (line : Text) :
    (∃ key, KeyLine line key) ∨ ∃ reason, Offends line reason := by
  by_cases hLegal : Legal line
  case neg => exact .inr ⟨_, .illegalCharacter hLegal⟩
  match hFields : Text.splitWhitespace line with
  | [] => exact .inr ⟨_, .malformed hLegal (by simp [hFields])⟩
  | [field] => exact .inr ⟨_, .malformed hLegal (by simp [hFields])⟩
  | algorithm :: keyData :: more =>
      by_cases hAlgorithm : algorithm ∈ allowedAlgorithms
      case neg => exact .inr ⟨_, .disallowedAlgorithm hLegal hFields hAlgorithm⟩
      by_cases hKey : IsBase64Word keyData
      case neg => exact .inr ⟨_, .invalidEncoding hLegal hFields hAlgorithm hKey⟩
      obtain ⟨lead, gap, rest, hLead, hGapNe, hGap, hRest, hLine⟩ := form_of_fields hFields
      obtain ⟨comment, hTrailer⟩ := exists_trailer hRest
      exact .inl ⟨⟨algorithm, keyData, comment⟩,
        hLegal, hAlgorithm, hKey, lead, gap, rest, hLead, hGapNe, hGap, hTrailer, hLine⟩

/-- A blank line has no key. -/
theorem parse_of_blank {line : Text} (h : Text.trim line = []) (key : CaPublicKey) :
    CaPublicKey.parse line ≠ .ok key := by
  unfold CaPublicKey.parse
  rw [h]
  split <;> simp

/-- The parser of a line accepts the key lines, and tells their keys. -/
theorem parse_iff_keyLine (line : Text) (key : CaPublicKey) :
    CaPublicKey.parse line = .ok key ↔ KeyLine line key := by
  refine ⟨fun h => ?_, parse_of_keyLine⟩
  rcases keyLine_or_offends line with ⟨other, hOther⟩ | ⟨reason, hReason⟩
  · rw [parse_of_keyLine hOther] at h
    cases h
    exact hOther
  · by_cases hNe : Text.trim line = []
    · exact absurd h (parse_of_blank hNe key)
    · rw [parse_of_offends hNe hReason] at h
      cases h

/-- The first two fields of a key line are the algorithm and the key. -/
theorem KeyLine.fields {line : Text} {key : CaPublicKey} (h : KeyLine line key) :
    ∃ more, Text.splitWhitespace line = key.algorithm :: key.keyData :: more := by
  obtain ⟨lead, gap, rest, hLead, hGapNe, hGap, hTrailer, hLine⟩ := h.form
  rw [hLine]
  exact ⟨_, fields_of_form hLead hGap hGapNe (graphic_of_algorithm h.algorithm).1
    (free_of_algorithm h.algorithm)
    h.keyData.ne_nil h.keyData.free hTrailer.head⟩

end Grammar

namespace TrustedCaKeys

/-- An accepted list of lines starts with an ignored one or with a key. -/
theorem parseLines_cons {line : Text} {lines : List Text} {keys : List CaPublicKey}
    (h : parseLines (line :: lines) = .ok keys) :
    ignored line = true ∧ parseLines lines = .ok keys ∨
      ignored line = false ∧ ∃ key rest, CaPublicKey.parse line = .ok key ∧
        parseLines lines = .ok rest ∧ keys = key :: rest := by
  rw [parseLines] at h
  cases hIgnored : ignored line with
  | true => exact Or.inl ⟨rfl, by simpa [hIgnored] using h⟩
  | false =>
      simp only [hIgnored, Bool.false_eq_true, if_false] at h
      cases hParse : CaPublicKey.parse line with
      | error err => simp [hParse, Except.mapError, bind, Except.bind] at h
      | ok key =>
          cases hRest : parseLines lines with
          | error err => simp [hParse, hRest, Except.mapError, bind, Except.bind] at h
          | ok rest =>
              simp only [hParse, hRest, Except.mapError, bind, Except.bind, pure, Except.pure,
                Except.ok.injEq] at h
              exact Or.inr ⟨rfl, key, rest, rfl, rfl, h.symm⟩

/-- The keys of a file are those of its lines. -/
theorem parse_ok {contents : Text} {file : TrustedCaKeys}
    (h : TrustedCaKeys.parse contents = .ok file) :
    parseLines (Text.lines contents) = .ok file.keys := by
  unfold parse at h
  cases hLines : parseLines (Text.lines contents) with
  | error err => simp [hLines, bind, Except.bind] at h
  | ok keys =>
      simp only [hLines, bind, Except.bind, pure, Except.pure, Except.ok.injEq] at h
      rw [← h]

/-- A line the validation skips has no field, or a first field that begins a
comment. -/
theorem startsWith_of_ignored {line type : Text} {more : List Text} (h : ignored line = true)
    (hFields : Text.splitWhitespace line = type :: more) : Text.startsWith type '#' = true := by
  rw [← Text.splitWhitespace_trim] at hFields
  obtain ⟨lead, rest, hTrim, hLead, hType, -⟩ := Text.fields_eq_cons hFields
  rw [ignored, hTrim, Bool.or_eq_true] at h
  rcases h with hEmpty | hComment
  · simp [hType] at hEmpty
  cases lead with
  | cons c lead =>
      have hHash : c = '#' := by simpa [Text.startsWith] using hComment
      have hBlank := hLead c List.mem_cons_self
      rw [hHash] at hBlank
      cases hBlank
  | nil =>
      cases type with
      | nil => exact absurd rfl hType
      | cons c type => exact hComment

/-- Blank lines and comments are ignored. -/
theorem ignored_iff (line : Text) : ignored line = true ↔ Grammar.Skipped line := by
  rw [ignored, Bool.or_eq_true, List.isEmpty_iff, Text.startsWith, beq_iff_eq]
  rfl

/-- A key line is not skipped. -/
theorem not_ignored_of_keyLine {line : Text} {key : CaPublicKey} (h : Grammar.KeyLine line key) :
    ignored line = false := by
  obtain ⟨more, hFields⟩ := h.fields
  by_contra hIgnored
  have hComment := startsWith_of_ignored (by simpa using hIgnored) hFields
  rw [Text.startsWith, beq_iff_eq] at hComment
  exact (Grammar.graphic_of_algorithm h.algorithm).2.1 hComment

/-- An ignored line makes no difference. -/
theorem parseLines_skip {line : Text} (h : ignored line = true) (lines : List Text) :
    parseLines (line :: lines) = parseLines lines := by
  rw [parseLines, if_pos h]

/-- A key line adds its key in front. -/
theorem parseLines_key {line : Text} {key : CaPublicKey} (h : Grammar.KeyLine line key)
    (lines : List Text) :
    parseLines (line :: lines) = (parseLines lines).map (key :: ·) := by
  rw [parseLines, not_ignored_of_keyLine h, Grammar.parse_of_keyLine h]
  cases parseLines lines <;> rfl

/-- An offending line ends the parse, whatever comes after it. -/
theorem parseLines_offends {line : Text} {reason : TrustedCaError} (hSeen : ¬Grammar.Skipped line)
    (h : Grammar.Offends line reason) (lines : List Text) :
    parseLines (line :: lines) = .error (.invalidTrustedCa reason) := by
  have hNe : Text.trim line ≠ [] := fun hNil => hSeen (.inl hNil)
  rw [← ignored_iff, Bool.not_eq_true] at hSeen
  rw [parseLines, hSeen, Grammar.parse_of_offends hNe h]
  rfl

/-- Accepted lines are lines of the grammar, with their keys. -/
theorem parseLines_iff_file (lines : List Text) (keys : List CaPublicKey) :
    parseLines lines = .ok keys ↔ Grammar.File lines keys := by
  constructor
  · intro h
    induction lines generalizing keys with
    | nil =>
        cases h
        exact .nil
    | cons line lines ih =>
        rcases parseLines_cons h with ⟨hIgnored, hRest⟩ | ⟨-, key, rest, hKey, hRest, rfl⟩
        · exact .skip ((ignored_iff line).mp hIgnored) (ih keys hRest)
        · exact .key ((Grammar.parse_iff_keyLine line key).mp hKey) (ih rest hRest)
  · intro h
    induction h with
    | nil => rfl
    | skip hSkipped _ ih => rw [parseLines_skip ((ignored_iff _).mpr hSkipped), ih]
    | key hKey _ ih =>
        rw [parseLines_key hKey, ih]
        rfl

/-- Lines of the grammar do not hide an error after them. -/
theorem parseLines_append {before : List Text} {keys : List CaPublicKey}
    (h : Grammar.File before keys)
    {after : List Text} {err : Error} (hAfter : parseLines after = .error err) :
    parseLines (before ++ after) = .error err := by
  induction h with
  | nil => exact hAfter
  | skip hSkipped _ ih => rw [List.cons_append, parseLines_skip ((ignored_iff _).mpr hSkipped), ih]
  | key hKey _ ih =>
      rw [List.cons_append, parseLines_key hKey, ih]
      rfl

/-- A refusal is the reason of the first line outside the grammar. -/
theorem parseLines_iff_offends (lines : List Text) (err : Error) :
    parseLines lines = .error err ↔ ∃ reason before line after,
      err = .invalidTrustedCa reason ∧ lines = before ++ line :: after ∧
        (∃ keys, Grammar.File before keys) ∧
        ¬Grammar.Skipped line ∧ Grammar.Offends line reason := by
  constructor
  · intro h
    induction lines with
    | nil => cases h
    | cons line lines ih =>
        by_cases hSkipped : Grammar.Skipped line
        · rw [parseLines_skip ((ignored_iff line).mpr hSkipped)] at h
          obtain ⟨reason, before, bad, after, hErr, rfl, ⟨keys, hBefore⟩, hBad⟩ := ih h
          exact ⟨reason, line :: before, bad, after, hErr, rfl,
            ⟨keys, .skip hSkipped hBefore⟩, hBad⟩
        rcases Grammar.keyLine_or_offends line with ⟨key, hKey⟩ | ⟨reason, hReason⟩
        · rw [parseLines_key hKey] at h
          cases hLines : parseLines lines with
          | ok keys => simp [hLines, Except.map] at h
          | error other =>
              rw [hLines] at h
              cases h
              obtain ⟨reason, before, bad, after, hErr, rfl, ⟨keys, hBefore⟩, hBad⟩ := ih hLines
              exact ⟨reason, line :: before, bad, after, hErr, rfl,
                ⟨key :: keys, .key hKey hBefore⟩, hBad⟩
        · rw [parseLines_offends hSkipped hReason] at h
          cases h
          exact ⟨reason, [], line, lines, rfl, rfl, ⟨[], .nil⟩, hSkipped, hReason⟩
  · rintro ⟨reason, before, line, after, rfl, rfl, ⟨keys, hBefore⟩, hSeen, hOffends⟩
    exact parseLines_append hBefore (parseLines_offends hSeen hOffends after)

/-- The empty rest after the last line feed is a blank line, so leaving it out
changes nothing. -/
theorem parseLines_terminated (pieces : List Text) :
    parseLines (Text.terminated pieces) =
      parseLines (pieces.dropLast.map Text.stripCarriageReturn ++ pieces.getLast?.toList) := by
  induction pieces using Text.terminated.induct with
  | case1 => rfl
  | case2 => rfl
  | case3 rest hRest =>
      rw [Text.terminated, if_neg hRest]
      rfl
  | case4 piece pieces hPieces ih =>
      have hLast : (piece :: pieces).getLast? = pieces.getLast? := by
        rw [List.getLast?_cons, List.getLast?_eq_some_getLast hPieces]
        rfl
      rw [Text.terminated, List.dropLast_cons_of_ne_nil hPieces, hLast]
      · simp only [List.map_cons, List.cons_append, parseLines, ih]
      · exact hPieces

/-- The parser reads the lines of the grammar. -/
theorem parse_eq (contents : Text) :
    parse contents = (parseLines (Grammar.fileLines contents)).map TrustedCaKeys.mk := by
  rw [parse, Text.lines, parseLines_terminated, Grammar.fileLines]
  cases parseLines _ <;> rfl

end TrustedCaKeys

/-- The parser accepts exactly the grammar, with the keys in line order, and
otherwise reports the first line outside it. -/
theorem parse_accepts_grammar (contents : Text) :
    (∀ file, TrustedCaKeys.parse contents = .ok file ↔
        Grammar.File (Grammar.fileLines contents) file.keys) ∧
      ∀ err, TrustedCaKeys.parse contents = .error err ↔ ∃ reason before line after,
        err = .invalidTrustedCa reason ∧ Grammar.fileLines contents = before ++ line :: after ∧
          (∃ keys, Grammar.File before keys) ∧ ¬Grammar.Skipped line ∧
            Grammar.Offends line reason := by
  rw [TrustedCaKeys.parse_eq]
  refine ⟨fun file => ?_, fun err => ?_⟩
  · rw [← TrustedCaKeys.parseLines_iff_file]
    cases TrustedCaKeys.parseLines (Grammar.fileLines contents) with
    | error err => simp [Except.map]
    | ok keys => cases file; simp [Except.map]
  · rw [← TrustedCaKeys.parseLines_iff_offends]
    cases TrustedCaKeys.parseLines (Grammar.fileLines contents) <;> simp [Except.map]

namespace Grammar

/-- Graphic characters make a legal line. -/
theorem legal_of_graphic {t : Text} (h : ∀ c ∈ t, 0x20 < c.toNat ∧ c.toNat < 0x7f) : Legal t := by
  intro c hc
  have hGraphic := h c hc
  simp only [Text.isControl, Bool.or_eq_false_iff, Bool.and_eq_false_iff, decide_eq_false_iff_not]
  omega

/-- Legal lines can be joined. -/
theorem legal_append {s t : Text} (hs : Legal s) (ht : Legal t) : Legal (s ++ t) := by
  intro c hc
  rcases List.mem_append.mp hc with hc | hc
  · exact hs c hc
  · exact ht c hc

theorem legal_space : Legal [' '] := by
  intro c hc
  rw [List.mem_singleton.mp hc]
  rfl

/-- A comment is part of its line. -/
theorem KeyLine.comment {line comment : Text} {key : CaPublicKey} (h : KeyLine line key)
    (hComment : key.comment = some comment) : Legal comment ∧ Text.Solid comment := by
  obtain ⟨lead, gap, rest, -, -, -, hTrailer, hLine⟩ := h.form
  rw [hComment] at hTrailer
  obtain ⟨gap', tail, -, -, hSolid, -, rfl⟩ := hTrailer
  refine ⟨fun c hc => h.legal c ?_, hSolid⟩
  rw [hLine]
  simp [hc]

/-- The canonical line of a key is a line of that key. -/
theorem keyLine_render {line : Text} {key : CaPublicKey} (h : KeyLine line key) :
    KeyLine key.render key := by
  have hAlgorithm : Legal key.algorithm := legal_of_graphic (graphic_of_algorithm h.algorithm).2.2
  have hKey : Legal key.keyData := legal_of_graphic h.keyData.graphic
  cases hComment : key.comment with
  | none =>
      have hRender : key.render = [] ++ (key.algorithm ++ ([' '] ++ (key.keyData ++ []))) := by
        simp [CaPublicKey.render, hComment]
      refine ⟨?_, h.algorithm, h.keyData, [], [' '], [], Text.blank_nil, by simp,
        Text.blank_space, ?_, hRender⟩
      · rw [hRender, List.nil_append, List.append_nil]
        exact legal_append hAlgorithm (legal_append legal_space hKey)
      · rw [hComment]
        exact Text.blank_nil
  | some comment =>
      have hRender : key.render =
        [] ++ (key.algorithm ++ ([' '] ++ (key.keyData ++ ([' '] ++ comment ++ [])))) := by
        simp [CaPublicKey.render, hComment]
      obtain ⟨hLegal, hSolid⟩ := h.comment hComment
      refine ⟨?_, h.algorithm, h.keyData, [], [' '], [' '] ++ comment ++ [],
        Text.blank_nil, by simp,
        Text.blank_space, ?_, hRender⟩
      · rw [hRender, List.nil_append, List.append_nil]
        exact legal_append hAlgorithm
          (legal_append legal_space (legal_append hKey (legal_append legal_space hLegal)))
      · rw [hComment]
        exact ⟨[' '], [], by simp, Text.blank_space, hSolid, Text.blank_nil, rfl⟩

/-- A legal line holds no line end. -/
theorem Legal.not_mem {line : Text} (h : Legal line) {c : Char} (hc : Text.isControl c = true) :
    c ∉ line := by
  intro hMem
  rw [h c hMem] at hc
  cases hc

/-- The rendering of a key that was read is a line of that key. -/
theorem File.keyLine {lines : List Text} {keys : List CaPublicKey} (h : File lines keys) :
    ∀ key ∈ keys, KeyLine key.render key := by
  induction h with
  | nil => simp
  | skip _ _ ih => exact ih
  | key hKey _ ih => exact List.forall_mem_cons.mpr ⟨keyLine_render hKey, ih⟩

/-- A rendered file has a line for each key. -/
theorem file_render {keys : List CaPublicKey} (h : ∀ key ∈ keys, KeyLine key.render key) :
    File (keys.map CaPublicKey.render) keys := by
  induction keys with
  | nil => exact .nil
  | cons key keys ih =>
      exact .key (h key List.mem_cons_self) (ih fun other hOther =>
        h other (List.mem_cons_of_mem _ hOther))

end Grammar

/-- A file whose keys came from the parser is read back from its rendering. -/
theorem TrustedCaKeys.parse_render {contents : Text} {file : TrustedCaKeys}
    (h : TrustedCaKeys.parse contents = .ok file) : TrustedCaKeys.parse file.render = .ok file := by
  have hKeys := ((TrustedCaKeys.parseLines_iff_file _ _).mp (TrustedCaKeys.parse_ok h)).keyLine
  have hLines : Text.lines file.render = file.keys.map CaPublicKey.render :=
    Text.lines_flatMap CaPublicKey.render file.keys
      (fun key hKey => (hKeys key hKey).legal.not_mem rfl) (fun key hKey =>
        (hKeys key hKey).legal.not_mem rfl)
  have hParse := (TrustedCaKeys.parseLines_iff_file _ _).mpr (Grammar.file_render hKeys)
  rw [TrustedCaKeys.parse, hLines, hParse]
  rfl

/-- Rendering and parsing are inverse on what the parser produces, for one key
and for a file, so rendering what was parsed is idempotent. -/
theorem render_inverts_parse :
    (∀ line key, CaPublicKey.parse line = .ok key → CaPublicKey.parse key.render = .ok key) ∧
      (∀ contents file, TrustedCaKeys.parse contents = .ok file →
        TrustedCaKeys.parse file.render = .ok file) ∧
      ∀ contents,
        ((TrustedCaKeys.parse contents).map TrustedCaKeys.render).bind (fun rendered =>
            (TrustedCaKeys.parse rendered).map TrustedCaKeys.render) =
          (TrustedCaKeys.parse contents).map TrustedCaKeys.render := by
  refine ⟨fun line key h => ?_, fun contents file => TrustedCaKeys.parse_render, fun contents => ?_⟩
  · have hKey := (Grammar.parse_iff_keyLine line key).mp h
    exact Grammar.parse_of_keyLine (Grammar.keyLine_render hKey)
  · cases hParse : TrustedCaKeys.parse contents with
    | error err => rfl
    | ok file =>
        show (TrustedCaKeys.parse file.render).map TrustedCaKeys.render = .ok file.render
        rw [TrustedCaKeys.parse_render hParse]
        rfl

/-- A comment that begins like the algorithm, after an ideographic space. -/
theorem render_inverts_parse_ideographic :
    CaPublicKey.parse "ssh-rsa\u3000AAAA\u3000ssh-rsa  #x ".toList =
        .ok ⟨"ssh-rsa".toList, "AAAA".toList, some "ssh-rsa  #x".toList⟩ ∧
      CaPublicKey.parse "ssh-rsa AAAA ssh-rsa  #x".toList =
        .ok ⟨"ssh-rsa".toList, "AAAA".toList, some "ssh-rsa  #x".toList⟩ ∧
      TrustedCaKeys.parse "ssh-rsa AAAA ssh-rsa  #x\n".toList =
        .ok ⟨[⟨"ssh-rsa".toList, "AAAA".toList, some "ssh-rsa  #x".toList⟩]⟩ :=
  ⟨by decide,
    render_inverts_parse.1 "ssh-rsa\u3000AAAA\u3000ssh-rsa  #x ".toList
      ⟨"ssh-rsa".toList, "AAAA".toList, some "ssh-rsa  #x".toList⟩ (by decide),
    render_inverts_parse.2.1 "ssh-rsa\u3000AAAA\u3000ssh-rsa  #x ".toList
      ⟨[⟨"ssh-rsa".toList, "AAAA".toList, some "ssh-rsa  #x".toList⟩]⟩ (by decide +kernel)⟩

end MayflyHelper
