import MayflyHelper.Ssh.SshdConfig
import MayflyHelper.Text.Glob
import MayflyHelper.Text.Lines

/-! The check that the main configuration includes the drop-in directory. It
compares directories and leaves the file part of a pattern alone, so it can
accept an `Include` that never loads the managed drop-in. -/
namespace MayflyHelper.SshdConfig

/-- `pattern` is a pattern of the `Include` on `line`. -/
def IncludesPattern (line pattern : Text) : Prop :=
  skipped (Text.trim line) = false ∧ ∃ keyword patterns,
    Text.splitWhitespace line = keyword :: patterns ∧
      Text.eqIgnoreAsciiCase keyword "Include".toList = true ∧ pattern ∈ patterns

/-- The directory part of `pattern` is `dir`, trailing slashes apart. -/
def NamesDir (dir pattern : Text) : Prop :=
  (∃ before file, pattern = before ++ '/' :: file ∧ '/' ∉ file ∧
      Text.trimEndMatches '/' before = Text.trimEndMatches '/' dir) ∨
    '/' ∉ pattern ∧ pattern = Text.trimEndMatches '/' dir

/-- The managed drop-in in the directory `dir`. -/
def managedDropin (dir : Text) : Text := Text.trimEndMatches '/' dir ++ '/' :: dropinFilename

/-- The two ways to the patterns of a line: cut off the first word, or take
all the words. -/
theorem splitWhitespace_of_not_skipped {line : Text} (h : skipped (Text.trim line) = false) :
    Text.splitWhitespace line =
      match Text.splitOnce Text.isWhitespace (Text.trim line) with
      | none => [Text.trim line]
      | some (keyword, rest) => keyword :: Text.splitWhitespace rest := by
  rw [skipped, Bool.or_eq_false_iff] at h
  have hNe : Text.trim line ≠ [] := by simpa using h.1
  obtain ⟨-, -, -, hSolid, -⟩ := (Text.blank_or_solid line).resolve_left fun hBlank =>
    hNe (Text.trim_of_blank hBlank)
  rw [← Text.splitWhitespace_trim]
  rcases Text.free_or_cut Text.isWhitespace (Text.trim line) with
    hFree | ⟨keyword, c, rest, hTrim, hc, hKeyword⟩
  · rw [Text.splitOnce_of_free hFree]
    have hAlone := Text.fields_field_append (t := []) hNe hFree (by simp)
    rwa [List.append_nil] at hAlone
  · rw [hTrim, Text.splitOnce_append hKeyword hc]
    have hKeywordNe : keyword ≠ [] := by
      rintro rfl
      have hFirst := hSolid.2.1 c (by rw [hTrim]; rfl)
      rw [hFirst] at hc
      cases hc
    have hStops : ∀ d ∈ (c :: rest).head?, Text.isWhitespace d = true := fun d hd => by
      cases hd
      exact hc
    have hRest : Text.fields Text.isWhitespace (c :: rest) = Text.fields Text.isWhitespace rest :=
      Text.fields_append_cons hc [] rest
    rw [Text.splitWhitespace, Text.fields_field_append hKeywordNe hKeyword hStops, hRest]
    rfl

theorem includesOnLine_iff (needle line : Text) :
    includesOnLine needle line = true ↔ ∃ pattern, IncludesPattern line pattern ∧
      Text.trimEndMatches '/' (patternDir pattern) = needle := by
  cases hSkipped : skipped (Text.trim line) with
  | true => simp [includesOnLine, IncludesPattern, hSkipped]
  | false =>
      have hFields := splitWhitespace_of_not_skipped hSkipped
      simp only [includesOnLine, IncludesPattern, hSkipped, hFields, Bool.false_eq_true,
        if_false, true_and]
      cases Text.splitOnce Text.isWhitespace (Text.trim line) with
      | none => simp
      | some cut =>
          simp only [Bool.and_eq_true, List.any_eq_true, beq_iff_eq, List.cons.injEq]
          constructor
          · rintro ⟨hKeyword, pattern, hPattern, hDir⟩
            exact ⟨pattern, ⟨cut.1, _, ⟨rfl, rfl⟩, hKeyword, hPattern⟩, hDir⟩
          · rintro ⟨pattern, ⟨keyword, patterns, ⟨rfl, rfl⟩, hKeyword, hPattern⟩, hDir⟩
            exact ⟨hKeyword, pattern, hPattern, hDir⟩

theorem trimEndMatches_of_free {t : Text} (h : '/' ∉ t) : Text.trimEndMatches '/' t = t := by
  rw [Text.trimEndMatches, List.rdropWhile_eq_self_iff]
  intro hNe hLast
  have hSlash := beq_iff_eq.mp hLast
  rw [← hSlash] at h
  exact h (List.getLast_mem hNe)

theorem not_mem_slash {t : Text} (h : ∀ c ∈ t, (c == '/') = false) : '/' ∉ t := fun hMem => by
  cases h '/' hMem

theorem free_of_not_mem {t : Text} (h : '/' ∉ t) : ∀ c ∈ t, (c == '/') = false := fun c hc => by
  rw [beq_eq_false_iff_ne]
  rintro rfl
  exact h hc

theorem rsplitOnce_slash (before : Text) {file : Text} (h : '/' ∉ file) :
    Text.rsplitOnce (· == '/') (before ++ '/' :: file) = some (before, file) :=
  Text.rsplitOnce_append rfl (free_of_not_mem h)

theorem namesDir_iff (dir pattern : Text) :
    Text.trimEndMatches '/' (patternDir pattern) = Text.trimEndMatches '/' dir ↔
      NamesDir dir pattern := by
  unfold patternDir NamesDir
  rcases Text.free_or_last_cut (· == '/') pattern with hFree | ⟨before, c, file, rfl, hc, hFile⟩
  · have hSlash := not_mem_slash hFree
    rw [Text.rsplitOnce_of_free hFree]
    simp only [Option.map_none, Option.getD_none, trimEndMatches_of_free hSlash, hSlash,
      not_false_eq_true, true_and]
    refine ⟨.inr, fun h => h.resolve_left ?_⟩
    rintro ⟨before, file, rfl, -⟩
    exact hSlash (by simp)
  · have hSlash := not_mem_slash hFile
    cases beq_iff_eq.mp hc
    rw [rsplitOnce_slash before hSlash]
    simp only [Option.map_some, Option.getD_some]
    constructor
    · intro h
      exact .inl ⟨before, file, rfl, hSlash, h⟩
    · rintro (⟨other, last, hSame, hLast, h⟩ | ⟨hNone, -⟩)
      · have hCut := rsplitOnce_slash other hLast
        rw [← hSame, rsplitOnce_slash before hSlash] at hCut
        cases hCut
        exact h
      · exact absurd (by simp) hNone

/-- The check as a search for a line. -/
theorem includesDropinDir_eq_isSome (configText dir : Text) :
    includesDropinDir configText dir = ((Text.lines configText).findSome? fun line =>
      if includesOnLine (Text.trimEndMatches '/' dir) line then some () else none).isSome := by
  rw [Bool.eq_iff_iff, includesDropinDir, List.any_eq_true, List.findSome?_isSome_iff]
  simp only [Option.isSome_ite]

theorem includesOnLine_congr {needle line line' : Text} (h : Text.trim line = Text.trim line') :
    includesOnLine needle line = includesOnLine needle line' := by
  rw [includesOnLine, includesOnLine, h]

section Search
variable (configText dir : Text)

theorem includesDropinDir_eq :
    includesDropinDir configText dir =
      (configText.splitOn '\n').any (includesOnLine (Text.trimEndMatches '/' dir)) := by
  rw [includesDropinDir_eq_isSome,
    Text.findSome?_lines (fun h => by rw [includesOnLine_congr h]) rfl,
    Bool.eq_iff_iff, List.any_eq_true, List.findSome?_isSome_iff]
  simp only [Option.isSome_ite]

/-- White space at the end of the configuration is immaterial to the check. -/
theorem includesDropinDir_trimEnd :
    includesDropinDir (Text.trimEnd configText) dir = includesDropinDir configText dir := by
  rw [includesDropinDir_eq_isSome, includesDropinDir_eq_isSome,
    Text.findSome?_lines (fun h => by rw [includesOnLine_congr h]) rfl,
    Text.findSome?_lines (fun h => by rw [includesOnLine_congr h]) rfl,
    Text.findSome?_trimEnd (fun h => by rw [includesOnLine_congr h]) rfl]

end Search

/-- The check looks for an `Include` of the directory. Such a pattern loads the
managed drop-in just when its file part does, which the check leaves open. -/
theorem includesDropinDir_compares_directories (configText dir : Text) :
    (includesDropinDir configText dir = true ↔
        ∃ line ∈ Text.lines configText, ∃ pattern, IncludesPattern line pattern ∧
          NamesDir dir pattern) ∧
      ∀ file, (∀ c ∈ dir, Text.Glob.isSpecial c = false) →
        Text.Glob.accepts (Text.trimEndMatches '/' dir ++ '/' :: file) (managedDropin dir) =
          Text.Glob.accepts file dropinFilename := by
  constructor
  · simp only [includesDropinDir, List.any_eq_true, includesOnLine_iff, namesDir_iff]
  · intro file hPlain
    have hDir : ∀ c ∈ Text.trimEndMatches '/' dir ++ ['/'], Text.Glob.isSpecial c = false := by
      intro c hc
      rcases List.mem_append.mp hc with hc | hc
      · exact hPlain c ((List.rdropWhile_prefix _ _).subset hc)
      · rw [List.mem_singleton.mp hc]
        rfl
    have hAccepts := Text.Glob.accepts_append hDir file dropinFilename
    rwa [List.append_assoc, List.append_assoc] at hAccepts

theorem includesDropinDir_compares_directories_default :
    includesDropinDir "Port 22\ninclude /etc/ssh/sshd_config.d/*.conf\n".toList dropinDir = true ∧
      Text.Glob.accepts "/etc/ssh/sshd_config.d/*.conf".toList (managedDropin dropinDir) =
        Text.Glob.accepts "*.conf".toList dropinFilename ∧
      Text.Glob.accepts "*.conf".toList dropinFilename = true := by
  have hPlain : ∀ c ∈ dropinDir, Text.Glob.isSpecial c = false := Text.free_of_any (by decide)
  exact ⟨by decide,
    (includesDropinDir_compares_directories [] dropinDir).2 "*.conf".toList hPlain, by decide⟩

/-- An `Include` of another file in the directory is accepted, and no pattern
of it is the managed drop-in. -/
theorem includesDropinDir_accepts_other_file :
    includesDropinDir "Include /etc/ssh/sshd_config.d/50-cloud.conf\n".toList dropinDir = true ∧
      ¬∃ line ∈ Text.lines "Include /etc/ssh/sshd_config.d/50-cloud.conf\n".toList, ∃ pattern,
        IncludesPattern line pattern ∧
          Text.Glob.accepts pattern (managedDropin dropinDir) = true := by
  refine ⟨by decide, ?_⟩
  have hLines : Text.lines "Include /etc/ssh/sshd_config.d/50-cloud.conf\n".toList =
      ["Include /etc/ssh/sshd_config.d/50-cloud.conf".toList] := by decide
  have hFields : Text.splitWhitespace "Include /etc/ssh/sshd_config.d/50-cloud.conf".toList =
      ["Include".toList, "/etc/ssh/sshd_config.d/50-cloud.conf".toList] := by decide
  have hRefused :
      Text.Glob.accepts "/etc/ssh/sshd_config.d/50-cloud.conf".toList (managedDropin dropinDir) =
      false := by decide +kernel
  rintro ⟨line, hLine, pattern, ⟨-, keyword, patterns, hWords, -, hPattern⟩, hAccepts⟩
  rw [hLines, List.mem_singleton] at hLine
  rw [hLine, hFields] at hWords
  simp only [List.cons.injEq] at hWords
  rw [← hWords.2, List.mem_singleton] at hPattern
  rw [hPattern, hRefused] at hAccepts
  cases hAccepts

end MayflyHelper.SshdConfig
