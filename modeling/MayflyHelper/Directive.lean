import MayflyHelper.Ssh.SshdConfig
import MayflyHelper.Text.Lines

/-! The search for the `TrustedUserCAKeys` directive, and what it finds in the
managed drop-in. -/
namespace MayflyHelper.SshdConfig

theorem directiveOnLine_congr {line line' : Text} (h : Text.trim line = Text.trim line') :
    directiveOnLine line = directiveOnLine line' := by
  rw [directiveOnLine, directiveOnLine, h]

theorem directiveOnLine_nil : directiveOnLine [] = none := rfl

theorem findTrustedUserCaKeys_eq (configText : Text) :
    findTrustedUserCaKeys configText =
      ((configText.splitOn '\n').findSome? directiveOnLine).join := by
  rw [findTrustedUserCaKeys, Text.findSome?_lines directiveOnLine_congr directiveOnLine_nil]

/-- A directive never has the empty value. -/
theorem directiveOnLine_ne_empty (line : Text) : directiveOnLine line ≠ some (some []) := by
  unfold directiveOnLine
  dsimp only
  split
  · simp
  split
  · simp
  split
  · split
    · simp
    · rename_i hValue
      intro hEmpty
      simp only [Option.some.injEq] at hEmpty
      exact hValue (by rw [hEmpty]; rfl)
  · simp

theorem findTrustedUserCaKeys_ne_empty (configText : Text) :
    findTrustedUserCaKeys configText ≠ some [] := by
  rw [findTrustedUserCaKeys_eq]
  intro hEmpty
  cases hFound : (configText.splitOn '\n').findSome? directiveOnLine with
  | none => simp [hFound] at hEmpty
  | some value =>
      obtain ⟨line, -, hLine⟩ := List.exists_of_findSome?_eq_some hFound
      rw [hFound] at hEmpty
      exact directiveOnLine_ne_empty line (hLine.trans (congrArg some hEmpty))

/-- The value of a directive is a part of its line without white space around. -/
theorem directiveOnLine_value {line value : Text} (h : directiveOnLine line = some (some value)) :
    Text.Solid value ∧ ∀ c ∈ value, c ∈ line := by
  unfold directiveOnLine at h
  dsimp only at h
  split at h
  · cases h
  split at h
  · cases h
  rename_i keyword rest hCut
  split at h
  · split at h
    · cases h
    · rename_i hNe
      cases h
      have hTrimmed :=
        (Text.blank_or_solid (Text.trimStartMatches '=' (Text.trim rest))).resolve_left
        fun hBlank => hNe (by rw [Text.trim_of_blank hBlank]; rfl)
      obtain ⟨-, -, -, hSolid, -⟩ := hTrimmed
      refine ⟨hSolid, fun c hc => ?_⟩
      have hValue := (List.dropWhile_suffix _).subset ((Text.trim_sublist _).subset hc)
      have hRest := Text.mem_of_splitOnce hCut ((Text.trim_sublist rest).subset hValue)
      exact (Text.trim_sublist line).subset hRest
  · cases h

/-- Texts that differ in their trailing white space only are searched alike. -/
theorem findSome?_of_trimEnd {t u : Text} (h : Text.trimEnd t = Text.trimEnd u) :
    (t.splitOn '\n').findSome? directiveOnLine = (u.splitOn '\n').findSome? directiveOnLine := by
  rw [← Text.findSome?_trimEnd directiveOnLine_congr directiveOnLine_nil, h,
    Text.findSome?_trimEnd directiveOnLine_congr directiveOnLine_nil]

section Dropin
variable {caPath : PathBuf}

theorem solid_of_trim {t : Text} (hTrim : Text.trim t = t) (hNe : t ≠ []) : Text.Solid t := by
  rcases Text.blank_or_solid t with hBlank | ⟨_, _, _, hSolid, _⟩
  · rw [Text.trim_of_blank hBlank] at hTrim
    exact absurd hTrim.symm hNe
  · rwa [hTrim] at hSolid

theorem solid_renderDirective (hSolid : Text.Solid caPath.text) :
    Text.Solid (renderDirective caPath) := by
  have hKeyword : Text.Solid directiveKeyword :=
    Text.solid_of_free (by decide) (Text.free_of_any (by decide))
  have h := hKeyword.append hSolid [' ']
  rwa [List.append_assoc] at h

/-- The value the managed line sets: the path less the signs at its start. -/
def written (caPath : PathBuf) : Text := Text.trim (Text.trimStartMatches '=' caPath.text)

theorem directiveOnLine_renderDirective (hSolid : Text.Solid caPath.text) :
    directiveOnLine (renderDirective caPath) =
      some (if (written caPath).isEmpty then none else some (written caPath)) := by
  have hTrim : Text.trim (renderDirective caPath) = renderDirective caPath :=
    Text.trim_eq_self (solid_renderDirective hSolid)
  have hKeyword : ∀ c ∈ directiveKeyword, (Text.isWhitespace c || c == '=') = false :=
    Text.free_of_any (by decide)
  have hCut : Text.splitOnce (fun c => Text.isWhitespace c || c == '=') (renderDirective caPath) =
      some (directiveKeyword, caPath.text) := Text.splitOnce_append hKeyword rfl
  have hSame : Text.eqIgnoreAsciiCase directiveKeyword directiveKeyword = true := beq_self_eq_true _
  have hSeen : skipped (renderDirective caPath) = false := rfl
  rw [directiveOnLine, hTrim]
  simp only [hSeen, hCut, hSame, Text.trim_eq_self hSolid, Bool.false_eq_true, if_false, if_true]
  rfl

/-- A path that does not start with the sign is set as it stands, and one
that does is cut short. -/
theorem written_eq_iff (hSolid : Text.Solid caPath.text) :
    written caPath = caPath.text ↔ caPath.text.head? ≠ some '=' := by
  obtain ⟨c, rest, hText⟩ := List.exists_cons_of_ne_nil hSolid.1
  rw [written, hText, List.head?_cons, Ne, Option.some.injEq]
  constructor
  · rintro hWritten rfl
    have hShort : (Text.trimStartMatches '=' ('=' :: rest)).length ≤ rest.length := by
      have hDrop : Text.trimStartMatches '=' ('=' :: rest) = Text.trimStartMatches '=' rest := rfl
      rw [hDrop]
      exact (List.dropWhile_sublist _).length_le
    have hLength := (Text.trim_sublist (Text.trimStartMatches '=' ('=' :: rest))).length_le
    rw [hWritten, List.length_cons] at hLength
    omega
  · intro hc
    have hStart : Text.trimStartMatches '=' (c :: rest) = c :: rest :=
      List.dropWhile_cons_of_neg (by simp [hc])
    rw [hStart, ← hText, Text.trim_eq_self hSolid]

/-- The two lines above the directive. -/
def banner : List Text :=
  ["# Managed by mayfly-agent. Do not edit; changes are overwritten.".toList,
    "# Configures the Mayfly-managed OpenSSH user-certificate trust anchor.".toList]

theorem renderDropin_eq (caPath : PathBuf) :
    renderDropin caPath =
      banner.flatMap (fun line => line ++ ['\n']) ++ renderDirective caPath ++ ['\n'] := by
  have hBanner : banner.flatMap (fun line => line ++ ['\n']) =
      "# Managed by mayfly-agent. Do not edit; changes are overwritten.\n".toList ++
        "# Configures the Mayfly-managed OpenSSH user-certificate trust anchor.\n".toList := by
    simp only [banner, List.flatMap_cons, List.flatMap_nil]
    rw [String.toList_ofList, String.toList_ofList, String.toList_ofList, String.toList_ofList]
    rfl
  exact (congrArg (· ++ renderDirective caPath ++ ['\n']) hBanner).symm

/-- The lines above the directive say nothing. -/
theorem findSome?_banner (text : Text) :
    ((banner.flatMap (fun line => line ++ ['\n']) ++ text).splitOn '\n').findSome? directiveOnLine =
      (text.splitOn '\n').findSome? directiveOnLine := by
  have hLines : ∀ line ∈ banner, '\n' ∉ line ∧ directiveOnLine line = none := by
    intro line hLine
    simp only [banner, List.mem_cons, List.not_mem_nil, or_false] at hLine
    rcases hLine with hLine | hLine
    · rw [hLine, String.toList_ofList]
      decide +kernel
    · rw [hLine, String.toList_ofList]
      decide +kernel
  generalize banner = lines at hLines
  induction lines with
  | nil => rfl
  | cons line lines ih =>
      obtain ⟨hNewline, hNone⟩ := hLines line List.mem_cons_self
      have hRest := ih fun other hOther => hLines other (List.mem_cons_of_mem _ hOther)
      rw [List.flatMap_cons, List.append_assoc, List.append_assoc, List.singleton_append,
        Text.splitOn_append_newline, Text.splitOn_of_not_mem hNewline, List.singleton_append,
        List.findSome?_cons, hNone]
      exact hRest

theorem findSome?_renderDropin (hSolid : Text.Solid caPath.text) (hLine : '\n' ∉ caPath.text) :
    ((renderDropin caPath).splitOn '\n').findSome? directiveOnLine =
      some (if (written caPath).isEmpty then none else some (written caPath)) := by
  have hDirective : '\n' ∉ renderDirective caPath := by
    have hKeyword : '\n' ∉ directiveKeyword := by decide
    simp [renderDirective, hKeyword, hLine]
  have hNewline : Text.isWhitespace '\n' = true := rfl
  rw [renderDropin_eq, Text.findSome?_concat directiveOnLine_congr directiveOnLine_nil _ hNewline,
    findSome?_banner, Text.splitOn_of_not_mem hDirective, List.findSome?_cons,
      directiveOnLine_renderDirective hSolid]

/-- Whatever white space follows it, the managed drop-in sets the managed path. -/
theorem findSome?_dropin (hSolid : Text.Solid caPath.text) (hLine : '\n' ∉ caPath.text)
    (hEquals : Text.startsWith caPath.text '=' = false) {text : Text}
    (hText : Text.trimEnd text = Text.trimEnd (renderDropin caPath)) :
    (text.splitOn '\n').findSome? directiveOnLine = some (some caPath.text) := by
  have hWritten : written caPath = caPath.text :=
    (written_eq_iff hSolid).mpr (by simpa [Text.startsWith] using hEquals)
  rw [findSome?_of_trimEnd hText, findSome?_renderDropin hSolid hLine, hWritten,
    if_neg (by simp [hSolid.1])]

/-- What the search finds stands on one line. -/
theorem findTrustedUserCaKeys_value {configText value : Text}
    (h : findTrustedUserCaKeys configText = some value) :
    Text.Solid value ∧ '\n' ∉ value := by
  rw [findTrustedUserCaKeys_eq, Option.join_eq_some_iff] at h
  obtain ⟨line, hLine, hValue⟩ := List.exists_of_findSome?_eq_some h
  obtain ⟨hSolid, hPart⟩ := directiveOnLine_value hValue
  exact ⟨hSolid, fun hNewline => Text.not_mem_of_mem_splitOn configText hLine (hPart _ hNewline)⟩

/-- The drop-in reads back as the path exactly when the path is solid, of one
line, and does not start with the sign. -/
theorem findTrustedUserCaKeys_renderDropin :
    findTrustedUserCaKeys (renderDropin caPath) = some caPath.text ↔
      Text.Solid caPath.text ∧ '\n' ∉ caPath.text ∧ caPath.text.head? ≠ some '=' := by
  constructor
  · intro hFound
    obtain ⟨hSolid, hLine⟩ := findTrustedUserCaKeys_value hFound
    refine ⟨hSolid, hLine, (written_eq_iff hSolid).mp ?_⟩
    rw [findTrustedUserCaKeys_eq, findSome?_renderDropin hSolid hLine, Option.join_some] at hFound
    split at hFound
    · cases hFound
    · exact Option.some.inj hFound
  · rintro ⟨hSolid, hLine, hEquals⟩
    rw [findTrustedUserCaKeys_eq, findSome?_renderDropin hSolid hLine,
      (written_eq_iff hSolid).mpr hEquals,
      if_neg (by simp [hSolid.1]), Option.join_some]

/-- A drop-in that differs in its trailing white space only sets the same
value as the rendered one. This value is the path exactly when the path is not
empty, has no line feed, has no white space at either end and does not start
with the sign. -/
theorem dropin_reads_back (caPath : PathBuf) :
    (∀ text : Text, Text.trimEnd text = Text.trimEnd (renderDropin caPath) →
      findTrustedUserCaKeys text = findTrustedUserCaKeys (renderDropin caPath)) ∧
    (findTrustedUserCaKeys (renderDropin caPath) = some caPath.text ↔
      caPath.text ≠ [] ∧ '\n' ∉ caPath.text ∧
        (∀ c, caPath.text.head? = some c → Text.isWhitespace c = false) ∧
        (∀ c, caPath.text.getLast? = some c → Text.isWhitespace c = false) ∧
        caPath.text.head? ≠ some '=') := by
  constructor
  · intro text hText
    rw [findTrustedUserCaKeys_eq, findTrustedUserCaKeys_eq, findSome?_of_trimEnd hText]
  · rw [findTrustedUserCaKeys_renderDropin]
    constructor
    · rintro ⟨⟨hNe, hHead, hLast⟩, hLine, hEquals⟩
      exact ⟨hNe, hLine, hHead, hLast, hEquals⟩
    · rintro ⟨hNe, hLine, hHead, hLast, hEquals⟩
      exact ⟨⟨hNe, hHead, hLast⟩, hLine, hEquals⟩

theorem dropin_reads_back_relative :
    findTrustedUserCaKeys (renderDropin ⟨['c', 'a']⟩ ++ [' ', '\r', '\n', '\n']) =
      some ['c', 'a'] := by
  have hBlank : Text.Blank [' ', '\r', '\n', '\n'] := fun c hc => by
    simp only [List.mem_cons, List.not_mem_nil, or_false] at hc
    rcases hc with rfl | rfl | rfl | rfl <;> rfl
  have hReads := dropin_reads_back ⟨['c', 'a']⟩
  rw [hReads.1 _ (Text.trimEnd_append hBlank _), hReads.2]
  refine ⟨by simp, by simp, ?_, ?_, by simp⟩
  · intro c hc
    cases hc
    rfl
  · intro c hc
    cases hc
    rfl

end Dropin

end MayflyHelper.SshdConfig
