import MayflyHelper.Text.Fields

/-! Trimming and lines. A trimmed text is what is left between white space on
both sides, and lines written one after the other are read back. -/
namespace Text

variable {s t u : Text}

/-- White space only. -/
def Blank (t : Text) : Prop := ∀ c ∈ t, isWhitespace c = true

/-- Nonempty, with no white space at either end. -/
def Solid (t : Text) : Prop :=
  t ≠ [] ∧ (∀ c ∈ t.head?, isWhitespace c = false) ∧ ∀ c ∈ t.getLast?, isWhitespace c = false

theorem blank_nil : Blank [] := fun _ hc => by cases hc

theorem blank_space : Blank [' '] := fun c hc => by
  rw [List.mem_singleton.mp hc]
  rfl

/-- A nonempty text without white space is solid. -/
theorem solid_of_free (hNe : t ≠ []) (h : ∀ c ∈ t, isWhitespace c = false) : Solid t :=
  ⟨hNe, fun c hc => h c (List.mem_of_mem_head? hc), fun c hc => h c (List.mem_of_mem_getLast? hc)⟩

/-- Two solid texts with anything between them make a solid one. -/
theorem Solid.append (hs : Solid s) (hu : Solid u) (t : Text) : Solid (s ++ t ++ u) := by
  refine ⟨by simp [hs.1], ?_, ?_⟩
  · intro c hc
    rw [List.append_assoc, List.head?_append_of_ne_nil _ hs.1] at hc
    exact hs.2.1 c hc
  · intro c hc
    rw [List.getLast?_append_of_ne_nil _ hu.1] at hc
    exact hu.2.2 c hc

theorem trimStart_append (hs : Blank s) (t : Text) : trimStart (s ++ t) = trimStart t := by
  unfold trimStart
  rw [List.dropWhile_append_of_pos hs]

theorem trimStart_of_head (h : ∀ c ∈ t.head?, isWhitespace c = false) : trimStart t = t := by
  cases t with
  | nil => rfl
  | cons c t =>
      have hc := h c rfl
      simp [trimStart, hc]

theorem trimEnd_append (hu : Blank u) (t : Text) : trimEnd (t ++ u) = trimEnd t := by
  unfold trimEnd List.rdropWhile
  rw [List.reverse_append, List.dropWhile_append_of_pos]
  intro c hc
  exact hu c (List.mem_reverse.mp hc)

theorem trimEnd_of_last (h : ∀ c ∈ t.getLast?, isWhitespace c = false) : trimEnd t = t := by
  unfold trimEnd
  rw [List.rdropWhile_eq_self_iff]
  intro hNe
  have hLast := h (t.getLast hNe) (List.getLast?_eq_some_getLast hNe)
  simp [hLast]

/-- Trimming leaves what stands between the white space. -/
theorem trim_of_solid (hs : Blank s) (ht : Solid t) (hu : Blank u) : trim (s ++ t ++ u) = t := by
  unfold trim
  rw [List.append_assoc, trimStart_append hs, trimStart_of_head, trimEnd_append hu,
    trimEnd_of_last ht.2.2]
  rw [List.head?_append_of_ne_nil _ ht.1]
  exact ht.2.1

theorem trim_eq_self (ht : Solid t) : trim t = t := by
  have h := trim_of_solid blank_nil ht blank_nil
  rwa [List.nil_append, List.append_nil] at h

/-- Trimming only takes away. -/
theorem trim_sublist (t : Text) : (trim t).Sublist t :=
  ((List.rdropWhile_prefix _ _).sublist).trans (List.dropWhile_sublist _)

theorem trim_of_blank (h : Blank t) : trim t = [] := by
  have hNil := trimStart_append h []
  rw [List.append_nil] at hNil
  rw [trim, hNil]
  rfl

/-- Every text is white space, or solid with white space around it. -/
theorem blank_or_solid (t : Text) :
    Blank t ∨ ∃ s u, Blank s ∧ Solid (trim t) ∧ Blank u ∧ t = s ++ trim t ++ u := by
  have hStart : t = t.takeWhile isWhitespace ++ trimStart t := List.takeWhile_append_dropWhile.symm
  have hEnd : trimStart t = trim t ++ (trimStart t).rtakeWhile isWhitespace :=
    List.rdropWhile_append_rtakeWhile.symm
  have hLead : Blank (t.takeWhile isWhitespace) := fun c hc => List.mem_takeWhile_imp hc
  have hTail : Blank ((trimStart t).rtakeWhile isWhitespace) :=
    fun c hc => List.mem_rtakeWhile_imp hc
  by_cases hNe : trim t = []
  · left
    intro c hc
    rw [hStart, hEnd, hNe] at hc
    rcases List.mem_append.mp hc with hc | hc
    · exact hLead c hc
    · exact hTail c hc
  · refine Or.inr ⟨_, _, hLead, ⟨hNe, ?_, ?_⟩, hTail, ?_⟩
    · intro c hc
      refine head?_dropWhile_not t c ?_
      have hHead := hc
      rw [← List.head?_append_of_ne_nil _ hNe, ← hEnd] at hHead
      exact hHead
    · intro c hc
      have hLast := List.rdropWhile_last_not isWhitespace (trimStart t) hNe
      rw [List.getLast?_eq_some_getLast hNe, Option.mem_some] at hc
      rw [← hc]
      exact Bool.eq_false_iff.mpr hLast
    · rw [List.append_assoc, ← hEnd]
      exact hStart

theorem stripCarriageReturn_of_last (h : t.getLast? ≠ some '\r') : stripCarriageReturn t = t := by
  rw [stripCarriageReturn, if_neg h]

/-- A terminated line comes off the front. -/
theorem lines_append_newline (h : '\n' ∉ s) (t : Text) :
    lines (s ++ '\n' :: t) = stripCarriageReturn s :: lines t := by
  unfold lines
  rw [List.splitOn_append_cons_self_of_not_mem h]
  obtain ⟨piece, pieces, hPieces⟩ := List.exists_cons_of_ne_nil (List.splitOn_ne_nil '\n' t)
  rw [hPieces, terminated]
  simp

/-- Lines written one after the other are read back. -/
theorem lines_flatMap {Line : Type} (render : Line → Text) (written : List Line)
    (hNewline : ∀ line ∈ written, '\n' ∉ render line)
    (hReturn : ∀ line ∈ written, '\r' ∉ render line) :
    lines (written.flatMap fun line => render line ++ ['\n']) = written.map render := by
  induction written with
  | nil => rfl
  | cons line written ih =>
      have hLast : (render line).getLast? ≠ some '\r' := fun hLast =>
        hReturn line List.mem_cons_self (List.mem_of_mem_getLast? hLast)
      have hRest := ih (fun l hl => hNewline l (List.mem_cons_of_mem _ hl))
        (fun l hl => hReturn l (List.mem_cons_of_mem _ hl))
      rw [List.flatMap_cons, List.append_assoc, List.singleton_append,
        lines_append_newline (hNewline line List.mem_cons_self), stripCarriageReturn_of_last hLast,
          hRest]
      rfl

theorem splitOn_append_newline (s t : Text) :
    (s ++ '\n' :: t).splitOn '\n' = s.splitOn '\n' ++ t.splitOn '\n' :=
  List.splitOnP_append_cons _ _ (beq_self_eq_true _)

/-- Texts written out with line feeds between them are cut as each is cut. -/
theorem splitOn_intercalate (pieces : List Text) (h : pieces ≠ []) :
    (['\n'].intercalate pieces).splitOn '\n' =
      pieces.flatMap (fun piece => piece.splitOn '\n') := by
  induction pieces with
  | nil => exact absurd rfl h
  | cons piece pieces ih =>
      cases pieces with
      | nil => simp
      | cons next pieces =>
          rw [List.intercalate_cons_cons, List.append_assoc, List.singleton_append,
            splitOn_append_newline, ih (by simp)]
          rfl

theorem splitOn_of_not_mem (h : '\n' ∉ t) : t.splitOn '\n' = [t] := by
  refine List.splitOnP_eq_singleton fun c hc => ?_
  rw [beq_eq_false_iff_ne]
  rintro rfl
  exact h hc

/-- There is no line feed between line feeds. -/
theorem not_mem_of_mem_splitOn {piece : Text} (t : Text) (h : piece ∈ t.splitOn '\n') :
    '\n' ∉ piece := by
  rcases free_or_last_cut (· == '\n') t with hFree | ⟨before, c, after, hCut, hc, hAfter⟩
  · have hNot : '\n' ∉ t := fun hMem => by cases hFree '\n' hMem
    rw [splitOn_of_not_mem hNot, List.mem_singleton] at h
    rwa [h]
  · have hShorter : before.length < t.length := by
      rw [hCut, List.length_append, List.length_cons]
      omega
    cases beq_iff_eq.mp hc
    have hNot : '\n' ∉ after := fun hMem => by cases hAfter '\n' hMem
    rw [hCut, splitOn_append_newline, splitOn_of_not_mem hNot, List.mem_append,
      List.mem_singleton] at h
    rcases h with h | rfl
    · exact not_mem_of_mem_splitOn before h
    · exact hNot
termination_by t.length

theorem trim_append (hu : Blank u) (t : Text) : trim (t ++ u) = trim t := by
  rcases blank_or_solid t with hBlank | ⟨lead, tail, hLead, hSolid, hTail, ht⟩
  · rw [trim_of_blank hBlank, trim_of_blank]
    intro c hc
    rcases List.mem_append.mp hc with hc | hc
    · exact hBlank c hc
    · exact hu c hc
  · have hBoth : Blank (tail ++ u) := fun c hc => (List.mem_append.mp hc).elim (hTail c) (hu c)
    have hWhole : t ++ u = lead ++ trim t ++ (tail ++ u) := by
      rw [← List.append_assoc, ← ht]
    rw [hWhole, trim_of_solid hLead hSolid hBoth]

theorem trim_stripCarriageReturn (t : Text) : trim (stripCarriageReturn t) = trim t := by
  unfold stripCarriageReturn
  split
  · rename_i hLast
    obtain ⟨front, rfl⟩ := List.getLast?_eq_some_iff.mp hLast
    have hReturn : Blank ['\r'] := fun c hc => by
      rw [List.mem_singleton.mp hc]
      rfl
    rw [List.dropLast_concat, trim_append hReturn]
  · rfl

section Search

variable {Found : Type} {read : Text → Option Found}
  (hTrim : ∀ {s t : Text}, trim s = trim t → read s = read t) (hEmpty : read [] = none)

include hTrim hEmpty

theorem findSome?_terminated (pieces : List Text) :
    (terminated pieces).findSome? read = pieces.findSome? read := by
  induction pieces using terminated.induct with
  | case1 => rfl
  | case2 => rw [terminated, if_pos rfl, List.findSome?_cons, hEmpty]
  | case3 rest hRest => rw [terminated, if_neg hRest]
  | case4 piece pieces hPieces ih =>
      rw [terminated, List.findSome?_cons, List.findSome?_cons, ih,
        hTrim (trim_stripCarriageReturn piece)]
      exact hPieces

theorem findSome?_lines (t : Text) : (lines t).findSome? read = (t.splitOn '\n').findSome? read :=
  findSome?_terminated hTrim hEmpty (t.splitOn '\n')

/-- One more blank lengthens the last line, or adds an empty one. -/
theorem findSome?_concat (t : Text) {c : Char} (hc : isWhitespace c = true) :
    ((t ++ [c]).splitOn '\n').findSome? read = (t.splitOn '\n').findSome? read := by
  have hBlank : Blank [c] := fun d hd => by rwa [List.mem_singleton.mp hd]
  by_cases hNewline : c = '\n'
  · subst hNewline
    have hNil : ([] : Text).splitOn '\n' = [[]] := rfl
    rw [splitOn_append_newline, hNil, List.findSome?_append, List.findSome?_cons, hEmpty,
      List.findSome?_nil,
      Option.or_none]
  · rcases free_or_last_cut (· == '\n') t with hFree | ⟨before, d, last, rfl, hd, hLast⟩
    · have hNot : '\n' ∉ t := fun hMem => by cases hFree '\n' hMem
      have hNot' : '\n' ∉ t ++ [c] := by simp [hNot, Ne.symm hNewline]
      rw [splitOn_of_not_mem hNot, splitOn_of_not_mem hNot', List.findSome?_cons,
        List.findSome?_cons,
        hTrim (trim_append hBlank t)]
    · cases beq_iff_eq.mp hd
      have hNot : '\n' ∉ last := fun hMem => by cases hLast '\n' hMem
      have hNot' : '\n' ∉ last ++ [c] := by simp [hNot, Ne.symm hNewline]
      rw [List.append_assoc, List.cons_append, splitOn_append_newline, splitOn_append_newline,
        splitOn_of_not_mem hNot, splitOn_of_not_mem hNot', List.findSome?_append,
        List.findSome?_append, List.findSome?_cons, List.findSome?_cons,
          hTrim (trim_append hBlank last)]

theorem findSome?_append_blank {tail : Text} (hTail : Blank tail) (t : Text) :
    ((t ++ tail).splitOn '\n').findSome? read = (t.splitOn '\n').findSome? read := by
  induction tail generalizing t with
  | nil => rw [List.append_nil]
  | cons c tail ih =>
      have hRest := ih (fun d hd => hTail d (List.mem_cons_of_mem c hd)) (t ++ [c])
      rw [List.append_assoc, List.singleton_append] at hRest
      rw [hRest, findSome?_concat hTrim hEmpty t (hTail c List.mem_cons_self)]

theorem findSome?_trimEnd (t : Text) :
    ((trimEnd t).splitOn '\n').findSome? read = (t.splitOn '\n').findSome? read := by
  have hBlank : Blank (t.rtakeWhile isWhitespace) := fun c hc => List.mem_rtakeWhile_imp hc
  have hSplit : trimEnd t ++ t.rtakeWhile isWhitespace = t := List.rdropWhile_append_rtakeWhile
  have hAppend := findSome?_append_blank hTrim hEmpty hBlank (trimEnd t)
  rw [hSplit] at hAppend
  exact hAppend.symm

end Search

end Text
