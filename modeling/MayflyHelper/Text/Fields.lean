import MayflyHelper.Text.Basic

/-! Fields of a text, for any notion of separator. Two readers that disagree
on what separates still agree on a field that is free of both. -/
namespace Text

variable {separator wider : Char → Bool} {t field : Text} {fieldsLeft : List Text}

/-- That a text has no separator is seen by running over it. -/
theorem free_of_any (h : t.any separator = false) : ∀ c ∈ t, separator c = false := by
  intro c hc
  exact Bool.eq_false_iff.mpr (List.any_eq_false.mp h c hc)

@[simp] theorem fields_nil : fields separator [] = [] := rfl

/-- A separator cuts the text in two. -/
theorem fields_append_cons {c : Char} (hc : separator c = true) (s t : Text) :
    fields separator (s ++ c :: t) = fields separator s ++ fields separator t := by
  rw [fields, List.splitOnP_append_cons _ _ hc, List.filter_append]
  rfl

/-- Separators alone have no fields. -/
theorem fields_of_all {s : Text} (h : ∀ c ∈ s, separator c = true) : fields separator s = [] := by
  induction s with
  | nil => rfl
  | cons c s ih =>
      have hRest := ih fun d hd => h d (List.mem_cons_of_mem _ hd)
      exact (fields_append_cons (h c List.mem_cons_self) [] s).trans hRest

/-- Separators at the end make no field. -/
theorem fields_append_of_all {s : Text} (h : ∀ c ∈ s, separator c = true) (t : Text) :
    fields separator (t ++ s) = fields separator t := by
  cases s with
  | nil => rw [List.append_nil]
  | cons c s =>
      rw [fields_append_cons (h c List.mem_cons_self),
        fields_of_all fun d hd => h d (List.mem_cons_of_mem _ hd), List.append_nil]

/-- Nor do separators at the start. -/
theorem fields_of_all_append {s : Text} (h : ∀ c ∈ s, separator c = true) (t : Text) :
    fields separator (s ++ t) = fields separator t := by
  induction s with
  | nil => rfl
  | cons c s ih =>
      have hRest := ih fun d hd => h d (List.mem_cons_of_mem _ hd)
      exact (fields_append_cons (h c List.mem_cons_self) [] (s ++ t)).trans hRest

/-- A field runs up to the next separator. -/
theorem fields_field_append (hField : field ≠ []) (hFree : ∀ c ∈ field, separator c = false)
    (hStops : ∀ c ∈ t.head?, separator c = true) :
    fields separator (field ++ t) = field :: fields separator t := by
  have hAlone : fields separator field = [field] := by
    rw [fields, List.splitOnP_eq_singleton hFree]
    simp [hField]
  cases t with
  | nil => rw [List.append_nil, hAlone, fields_nil]
  | cons c t =>
      have hc : separator c = true := hStops c rfl
      rw [fields_append_cons hc, hAlone, List.singleton_append]
      exact congrArg (field :: ·) (fields_of_all_append (s := [c]) (by simpa using hc) t).symm

theorem head?_dropWhile_not {p : Char → Bool} (t : Text) :
    ∀ c ∈ (t.dropWhile p).head?, p c = false := by
  intro c hc
  have := List.head?_dropWhile_not p t
  rw [Option.mem_def.mp hc] at this
  simpa using this

/-- Where the first field stands. -/
theorem fields_eq_cons (h : fields separator t = field :: fieldsLeft) :
    ∃ s rest, t = s ++ (field ++ rest) ∧ (∀ c ∈ s, separator c = true) ∧ field ≠ [] ∧
      (∀ c ∈ field, separator c = false) ∧ (∀ c ∈ rest.head?, separator c = true) ∧
      fields separator rest = fieldsLeft := by
  set s := t.takeWhile separator with hs
  set u := t.dropWhile separator with hu
  have hLead : ∀ c ∈ s, separator c = true := fun c hc => List.mem_takeWhile_imp hc
  have hSplit : t = s ++ u := (List.takeWhile_append_dropWhile).symm
  rw [hSplit, fields_of_all_append hLead] at h
  set first := u.takeWhile (fun c => !separator c) with hFirst
  set rest := u.dropWhile (fun c => !separator c) with hRest
  have hFree : ∀ c ∈ first, separator c = false :=
    fun c hc => by simpa using List.mem_takeWhile_imp hc
  have hStops : ∀ c ∈ rest.head?, separator c = true := fun c hc => by
    simpa using head?_dropWhile_not u c hc
  have hCut : u = first ++ rest := (List.takeWhile_append_dropWhile).symm
  have hNonempty : first ≠ [] := by
    intro hNil
    cases hText : u with
    | nil => simp [hText] at h
    | cons c u' =>
        have hc : separator c = false := head?_dropWhile_not t c (by rw [← hu, hText]; rfl)
        rw [hFirst, hText, List.takeWhile_cons, hc] at hNil
        simp at hNil
  rw [hCut, fields_field_append hNonempty hFree hStops, List.cons.injEq] at h
  obtain ⟨rfl, hLeft⟩ := h
  exact ⟨s, rest, by rw [← hCut, ← hSplit], hLead, hNonempty, hFree, hStops, hLeft⟩

/-- A field is free of separators. -/
theorem not_separator_of_fields_eq_cons (h : fields separator t = field :: fieldsLeft) {c : Char}
    (hc : c ∈ field) : separator c = false := by
  obtain ⟨-, -, -, -, -, hFree, -⟩ := fields_eq_cons h
  exact hFree c hc

/-- A field that has none of the wider class of separators in it is also the
first field to the wider reader. -/
theorem fields_cons_of_wider (hWider : ∀ c, separator c = true → wider c = true)
    (h : fields separator t = field :: fieldsLeft) (hFree : ∀ c ∈ field, wider c = false) :
    ∃ rest, fields separator rest = fieldsLeft ∧ fields wider t = field :: fields wider rest := by
  obtain ⟨s, rest, rfl, hLead, hField, -, hStops, hLeft⟩ := fields_eq_cons h
  refine ⟨rest, hLeft, ?_⟩
  rw [fields_of_all_append fun c hc => hWider c (hLead c hc),
    fields_field_append hField hFree fun c hc => hWider c (hStops c hc)]

/-- White space in front is immaterial to the fields. -/
theorem splitWhitespace_trimStart (t : Text) :
    splitWhitespace (trimStart t) = splitWhitespace t := by
  have hLead : ∀ c ∈ t.takeWhile isWhitespace, isWhitespace c = true :=
    fun c hc => List.mem_takeWhile_imp hc
  have h := fields_of_all_append hLead (trimStart t)
  rw [trimStart, List.takeWhile_append_dropWhile] at h
  exact h.symm

/-- So it is at the end. -/
theorem splitWhitespace_trimEnd (t : Text) : splitWhitespace (trimEnd t) = splitWhitespace t := by
  have hTail : ∀ c ∈ t.rtakeWhile isWhitespace, isWhitespace c = true :=
    fun c hc => List.mem_rtakeWhile_imp hc
  have h := fields_append_of_all hTail (trimEnd t)
  rw [trimEnd, List.rdropWhile_append_rtakeWhile] at h
  exact h.symm

theorem splitWhitespace_trim (t : Text) : splitWhitespace (trim t) = splitWhitespace t := by
  rw [trim, splitWhitespace_trimEnd, splitWhitespace_trimStart]

/-- And so is the carriage return of a line. -/
theorem splitWhitespace_stripCarriageReturn (t : Text) :
    splitWhitespace (stripCarriageReturn t) = splitWhitespace t := by
  unfold stripCarriageReturn
  split
  · rename_i hLast
    obtain ⟨front, rfl⟩ := List.getLast?_eq_some_iff.mp hLast
    have hTail : ∀ c ∈ ['\r'], isWhitespace c = true := fun c hc => by
      rw [List.mem_singleton.mp hc]
      rfl
    rw [List.dropLast_concat]
    exact (fields_append_of_all hTail front).symm
  · rfl

/-- A cut at the first separator. -/
theorem splitOnce_append {before after : Text} {c : Char}
    (hBefore : ∀ d ∈ before, separator d = false)
    (hc : separator c = true) :
    splitOnce separator (before ++ c :: after) = some (before, after) := by
  have hFree : ∀ d ∈ before, (!separator d) = true := fun d hd => by rw [hBefore d hd]; rfl
  have hDrop : (before ++ c :: after).dropWhile (fun c => !separator c) = c :: after := by
    rw [List.dropWhile_append_of_pos hFree, List.dropWhile_cons_of_neg (by simp [hc])]
  have hTake : (before ++ c :: after).takeWhile (fun c => !separator c) = before := by
    rw [List.takeWhile_append_of_pos hFree,
      List.takeWhile_cons_of_neg (by simp [hc]), List.append_nil]
  rw [splitOnce, hDrop, hTake]

/-- Without a separator there is no cut. -/
theorem splitOnce_of_free (h : ∀ c ∈ t, separator c = false) : splitOnce separator t = none := by
  have hDrop : t.dropWhile (fun c => !separator c) = [] := by
    rw [List.dropWhile_eq_nil_iff]
    intro c hc
    rw [h c hc]
    rfl
  rw [splitOnce, hDrop]

theorem mem_of_splitOnce {before after : Text} (h : splitOnce separator t = some (before, after))
    {c : Char}
    (hc : c ∈ after) : c ∈ t := by
  rw [splitOnce] at h
  split at h
  · cases h
  · rename_i d rest hRest
    cases h
    apply (List.dropWhile_suffix _).subset
    rw [hRest]
    exact List.mem_cons_of_mem d hc

/-- A text is free of separators or has a first one. -/
theorem free_or_cut (separator : Char → Bool) (t : Text) :
    (∀ c ∈ t, separator c = false) ∨ ∃ before c after,
      t = before ++ c :: after ∧ separator c = true ∧ ∀ d ∈ before, separator d = false := by
  induction t with
  | nil => simp
  | cons c t ih =>
      cases hc : separator c with
      | true => exact .inr ⟨[], c, t, rfl, hc, by simp⟩
      | false =>
          rcases ih with hFree | ⟨before, d, after, rfl, hd, hBefore⟩
          · exact .inl (List.forall_mem_cons.mpr ⟨hc, hFree⟩)
          · exact .inr ⟨c :: before, d, after, rfl, hd, List.forall_mem_cons.mpr ⟨hc, hBefore⟩⟩

/-- A text starts with a word, perhaps an empty one, up to the first separator. -/
theorem exists_word (separator : Char → Bool) (t : Text) : ∃ word more, t = word ++ more ∧
    (∀ c ∈ word, separator c = false) ∧ ∀ c ∈ more.head?, separator c = true := by
  rcases free_or_cut separator t with hFree | ⟨word, c, after, ht, hc, hWord⟩
  · exact ⟨t, [], (List.append_nil t).symm, hFree, fun c hc => by cases hc⟩
  · refine ⟨word, c :: after, ht, hWord, ?_⟩
    intro d hd
    cases hd
    exact hc

/-- A cut at the last separator. -/
theorem rsplitOnce_append {before after : Text} {c : Char} (hc : separator c = true)
    (hAfter : ∀ d ∈ after, separator d = false) :
    rsplitOnce separator (before ++ c :: after) = some (before, after) := by
  have hReverse : (before ++ c :: after).reverse = after.reverse ++ c :: before.reverse := by simp
  have hFree : ∀ d ∈ after.reverse, separator d = false :=
    fun d hd => hAfter d (List.mem_reverse.mp hd)
  rw [rsplitOnce, hReverse, splitOnce_append hFree hc]
  simp

theorem rsplitOnce_of_free (h : ∀ c ∈ t, separator c = false) : rsplitOnce separator t = none := by
  rw [rsplitOnce, splitOnce_of_free fun c hc => h c (List.mem_reverse.mp hc)]
  rfl

/-- A text is free of separators or has a last one. -/
theorem free_or_last_cut (separator : Char → Bool) (t : Text) :
    (∀ c ∈ t, separator c = false) ∨ ∃ before c after,
      t = before ++ c :: after ∧ separator c = true ∧ ∀ d ∈ after, separator d = false := by
  rcases free_or_cut separator t.reverse with hFree | ⟨after, c, before, hReverse, hc, hAfter⟩
  · exact .inl fun c hc => hFree c (List.mem_reverse.mpr hc)
  · refine .inr ⟨before.reverse, c, after.reverse, ?_, hc, fun d hd =>
      hAfter d (List.mem_reverse.mp hd)⟩
    rw [← List.reverse_reverse t, hReverse]
    simp

end Text
