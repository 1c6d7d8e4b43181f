import MayflyHelper.Text.Basic

/-! Decimal numerals with an overflow check, against their value. -/
namespace Text

variable {bound n m value : Nat} {t : Text}

theorem le_of_decimalValue (h : decimalValue value t = some n) : value ≤ n := by
  induction t generalizing value with
  | nil =>
      simp only [decimalValue, List.foldlM_nil, Option.pure_def, Option.some.injEq] at h
      exact h.le
  | cons c rest ih =>
      rw [decimalValue, List.foldlM_cons] at h
      cases hDigit : digitValue c with
      | none => simp [hDigit] at h
      | some digit =>
          simp only [hDigit, Option.map_some, Option.bind_eq_bind, Option.bind_some] at h
          have := ih h
          omega

/-- The check at every digit is a check of the whole value, since the value
read so far only grows. -/
theorem parseDigits_eq_some (hValue : value < bound) :
    parseDigits bound value t = some n ↔ decimalValue value t = some n ∧ n < bound := by
  induction t generalizing value with
  | nil =>
      simp only [parseDigits, decimalValue, List.foldlM_nil, Option.pure_def, Option.some.injEq]
      constructor
      · rintro rfl
        exact ⟨rfl, hValue⟩
      · exact And.left
  | cons c rest ih =>
      rw [parseDigits, decimalValue, List.foldlM_cons]
      cases hDigit : digitValue c with
      | none =>
          simp only [Option.bind_eq_bind, Option.bind_none, Option.map_none, Option.bind_fun_none]
          simp
      | some digit =>
          simp only [Option.bind_eq_bind, Option.bind_some, Option.map_some]
          by_cases hNext : value * 10 + digit < bound
          · have hScaled : value * 10 < bound := by omega
            simp only [checked, if_pos hScaled, if_pos hNext, Option.bind_some]
            exact ih hNext
          · have hFails : ((checked bound (value * 10)).bind fun scaled =>
                (checked bound (scaled + digit)).bind fun next => parseDigits bound next rest) =
                  none := by
              by_cases hScaled : value * 10 < bound
              · simp [checked, hScaled, hNext]
              · simp [checked, hScaled]
            rw [hFails]
            simp only [reduceCtorEq, false_iff, not_and]
            intro hRest
            have := le_of_decimalValue hRest
            omega

theorem decimalValue_plus (rest : Text) : decimalValue value ('+' :: rest) = none := rfl

/-- `str::parse` accepts exactly the numerals below the bound. -/
theorem parseUnsigned_eq_some (hBound : 0 < bound) :
    parseUnsigned bound t = some n ↔ IsNumeralOf t n ∧ n < bound := by
  unfold IsNumeralOf
  fun_cases parseUnsigned bound t with
  | case1 => simp
  | case2 =>
      simp only [reduceCtorEq, false_iff, not_and]
      rintro ⟨digits, rfl | hSign, hDigits, hParses⟩
      · simp [decimalValue_plus] at hParses
      · simp only [List.cons.injEq, true_and] at hSign
        exact absurd hSign.symm hDigits
  | case3 digits hDigits =>
      rw [parseDigits_eq_some hBound]
      have hNonempty : digits ≠ [] := by
        rintro rfl
        exact hDigits rfl
      refine and_congr_left fun _ => ⟨fun h => ⟨digits, Or.inr rfl, hNonempty, h⟩, ?_⟩
      rintro ⟨found, rfl | hSign, -, hParses⟩
      · simp [decimalValue_plus] at hParses
      · cases hSign
        exact hParses
  | case4 _ hNonempty _ hSign =>
      rw [parseDigits_eq_some hBound]
      refine and_congr_left fun _ => ⟨fun h => ⟨t, Or.inl rfl, hNonempty, h⟩, ?_⟩
      rintro ⟨found, rfl | rfl, hFound, hParses⟩
      · exact hParses
      · exact (hSign found rfl).elim

end Text
