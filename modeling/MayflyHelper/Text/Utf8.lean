import MayflyHelper.Text.Basic

/-! Bytes of text. A byte below 0x80 is always a whole character, so a byte
parser that looks for ASCII never stops inside one. -/
namespace Text

variable {c : Char} {b : UInt8}

theorem utf8EncodeChar_of_ascii (h : c.toNat < 0x80) :
    String.utf8EncodeChar c = [UInt8.ofNat c.toNat] := by
  have hSize : c.utf8Size = 1 := by
    rw [Char.utf8Size_eq_one_iff, UInt32.le_iff_toNat_le]
    exact Nat.le_of_lt_succ h
  rw [String.utf8EncodeChar_eq_singleton hSize]
  rfl

private theorem le_or_of_le {x y z : UInt8} (h : z ≤ y) : z ≤ x ||| y := by
  rw [UInt8.le_iff_toNat_le] at h ⊢
  rw [UInt8.toNat_or]
  exact h.trans Nat.right_le_or

theorem high_of_mem_utf8EncodeChar (h : 0x80 ≤ c.toNat) (hb : b ∈ String.utf8EncodeChar c) :
    0x80 ≤ b := by
  have hNotOne : c.utf8Size ≠ 1 := by
    rw [Ne, Char.utf8Size_eq_one_iff, UInt32.le_iff_toNat_le]
    intro hLow
    have : c.toNat ≤ 127 := hLow
    omega
  rcases c.utf8Size_eq with hSize | hSize | hSize | hSize
  · exact absurd hSize hNotOne
  · rw [String.utf8EncodeChar_eq_cons_cons hSize] at hb
    simp only [List.mem_cons, List.not_mem_nil, or_false] at hb
    rcases hb with rfl | rfl <;> exact le_or_of_le (by decide)
  · rw [String.utf8EncodeChar_eq_cons_cons_cons hSize] at hb
    simp only [List.mem_cons, List.not_mem_nil, or_false] at hb
    rcases hb with rfl | rfl | rfl <;> exact le_or_of_le (by decide)
  · rw [String.utf8EncodeChar_eq_cons_cons_cons_cons hSize] at hb
    simp only [List.mem_cons, List.not_mem_nil, or_false] at hb
    rcases hb with rfl | rfl | rfl | rfl <;> exact le_or_of_le (by decide)

@[simp] theorem asBytes_cons (c : Char) (t : Text) :
    asBytes (c :: t) = String.utf8EncodeChar c ++ asBytes t := rfl

/-- ASCII text has one byte for each character. -/
theorem asBytes_of_ascii {t : Text} (h : ∀ c ∈ t, c.toNat < 0x80) :
    asBytes t = t.map (fun c => UInt8.ofNat c.toNat) := by
  induction t with
  | nil => rfl
  | cons c t ih =>
      rw [asBytes_cons, utf8EncodeChar_of_ascii (h c List.mem_cons_self),
        ih fun d hd => h d (List.mem_cons_of_mem _ hd)]
      rfl

theorem ascii_of_low {t : Text} (h : ∀ b ∈ asBytes t, b < 0x80) : ∀ c ∈ t, c.toNat < 0x80 := by
  intro c hc
  by_contra hHigh
  obtain ⟨b, rest, hEncode⟩ := List.exists_cons_of_ne_nil (String.utf8EncodeChar_ne_nil (c := c))
  have hMem : b ∈ String.utf8EncodeChar c := by
    rw [hEncode]
    exact List.mem_cons_self
  have hLow := h b (List.mem_flatMap.mpr ⟨c, hc, hMem⟩)
  have hLarge := high_of_mem_utf8EncodeChar (Nat.le_of_not_lt hHigh) hMem
  exact absurd hLow (UInt8.not_lt.mpr hLarge)

end Text
