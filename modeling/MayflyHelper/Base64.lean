import MayflyHelper.Ssh.TrustedCa
import MayflyHelper.Text.Base64
import MayflyHelper.Text.Utf8

/-! Base64 words: letters, then padding to a multiple of four. The check of the
key field, which counts padding from the end and looks at every byte by its
index, accepts exactly these, and these are the encodings of bytes up to the
bits an encoding leaves unused. -/
namespace MayflyHelper

namespace Grammar

/-- One of `A-Z a-z 0-9 + /`. -/
def isBase64Letter (c : Char) : Bool :=
  let n := c.toNat
  (0x41 ≤ n && n ≤ 0x5a) || (0x61 ≤ n && n ≤ 0x7a) || (0x30 ≤ n && n ≤ 0x39) || n == 0x2b ||
    n == 0x2f

/-- A nonempty word of base64 letters, padded to a multiple of four. -/
def IsBase64Word (s : Text) : Prop :=
  ∃ body padding, s = body ++ List.replicate padding '=' ∧ padding ≤ 2 ∧ body ≠ [] ∧
    (∀ c ∈ body, isBase64Letter c = true) ∧ s.length % 4 = 0

theorem ascii_of_letter {c : Char} (h : isBase64Letter c = true) : c.toNat < 0x80 := by
  simp only [isBase64Letter, Bool.or_eq_true, Bool.and_eq_true, decide_eq_true_eq, beq_iff_eq] at h
  omega

theorem isBase64Char_ofNat {c : Char} (h : c.toNat < 0x80) :
    isBase64Char (UInt8.ofNat c.toNat) = isBase64Letter c := by
  have hByte : (UInt8.ofNat c.toNat).toNat = c.toNat := by
    rw [UInt8.toNat_ofNat']
    exact Nat.mod_eq_of_lt (by omega)
  rw [Bool.eq_iff_iff]
  simp only [isBase64Char, isBase64Letter, Bool.or_eq_true, Bool.and_eq_true,
    decide_eq_true_eq, beq_iff_eq,
    UInt8.le_iff_toNat_le, ← UInt8.toNat_inj, hByte]
  simp only [UInt8.reduceToNat]
  omega

/-- The check by index, as the two parts it checks. -/
theorem all_zipIdx_iff (bytes : Bytes) (bodyLen : Nat) :
    (bytes.zipIdx.all fun entry =>
      if entry.2 ≥ bodyLen then entry.1 == paddingByte else isBase64Char entry.1) = true ↔
      (∀ b ∈ bytes.take bodyLen, isBase64Char b = true) ∧ ∀ b ∈ bytes.drop bodyLen,
        b = paddingByte := by
  rw [List.all_eq_true]
  constructor
  · intro h
    constructor
    · intro b hb
      obtain ⟨i, hi, rfl⟩ := List.mem_take_iff_getElem.mp hb
      have hAt := h (bytes[i], i) (List.mk_mem_zipIdx_iff_getElem?.mpr (List.getElem?_eq_getElem _))
      rwa [if_neg (by simp only [ge_iff_le]; omega)] at hAt
    · intro b hb
      obtain ⟨i, hi, rfl⟩ := List.mem_drop_iff_getElem.mp hb
      have hAt := h (bytes[bodyLen + i], bodyLen + i)
        (List.mk_mem_zipIdx_iff_getElem?.mpr (List.getElem?_eq_getElem _))
      rw [if_pos (by simp only [ge_iff_le]; omega)] at hAt
      exact beq_iff_eq.mp hAt
  · rintro ⟨hBody, hPadding⟩ ⟨b, i⟩ hMem
    obtain ⟨hi, rfl⟩ := List.getElem?_eq_some_iff.mp (List.mk_mem_zipIdx_iff_getElem?.mp hMem)
    dsimp only
    split
    · rename_i hLate
      rw [beq_iff_eq]
      exact hPadding _ (List.mem_drop_iff_getElem.mpr ⟨i - bodyLen, by omega, by congr 1; omega⟩)
    · rename_i hEarly
      exact hBody _ (List.mem_take_iff_getElem.mpr ⟨i, by omega, rfl⟩)

theorem low_of_base64Char {b : UInt8} (h : isBase64Char b = true) : b < 0x80 ∧ b ≠ paddingByte := by
  simp only [isBase64Char, paddingByte, Bool.or_eq_true, Bool.and_eq_true,
    decide_eq_true_eq, beq_iff_eq,
    UInt8.le_iff_toNat_le, UInt8.lt_iff_toNat_lt, Ne, ← UInt8.toNat_inj, UInt8.reduceToNat] at h ⊢
  omega

/-- No more padding is counted than there are bytes. -/
theorem padding_le (bytes : Bytes) :
    (bytes.reverse.takeWhile (· == paddingByte)).length ≤ bytes.length := by
  calc ((bytes.reverse.takeWhile (· == paddingByte)).length)
    _ ≤ bytes.reverse.length := (List.takeWhile_prefix _).length_le
    _ = bytes.length := List.length_reverse

/-- Letters stop the count of the padding. -/
theorem takeWhile_padding {letters : Bytes} (h : ∀ b ∈ letters, isBase64Char b = true)
    (padding : Nat) :
    ((letters ++ List.replicate padding paddingByte).reverse.takeWhile (· == paddingByte)).length =
      padding := by
  have hStop : letters.reverse.takeWhile (· == paddingByte) = [] := by
    rw [List.takeWhile_eq_nil_iff]
    intro hLength hFirst
    have hMem := List.mem_reverse.mp (List.getElem_mem hLength)
    exact (low_of_base64Char (h _ hMem)).2 (beq_iff_eq.mp hFirst)
  rw [List.reverse_append, List.reverse_replicate, List.takeWhile_append_of_pos, hStop]
  · simp
  · intro b hb
    exact beq_iff_eq.mpr (List.eq_of_mem_replicate hb)

theorem isBase64Word_of_valid {s : Text} (h : isValidBase64 s = true) : IsBase64Word s := by
  unfold isValidBase64 at h
  dsimp only at h
  split at h
  · cases h
  rename_i hShape
  split at h
  · cases h
  rename_i hPadding
  rw [Bool.and_eq_true, all_zipIdx_iff, decide_eq_true_eq] at h
  generalize hCount : ((Text.asBytes s).reverse.takeWhile (· == paddingByte)).length =
    padding at h hPadding
  obtain ⟨⟨hBody, hTail⟩, hPos⟩ := h
  have hLow : ∀ b ∈ Text.asBytes s, b < 0x80 := by
    intro b hb
    rw [← List.take_append_drop ((Text.asBytes s).length - padding) (Text.asBytes s)] at hb
    rcases List.mem_append.mp hb with hb | hb
    · exact (low_of_base64Char (hBody b hb)).1
    · rw [hTail b hb]
      decide
  have hAscii := Text.ascii_of_low hLow
  have hBytes := Text.asBytes_of_ascii hAscii
  have hLength : (Text.asBytes s).length = s.length := by rw [hBytes, List.length_map]
  have hWithin : padding ≤ s.length := by
    rw [← hLength, ← hCount]
    exact padding_le (Text.asBytes s)
  rw [hLength] at hBody hTail hPos hShape
  rw [hBytes] at hBody hTail
  have hMultiple : s ≠ [] ∧ s.length % 4 = 0 := by simpa using hShape
  refine ⟨s.take (s.length - padding), padding, ?_, by omega, ?_, ?_, hMultiple.2⟩
  · have hEquals : s.drop (s.length - padding) = List.replicate padding '=' := by
      rw [List.eq_replicate_iff]
      refine ⟨by rw [List.length_drop]; omega, fun c hc => ?_⟩
      have hByte := hTail (UInt8.ofNat c.toNat) (by
        rw [← List.map_drop]
        exact List.mem_map_of_mem hc)
      have hc := hAscii c (List.mem_of_mem_drop hc)
      have hNat := congrArg UInt8.toNat hByte
      rw [UInt8.toNat_ofNat', Nat.mod_eq_of_lt (by omega)] at hNat
      exact Char.toNat_inj.mp hNat
    rw [← hEquals, List.take_append_drop]
  · intro hNil
    have := congrArg List.length hNil
    rw [List.length_take, List.length_nil] at this
    omega
  · intro c hc
    rw [← isBase64Char_ofNat (hAscii c (List.mem_of_mem_take hc))]
    refine hBody _ ?_
    rw [← List.map_take]
    exact List.mem_map_of_mem hc

theorem valid_of_isBase64Word {s : Text} (h : IsBase64Word s) : isValidBase64 s = true := by
  obtain ⟨body, padding, rfl, hPadding, hBody, hLetters, hLength⟩ := h
  have hAscii : ∀ c ∈ body ++ List.replicate padding '=', c.toNat < 0x80 := by
    intro c hc
    rcases List.mem_append.mp hc with hc | hc
    · exact ascii_of_letter (hLetters c hc)
    · rw [List.eq_of_mem_replicate hc]
      decide
  have hBytes : Text.asBytes (body ++ List.replicate padding '=') =
      body.map (fun c => UInt8.ofNat c.toNat) ++ List.replicate padding paddingByte := by
    rw [Text.asBytes_of_ascii hAscii, List.map_append, List.map_replicate]
    rfl
  have hChars : ∀ b ∈ body.map (fun c => UInt8.ofNat c.toNat), isBase64Char b = true := by
    intro b hb
    obtain ⟨c, hc, rfl⟩ := List.mem_map.mp hb
    rw [isBase64Char_ofNat (ascii_of_letter (hLetters c hc)), hLetters c hc]
  have hPositive : 0 < body.length := List.length_pos_iff.mpr hBody
  unfold isValidBase64
  simp only [hBytes, takeWhile_padding hChars]
  rw [if_neg, if_neg (by omega), Bool.and_eq_true, all_zipIdx_iff, decide_eq_true_eq]
  · have hCut :
        (body.map (fun c => UInt8.ofNat c.toNat) ++ List.replicate padding paddingByte).length -
        padding = (body.map (fun c => UInt8.ofNat c.toNat)).length := by simp
    rw [hCut, List.take_left, List.drop_left]
    exact ⟨⟨hChars, fun b hb => List.eq_of_mem_replicate hb⟩, by simpa using hPositive⟩
  · simpa [hBody] using hLength

set_option maxRecDepth 4000 in
theorem isBase64Letter_iff (c : Char) : isBase64Letter c = true ↔ c ∈ Base64.alphabet := by
  constructor
  · intro h
    have hLow : ∀ n < 0x80, isBase64Letter (Char.ofNat n) = true →
      Char.ofNat n ∈ Base64.alphabet := by decide
    have hLetter := hLow c.toNat (ascii_of_letter h)
    rw [Char.ofNat_toNat] at hLetter
    exact hLetter h
  · have hAll : Base64.alphabet.all isBase64Letter = true := by decide
    exact List.all_eq_true.mp hAll c

theorem isBase64Word_iff (s : Text) : IsBase64Word s ↔ s ≠ [] ∧ Base64.Padded s := by
  constructor
  · rintro ⟨body, padding, rfl, hPadding, hBody, hLetters, hLength⟩
    refine ⟨by simp [hBody], body, padding, rfl, hPadding, fun c hc => ?_, hLength⟩
    exact (isBase64Letter_iff c).mp (hLetters c hc)
  · rintro ⟨hNonempty, body, padding, rfl, hPadding, hLetters, hLength⟩
    refine ⟨body, padding, rfl, hPadding, ?_, fun c hc =>
      (isBase64Letter_iff c).mpr (hLetters c hc), hLength⟩
    rintro rfl
    rw [List.nil_append, List.length_replicate] at hLength
    have hNone : padding = 0 := by omega
    exact hNonempty (by rw [hNone]; rfl)

/-- The check accepts what matches the encoding of some bytes, and the length
it subtracts is never longer than the word. -/
theorem isValidBase64_iff_matches (s : Text) :
    (isValidBase64 s = true ↔ ∃ bytes, bytes ≠ [] ∧ Base64.Matches (Base64.encode bytes) s) ∧
      ((Text.asBytes s).reverse.takeWhile (· == paddingByte)).length ≤ (Text.asBytes s).length := by
  constructor
  · rw [Base64.exists_matches_iff, ← isBase64Word_iff]
    exact ⟨isBase64Word_of_valid, valid_of_isBase64Word⟩
  · exact padding_le (Text.asBytes s)

theorem not_whitespace_of_graphic {c : Char} (hLow : 0x20 < c.toNat) (hHigh : c.toNat < 0x7f) :
    Text.isWhitespace c = false := by
  simp only [Text.isWhitespace, Bool.or_eq_false_iff, Bool.and_eq_false_iff,
    decide_eq_false_iff_not,
    beq_eq_false_iff_ne]
  omega

theorem IsBase64Word.graphic {s : Text} (h : IsBase64Word s) :
    ∀ c ∈ s, 0x20 < c.toNat ∧ c.toNat < 0x7f := by
  obtain ⟨body, padding, rfl, -, -, hLetters, -⟩ := h
  intro c hc
  rcases List.mem_append.mp hc with hc | hc
  · have hLetter := hLetters c hc
    simp only [isBase64Letter, Bool.or_eq_true, Bool.and_eq_true, decide_eq_true_eq,
      beq_iff_eq] at hLetter
    omega
  · rw [List.eq_of_mem_replicate hc]
    decide

theorem IsBase64Word.free {s : Text} (h : IsBase64Word s) :
    ∀ c ∈ s, Text.isWhitespace c = false := by
  intro c hc
  obtain ⟨hLow, hHigh⟩ := h.graphic c hc
  exact not_whitespace_of_graphic hLow hHigh

theorem IsBase64Word.ne_nil {s : Text} (h : IsBase64Word s) : s ≠ [] := by
  obtain ⟨body, padding, rfl, -, hBody, -⟩ := h
  simp [hBody]

end Grammar
end MayflyHelper
