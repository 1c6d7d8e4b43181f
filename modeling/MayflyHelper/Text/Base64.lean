import MayflyHelper.Text.Basic
import Mathlib.Algebra.Group.Nat.Defs
import Mathlib.Data.List.GetD

/-! Base64 with padding: three bytes are written as four letters of six bits
each, and a last group of one or two bytes is filled up with `=`. The bits such
a group leaves over are zero in an encoding, and a reader may ignore them. -/
namespace Base64

def alphabet : Text := "ABCDEFGHIJKLMNOPQRSTUVWXYZabcdefghijklmnopqrstuvwxyz0123456789+/".toList

/-- The letter of a six-bit value. -/
def letter (value : Nat) : Char := alphabet.getD value '='

/-- The six-bit value of a letter. -/
def value (c : Char) : Nat := alphabet.idxOf c

def encode : List UInt8 → Text
  | [] => []
  | [a] => [letter (a.toNat / 4), letter (a.toNat % 4 * 16), '=', '=']
  | [a, b] =>
      [letter (a.toNat / 4), letter (a.toNat % 4 * 16 + b.toNat / 16),
        letter (b.toNat % 16 * 4), '=']
  | a :: b :: c :: rest =>
      letter (a.toNat / 4) :: letter (a.toNat % 4 * 16 + b.toNat / 16) ::
        letter (b.toNat % 16 * 4 + c.toNat / 64) :: letter (c.toNat % 64) :: encode rest

/-- The bytes of a word without its padding. -/
def decode : Text → List UInt8
  | [] => []
  | [_] => []
  | [p, q] => [.ofNat (value p * 4 + value q / 16)]
  | [p, q, r] => [.ofNat (value p * 4 + value q / 16), .ofNat (value q % 16 * 16 + value r / 4)]
  | p :: q :: r :: s :: rest =>
      .ofNat (value p * 4 + value q / 16) :: .ofNat (value q % 16 * 16 + value r / 4) ::
        .ofNat (value r % 4 * 64 + value s) :: decode rest

/-- Two letters that differ at most in their last `2 * padding` bits. -/
def SameBits (padding : Nat) (c d : Char) : Prop :=
  ∃ v w, v < 64 ∧ w < 64 ∧ c = letter v ∧ d = letter w ∧ v / 4 ^ padding = w / 4 ^ padding

/-- A word that a reader takes for the encoding: of the same length and with
as much padding, and letter for letter the same, but for the unused bits of
the last letter before the padding. -/
structure Matches (encoded s : Text) : Prop where
  length_eq : s.length = encoded.length
  count_eq : s.count '=' = encoded.count '='
  agrees : ∀ i c, encoded[i]? = some c → s[i]? = some c ∨
    i + 1 + encoded.count '=' = encoded.length ∧ ∃ d, s[i]? = some d ∧ SameBits
    (encoded.count '=') c d

/-- Letters, padded with at most two `=` to a multiple of four. -/
def Padded (s : Text) : Prop :=
  ∃ body padding, s = body ++ List.replicate padding '=' ∧ padding ≤ 2 ∧
    (∀ c ∈ body, c ∈ alphabet) ∧
    s.length % 4 = 0

theorem length_alphabet : alphabet.length = 64 := by decide

theorem letter_mem {value : Nat} (h : value < 64) : letter value ∈ alphabet := by
  rw [← length_alphabet] at h
  rw [letter, List.getD_eq_getElem _ _ h]
  exact List.getElem_mem _

theorem value_lt {c : Char} (h : c ∈ alphabet) : value c < 64 := by
  rw [← length_alphabet]
  exact List.idxOf_lt_length_of_mem h

/-- Every letter stands for its value. -/
theorem letter_value {c : Char} (h : c ∈ alphabet) : letter (value c) = c := by
  rw [letter, value, List.getD_eq_getElem _ _ (List.idxOf_lt_length_of_mem h)]
  exact List.getElem_idxOf _

theorem ne_padding {c : Char} (h : c ∈ alphabet) : c ≠ '=' := by
  rintro rfl
  revert h
  decide

/-- An encoding has its padding at the end, and at most two signs of it. -/
theorem padded_encode (bytes : List UInt8) : Padded (encode bytes) := by
  fun_induction encode bytes with
  | case1 => exact ⟨[], 0, rfl, by omega, by simp, rfl⟩
  | case2 a =>
      have ha := a.toNat_lt
      refine ⟨[letter (a.toNat / 4), letter (a.toNat % 4 * 16)], 2, rfl, by omega, ?_, by simp⟩
      simp only [List.forall_mem_cons]
      exact ⟨letter_mem (by omega), letter_mem (by omega), by simp⟩
  | case3 a b =>
      have ha := a.toNat_lt
      have hb := b.toNat_lt
      refine ⟨[letter (a.toNat / 4), letter (a.toNat % 4 * 16 + b.toNat / 16),
        letter (b.toNat % 16 * 4)], 1, rfl,
        by omega, ?_, by simp⟩
      simp only [List.forall_mem_cons]
      exact ⟨letter_mem (by omega), letter_mem (by omega), letter_mem (by omega), by simp⟩
  | case4 a b c rest ih =>
      have ha := a.toNat_lt
      have hb := b.toNat_lt
      have hc := c.toNat_lt
      obtain ⟨body, padding, hRest, hPadding, hBody, hLength⟩ := ih
      refine ⟨letter (a.toNat / 4) :: letter (a.toNat % 4 * 16 + b.toNat / 16) ::
        letter (b.toNat % 16 * 4 + c.toNat / 64) :: letter (c.toNat % 64) :: body, padding, ?_,
          hPadding, ?_, ?_⟩
      · rw [hRest]
        rfl
      · simp only [List.forall_mem_cons]
        exact ⟨letter_mem (by omega), letter_mem (by omega), letter_mem (by omega),
          letter_mem (by omega), hBody⟩
      · simp only [List.length_cons]
        omega

/-- The padding can be counted off. -/
theorem count_padded {body : Text} (h : ∀ c ∈ body, c ∈ alphabet) (padding : Nat) :
    (body ++ List.replicate padding '=').count '=' = padding := by
  have hNone : body.count '=' = 0 := List.count_eq_zero.mpr (fun hMem => ne_padding (h _ hMem) rfl)
  rw [List.count_append, hNone, List.count_replicate_self, Nat.zero_add]

/-- The letters of a match are letters, and its padding stands where that of
the encoding stands. -/
theorem Matches.padded {encoded s : Text} (h : Matches encoded s) (hEncoded : Padded encoded) :
    Padded s := by
  obtain ⟨body, padding, rfl, hPadding, hBody, hLength⟩ := hEncoded
  obtain ⟨hSame, -, hAgrees⟩ := h
  rw [count_padded hBody] at hAgrees
  rw [List.length_append, List.length_replicate] at hSame hAgrees
  refine ⟨s.take body.length, padding, ?_, hPadding, ?_, ?_⟩
  · have hTail : s.drop body.length = List.replicate padding '=' := by
      rw [List.eq_replicate_iff]
      refine ⟨by rw [List.length_drop]; omega, fun c hc => ?_⟩
      obtain ⟨i, hi, rfl⟩ := List.mem_drop_iff_getElem.mp hc
      have hPad : (body ++ List.replicate padding '=')[body.length + i]? = some '=' := by
        rw [List.getElem?_append_right (by omega), List.getElem?_replicate_of_lt (by omega)]
      rcases hAgrees _ _ hPad with hEqual | ⟨hLast, -⟩
      · rw [List.getElem?_eq_getElem (by omega), Option.some.injEq] at hEqual
        exact hEqual
      · omega
    rw [← hTail, List.take_append_drop]
  · intro c hc
    obtain ⟨i, hi, rfl⟩ := List.mem_take_iff_getElem.mp hc
    have hAt : (body ++ List.replicate padding '=')[i]? = some body[i] := by
      rw [List.getElem?_append_left (by omega), List.getElem?_eq_getElem]
    rcases hAgrees _ _ hAt with hEqual | ⟨-, d, hEqual, v, w, -, hw, -, rfl, -⟩
    · rw [List.getElem?_eq_getElem (by omega), Option.some.injEq] at hEqual
      rw [hEqual]
      exact hBody _ (List.getElem_mem _)
    · rw [List.getElem?_eq_getElem (by omega), Option.some.injEq] at hEqual
      rw [hEqual]
      exact letter_mem hw
  · rw [hSame, ← hLength, List.length_append, List.length_replicate]

theorem Matches.nil : Matches [] [] := ⟨rfl, rfl, by simp⟩

/-- A letter in front is matched by itself. -/
theorem Matches.cons {encoded s : Text} {c : Char} (hLetter : c ≠ '=') (h : Matches encoded s) :
    Matches (c :: encoded) (c :: s) := by
  obtain ⟨hLength, hCount, hAgrees⟩ := h
  refine ⟨?_, ?_, ?_⟩
  · rw [List.length_cons, List.length_cons, hLength]
  · rw [List.count_cons_of_ne hLetter, List.count_cons_of_ne hLetter, hCount]
  · rw [List.count_cons_of_ne hLetter]
    intro i d hd
    cases i with
    | zero => exact Or.inl hd
    | succ i =>
        rcases hAgrees i d hd with hEqual | ⟨hLast, hBits⟩
        · exact Or.inl hEqual
        · refine Or.inr ⟨?_, hBits⟩
          rw [List.length_cons]
          omega

/-- The last letter before the padding. -/
theorem SameBits.last {c d : Char} {padding : Nat} (h : SameBits padding c d) :
    Matches (c :: List.replicate padding '=') (d :: List.replicate padding '=') := by
  have hCount : ∀ {e : Char}, e ≠ '=' → (e :: List.replicate padding '=').count '=' = padding := by
    intro e he
    rw [List.count_cons_of_ne he, List.count_replicate_self]
  obtain ⟨v, w, hv, hw, rfl, rfl, -⟩ := id h
  have hc := hCount (ne_padding (letter_mem hv))
  have hd := hCount (ne_padding (letter_mem hw))
  refine ⟨by simp, by rw [hc, hd], ?_⟩
  rw [hc]
  intro i e he
  cases i with
  | zero =>
      cases he
      exact Or.inr ⟨by simp; omega, _, rfl, h⟩
  | succ i => exact Or.inl he

/-- The last letter is matched up to the bits that the padding leaves out. -/
theorem sameBits_letter {c : Char} (h : c ∈ alphabet) {padding bits : Nat} (hBits : bits < 64)
    (hSame : bits / 4 ^ padding = value c / 4 ^ padding) : SameBits padding (letter bits) c :=
  ⟨bits, value c, hBits, value_lt h, rfl, (letter_value h).symm, hSame⟩

theorem letter_of_value {c : Char} (h : c ∈ alphabet) {bits : Nat} (hBits : bits = value c) :
    letter bits = c := by
  rw [hBits, letter_value h]

/-- The first byte of a group of four letters does not overflow. -/
theorem first_byte {p q : Char} (hp : p ∈ alphabet) (hq : q ∈ alphabet) :
    (UInt8.ofNat (value p * 4 + value q / 16)).toNat = value p * 4 + value q / 16 := by
  have hpLt := value_lt hp
  have hqLt := value_lt hq
  apply UInt8.toNat_ofNat_of_lt
  show _ < 256
  omega

/-- Nor does the second. -/
theorem second_byte (q : Char) {r : Char} (hr : r ∈ alphabet) :
    (UInt8.ofNat (value q % 16 * 16 + value r / 4)).toNat = value q % 16 * 16 + value r / 4 := by
  have hrLt := value_lt hr
  apply UInt8.toNat_ofNat_of_lt
  show _ < 256
  omega

/-- Nor the third. -/
theorem third_byte (r : Char) {s : Char} (hs : s ∈ alphabet) :
    (UInt8.ofNat (value r % 4 * 64 + value s)).toNat = value r % 4 * 64 + value s := by
  have hsLt := value_lt hs
  apply UInt8.toNat_ofNat_of_lt
  show _ < 256
  omega

/-- Induction on the groups of four letters. -/
theorem matches_decode {body : Text} (hBody : ∀ c ∈ body, c ∈ alphabet) {padding : Nat}
    (hPadding : padding ≤ 2)
    (hLength : (body.length + padding) % 4 = 0) :
    Matches (encode (decode body)) (body ++ List.replicate padding '=') := by
  fun_induction decode body with
  | case1 =>
      have hNone : padding = 0 := by
        rw [List.length_nil] at hLength
        omega
      rw [hNone]
      exact Matches.nil
  | case2 p =>
      rw [List.length_singleton] at hLength
      omega
  | case3 p q =>
      have hTwo : padding = 2 := by
        simp only [List.length_cons, List.length_nil] at hLength
        omega
      simp only [List.forall_mem_cons] at hBody
      obtain ⟨hp, hq, -⟩ := hBody
      have hpLt := value_lt hp
      have hqLt := value_lt hq
      rw [hTwo, encode, first_byte hp hq, letter_of_value hp (by omega)]
      have hLast : (value p * 4 + value q / 16) % 4 * 16 / 4 ^ 2 = value q / 4 ^ 2 := by omega
      have hTail := (sameBits_letter hq (by omega) hLast).last
      exact hTail.cons (ne_padding hp)
  | case4 p q r =>
      have hOne : padding = 1 := by
        simp only [List.length_cons, List.length_nil] at hLength
        omega
      simp only [List.forall_mem_cons] at hBody
      obtain ⟨hp, hq, hr, -⟩ := hBody
      have hpLt := value_lt hp
      have hqLt := value_lt hq
      have hrLt := value_lt hr
      rw [hOne, encode, first_byte hp hq, second_byte q hr, letter_of_value hp (by omega),
        letter_of_value hq (by omega)]
      have hLast : (value q % 16 * 16 + value r / 4) % 16 * 4 / 4 ^ 1 = value r / 4 ^ 1 := by omega
      have hTail := (sameBits_letter hr (by omega) hLast).last
      exact hTail.cons (ne_padding hq) |>.cons (ne_padding hp)
  | case5 p q r s rest ih =>
      simp only [List.forall_mem_cons] at hBody
      obtain ⟨hp, hq, hr, hs, hRest⟩ := hBody
      have hpLt := value_lt hp
      have hqLt := value_lt hq
      have hrLt := value_lt hr
      have hsLt := value_lt hs
      rw [encode, first_byte hp hq, second_byte q hr, third_byte r hs,
        letter_of_value hp (by omega), letter_of_value hq (by omega),
        letter_of_value hr (by omega), letter_of_value hs (by omega)]
      have hLeft : (rest.length + padding) % 4 = 0 := by
        simp only [List.length_cons] at hLength
        omega
      have hTail := ih hRest hLeft
      exact hTail.cons (ne_padding hs) |>.cons (ne_padding hr) |>.cons (ne_padding hq)
        |>.cons (ne_padding hp)

theorem encode_eq_nil_iff (bytes : List UInt8) : encode bytes = [] ↔ bytes = [] := by
  fun_cases encode bytes <;> simp

/-- The nonempty padded words are those that match the encoding of some
bytes. -/
theorem exists_matches_iff (s : Text) :
    (∃ bytes, bytes ≠ [] ∧ Matches (encode bytes) s) ↔ s ≠ [] ∧ Padded s := by
  constructor
  · rintro ⟨bytes, hBytes, hMatches⟩
    refine ⟨?_, hMatches.padded (padded_encode bytes)⟩
    rintro rfl
    have hNil := List.eq_nil_of_length_eq_zero hMatches.length_eq.symm
    exact hBytes ((encode_eq_nil_iff bytes).mp hNil)
  · rintro ⟨hNonempty, body, padding, rfl, hPadding, hBody, hLength⟩
    rw [List.length_append, List.length_replicate] at hLength
    have hMatches := matches_decode hBody hPadding hLength
    refine ⟨decode body, fun hNil => ?_, hMatches⟩
    have hSame := hMatches.length_eq
    rw [hNil, encode, List.length_nil] at hSame
    exact hNonempty (List.eq_nil_of_length_eq_zero hSame)

end Base64
