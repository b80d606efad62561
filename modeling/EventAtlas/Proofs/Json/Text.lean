import EventAtlas.Json.Printer
import EventAtlas.Proofs.Json.Grammar

namespace EventAtlas.Json

/-- Whether a character of a string is written by its number: a control without a letter of its own. -/
def writtenByNumber (c : Char) : Bool :=
  c.toNat < 0x20 && !(['\n', '\r', '\t', Char.ofNat 8, Char.ofNat 12].contains c)

/-- The piece that a character of a string is written as. -/
def pieceOf (c : Char) : Piece := if writtenByNumber c then .unit c.toNat else .char c

/-- What becomes of a character in a string: a pair with a backslash, a number, or itself. -/
theorem escapeChar_cases (c : Char) :
    (∃ e, escapeChar c = ['\\', e] ∧ e ≠ 'u' ∧ e ≠ '\n' ∧ unescape? e = some c ∧ pieceOf c = .char c) ∨
    (escapeChar c = ['\\', 'u', '0', '0', hexDigit (c.toNat / 16), hexDigit (c.toNat % 16)] ∧
      c.toNat < 0x20 ∧ pieceOf c = .unit c.toNat) ∨
    (escapeChar c = [c] ∧ c ≠ '"' ∧ c ≠ '\\' ∧ ¬c.toNat < 0x20 ∧ pieceOf c = .char c) := by
  unfold escapeChar
  split
  · exact .inl ⟨'"', by decide⟩
  · exact .inl ⟨'\\', by decide⟩
  · exact .inl ⟨'n', by decide⟩
  · exact .inl ⟨'r', by decide⟩
  · exact .inl ⟨'t', by decide⟩
  · rename_i hquote hbackslash hnewline hreturn htab
    have hchar (n : Nat) (h : c.toNat = n) : c = Char.ofNat n := by rw [← h, Char.ofNat_toNat]
    split_ifs with hback hfeed hcontrol
    · rw [hchar 8 hback]
      exact .inl ⟨'b', by decide⟩
    · rw [hchar 12 hfeed]
      exact .inl ⟨'f', by decide⟩
    · have hb : c ≠ Char.ofNat 8 := by
        rintro rfl
        exact hback rfl
      have hf : c ≠ Char.ofNat 12 := by
        rintro rfl
        exact hfeed rfl
      have hnumber : writtenByNumber c = true := by
        simp [writtenByNumber, hcontrol, hb, hf, show c ≠ '\n' from hnewline, show c ≠ '\r' from hreturn,
          show c ≠ '\t' from htab]
      exact .inr (.inl ⟨rfl, hcontrol, if_pos hnumber⟩)
    · exact .inr (.inr ⟨rfl, hquote, hbackslash, hcontrol, by simp [pieceOf, writtenByNumber, hcontrol]⟩)

private theorem hex4?_control : ∀ n < 0x20, hex4? '0' '0' (hexDigit (n / 16)) (hexDigit (n % 16)) = some n := by
  decide

private theorem pieceText_escapeChar (c : Char) : PieceText (pieceOf c) (escapeChar c) := by
  obtain ⟨e, hescape, -, -, hmeant, hpiece⟩ | ⟨hescape, hcontrol, hpiece⟩ |
    ⟨hescape, hquote, hbackslash, hcontrol, hpiece⟩ := escapeChar_cases c
  · rw [hescape, hpiece]
    exact .escape hmeant
  · rw [hescape, hpiece]
    exact .unit (hex4?_control c.toNat hcontrol)
  · rw [hescape, hpiece]
    exact .plain hquote hbackslash hcontrol

private theorem piecesText_escaped (s : List Char) : PiecesText (s.map pieceOf) (s.flatMap escapeChar) := by
  induction s with
  | nil => exact .nil
  | cons c s ih =>
    rw [List.map_cons, List.flatMap_cons]
    exact .cons (pieceText_escapeChar c) ih

/-- A character written by its number is below the halves of a pair, so it stands for itself. -/
theorem decoded_pieceOf (s : List Char) : Decoded (s.map pieceOf) s := by
  induction s with
  | nil => exact .nil
  | cons c s ih =>
    rw [List.map_cons, pieceOf]
    split_ifs with hnumber
    · simp only [writtenByNumber, Bool.and_eq_true, decide_eq_true_eq] at hnumber
      have hlow : isLowHalf c.toNat = false := by
        simp only [isLowHalf, Bool.and_eq_false_iff, decide_eq_false_iff_not]
        omega
      have hhigh : isHighHalf c.toNat = false := by
        simp only [isHighHalf, Bool.and_eq_false_iff, decide_eq_false_iff_not]
        omega
      have hunit := ih.unit hlow hhigh
      rwa [Char.ofNat_toNat] at hunit
    · exact ih.char c

/-- A quoted string is a text of the string. -/
theorem stringText_quote (s : String) : StringText (some s) (quote s) := by
  have htext := StringText.some (piecesText_escaped s.toList) (decoded_pieceOf s.toList)
  rwa [String.ofList_toList] at htext

theorem newline_not_mem_quote (s : String) : '\n' ∉ quote s := by
  have hdigit : ∀ n < 16, hexDigit n ≠ '\n' := by decide
  have hescape (c : Char) : '\n' ∉ escapeChar c := by
    obtain ⟨e, hescape, -, he, -⟩ | ⟨hescape, hcontrol, -⟩ | ⟨hescape, -, -, hcontrol, -⟩ := escapeChar_cases c
    · simp [hescape, Ne.symm he]
    · have hfirst := hdigit (c.toNat / 16) (by omega)
      have hsecond := hdigit (c.toNat % 16) (by omega)
      simp [hescape, hfirst.symm, hsecond.symm]
    · have hc : c ≠ '\n' := by
        rintro rfl
        exact hcontrol (by decide)
      simp [hescape, hc.symm]
  simp [quote, hescape]

private theorem head_toDigits_ne_zero {n : Nat} (h : 0 < n) : (Nat.toDigits 10 n).head? ≠ some '0' := by
  induction n using Nat.strongRecOn with
  | ind n ih =>
    by_cases hsmall : n < 10
    · have hdigit : ∀ m < 10, 0 < m → Nat.digitChar m ≠ '0' := by decide
      rw [Nat.toDigits_of_lt_base hsmall]
      simpa using hdigit n hsmall h
    · have hlead := ih (n / 10) (by omega) (by omega)
      obtain ⟨c, digits, hdigits⟩ := List.exists_cons_of_ne_nil (Nat.toDigits_ne_nil (n := n / 10) (b := 10))
      rw [Nat.toDigits_of_base_le (by decide) (by omega), hdigits]
      rw [hdigits] at hlead
      exact hlead

theorem isDigit_of_mem_numeral {n : Nat} {c : Char} (h : c ∈ numeral n) : c.isDigit = true :=
  Nat.isDigit_of_mem_toDigits (by decide) (by decide) h

theorem numberText_numeral (n : Nat) : NumberText (nat n) (numeral n) := by
  have hdigits : IsDigits (numeral n) := ⟨Nat.toDigits_ne_nil, fun _ => isDigit_of_mem_numeral⟩
  have hzero (h : (numeral n).head? = some '0') : numeral n = ['0'] := by
    obtain rfl | hpos := Nat.eq_zero_or_pos n
    · rfl
    · exact absurd h (head_toDigits_ne_zero hpos)
  have hvalue : Text.digitsValue (numeral n) = n := Nat.ofDigitChars_toDigits (by decide) (by decide)
  have htext := NumberText.nat ⟨hdigits, hzero⟩
  rwa [hvalue] at htext

end EventAtlas.Json
