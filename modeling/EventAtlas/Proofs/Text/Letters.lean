import EventAtlas.Text.Blank
import EventAtlas.Text.Folding
import EventAtlas.Text.Word
import Mathlib.Data.List.Basic

namespace EventAtlas.Text

/-- A character of ASCII has what all of them are seen to have. -/
theorem of_ascii {P : Char → Prop} (h : ∀ n < 128, P (Char.ofNat n)) {c : Char} (hc : c.toNat < 128) : P c := by
  have hchar := h c.toNat hc
  rwa [Char.ofNat_toNat] at hchar

/-- The two signs that fold to a letter of ASCII: the long s and the Kelvin sign. -/
def foldedSigns : List Char := ['\u017f', '\u212a']

/-- Whether a row moves its characters to characters above ASCII. -/
def ShiftRow.staysAbove (row : ShiftRow) : Bool :=
  decide (128 ≤ row.first + row.shift ∧ (row.last + row.shift < 0xd800 ∨
    0xdfff < row.first + row.shift ∧ row.last + row.shift < 0x110000))

private theorem foldingRows_staysAbove :
    (foldingRows.all fun row => row.staysAbove || foldedSigns.any fun c =>
      row.first == c.toNat && row.last == c.toNat) = true := by
  decide +kernel

theorem ShiftRow.le_toNat_of_staysAbove {row : ShiftRow} (h : row.staysAbove = true) {n : Nat}
    (hn : row.covers n = true) : 128 ≤ (Char.ofNat (n + row.shift).toNat).toNat := by
  simp only [staysAbove, decide_eq_true_eq] at h
  simp only [covers, Bool.and_eq_true, decide_eq_true_eq] at hn
  have hvalid : Nat.isValidChar (n + row.shift).toNat := by
    unfold Nat.isValidChar
    omega
  have hchar : (Char.ofNat (n + row.shift).toNat).toNat = (n + row.shift).toNat := by
    rw [Char.ofNat, dif_pos hvalid]
    exact UInt32.toNat_ofNatLT
  omega

/-- Besides ASCII only two signs fold to ASCII. -/
theorem ascii_of_fold {c : Char} (h : (fold c).toNat < 128) : c.toNat < 128 ∨ c ∈ foldedSigns := by
  unfold fold at h
  split_ifs at h with hc
  · exact .inl hc
  · right
    unfold shifted at h
    cases hrow : foldingRows.find? (·.covers c.toNat) with
    | none =>
      simp only [hrow] at h
      exact absurd h hc
    | some row =>
      simp only [hrow] at h
      have hcovers : row.covers c.toNat = true := List.find?_some (p := fun row : ShiftRow => row.covers c.toNat) hrow
      have hall := List.all_eq_true.mp foldingRows_staysAbove row (List.mem_of_find?_eq_some hrow)
      rcases Bool.or_eq_true_iff.mp hall with habove | hsign
      · have := ShiftRow.le_toNat_of_staysAbove habove hcovers
        omega
      · obtain ⟨sign, hsign, hrange⟩ := List.any_eq_true.mp hsign
        simp only [ShiftRow.covers, Bool.and_eq_true, decide_eq_true_eq, beq_iff_eq] at hcovers hrange
        have heq : c = sign := Char.toNat_inj.mp (by omega)
        rwa [heq]

theorem ascii_of_isAlphanum {c : Char} (h : c.isAlphanum = true) : c.toNat < 128 := by
  unfold Char.isAlphanum Char.isAlpha Char.isUpper Char.isLower Char.isDigit at h
  simp only [Bool.or_eq_true, Bool.and_eq_true, decide_eq_true_eq, ge_iff_le, UInt32.le_iff_toNat_le] at h
  change c.val.toNat < 128
  have hlast : 'Z'.val.toNat < 128 ∧ 'z'.val.toNat < 128 ∧ '9'.val.toNat < 128 := by decide
  omega

theorem ascii_of_isNameStart {c : Char} (h : isNameStart c = true) : c.toNat < 128 := by
  rw [isNameStart, Bool.or_eq_true, beq_iff_eq] at h
  rcases h with halpha | rfl
  · exact ascii_of_isAlphanum (by simp [Char.isAlphanum, halpha])
  · decide

/-- Folding leaves the characters of ASCII there and keeps their kind. What starts a name is a word character. -/
theorem fold_ascii : ∀ n < 128,
    (fold (Char.ofNat n)).toNat < 128 ∧ isNameStart (fold (Char.ofNat n)) = isNameStart (Char.ofNat n) ∧
      isWord (fold (Char.ofNat n)) = isWord (Char.ofNat n) ∧
      (isNameStart (Char.ofNat n) = true → isWord (Char.ofNat n) = true) := by
  decide +kernel

theorem isWord_of_isNameStart {c : Char} (h : isNameStart c = true) : isWord c = true :=
  of_ascii (P := fun c => isNameStart c = true → isWord c = true) (fun n hn => (fold_ascii n hn).2.2.2)
    (ascii_of_isNameStart h) h

/-- What starts a name in any case. -/
theorem isNameStart_of_fold {c : Char} (h : isNameStart (fold c) = true) :
    isNameStart c = true ∨ c ∈ foldedSigns := by
  rcases ascii_of_fold (ascii_of_isNameStart h) with hc | hsign
  · left
    have hstarts := of_ascii (P := fun d => isNameStart (fold d) = isNameStart d) (fun n hn => (fold_ascii n hn).2.1) hc
    rwa [← hstarts]
  · exact .inr hsign

private theorem foldedSigns_isWord : foldedSigns.all isWord = true := by
  decide +kernel

/-- What is the same letter as a word character of ASCII is a word character. -/
theorem isWord_of_sameLetter {c d : Char} (hc : c.toNat < 128) (hword : isWord c = true)
    (h : sameLetter c d = true) : isWord d = true := by
  have hfold : fold c = fold d := beq_iff_eq.mp h
  have hascii {e : Char} (he : e.toNat < 128) : isWord (fold e) = isWord e :=
    of_ascii (P := fun e => isWord (fold e) = isWord e) (fun n hn => (fold_ascii n hn).2.2.1) he
  have hsmall : (fold d).toNat < 128 := by
    rw [← hfold]
    exact of_ascii (P := fun e => (fold e).toNat < 128) (fun n hn => (fold_ascii n hn).1) hc
  rcases ascii_of_fold hsmall with hd | hsign
  · rw [← hascii hd, ← hfold, hascii hc, hword]
  · exact List.all_eq_true.mp foldedSigns_isWord d hsign

/-- The code points of white space. -/
def blankCodes : List Nat :=
  [9, 10, 11, 12, 13, 0x20, 0x85, 0xa0, 0x1680, 0x2000, 0x2001, 0x2002, 0x2003, 0x2004, 0x2005, 0x2006, 0x2007,
    0x2008, 0x2009, 0x200a, 0x2028, 0x2029, 0x202f, 0x205f, 0x3000]

private theorem toNat_mem_blankCodes {c : Char} (h : isBlank c = true) : c.toNat ∈ blankCodes := by
  simp only [isBlank, Bool.or_eq_true, Bool.and_eq_true, decide_eq_true_eq, beq_iff_eq] at h
  simp only [blankCodes, List.mem_cons, List.not_mem_nil, or_false]
  omega

private theorem blankCodes_not_isWord : (blankCodes.all fun n => !isWord (Char.ofNat n)) = true := by
  decide +kernel

theorem isWord_of_isBlank {c : Char} (h : isBlank c = true) : isWord c = false := by
  have hcode := List.all_eq_true.mp blankCodes_not_isWord _ (toNat_mem_blankCodes h)
  rwa [Char.ofNat_toNat, Bool.not_eq_true'] at hcode

theorem isBlank_of_isWord {x : Char} (h : isWord x = true) : isBlank x = false := by
  by_contra hblank
  rw [isWord_of_isBlank (Bool.not_eq_false _ ▸ hblank)] at h
  exact Bool.noConfusion h

end EventAtlas.Text
