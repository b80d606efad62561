import EventAtlas.Proofs.Text.Search
import EventAtlas.Timestamp
import Mathlib.Tactic.Common

namespace EventAtlas.Timestamp

open Text (digitsValue)

theorem digitsValue_padded (width n : Nat) : digitsValue (padded width n) = n := by
  have hzeros (count : Nat) (digits : List Char) :
      digitsValue (List.replicate count '0' ++ digits) = digitsValue digits := by
    induction count with
    | zero => rfl
    | succ count ih =>
      rw [← ih]
      rfl
  rw [padded, hzeros]
  exact Nat.ofDigitChars_toDigits (by decide) (by decide)

theorem isDigit_of_mem_padded {width n : Nat} {c : Char} (h : c ∈ padded width n) : c.isDigit = true := by
  rcases List.mem_append.mp h with h | h
  · rw [List.eq_of_mem_replicate h]
    rfl
  · exact Nat.isDigit_of_mem_toDigits (by decide) (by decide) h

theorem padded_inj {width n m : Nat} (h : padded width n = padded width m) : n = m := by
  rw [← digitsValue_padded width n, h, digitsValue_padded]

private theorem padded_ne_nil (width n : Nat) : padded width n ≠ [] := by
  simp [padded, Nat.toDigits_ne_nil]

theorem length_padded {width n : Nat} (h : (Nat.toDigits 10 n).length ≤ width) :
    (padded width n).length = width := by
  rw [padded, List.length_append, List.length_replicate]
  omega

/-- A numeral ends where the first other character stands. -/
theorem padded_append_inj {width n m : Nat} {c : Char} (hc : c.isDigit = false) {rest rest' : List Char}
    (h : padded width n ++ c :: rest = padded width m ++ c :: rest') : n = m ∧ rest = rest' := by
  obtain ⟨hdigits, -, hrest⟩ := Text.run_append_inj (fun _ => isDigit_of_mem_padded)
    (fun _ => isDigit_of_mem_padded) hc hc h
  exact ⟨padded_inj hdigits, hrest⟩

def yearSign (year : Int) : Char := if year < 0 then '-' else '+'

theorem yearSign_eq_minus_iff (year : Int) : yearSign year = '-' ↔ year < 0 := by
  unfold yearSign
  split_ifs with h
  · simp [h]
  · exact iff_of_false (by decide) h

private theorem yearSign_not_digit (year : Int) : (yearSign year).isDigit = false := by
  unfold yearSign
  split_ifs <;> rfl

/-- A numeral does not start with a sign. -/
theorem padded_append_ne_sign (width n : Nat) (year : Int) (rest rest' : List Char) :
    padded width n ++ rest ≠ yearSign year :: rest' := by
  obtain ⟨c, digits, hdigits⟩ := List.exists_cons_of_ne_nil (padded_ne_nil width n)
  have hc : c.isDigit = true := isDigit_of_mem_padded (hdigits ▸ List.mem_cons_self)
  intro heq
  rw [hdigits, List.cons_append] at heq
  rw [(List.cons.inj heq).1, yearSign_not_digit] at hc
  exact Bool.noConfusion hc

private theorem yearText_append_inj {year other : Int} {rest rest' : List Char}
    (h : yearText year ++ '-' :: rest = yearText other ++ '-' :: rest') : year = other ∧ rest = rest' := by
  have hsigned {year : Int} (hyear : ¬(0 ≤ year ∧ year ≤ 9999)) :
      yearText year = yearSign year :: padded 4 year.natAbs := if_neg hyear
  have hplain {year : Int} (hyear : 0 ≤ year ∧ year ≤ 9999) : yearText year = padded 4 year.toNat :=
    if_pos hyear
  by_cases hyear : 0 ≤ year ∧ year ≤ 9999 <;> by_cases hother : 0 ≤ other ∧ other ≤ 9999
  · rw [hplain hyear, hplain hother] at h
    obtain ⟨hn, hrest⟩ := padded_append_inj (by decide) h
    exact ⟨by omega, hrest⟩
  · rw [hplain hyear, hsigned hother] at h
    exact absurd h (padded_append_ne_sign 4 _ other _ _)
  · rw [hsigned hyear, hplain hother] at h
    exact absurd h.symm (padded_append_ne_sign 4 _ year _ _)
  · rw [hsigned hyear, hsigned hother] at h
    obtain ⟨hsign, hdigits⟩ := List.cons.inj h
    obtain ⟨hn, hrest⟩ := padded_append_inj (by decide) hdigits
    have hnegative : year < 0 ↔ other < 0 := by
      rw [← yearSign_eq_minus_iff, hsign, yearSign_eq_minus_iff]
    exact ⟨by omega, hrest⟩

private theorem fractionText_inj {n m : Nat} (hn : n < 1000000000) (hm : m < 1000000000)
    (h : fractionText n = fractionText m) : n = m := by
  have hdigits {k width : Nat} (hwidth : 0 < width) :=
    Nat.length_toDigits_le_iff (b := 10) (n := k) (by decide) hwidth
  have h3 {k : Nat} (hk : k < 1000000000) : (padded 3 (k / 1000000)).length = 3 :=
    length_padded ((hdigits (by decide)).mpr (by omega))
  have h6 {k : Nat} (hk : k < 1000000000) : (padded 6 (k / 1000)).length = 6 :=
    length_padded ((hdigits (by decide)).mpr (by omega))
  have h9 {k : Nat} (hk : k < 1000000000) : (padded 9 k).length = 9 :=
    length_padded ((hdigits (by decide)).mpr (by omega))
  have hlength := congrArg List.length h
  unfold fractionText at h hlength
  split_ifs at h hlength
  all_goals simp only [List.length_cons, List.length_nil, h3 hn, h3 hm, h6 hn, h6 hm, h9 hn, h9 hm] at hlength
  all_goals first | omega | skip
  all_goals
    have hvalue := padded_inj (List.cons.inj h).2
    omega

private theorem seconds_append_inj {second second' n m : Nat}
    (h : padded 2 second ++ fractionText n = padded 2 second' ++ fractionText m) :
    second = second' ∧ fractionText n = fractionText m := by
  have hpoint (n : Nat) : (fractionText n).takeWhile Char.isDigit = [] := by
    unfold fractionText
    split_ifs <;> rfl
  have htake (second n : Nat) :
      (padded 2 second ++ fractionText n).takeWhile Char.isDigit = padded 2 second := by
    rw [List.takeWhile_append_of_pos fun _ => isDigit_of_mem_padded, hpoint, List.append_nil]
  have hdigits : padded 2 second = padded 2 second' := by rw [← htake second n, h, htake]
  rw [hdigits] at h
  exact ⟨padded_inj hdigits, List.append_cancel_left h⟩

/-- What a text tells of a moment. -/
def shown (t : Timestamp) : Date × Nat × Nat × Nat × Nat := (t.date, t.hour, t.minute, t.second, t.nanos)

theorem shown_eq_of_textWith_eq {zone : List Char} {t t' : Timestamp} (h : t.textWith zone = t'.textWith zone) :
    t.shown = t'.shown := by
  have hdate := List.append_cancel_right h
  simp only [dateText, clockText, List.append_assoc, List.cons_append] at hdate
  obtain ⟨hyear, hdate⟩ := yearText_append_inj hdate
  obtain ⟨hmonth, hdate⟩ := padded_append_inj (by decide) hdate
  obtain ⟨hday, htime⟩ := padded_append_inj (by decide) hdate
  obtain ⟨hhour, htime⟩ := padded_append_inj (by decide) htime
  obtain ⟨hminute, htime⟩ := padded_append_inj (by decide) htime
  obtain ⟨hsecond, hfraction⟩ := seconds_append_inj htime
  have hbound (t : Timestamp) : t.nanos < 1000000000 := Nat.mod_lt _ (by decide)
  have hnanos := fractionText_inj (hbound t) (hbound t') hfraction
  have hsame : t.date = t'.date := by
    rw [Date.mk.injEq]
    exact ⟨hyear, hmonth, hday⟩
  rw [shown, shown, hsame, hhour, hminute, hsecond, hnanos]

/-- A leap second comes at the end of a minute only. -/
def IsRegular (t : Timestamp) : Prop := t.fraction.val < 1000000000 ∨ t.secondOfDay.val % 60 = 59

/-- Where leap seconds are where they belong, a text tells the moment. -/
theorem eq_of_shown_eq {t t' : Timestamp} (ht : t.IsRegular) (ht' : t'.IsRegular) (h : t.shown = t'.shown) :
    t = t' := by
  obtain ⟨date, second, fraction⟩ := t
  obtain ⟨date', second', fraction'⟩ := t'
  simp only [shown, hour, minute, Timestamp.second, nanos, Prod.mk.injEq] at h
  obtain ⟨rfl, hhour, hminute, hsecond, hnanos⟩ := h
  simp only [IsRegular] at ht ht'
  have hfraction := fraction.isLt
  have hfraction' := fraction'.isLt
  obtain rfl : second = second' := Fin.ext (by omega)
  obtain rfl : fraction = fraction' := Fin.ext (by omega)
  rfl

theorem ofEpoch_isRegular (nanos : Nat) : (ofEpoch nanos).IsRegular := by
  left
  simp only [ofEpoch, Fin.val_ofNat]
  omega

private theorem digitsValue_lt {digits : List Char} (h : digits.all Char.isDigit = true) :
    digitsValue digits < Nat.pow 10 digits.length := by
  -- The induction is on the digits, from any value of those before them.
  have hfold (n : Nat) : digits.foldl (fun n c => 10 * n + (c.toNat - '0'.toNat)) n <
      (n + 1) * Nat.pow 10 digits.length := by
    induction digits generalizing n with
    | nil => exact Nat.lt_of_lt_of_eq (Nat.lt_succ_self n) (Nat.mul_one _).symm
    | cons c digits ih =>
      obtain ⟨hc, hrest⟩ := Bool.and_eq_true_iff.mp h
      have hdigit : c.toNat - '0'.toNat ≤ 9 := Nat.sub_le_of_le_add (Char.isDigit_iff_toNat.mp hc).2
      have hroom : 10 * n + (c.toNat - '0'.toNat) + 1 ≤ (n + 1) * 10 := by omega
      calc digits.foldl (fun n c => 10 * n + (c.toNat - '0'.toNat)) (10 * n + (c.toNat - '0'.toNat))
          < (10 * n + (c.toNat - '0'.toNat) + 1) * Nat.pow 10 digits.length := ih hrest _
        _ ≤ (n + 1) * 10 * Nat.pow 10 digits.length := Nat.mul_le_mul_right _ hroom
        _ = (n + 1) * Nat.pow 10 (digits.length + 1) := by
          rw [Nat.mul_assoc, Nat.mul_comm 10]
          rfl
  have hzero := hfold 0
  rwa [Nat.zero_add, Nat.one_mul] at hzero

private theorem fraction?_lt {s rest : List Char} {nanos : Nat} (h : fraction? s = some (nanos, rest)) :
    nanos < 1000000000 := by
  unfold fraction? at h
  split at h
  · rename_i after
    split at h
    · cases h
    · obtain ⟨rfl, -⟩ := Prod.mk.inj (Option.some.inj h)
      have hall : (after.takeWhile Char.isDigit ++ List.replicate 9 '0').all Char.isDigit = true := by
        rw [List.all_append, List.all_takeWhile]
        rfl
      have hnine : ((after.takeWhile Char.isDigit ++ List.replicate 9 '0').take 9).all Char.isDigit = true := by
        rw [List.all_eq_true] at hall ⊢
        intro c hc
        exact hall c (List.mem_of_mem_take hc)
      have hlength : ((after.takeWhile Char.isDigit ++ List.replicate 9 '0').take 9).length = 9 := by
        rw [List.length_take, List.length_append, List.length_replicate]
        omega
      have hlt := digitsValue_lt hnine
      rwa [hlength] at hlt
  · obtain ⟨rfl, -⟩ := Prod.mk.inj (Option.some.inj h)
    decide

/-- What is read from a text has its leap seconds where they belong. -/
theorem parse?_isRegular {text : String} {t : Timestamp} (h : parse? text = some t) : t.IsRegular := by
  unfold parse? at h
  obtain ⟨⟨year, s⟩, -, h⟩ := Option.bind_eq_some_iff.mp h
  obtain ⟨⟨month, s⟩, -, h⟩ := Option.bind_eq_some_iff.mp h
  obtain ⟨⟨day, s⟩, -, h⟩ := Option.bind_eq_some_iff.mp h
  obtain ⟨⟨hour, s⟩, -, h⟩ := Option.bind_eq_some_iff.mp h
  obtain ⟨⟨minute, s⟩, -, h⟩ := Option.bind_eq_some_iff.mp h
  obtain ⟨⟨second, s⟩, -, h⟩ := Option.bind_eq_some_iff.mp h
  obtain ⟨⟨nanos, s⟩, hnanos, h⟩ := Option.bind_eq_some_iff.mp h
  obtain ⟨⟨zone, s⟩, -, h⟩ := Option.bind_eq_some_iff.mp h
  have hlt := fraction?_lt hnanos
  dsimp only at h
  split_ifs at h with hvalid
  all_goals rw [← Option.some.inj h]
  all_goals simp only [IsRegular, Fin.val_ofNat]
  all_goals omega

/-- The text of a moment has digits, its own marks and the time zone. -/
theorem not_mem_textWith {zone : List Char} {c : Char} (hdigit : c.isDigit = false)
    (hmarks : c ∉ ['-', '+', 'T', ':', '.']) (hzone : c ∉ zone) (t : Timestamp) : c ∉ t.textWith zone := by
  have hpadded (width n : Nat) : c ∉ padded width n := by
    intro h
    rw [isDigit_of_mem_padded h] at hdigit
    exact Bool.noConfusion hdigit
  simp only [List.mem_cons, List.not_mem_nil, or_false, not_or] at hmarks
  obtain ⟨hminus, hplus, ht, hcolon, hpoint⟩ := hmarks
  have hyear : c ∉ yearText t.date.year := by
    unfold yearText
    split_ifs <;> simp [hpadded, hminus, hplus]
  have hfraction : c ∉ fractionText t.nanos := by
    unfold fractionText
    split_ifs <;> simp [hpadded, hpoint]
  simp [textWith, dateText, clockText, hpadded, hyear, hfraction, hzone, hminus, ht, hcolon]

end EventAtlas.Timestamp
