import EventAtlas.RawText
import Mathlib.Data.List.Basic

namespace EventAtlas.RawText

open String (utf8EncodeChar)

@[simp]
theorem bytes_append (s t : RawText) : (s ++ t).bytes = s.bytes ++ t.bytes := rfl

/-- Bytes start with a character exactly by its encoding. -/
theorem first?_eq_some_iff {bytes : List UInt8} {c : Char} :
    first? bytes = some c ↔ ∃ rest, bytes = utf8EncodeChar c ++ rest := by
  constructor
  · intro h
    obtain ⟨rest, hrest⟩ := ByteArray.exists_of_utf8DecodeChar?_eq_some h
    have hdata := congrArg (fun b : ByteArray => b.data.toList) hrest
    exact ⟨rest.data.toList, by simpa using hdata⟩
  · rintro ⟨rest, rfl⟩
    rw [first?, List.toByteArray_append]
    exact ByteArray.utf8DecodeChar?_utf8EncodeChar_append

private theorem drop_encode_append (c : Char) (rest : List UInt8) :
    (utf8EncodeChar c ++ rest).drop c.utf8Size = rest :=
  List.drop_left' (String.length_utf8EncodeChar c)

private theorem lost_pos (bytes : List UInt8) : 0 < lost bytes := by
  unfold lost
  split
  · split_ifs <;> decide
  · decide

theorem read_nil (steps : Nat) : read steps [] = [] := by
  cases steps <;> rfl

theorem read_encode_append (steps : Nat) (c : Char) (rest : List UInt8) :
    read (steps + 1) (utf8EncodeChar c ++ rest) = c :: read steps rest := by
  have hne : utf8EncodeChar c ++ rest ≠ [] :=
    List.append_ne_nil_of_left_ne_nil String.utf8EncodeChar_ne_nil rest
  have hfirst : first? (utf8EncodeChar c ++ rest) = some c := first?_eq_some_iff.mpr ⟨rest, rfl⟩
  rw [read, hfirst]
  · simp only [drop_encode_append]
  · exact hne

/-- A step of the reading takes some bytes for one character: its encoding, unless the character stands for
lost bytes. -/
theorem read_succ (steps : Nat) {bytes : List UInt8} (h : bytes ≠ []) :
    ∃ c taken rest, bytes = taken ++ rest ∧ taken ≠ [] ∧
      read (steps + 1) bytes = c :: read steps rest ∧ (c = '�' ∨ taken = utf8EncodeChar c) := by
  cases hfirst : first? bytes with
  | some c =>
    obtain ⟨rest, rfl⟩ := first?_eq_some_iff.mp hfirst
    exact ⟨c, _, rest, rfl, String.utf8EncodeChar_ne_nil, read_encode_append steps c rest, .inr rfl⟩
  | none =>
    refine ⟨'�', _, _, (List.take_append_drop (lost bytes) _).symm, ?_, ?_, .inl rfl⟩
    · simpa [Nat.ne_of_gt (lost_pos bytes)] using h
    · rw [read, hfirst]
      exact h

/-- What is read in UTF-8 is what was written. -/
theorem read_encoded (chars : List Char) {steps : Nat}
    (h : (chars.flatMap utf8EncodeChar).length ≤ steps) :
    read steps (chars.flatMap utf8EncodeChar) = chars := by
  induction chars generalizing steps with
  | nil => exact read_nil steps
  | cons c chars ih =>
    have hpos := c.utf8Size_pos
    rw [List.flatMap_cons] at h ⊢
    rw [List.length_append, String.length_utf8EncodeChar] at h
    obtain ⟨steps, rfl⟩ := Nat.exists_eq_succ_of_ne_zero (show steps ≠ 0 by omega)
    rw [read_encode_append, ih (by omega)]

/-- Where a reading ends in characters that replace nothing, the bytes end in their encodings. -/
theorem eq_append_of_read_eq {steps : Nat} {bytes : List UInt8} (hsteps : bytes.length ≤ steps)
    {before after : List Char} (h : read steps bytes = before ++ after) (hafter : '�' ∉ after) :
    ∃ front, bytes = front ++ after.flatMap utf8EncodeChar ∧ (before = [] → front = []) := by
  induction steps generalizing bytes before after with
  | zero =>
    obtain rfl := List.eq_nil_of_length_eq_zero (Nat.le_zero.mp hsteps)
    obtain ⟨rfl, rfl⟩ := List.append_eq_nil_iff.mp h.symm
    exact ⟨[], rfl, fun _ => rfl⟩
  | succ steps ih =>
    by_cases hbytes : bytes = []
    · subst hbytes
      obtain ⟨rfl, rfl⟩ := List.append_eq_nil_iff.mp ((read_nil _).symm.trans h).symm
      exact ⟨[], rfl, fun _ => rfl⟩
    · obtain ⟨c, taken, rest, rfl, htaken, hread, hc⟩ := read_succ steps hbytes
      have hpos := List.length_pos_iff.mpr htaken
      rw [List.length_append] at hsteps
      rw [hread] at h
      cases before with
      | nil =>
        obtain ⟨after, rfl, hrest⟩ : ∃ more, after = c :: more ∧ read steps rest = more :=
          ⟨_, h.symm, rfl⟩
        obtain ⟨hcne, hmore⟩ := not_or.mp (mt List.mem_cons.mpr hafter)
        obtain ⟨front, hfront, hnil⟩ := ih (by omega) (show read steps rest = [] ++ after from hrest) hmore
        rw [hfront, hnil rfl, hc.resolve_left (Ne.symm hcne)]
        exact ⟨[], rfl, fun _ => rfl⟩
      | cons x before =>
        obtain ⟨rfl, hrest⟩ := List.cons.inj h
        obtain ⟨front, hfront, -⟩ := ih (by omega) hrest hafter
        exact ⟨taken ++ front, by rw [hfront, List.append_assoc], nofun⟩

@[simp]
theorem shown_ofString (s : String) : (ofString s).shown = s := by
  have hread := read_encoded s.toList (Nat.le_refl _)
  rw [shown, ofString, hread, String.ofList_toList]

theorem ofString_injective {s t : String} (h : ofString s = ofString t) : s = t := by
  rw [← shown_ofString s, h, shown_ofString]

theorem string?_eq_some_iff {t : RawText} {s : String} : t.string? = some s ↔ t = ofString s := by
  unfold string?
  split_ifs with h
  · rw [Option.some.injEq]
    constructor
    · rintro rfl
      exact h.symm
    · rintro rfl
      exact shown_ofString s
  · simp only [false_iff]
    rintro rfl
    exact h (by rw [shown_ofString])

theorem toList_shown (t : RawText) : t.shown.toList = read t.bytes.length t.bytes := String.toList_ofList

/-- A text that shows no replacement is the only one that is shown as it is. -/
theorem shown_eq_iff {t : RawText} {s : String} (hs : '�' ∉ s.toList) : t.shown = s ↔ t = ofString s := by
  constructor
  · rintro rfl
    have hread : read t.bytes.length t.bytes = [] ++ t.shown.toList := (toList_shown t).symm
    obtain ⟨front, hfront, hnil⟩ := eq_append_of_read_eq (Nat.le_refl _) hread hs
    rw [hnil rfl] at hfront
    exact congrArg RawText.mk hfront
  · rintro rfl
    exact shown_ofString s

/-- A text is shown with an ending that shows no replacement exactly if it has it. -/
theorem bytes_of_shown_ending {t : RawText} {before : List Char} {s : String} (hs : '�' ∉ s.toList)
    (h : t.shown.toList = before ++ s.toList) : ∃ front, t.bytes = front ++ (ofString s).bytes := by
  obtain ⟨front, hfront, -⟩ := eq_append_of_read_eq (Nat.le_refl _) ((toList_shown t).symm.trans h) hs
  exact ⟨front, hfront⟩

theorem head?_shown_iff {t : RawText} {c : Char} (hc : c ≠ '�') :
    t.shown.toList.head? = some c ↔ ∃ rest, t.bytes = utf8EncodeChar c ++ rest := by
  rw [toList_shown]
  by_cases hbytes : t.bytes = []
  · simp [hbytes, read_nil, String.utf8EncodeChar_ne_nil]
  · obtain ⟨steps, hsteps⟩ := Nat.exists_eq_succ_of_ne_zero (Nat.ne_of_gt (List.length_pos_iff.mpr hbytes))
    rw [hsteps]
    constructor
    · obtain ⟨d, taken, rest, hsplit, -, hread, hd⟩ := read_succ steps hbytes
      rw [hread, List.head?_cons, Option.some.injEq]
      rintro rfl
      exact ⟨rest, by rw [hsplit, hd.resolve_left hc]⟩
    · rintro ⟨rest, hrest⟩
      rw [hrest, read_encode_append]
      rfl

/-- A dot is a byte of no other character's encoding. -/
theorem eq_of_dot_mem_encode {c : Char} (h : dot ∈ utf8EncodeChar c) : c = '.' := by
  obtain ⟨i, hi, hdot⟩ := List.mem_iff_getElem.mp h
  have hfirst : (utf8EncodeChar c)[i].IsUTF8FirstByte := by
    rw [hdot]
    decide
  obtain rfl := UInt8.isUTF8FirstByte_getElem_utf8EncodeChar.mp hfirst
  obtain ⟨rest, hrest⟩ : ∃ rest, utf8EncodeChar c = dot :: rest := by
    cases hbytes : utf8EncodeChar c with
    | nil => simp [hbytes] at hi
    | cons b rest =>
      simp only [hbytes, List.getElem_cons_zero] at hdot
      exact ⟨rest, by rw [hdot]⟩
  have hc : first? (utf8EncodeChar c) = some c := first?_eq_some_iff.mpr ⟨[], by simp⟩
  have hplain : first? (utf8EncodeChar c) = some '.' := first?_eq_some_iff.mpr ⟨rest, hrest⟩
  exact Option.some.inj (hc.symm.trans hplain)

theorem dot_mem_ofString_iff {s : String} : dot ∈ (ofString s).bytes ↔ '.' ∈ s.toList := by
  rw [ofString, List.mem_flatMap]
  constructor
  · rintro ⟨c, hc, hdot⟩
    exact eq_of_dot_mem_encode hdot ▸ hc
  · intro h
    exact ⟨'.', h, by decide⟩

end EventAtlas.RawText
