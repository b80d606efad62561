import EventAtlas.Json.Parser
import Mathlib.Data.List.DropRight
import Mathlib.Tactic.Common

namespace EventAtlas.Json

def Blanks (s : List Char) : Prop := ∀ c ∈ s, isSpace c = true

theorem blanks_nil : Blanks [] := List.forall_mem_nil _

section Strings

/-- How a piece of a string can be written: a character as itself or behind a backslash, and a code unit by four
digits. -/
inductive PieceText : Piece → List Char → Prop where
  | plain {c : Char} (hquote : c ≠ '"') (hbackslash : c ≠ '\\') (hcontrol : ¬c.toNat < 0x20) :
      PieceText (.char c) [c]
  | escape {e c : Char} (h : unescape? e = some c) : PieceText (.char c) ['\\', e]
  | unit {a b c d : Char} {n : Nat} (h : hex4? a b c d = some n) : PieceText (.unit n) ['\\', 'u', a, b, c, d]

inductive PiecesText : List Piece → List Char → Prop where
  | nil : PiecesText [] []
  | cons {piece : Piece} {pieces : List Piece} {first rest : List Char} (h : PieceText piece first)
      (more : PiecesText pieces rest) : PiecesText (piece :: pieces) (first ++ rest)

/-- The characters that pieces stand for. The two halves of a pair stand for one character, and neither stands
for one without the other. -/
inductive Decoded : List Piece → List Char → Prop where
  | nil : Decoded [] []
  | char (c : Char) {pieces : List Piece} {chars : List Char} (more : Decoded pieces chars) :
      Decoded (.char c :: pieces) (c :: chars)
  | unit {n : Nat} {pieces : List Piece} {chars : List Char} (hlow : isLowHalf n = false)
      (hhigh : isHighHalf n = false) (more : Decoded pieces chars) :
      Decoded (.unit n :: pieces) (Char.ofNat n :: chars)
  | pair {high low : Nat} {pieces : List Piece} {chars : List Char} (hhigh : isHighHalf high = true)
      (hlow : isLowHalf low = true) (more : Decoded pieces chars) :
      Decoded (.unit high :: .unit low :: pieces) (joinHalves high low :: chars)

/-- A string in its quotes, with its text if it has one. -/
inductive StringText : Option String → List Char → Prop where
  | some {pieces : List Piece} {chars text : List Char} (h : PiecesText pieces text)
      (hdecoded : Decoded pieces chars) : StringText (some (String.ofList chars)) ('"' :: (text ++ ['"']))
  | none {pieces : List Piece} {text : List Char} (h : PiecesText pieces text)
      (hbroken : ∀ chars, ¬Decoded pieces chars) : StringText none ('"' :: (text ++ ['"']))

private theorem pieces?_piece {piece : Piece} {text : List Char} (h : PieceText piece text) (done : List Piece)
    (rest : List Char) : pieces? done (text ++ rest) = pieces? (piece :: done) rest := by
  cases h with
  | plain hquote hbackslash hcontrol =>
    rw [List.singleton_append, pieces?, if_neg hcontrol]
    · exact hquote
    · intro _ _ _ _ _ h
      exact absurd h hbackslash
    · intro _ _ h
      exact absurd h hbackslash
  | @escape e c h =>
    have hu : e ≠ 'u' := by
      intro he
      rw [he] at h
      cases h
    rw [List.cons_append, List.singleton_append, pieces?, h]
    intro _ _ _ _ _ h _
    exact hu h
  | unit h => simp only [List.cons_append, List.nil_append, pieces?, h]

private theorem pieces?_of_text {pieces : List Piece} {text : List Char} (h : PiecesText pieces text)
    (done : List Piece) (rest : List Char) : pieces? done (text ++ '"' :: rest) = some (pieces.reverse ++ done, rest) := by
  induction h generalizing done with
  | nil => rfl
  | cons h _ ih =>
    rw [List.append_assoc, pieces?_piece h, ih]
    simp

/-- A unit that is no half of a pair stands for a character by itself. -/
theorem textOf?_unit {n : Nat} (hlow : isLowHalf n = false) (hhigh : isHighHalf n = false) (done : List Char)
    (rest : List Piece) : textOf? done (.unit n :: rest) = textOf? (Char.ofNat n :: done) rest := by
  cases rest with
  | nil => simp [textOf?, hlow, hhigh]
  | cons next rest =>
    cases next with
    | char c => simp [textOf?, hlow, hhigh]
    | unit m => simp [textOf?, hlow, hhigh]

private theorem textOf?_of_decoded {pieces : List Piece} {chars : List Char} (h : Decoded pieces chars)
    (done : List Char) (more : List Piece) : textOf? done (pieces.reverse ++ more) = textOf? (chars ++ done) more := by
  induction h generalizing more with
  | nil => rfl
  | char c _ ih =>
    rw [List.reverse_cons, List.append_assoc, ih, List.singleton_append, textOf?]
    rfl
  | unit hlow hhigh _ ih =>
    rw [List.reverse_cons, List.append_assoc, ih, List.singleton_append, textOf?_unit hlow hhigh]
    rfl
  | pair hhigh hlow _ ih =>
    rw [List.reverse_cons, List.reverse_cons, List.append_assoc, List.append_assoc, ih, List.singleton_append,
      List.singleton_append, textOf?, if_pos hlow, if_pos hhigh]
    rfl

theorem Decoded.append {pieces more : List Piece} {chars others : List Char} (h : Decoded pieces chars)
    (hmore : Decoded more others) : Decoded (pieces ++ more) (chars ++ others) := by
  induction h with
  | nil => exact hmore
  | char c _ ih => exact ih.char c
  | unit hlow hhigh _ ih => exact ih.unit hlow hhigh
  | pair hhigh hlow _ ih => exact ih.pair hhigh hlow

private theorem decoded_of_textOf? {pieces : List Piece} {done text : List Char} (h : textOf? done pieces = some text) :
    ∃ chars, Decoded pieces.reverse chars ∧ text = chars ++ done := by
  -- The pieces come from the last on, so each step puts what it decodes behind all that is still to come.
  fun_induction textOf? done pieces with
  | case1 done =>
    cases h
    exact ⟨[], .nil, rfl⟩
  | case2 done c rest ih =>
    obtain ⟨chars, hchars, rfl⟩ := ih h
    exact ⟨chars ++ [c], by simpa using hchars.append (Decoded.nil.char c), by simp⟩
  | case3 done low high rest hlow hhigh ih =>
    obtain ⟨chars, hchars, rfl⟩ := ih h
    exact ⟨chars ++ [joinHalves high low], by simpa using hchars.append (Decoded.nil.pair hhigh hlow), by simp⟩
  | case4 => cases h
  | case5 => cases h
  | case6 done n high rest hlow hhigh ih =>
    obtain ⟨chars, hchars, rfl⟩ := ih h
    have hunit := Decoded.nil.unit (Bool.not_eq_true _ ▸ hlow) (Bool.not_eq_true _ ▸ hhigh)
    exact ⟨chars ++ [Char.ofNat n], by simpa using hchars.append hunit, by simp⟩
  | case7 => cases h
  | case8 done n rest _ hhalf ih =>
    obtain ⟨chars, hchars, rfl⟩ := ih h
    obtain ⟨hlow, hhigh⟩ := Bool.or_eq_false_iff.mp (Bool.not_eq_true _ ▸ hhalf)
    exact ⟨chars ++ [Char.ofNat n], by simpa using hchars.append (Decoded.nil.unit hlow hhigh), by simp⟩

/-- The reader decodes pieces as the grammar does. -/
theorem textOf?_reverse_eq_some_iff {pieces : List Piece} {chars : List Char} :
    textOf? [] pieces.reverse = some chars ↔ Decoded pieces chars := by
  constructor
  · intro h
    obtain ⟨others, hothers, rfl⟩ := decoded_of_textOf? h
    rw [List.reverse_reverse] at hothers
    rwa [List.append_nil]
  · intro h
    have hread := textOf?_of_decoded h [] []
    rw [List.append_nil, List.append_nil] at hread
    exact hread

/-- Every text of a string is read as the string. -/
theorem string?_of_text {text : Option String} {s : List Char} (h : StringText text s) :
    ∃ quoted, s = '"' :: quoted ∧ ∀ rest, string? (quoted ++ rest) = some (text, rest) := by
  have hpieces {pieces : List Piece} {t : List Char} (h : PiecesText pieces t) (rest : List Char) :
      string? ((t ++ ['"']) ++ rest) = some ((textOf? [] pieces.reverse).map String.ofList, rest) := by
    rw [List.append_assoc, List.singleton_append, string?, pieces?_of_text h, List.append_nil]
    rfl
  cases h with
  | some h hdecoded =>
    refine ⟨_, rfl, fun rest => ?_⟩
    rw [hpieces h, textOf?_reverse_eq_some_iff.mpr hdecoded]
    rfl
  | @none pieces _ h hbroken =>
    have hnone : textOf? [] pieces.reverse = none := by
      rw [Option.eq_none_iff_forall_ne_some]
      intro chars hchars
      exact hbroken chars (textOf?_reverse_eq_some_iff.mp hchars)
    refine ⟨_, rfl, fun rest => ?_⟩
    rw [hpieces h, hnone]
    rfl

end Strings

section Numbers

/-- Digits, at least one of them. -/
def IsDigits (s : List Char) : Prop := s ≠ [] ∧ ∀ c ∈ s, c.isDigit = true

/-- The digits before the point: a zero stands alone. -/
def IsWhole (s : List Char) : Prop := IsDigits s ∧ (s.head? = some '0' → s = ['0'])

inductive FractionText : List Char → Prop where
  | none : FractionText []
  | point {digits : List Char} (h : IsDigits digits) : FractionText ('.' :: digits)

inductive ExponentText : List Char → Prop where
  | none : ExponentText []
  | unsigned {e : Char} {digits : List Char} (he : e = 'e' ∨ e = 'E') (h : IsDigits digits) :
      ExponentText (e :: digits)
  | signed {e sign : Char} {digits : List Char} (he : e = 'e' ∨ e = 'E') (hsign : sign = '+' ∨ sign = '-')
      (h : IsDigits digits) : ExponentText (e :: sign :: digits)

/-- A number without a fraction, an exponent or a sign is kept by its value, any other by its text. -/
inductive NumberText : Json → List Char → Prop where
  | nat {whole : List Char} (hwhole : IsWhole whole) : NumberText (nat (Text.digitsValue whole)) whole
  | decimal {whole fraction exponent : List Char} (hwhole : IsWhole whole) (hfraction : FractionText fraction)
      (hexponent : ExponentText exponent) (hparts : ¬(fraction = [] ∧ exponent = [])) :
      NumberText (decimal (String.ofList (whole ++ fraction ++ exponent))) (whole ++ fraction ++ exponent)
  | negative {whole fraction exponent : List Char} (hwhole : IsWhole whole) (hfraction : FractionText fraction)
      (hexponent : ExponentText exponent) :
      NumberText (.decimal (String.ofList ('-' :: (whole ++ fraction ++ exponent))))
        ('-' :: (whole ++ fraction ++ exponent))

/-- Whether a character behind a number would be read as a part of it. -/
def continuesNumber (c : Char) : Bool := c.isDigit || c == '.' || c == 'e' || c == 'E'

/-- A text that a number can stand before. -/
def EndsNumber (rest : List Char) : Prop := ∀ c ∈ rest.head?, continuesNumber c = false

private theorem endsNumber_nil : EndsNumber [] := by simp [EndsNumber]

theorem endsNumber_cons {c : Char} (h : continuesNumber c = false) (rest : List Char) :
    EndsNumber (c :: rest) := by
  intro d hd
  obtain rfl : c = d := Option.some.inj hd
  exact h

private theorem continuesNumber_of_isSpace {c : Char} (h : isSpace c = true) : continuesNumber c = false := by
  simp only [isSpace, Bool.or_eq_true, beq_iff_eq] at h
  obtain ((rfl | rfl) | rfl) | rfl := h <;> rfl

private theorem endsNumber_blanks {blanks rest : List Char} (hblanks : Blanks blanks) (hrest : EndsNumber rest) :
    EndsNumber (blanks ++ rest) := by
  cases blanks with
  | nil => exact hrest
  | cons c blanks => exact endsNumber_cons (continuesNumber_of_isSpace (hblanks c List.mem_cons_self)) _

theorem digits1?_of_digits {digits rest : List Char} (h : IsDigits digits)
    (hrest : ∀ c ∈ rest.head?, c.isDigit = false) : digits1? (digits ++ rest) = some (digits, rest) := by
  obtain ⟨hne, hdigits⟩ := h
  have hend : rest.takeWhile Char.isDigit = [] ∧ rest.dropWhile Char.isDigit = rest := by
    cases rest with
    | nil => exact ⟨rfl, rfl⟩
    | cons c rest =>
      have hc : c.isDigit = false := hrest c rfl
      exact ⟨List.takeWhile_cons_of_neg (by simp [hc]), List.dropWhile_cons_of_neg (by simp [hc])⟩
  unfold digits1?
  rw [List.takeWhile_append_of_pos hdigits, List.dropWhile_append_of_pos hdigits, hend.1, hend.2, List.append_nil]
  cases digits with
  | nil => exact absurd rfl hne
  | cons c digits => rfl

private theorem whole?_of_whole {whole rest : List Char} (h : IsWhole whole)
    (hrest : ∀ c ∈ rest.head?, c.isDigit = false) : whole? (whole ++ rest) = some (whole, rest) := by
  unfold whole?
  rw [digits1?_of_digits h.1 hrest]
  split
  · rename_i c digits _ heq
    obtain ⟨hzero, -⟩ := Prod.mk.inj (Option.some.inj heq)
    have halone := h.2 (congrArg List.head? hzero)
    rw [hzero] at halone
    cases halone
  · rfl

private theorem fraction?_of_text {fraction rest : List Char} (h : FractionText fraction)
    (hrest : ∀ c ∈ rest.head?, c.isDigit = false ∧ c ≠ '.') :
    fraction? (fraction ++ rest) = some (fraction, rest) := by
  cases h with
  | none =>
    cases rest with
    | nil => rfl
    | cons c rest =>
      rw [List.nil_append, fraction?]
      intro _ h
      exact (hrest c rfl).2 (List.cons.inj h).1
  | point h =>
    rw [List.cons_append, fraction?, digits1?_of_digits h fun c hc => (hrest c hc).1]
    rfl

private theorem exponent?_of_text {exponent rest : List Char} (h : ExponentText exponent) (hrest : EndsNumber rest) :
    exponent? (exponent ++ rest) = some (exponent, rest) := by
  have hdigit (c : Char) (hc : c ∈ rest.head?) : c.isDigit = false := by
    have := hrest c hc
    simp only [continuesNumber, Bool.or_eq_false_iff] at this
    exact this.1.1.1
  cases h with
  | none =>
    cases rest with
    | nil => rfl
    | cons c rest =>
      have := hrest c rfl
      simp only [continuesNumber, Bool.or_eq_false_iff, beq_eq_false_iff_ne] at this
      exact if_neg (not_or.mpr ⟨this.1.2, this.2⟩)
  | @unsigned e digits he h =>
    have hread := digits1?_of_digits h hdigit
    obtain ⟨d, more, rfl⟩ := List.exists_cons_of_ne_nil h.1
    have hd : d.isDigit = true := h.2 d List.mem_cons_self
    have hsign (sign : Char) (hsign : sign.isDigit = false) (tail : List Char) :
        d :: more ++ rest = sign :: tail → False := by
      intro heq
      cases heq
      exact Bool.noConfusion (hsign.symm.trans hd)
    rw [List.cons_append, exponent?, if_pos he, hread]
    · rfl
    · exact hsign '+' rfl
    · exact hsign '-' rfl
  | signed he hsign h =>
    have hread := digits1?_of_digits h hdigit
    obtain rfl | rfl := hsign
    · rw [List.cons_append, List.cons_append, exponent?, if_pos he, hread]
      rfl
    · rw [List.cons_append, List.cons_append, exponent?, if_pos he, hread]
      rfl

section Parts

variable {whole fraction exponent rest : List Char} (hwhole : IsWhole whole) (hfraction : FractionText fraction)
  (hexponent : ExponentText exponent) (hrest : EndsNumber rest)
include hwhole hfraction hexponent hrest

/-- Each part of a number ends where the next one starts. -/
theorem numberParts_of_text :
    whole? (whole ++ (fraction ++ (exponent ++ rest))) = some (whole, fraction ++ (exponent ++ rest)) ∧
    fraction? (fraction ++ (exponent ++ rest)) = some (fraction, exponent ++ rest) ∧
    exponent? (exponent ++ rest) = some (exponent, rest) := by
  have hmark (e : Char) (he : e = 'e' ∨ e = 'E') : e.isDigit = false ∧ e ≠ '.' := by
    obtain rfl | rfl := he <;> decide
  have hbehind (c : Char) (hc : c ∈ (exponent ++ rest).head?) : c.isDigit = false ∧ c ≠ '.' := by
    cases hexponent with
    | none =>
      have := hrest c hc
      simp only [continuesNumber, Bool.or_eq_false_iff, beq_eq_false_iff_ne] at this
      exact this.1.1
    | unsigned he _ =>
      obtain rfl := Option.some.inj hc
      exact hmark _ he
    | signed he _ _ =>
      obtain rfl := Option.some.inj hc
      exact hmark _ he
  have hpoint (c : Char) (hc : c ∈ (fraction ++ (exponent ++ rest)).head?) : c.isDigit = false := by
    cases hfraction with
    | none => exact (hbehind c hc).1
    | point _ =>
      obtain rfl := Option.some.inj hc
      rfl
  exact ⟨whole?_of_whole hwhole hpoint, fraction?_of_text hfraction hbehind, exponent?_of_text hexponent hrest⟩

/-- A number without a fraction and an exponent is read as a natural number, and any other one is kept as it is
written. -/
theorem unsigned?_of_text : unsigned? (whole ++ (fraction ++ (exponent ++ rest))) =
    some (if fraction = [] ∧ exponent = [] then nat (Text.digitsValue whole)
      else decimal (String.ofList (whole ++ fraction ++ exponent)), rest) := by
  obtain ⟨hw, hf, he⟩ := numberParts_of_text hwhole hfraction hexponent hrest
  simp only [unsigned?, hw, hf, he, Option.bind_eq_bind, Option.bind_some]
  split_ifs <;> rfl

private theorem negative?_of_text : negative? (whole ++ (fraction ++ (exponent ++ rest))) =
    some (decimal (String.ofList ('-' :: (whole ++ fraction ++ exponent))), rest) := by
  obtain ⟨hw, hf, he⟩ := numberParts_of_text hwhole hfraction hexponent hrest
  simp only [negative?, hw, hf, he, Option.bind_eq_bind, Option.bind_some]
  rfl

end Parts

end Numbers

section Values

/-- The key of a member with blanks around it. -/
inductive KeyText : Option String → List Char → Prop where
  | padded {key : Option String} {before text after : List Char} (hbefore : Blanks before)
      (h : StringText key text) (hafter : Blanks after) : KeyText key (before ++ (text ++ after))

mutual

inductive ValueText : Json → List Char → Prop where
  | null : ValueText null ['n', 'u', 'l', 'l']
  | true : ValueText (bool true) ['t', 'r', 'u', 'e']
  | false : ValueText (bool false) ['f', 'a', 'l', 's', 'e']
  | number {j : Json} {text : List Char} (h : NumberText j text) : ValueText j text
  | string {s : String} {text : List Char} (h : StringText (some s) text) : ValueText (str s) text
  | brokenString {text : List Char} (h : StringText none text) : ValueText unreadable text
  | emptyArray {blanks : List Char} (h : Blanks blanks) : ValueText (arr []) ('[' :: (blanks ++ [']']))
  | array {items : List Json} {text : List Char} (h : ElementsText items text) :
      ValueText (arr items) ('[' :: (text ++ [']']))
  | emptyObject {blanks : List Char} (h : Blanks blanks) : ValueText (obj []) ('{' :: (blanks ++ ['}']))
  | object {fields : List (Option String × Json)} {text : List Char} (h : MembersText fields text) :
      ValueText (ofFields fields) ('{' :: (text ++ ['}']))

/-- A value with blanks around it. -/
inductive ElementText : Json → List Char → Prop where
  | padded {j : Json} {before text after : List Char} (hbefore : Blanks before) (h : ValueText j text)
      (hafter : Blanks after) : ElementText j (before ++ (text ++ after))

inductive ElementsText : List Json → List Char → Prop where
  | one {j : Json} {text : List Char} (h : ElementText j text) : ElementsText [j] text
  | more {j : Json} {items : List Json} {text rest : List Char} (h : ElementText j text)
      (more : ElementsText items rest) : ElementsText (j :: items) (text ++ ',' :: rest)

inductive MembersText : List (Option String × Json) → List Char → Prop where
  | one {key : Option String} {j : Json} {name text : List Char} (hkey : KeyText key name)
      (h : ElementText j text) : MembersText [(key, j)] (name ++ ':' :: text)
  | more {key : Option String} {j : Json} {fields : List (Option String × Json)} {name text rest : List Char}
      (hkey : KeyText key name) (h : ElementText j text) (more : MembersText fields rest) :
      MembersText ((key, j) :: fields) (name ++ ':' :: (text ++ ',' :: rest))

end

/-- Blanks before a text do not show. -/
theorem skipSpace_blanks {blanks : List Char} (h : Blanks blanks) (s : List Char) :
    skipSpace (blanks ++ s) = skipSpace s :=
  List.dropWhile_append_of_pos h

theorem skipSpace_cons {c : Char} (h : isSpace c = false) (s : List Char) : skipSpace (c :: s) = c :: s :=
  List.dropWhile_cons_of_neg (by simp [h])

theorem skipSpace_skipSpace (s : List Char) : skipSpace (skipSpace s) = skipSpace s :=
  List.dropWhile_idempotent _ s

section Rules

variable {steps : Nat} {s rest more tail : List Char} {key : Option String} {j : Json}

/-- What is read depends on the text behind the blanks only. -/
theorem value?_eq_of_skipSpace {t : List Char} (h : skipSpace s = skipSpace t) : value? steps s = value? steps t := by
  cases steps with
  | zero => rfl
  | succ steps => rw [value?, value?, h]

private theorem value?_bracket (h : skipSpace s = ']' :: rest) : value? steps s = none := by
  cases steps with
  | zero => rfl
  | succ steps =>
    rw [value?, h]
    rfl

private theorem value?_digit {c : Char} (h : c.isDigit = true) : value? (steps + 1) (c :: s) = unsigned? (c :: s) := by
  have hother (d : Char) (hd : d.isDigit = false) : c ≠ d := by
    intro hcd
    rw [hcd, hd] at h
    cases h
  have hspace : isSpace c = false := by
    simp only [isSpace, Bool.or_eq_false_iff, beq_eq_false_iff_ne]
    exact ⟨⟨⟨hother _ rfl, hother _ rfl⟩, hother _ rfl⟩, hother _ rfl⟩
  rw [value?, skipSpace_cons hspace]
  split
  all_goals first
    | rfl
    | exact absurd (List.cons.inj ‹c :: s = _›).1 (hother _ rfl)

private theorem items?_last (hj : value? steps s = some (j, rest)) (hrest : skipSpace rest = ']' :: tail) :
    items? (steps + 1) s = some ([j], tail) := by
  simp [items?, hj, hrest]

private theorem items?_more {items : List Json} (hj : value? steps s = some (j, rest))
    (hrest : skipSpace rest = ',' :: more) (hmore : items? steps more = some (items, tail)) :
    items? (steps + 1) s = some (j :: items, tail) := by
  simp [items?, hj, hrest, hmore]

private theorem value?_items {items : List Json} (hs : skipSpace s = '[' :: rest)
    (hitems : items? steps rest = some (items, tail)) : value? (steps + 1) s = some (arr items, tail) := by
  have hskip : items? steps (skipSpace rest) = items? steps rest := by
    cases steps with
    | zero => rfl
    | succ steps => rw [items?, items?, value?_eq_of_skipSpace (skipSpace_skipSpace rest)]
  rw [← hskip] at hitems
  cases hrest : skipSpace rest with
  | nil =>
    rw [hrest] at hitems
    simp [value?, hs, hrest, hitems]
  | cons c r =>
    have hopen : c ≠ ']' := by
      rintro rfl
      cases steps with
      | zero => cases hitems
      | succ steps =>
        rw [items?, value?_bracket (by rw [skipSpace_skipSpace, hrest])] at hitems
        cases hitems
    rw [hrest] at hitems
    simp [value?, hs, hrest, hitems, hopen]

section Member

variable {quoted behind : List Char} (hs : skipSpace s = '"' :: quoted)
  (hkey : string? quoted = some (key, behind)) (hcolon : skipSpace behind = ':' :: more)
  (hj : value? steps more = some (j, rest))
include hs hkey hcolon hj

private theorem fields?_last (hrest : skipSpace rest = '}' :: tail) :
    fields? (steps + 1) s = some ([(key, j)], tail) := by
  simp [fields?, hs, hkey, hcolon, hj, hrest]

private theorem fields?_more {next : List Char} {fields : List (Option String × Json)}
    (hrest : skipSpace rest = ',' :: next) (hnext : fields? steps next = some (fields, tail)) :
    fields? (steps + 1) s = some ((key, j) :: fields, tail) := by
  simp [fields?, hs, hkey, hcolon, hj, hrest, hnext]

end Member

private theorem value?_fields {fields : List (Option String × Json)} (hs : skipSpace s = '{' :: rest)
    (hrest : skipSpace rest = '"' :: more) (hfields : fields? steps rest = some (fields, tail)) :
    value? (steps + 1) s = some (ofFields fields, tail) := by
  have hskip : fields? steps (skipSpace rest) = fields? steps rest := by
    cases steps with
    | zero => rfl
    | succ steps => rw [fields?, fields?, skipSpace_skipSpace]
  rw [← hskip, hrest] at hfields
  simp [value?, hs, hrest, hfields]

end Rules

private theorem value?_of_numberText {j : Json} {text : List Char} (h : NumberText j text) {rest : List Char}
    (hrest : EndsNumber rest) (steps : Nat) : value? (steps + 1) (text ++ rest) = some (j, rest) := by
  have hdigit {whole : List Char} (hwhole : IsWhole whole) (more : List Char) :
      value? (steps + 1) (whole ++ more) = unsigned? (whole ++ more) := by
    obtain ⟨⟨hne, hdigits⟩, -⟩ := hwhole
    obtain ⟨c, digits, rfl⟩ := List.exists_cons_of_ne_nil hne
    exact value?_digit (hdigits c List.mem_cons_self)
  cases h with
  | nat hwhole => exact (hdigit hwhole rest).trans (unsigned?_of_text hwhole .none .none hrest)
  | decimal hwhole hfraction hexponent hparts =>
    have hread := unsigned?_of_text hwhole hfraction hexponent hrest
    rw [if_neg hparts] at hread
    simp only [List.append_assoc] at hread ⊢
    exact (hdigit hwhole _).trans hread
  | negative hwhole hfraction hexponent =>
    have hread := negative?_of_text hwhole hfraction hexponent hrest
    simp only [List.cons_append, List.append_assoc] at hread ⊢
    exact hread

theorem KeyText.starts {key : Option String} {name : List Char} (h : KeyText key name) :
    ∃ quoted after, Blanks after ∧ (∀ rest, skipSpace (name ++ rest) = '"' :: (quoted ++ (after ++ rest))) ∧
      ∀ rest, string? (quoted ++ rest) = some (key, rest) := by
  obtain ⟨hbefore, htext, hafter⟩ := h
  rename_i before text after
  obtain ⟨quoted, rfl, hread⟩ := string?_of_text htext
  refine ⟨quoted, after, hafter, ?_, hread⟩
  intro rest
  rw [List.append_assoc, skipSpace_blanks hbefore, List.append_assoc]
  exact skipSpace_cons rfl _

theorem MembersText.starts {fields : List (Option String × Json)} {text : List Char} (h : MembersText fields text)
    (rest : List Char) : ∃ quoted, skipSpace (text ++ rest) = '"' :: quoted := by
  cases h with
  | one hkey _ =>
    obtain ⟨quoted, after, -, hstarts, -⟩ := hkey.starts
    rw [List.append_assoc, hstarts]
    exact ⟨_, rfl⟩
  | more hkey _ _ =>
    obtain ⟨quoted, after, -, hstarts, -⟩ := hkey.starts
    rw [List.append_assoc, hstarts]
    exact ⟨_, rfl⟩

theorem ValueText.length_pos {j : Json} {text : List Char} (h : ValueText j text) : 0 < text.length := by
  rw [List.length_pos_iff]
  cases h with
  | number h =>
    cases h with
    | nat hwhole => exact hwhole.1.1
    | decimal hwhole => simp [hwhole.1.1]
    | negative => simp
  | string h =>
    obtain ⟨quoted, rfl, -⟩ := string?_of_text h
    simp
  | brokenString h =>
    obtain ⟨quoted, rfl, -⟩ := string?_of_text h
    simp
  | _ => simp

mutual

private theorem value?_of_text {j : Json} {text : List Char} (h : ValueText j text) {rest : List Char}
    (hrest : EndsNumber rest) {steps : Nat} (hsteps : 2 * text.length ≤ steps) :
    value? steps (text ++ rest) = some (j, rest) := by
  -- The proofs follow the derivation. A nested value or item costs a step more and has its own characters, so two
  -- steps for each character are enough. They end with the steps, and only an element passes on all of its own.
  have hpos := h.length_pos
  obtain ⟨n, rfl⟩ : ∃ n, steps = n + 1 := ⟨steps - 1, by omega⟩
  cases h with
  | null => rfl
  | true => rfl
  | false => rfl
  | number h => exact value?_of_numberText h hrest n
  | string h =>
    obtain ⟨quoted, rfl, hread⟩ := string?_of_text h
    simp [value?, skipSpace_cons (c := '"') rfl, hread]
  | brokenString h =>
    obtain ⟨quoted, rfl, hread⟩ := string?_of_text h
    simp [value?, skipSpace_cons (c := '"') rfl, hread]
  | emptyArray h =>
    have hclose : skipSpace (']' :: rest) = ']' :: rest := skipSpace_cons rfl rest
    simp [value?, skipSpace_cons (c := '[') rfl, skipSpace_blanks h, hclose]
  | @array items text h =>
    simp only [List.length_cons, List.length_append] at hsteps
    have hread := items?_of_text h rest (show 2 * text.length + 1 ≤ n by omega)
    rw [List.cons_append, List.append_assoc]
    exact value?_items (skipSpace_cons rfl _) hread
  | emptyObject h =>
    have hclose : skipSpace ('}' :: rest) = '}' :: rest := skipSpace_cons rfl rest
    simp [value?, skipSpace_cons (c := '{') rfl, skipSpace_blanks h, hclose]
  | @object fields text h =>
    simp only [List.length_cons, List.length_append] at hsteps
    have hread := fields?_of_text h rest (show 2 * text.length + 1 ≤ n by omega)
    obtain ⟨quoted, hquoted⟩ := h.starts ('}' :: rest)
    rw [List.cons_append, List.append_assoc]
    exact value?_fields (skipSpace_cons rfl _) hquoted hread
termination_by (steps, 0)

/-- Every text of an element is read as its value, whatever follows that cannot continue a number. -/
theorem value?_of_element {j : Json} {text : List Char} (h : ElementText j text) {rest : List Char}
    (hrest : EndsNumber rest) {steps : Nat} (hsteps : 2 * text.length ≤ steps) :
    ∃ after, Blanks after ∧ value? steps (text ++ rest) = some (j, after ++ rest) := by
  cases h with
  | @padded _ before text after hbefore h hafter =>
    simp only [List.length_append] at hsteps
    have hread := value?_of_text h (endsNumber_blanks hafter hrest) (show 2 * text.length ≤ steps by omega)
    rw [List.append_assoc, List.append_assoc, value?_eq_of_skipSpace (skipSpace_blanks hbefore _)]
    exact ⟨after, hafter, hread⟩
termination_by (steps, 1)

/-- Every text of the items of a list is read as the items. -/
theorem items?_of_text {items : List Json} {text : List Char} (h : ElementsText items text) (rest : List Char)
    {steps : Nat} (hsteps : 2 * text.length + 1 ≤ steps) :
    items? steps (text ++ ']' :: rest) = some (items, rest) := by
  obtain ⟨n, rfl⟩ : ∃ n, steps = n + 1 := ⟨steps - 1, by omega⟩
  cases h with
  | one h =>
    obtain ⟨after, hafter, hread⟩ := value?_of_element h (endsNumber_cons (c := ']') rfl rest)
      (show 2 * text.length ≤ n by omega)
    exact items?_last hread (skipSpace_blanks hafter _)
  | @more j items text others h more =>
    simp only [List.length_append, List.length_cons] at hsteps
    obtain ⟨after, hafter, hread⟩ := value?_of_element h (endsNumber_cons (c := ',') rfl (others ++ ']' :: rest))
      (show 2 * text.length ≤ n by omega)
    have hmore := items?_of_text more rest (show 2 * others.length + 1 ≤ n by omega)
    rw [List.append_assoc]
    exact items?_more hread (skipSpace_blanks hafter _) hmore
termination_by (steps, 0)

/-- Every text of the members of an object is read as the fields. -/
theorem fields?_of_text {fields : List (Option String × Json)} {text : List Char} (h : MembersText fields text)
    (rest : List Char) {steps : Nat} (hsteps : 2 * text.length + 1 ≤ steps) :
    fields? steps (text ++ '}' :: rest) = some (fields, rest) := by
  obtain ⟨n, rfl⟩ : ∃ n, steps = n + 1 := ⟨steps - 1, by omega⟩
  cases h with
  | @one key j name text hkey h =>
    simp only [List.length_append, List.length_cons] at hsteps
    obtain ⟨quoted, padding, hpadding, hquoted, hname⟩ := hkey.starts
    obtain ⟨after, hafter, hread⟩ := value?_of_element h (endsNumber_cons (c := '}') rfl rest)
      (show 2 * text.length ≤ n by omega)
    rw [List.append_assoc]
    exact fields?_last (hquoted _) (hname _) (skipSpace_blanks hpadding _) hread (skipSpace_blanks hafter _)
  | @more key j fields name text others hkey h more =>
    simp only [List.length_append, List.length_cons] at hsteps
    obtain ⟨quoted, padding, hpadding, hquoted, hname⟩ := hkey.starts
    obtain ⟨after, hafter, hread⟩ := value?_of_element h (endsNumber_cons (c := ',') rfl (others ++ '}' :: rest))
      (show 2 * text.length ≤ n by omega)
    have hmore := fields?_of_text more rest (show 2 * others.length + 1 ≤ n by omega)
    rw [List.append_assoc, List.cons_append, List.append_assoc]
    exact fields?_more (hquoted _) (hname _) (skipSpace_blanks hpadding _) hread (skipSpace_blanks hafter _) hmore
termination_by (steps, 0)

end

/-- Every text of the grammar is read as the value it writes. -/
theorem parse?_of_text {j : Json} {text : List Char} (h : ElementText j text) : parse? text = some j := by
  obtain ⟨after, hafter, hread⟩ := value?_of_element h endsNumber_nil
    (show 2 * text.length ≤ 2 * text.length + 2 by omega)
  rw [List.append_nil, List.append_nil] at hread
  have hend : skipSpace after = [] := List.dropWhile_eq_nil_iff.mpr hafter
  unfold parse?
  rw [hread]
  exact if_pos hend

end Values

end EventAtlas.Json
