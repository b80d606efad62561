import EventAtlas.Proofs.Json.Text

namespace EventAtlas.Json

section

variable {α : Type} {write? : α → Option Json} {items : List α}

theorem ofList?_isSome_iff : (ofList? write? items).isSome = true ↔ ∀ a ∈ items, (write? a).isSome = true := by
  rw [ofList?, Option.isSome_map]
  induction items with
  | nil => simp
  | cons a items ih =>
    rw [List.forall_mem_cons, ← ih]
    cases ha : write? a with
    | none => simp [List.mapM_cons, ha]
    | some j => cases hitems : items.mapM write? <;> simp [List.mapM_cons, ha, hitems]

private theorem ofList?_eq_some {write : α → Json} (h : ∀ a ∈ items, write? a = some (write a)) :
    ofList? write? items = some (ofList write items) := by
  have hmap : items.mapM write? = some (items.map write) := by
    induction items with
    | nil => rfl
    | cons a items ih =>
      obtain ⟨ha, hitems⟩ := List.forall_mem_cons.mp h
      simp [List.mapM_cons, ha, ih hitems]
  rw [ofList?, hmap]
  rfl

/-- A list that can be written is written item by item. -/
theorem exists_write_of_ofList? {j : Json} (hj : ofList? write? items = some j) :
    ∃ write : α → Json, (∀ a ∈ items, write? a = some (write a)) ∧ j = ofList write items := by
  have hall := ofList?_isSome_iff.mp (Option.isSome_of_eq_some hj)
  have hsome : ∀ a ∈ items, write? a = some ((write? a).getD .null) := by
    intro a ha
    obtain ⟨k, hk⟩ := Option.isSome_iff_exists.mp (hall a ha)
    rw [hk, Option.getD_some]
  exact ⟨_, hsome, Option.some.inj (hj.symm.trans (ofList?_eq_some hsome))⟩

end

/-- Values whose numbers are natural numbers and whose strings have a text. -/
inductive Plain : Json → Prop where
  | null : Plain null
  | bool (b : Bool) : Plain (bool b)
  | nat (n : Nat) : Plain (nat n)
  | str (s : String) : Plain (str s)
  | arr {items : List Json} (items_plain : ∀ j ∈ items, Plain j) : Plain (arr items)
  | obj {fields : List (String × Json)} (fields_plain : ∀ field ∈ fields, Plain field.2) : Plain (obj fields)

namespace Plain

variable {α : Type} {write : α → Json}

theorem list {items : List α} (h : ∀ a ∈ items, Plain (write a)) : Plain (ofList write items) :=
  .arr (List.forall_mem_map.mpr h)

theorem list? {write? : α → Option Json} {items : List α} {j : Json} (hj : ofList? write? items = some j)
    (h : ∀ a ∈ items, ∀ k, write? a = some k → Plain k) : Plain j := by
  obtain ⟨write, hwrite, rfl⟩ := exists_write_of_ofList? hj
  exact list fun a ha => h a ha _ (hwrite a ha)

theorem strings (texts : List String) : Plain (strings texts) := list fun s _ => .str s

theorem option {o : Option α} (h : ∀ a ∈ o, Plain (write a)) : Plain (ofOption write o) := by
  cases o with
  | none => exact .null
  | some a => exact h a rfl

theorem text? (text : Option String) : Plain (ofOption Json.str text) := option fun s _ => .str s

end Plain

private theorem ofFields_keyed (fields : List (String × Json)) :
    ofFields (fields.map fun field => (some field.1, field.2)) = obj fields := by
  have hkeyed : ((fields.map fun field => (some field.1, field.2)).all (·.1.isSome)) = true := by simp
  unfold ofFields
  rw [if_pos hkeyed, List.map_map]
  simp [Function.comp_def]

namespace Layout

variable {l : Layout}

theorem keyText_line (l : Layout) (depth : Nat) (key : String) :
    KeyText (some key) (l.line depth ++ quote key) := by
  have htext := KeyText.padded (l.line_blank depth) (stringText_quote key) blanks_nil
  rwa [List.append_nil] at htext

private theorem elementsText_write {depth : Nat} {items : List Json} {j : Json}
    (hj : ∀ depth, ValueText j (l.write depth j)) (hitems : ∀ k ∈ items, ∀ depth, ValueText k (l.write depth k)) :
    ∃ text, ElementsText (j :: items) text ∧
      l.line (depth + 1) ++ (l.write (depth + 1) j ++ l.moreItems depth items) = text ++ [']'] := by
  induction items generalizing j with
  | nil =>
    have htext := ElementText.padded (l.line_blank (depth + 1)) (hj (depth + 1)) (l.line_blank depth)
    exact ⟨_, .one htext, by simp [moreItems]⟩
  | cons next items ih =>
    obtain ⟨hnext, hitems⟩ := List.forall_mem_cons.mp hitems
    obtain ⟨others, hothers, heq⟩ := ih hnext hitems
    have htext := ElementText.padded (l.line_blank (depth + 1)) (hj (depth + 1)) blanks_nil
    exact ⟨_, .more htext hothers, by simp [moreItems, heq]⟩

private theorem membersText_write {depth : Nat} {fields : List (String × Json)} (key : String) {j : Json}
    (hj : ∀ depth, ValueText j (l.write depth j))
    (hfields : ∀ field ∈ fields, ∀ depth, ValueText field.2 (l.write depth field.2)) :
    ∃ text, MembersText ((some key, j) :: fields.map fun field => (some field.1, field.2)) text ∧
      l.line (depth + 1) ++ (quote key ++ ':' :: (l.gap ++
        (l.write (depth + 1) j ++ l.moreFields depth fields))) = text ++ ['}'] := by
  have hkey := l.keyText_line (depth + 1) key
  induction fields generalizing key j with
  | nil =>
    have htext := ElementText.padded l.gap_blank (hj (depth + 1)) (l.line_blank depth)
    exact ⟨_, .one hkey htext, by simp [moreFields]⟩
  | cons field fields ih =>
    obtain ⟨next, k⟩ := field
    obtain ⟨hk, hfields⟩ : (∀ depth, ValueText k (l.write depth k)) ∧
        ∀ field ∈ fields, ∀ depth, ValueText field.2 (l.write depth field.2) := List.forall_mem_cons.mp hfields
    obtain ⟨others, hothers, heq⟩ := ih next hk hfields (l.keyText_line (depth + 1) next)
    have htext := ElementText.padded l.gap_blank (hj (depth + 1)) blanks_nil
    exact ⟨_, .more hkey htext hothers, by simp [moreFields, heq]⟩

/-- Any layout writes a plain value in one of its texts. -/
theorem valueText_write (l : Layout) {j : Json} (h : Plain j) (depth : Nat) : ValueText j (l.write depth j) := by
  induction h generalizing depth with
  | null =>
    have hwrite : l.write depth null = ['n', 'u', 'l', 'l'] := by simp [write, atom]
    rw [hwrite]
    exact .null
  | bool b =>
    have hwrite : l.write depth (bool b) = atom (bool b) := by simp [write]
    rw [hwrite]
    cases b with
    | true => exact .true
    | false => exact .false
  | nat n =>
    have hwrite : l.write depth (nat n) = numeral n := by simp [write, atom]
    rw [hwrite]
    exact .number (numberText_numeral n)
  | str s =>
    have hwrite : l.write depth (str s) = quote s := by simp [write, atom]
    rw [hwrite]
    exact .string (stringText_quote s)
  | @arr items _ ih =>
    cases items with
    | nil =>
      rw [write]
      exact .emptyArray blanks_nil
    | cons j items =>
      obtain ⟨hj, hitems⟩ := List.forall_mem_cons.mp ih
      obtain ⟨text, htext, heq⟩ := elementsText_write hj hitems
      rw [write, heq]
      exact .array htext
  | @obj fields _ ih =>
    cases fields with
    | nil =>
      rw [write]
      exact .emptyObject blanks_nil
    | cons field fields =>
      obtain ⟨key, j⟩ := field
      obtain ⟨hj, hfields⟩ : (∀ depth, ValueText j (l.write depth j)) ∧
          ∀ field ∈ fields, ∀ depth, ValueText field.2 (l.write depth field.2) := List.forall_mem_cons.mp ih
      obtain ⟨text, htext, heq⟩ := membersText_write key hj hfields
      rw [write, heq, ← ofFields_keyed]
      exact .object htext

theorem elementText_write (l : Layout) {j : Json} (h : Plain j) : ElementText j (l.write 0 j) := by
  have htext := ElementText.padded blanks_nil (l.valueText_write h 0) blanks_nil
  rwa [List.append_nil] at htext

/-- What is written is read back. -/
theorem parse?_write (l : Layout) {j : Json} (h : Plain j) : parse? (l.write 0 j) = some j :=
  parse?_of_text (l.elementText_write h)

section OneLine

variable (hline : ∀ depth, '\n' ∉ l.line depth) (hgap : '\n' ∉ l.gap)
include hline

private theorem newline_not_mem_moreItems {items : List Json} (h : ∀ j ∈ items, ∀ depth, '\n' ∉ l.write depth j)
    (depth : Nat) : '\n' ∉ l.moreItems depth items := by
  induction items with
  | nil => simp [moreItems, hline]
  | cons j items ih =>
    obtain ⟨hj, hitems⟩ := List.forall_mem_cons.mp h
    simp [moreItems, hline, hj, ih hitems]

include hgap

private theorem newline_not_mem_moreFields {fields : List (String × Json)}
    (h : ∀ field ∈ fields, ∀ depth, '\n' ∉ l.write depth field.2) (depth : Nat) :
    '\n' ∉ l.moreFields depth fields := by
  induction fields with
  | nil => simp [moreFields, hline]
  | cons field fields ih =>
    obtain ⟨hfield, hfields⟩ := List.forall_mem_cons.mp h
    simp [moreFields, hline, hgap, newline_not_mem_quote, hfield, ih hfields]

/-- A layout without newlines writes none: those in strings are escaped. -/
theorem newline_not_mem_write {j : Json} (h : Plain j) (depth : Nat) : '\n' ∉ l.write depth j := by
  induction h generalizing depth with
  | null => simp [write, atom]
  | bool b => cases b <;> simp [write, atom]
  | nat n =>
    have hwrite : l.write depth (nat n) = numeral n := by simp [write, atom]
    rw [hwrite]
    intro hmem
    exact absurd (isDigit_of_mem_numeral hmem) (by decide)
  | str s => simpa [write, atom] using newline_not_mem_quote s
  | @arr items _ ih =>
    cases items with
    | nil => simp [write]
    | cons j items =>
      obtain ⟨hj, hitems⟩ := List.forall_mem_cons.mp ih
      simp [write, hline, hj, newline_not_mem_moreItems hline hitems]
  | @obj fields _ ih =>
    cases fields with
    | nil => simp [write]
    | cons field fields =>
      obtain ⟨hfield, hfields⟩ := List.forall_mem_cons.mp ih
      simp [write, hline, hgap, newline_not_mem_quote, hfield, newline_not_mem_moreFields hline hgap hfields]

end OneLine

end Layout

/-- A value is read back from its text on one line. -/
theorem parse?_compact {j : Json} (h : Plain j) : parse? j.compact = some j := Layout.dense.parse?_write h

/-- A value is read back from its indented text. -/
theorem parse?_pretty {j : Json} (h : Plain j) : parse? j.pretty = some j := Layout.indented.parse?_write h

/-- The compact text of a value is one line. -/
theorem newline_not_mem_compact {j : Json} (h : Plain j) : '\n' ∉ j.compact :=
  Layout.newline_not_mem_write (fun _ => List.not_mem_nil) List.not_mem_nil h 0

end EventAtlas.Json
