import EventAtlas.Proofs.Module.GeneratedNames
import Mathlib.Data.List.TakeWhile

namespace EventAtlas.Module

open Text

theorem mem_upTo {p : Char → Bool} {s : List Char} {c : Char} (h : c ∈ upTo p s) : c ∈ s ∧ ¬p c = true := by
  have hkept := List.mem_takeWhile_imp (p := (!p ·)) h
  exact ⟨(List.takeWhile_sublist _).subset h, by simpa using hkept⟩

theorem upTo_eq_self {p : Char → Bool} {s : List Char} (h : ∀ c ∈ s, ¬p c = true) : upTo p s = s := by
  rw [upTo, List.takeWhile_eq_self_iff]
  intro c hc
  simp [h c hc]

private theorem mem_lastSegment {p : Char → Bool} {s : List Char} {c : Char} (h : c ∈ lastSegment p s) :
    c ∈ s ∧ ¬p c = true := by
  unfold lastSegment at h
  cases hsplit : splitLast? p s with
  | none =>
    rw [hsplit] at h
    exact ⟨h, List.any_eq_false.mp (splitLast?_eq_none_iff.mp hsplit) c h⟩
  | some cut =>
    rw [hsplit] at h
    obtain ⟨mark, -, hafter, rfl⟩ := eq_append_of_splitLast? hsplit
    exact ⟨List.mem_append_right _ (List.mem_cons_of_mem _ h), List.any_eq_false.mp hafter c h⟩

private theorem lastSegment_eq_self {p : Char → Bool} {s : List Char} (h : ∀ c ∈ s, ¬p c = true) :
    lastSegment p s = s := by
  rw [lastSegment, splitLast?_eq_none_iff.mpr (List.any_eq_false.mpr h)]

theorem dropArguments_of_head {name : List Char} (h : name.head? ≠ some '<') :
    dropArguments name = upTo (· == '<') name := by
  unfold dropArguments
  split
  · simp at h
  · rfl

private theorem mem_of_mem_dropArguments {name : List Char} {c : Char} (h : c ∈ dropArguments name) : c ∈ name := by
  unfold dropArguments at h
  split at h
  · exact h
  · exact (mem_upTo h).1

/-- Stripping generated segments leaves the start of a name. -/
theorem head?_sourceTypeName (name : List Char) : (sourceTypeName name).head? = name.head? := by
  induction hlength : name.length using Nat.strong_induction_on generalizing name with
  | _ length ih =>
    by_cases hgenerated : ∃ owner, GeneratedFor owner name
    · obtain ⟨owner, howner⟩ := hgenerated
      rw [sourceTypeName_of_generatedFor howner, ih _ (hlength ▸ howner.length_lt) owner rfl]
      obtain ⟨hne, mark, rest, -, -, rfl⟩ := howner
      exact (List.head?_append_of_ne_nil owner hne).symm
    · rw [sourceTypeName_of_plain (not_exists.mp hgenerated)]

/-- The marks that divide a type name into its parts, and the one before its arity. -/
def dividers : List Char := ['.', '/', '+', '\x60']

/-- A name without parts, arity and type arguments. -/
structure IsSimple (name : List Char) : Prop where
  undivided : ∀ c ∈ name, c ∉ dividers
  plain : '<' ∉ name

theorem mem_dividers_iff {c : Char} : c ∈ dividers ↔ (c == '.' || isNestingMark c) = true ∨ (c == '\x60') = true := by
  simp [dividers, isNestingMark, or_assoc]

theorem mem_source_of_mem_bareName {name : List Char} {c : Char} (h : c ∈ bareName name) :
    c ∈ dropArguments (upTo (· == '\x60') (sourceTypeName name)) ∧ c ∉ dividers := by
  obtain ⟨hbare, hmark⟩ := mem_lastSegment h
  have harity := (mem_upTo (mem_of_mem_dropArguments hbare)).2
  rw [mem_dividers_iff, not_or]
  exact ⟨hbare, hmark, harity⟩

private theorem isSimple_bareName {name : List Char} (h : name.head? ≠ some '<') : IsSimple (bareName name) where
  undivided c hc := (mem_source_of_mem_bareName hc).2
  plain hmem := by
    have hhead : (upTo (· == '\x60') (sourceTypeName name)).head? ≠ some '<' := by
      intro hopen
      obtain ⟨rest, hrest⟩ := List.head?_eq_some_iff.mp hopen
      obtain ⟨more, hmore⟩ : upTo (· == '\x60') (sourceTypeName name) <+: sourceTypeName name :=
        List.takeWhile_prefix _
      apply h
      rw [← head?_sourceTypeName, ← hmore, hrest]
      rfl
    have hbare := (mem_source_of_mem_bareName hmem).1
    rw [dropArguments_of_head hhead] at hbare
    exact (mem_upTo hbare).2 rfl

/-- Nothing is cut from a simple name. -/
theorem bareName_of_isSimple {name : List Char} (h : IsSimple name) : bareName name = name := by
  have hmark {c : Char} (hc : c ∈ name) : ¬(c == '.' || isNestingMark c) = true ∧ ¬(c == '\x60') = true := by
    have hdivider := h.undivided c hc
    rwa [mem_dividers_iff, not_or] at hdivider
  have hsource : sourceTypeName name = name := by
    apply sourceTypeName_of_plain
    intro owner howner
    obtain ⟨-, mark, rest, hnesting, -, hname⟩ := howner
    have hmem : mark ∈ name := by simp [hname]
    exact (hmark hmem).1 (by simp [hnesting])
  have hhead : name.head? ≠ some '<' := by
    intro hopen
    exact h.plain (List.mem_of_head? hopen)
  have harguments : dropArguments name = name := by
    rw [dropArguments_of_head hhead]
    apply upTo_eq_self
    intro c hc hopen
    exact h.plain (beq_iff_eq.mp hopen ▸ hc)
  rw [bareName, hsource, upTo_eq_self fun c hc => (hmark hc).2, harguments]
  exact lastSegment_eq_self fun c hc => (hmark hc).1

private theorem simpleName_cases (name : String) :
    simpleName name = name ∨ bareName name.toList ≠ [] ∧ (simpleName name).toList = bareName name.toList := by
  unfold simpleName
  rw [simpleChars_eq, String.toList_ofList]
  split_ifs with hbare
  · exact .inl String.ofList_toList
  · exact .inr ⟨hbare, rfl⟩

/-- The simple name of a type is empty only where the name is. It is the name itself, or no divider is left in it.
Where the name does not start with a bracket, what is left has no type arguments either, and nothing more is cut from
it. -/
theorem simpleName_settled (name : String) :
    (name ≠ "" → simpleName name ≠ "") ∧
      (simpleName name = name ∨ ∀ c ∈ (simpleName name).toList, c ∉ ['.', '/', '+', '\x60']) ∧
      (name.toList.head? ≠ some '<' →
        simpleName (simpleName name) = simpleName name ∧
          (simpleName name ≠ name → '<' ∉ (simpleName name).toList)) := by
  rcases simpleName_cases name with hsame | ⟨hbare, hlist⟩
  · rw [hsame]
    exact ⟨id, .inl rfl, fun _ => ⟨hsame, fun hne => absurd rfl hne⟩⟩
  · refine ⟨?_, .inr ?_, ?_⟩
    · intro _ hempty
      rw [hempty] at hlist
      exact hbare hlist.symm
    · rw [hlist]
      exact fun c hc => (mem_source_of_mem_bareName hc).2
    · intro hhead
      have hsettled := isSimple_bareName hhead
      refine ⟨?_, fun _ => hlist ▸ hsettled.plain⟩
      apply String.toList_inj.mp
      rw [simpleName, String.toList_ofList, hlist, simpleChars_eq, bareName_of_isSimple hsettled, if_neg hbare]

/-- A type that was generated for a nested type with type arguments. -/
def generatedLine : String := "Shop.Cart/Line<Shop.Item`1>+<Run>d__3"

theorem generatedLine_simpleName_settled :
    simpleName generatedLine = "Line" ∧ simpleName generatedLine ≠ "" ∧
      simpleName (simpleName generatedLine) = simpleName generatedLine ∧ '<' ∉ (simpleName generatedLine).toList := by
  have hline : simpleName generatedLine = "Line" := by decide
  obtain ⟨hsome, -, hagain⟩ := simpleName_settled generatedLine
  obtain ⟨htwice, hplain⟩ := hagain (by decide)
  exact ⟨hline, hsome (by decide), htwice, hplain (by decide)⟩

example : simpleName "<Run>.Cart<Item" = "Cart<Item" ∧ simpleName "Cart<Item" = "Cart" := by decide

end EventAtlas.Module
