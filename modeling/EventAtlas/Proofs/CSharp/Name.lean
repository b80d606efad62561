import EventAtlas.CSharp.Scope
import EventAtlas.Proofs.Recognizer
import EventAtlas.Proofs.Text.Letters

namespace EventAtlas.CSharp

open Recognizer Text

/-- A first character with `start`, and then word characters. -/
def SpelledBy (start : Char → Bool) (name : List Char) : Prop :=
  ∃ first rest, name = first :: rest ∧ start first = true ∧ ∀ c ∈ rest, isWord c = true

/-- A letter of ASCII or an underscore, and then word characters. -/
def IsPlainName (name : String) : Prop := SpelledBy isNameStart name.toList

/-- What starts a name in any case of its letters: besides a letter of ASCII and an underscore also one of the two
signs that fold to a letter. -/
def isFoldedStart (c : Char) : Bool := isNameStart c || foldedSigns.contains c

/-- A single name, in any case of its letters. -/
structure IsIdentifier (name : String) : Prop where
  spelled : SpelledBy isFoldedStart name.toList
  no_dot : '.' ∉ name.toList

/-- A dot is neither a word character nor does a name start with it. -/
theorem isIdentifier_of_spelled {name : List Char} (h : SpelledBy isFoldedStart name) :
    IsIdentifier (String.ofList name) := by
  refine ⟨by rwa [String.toList_ofList], ?_⟩
  obtain ⟨first, rest, rfl, hfirst, hrest⟩ := h
  rw [String.toList_ofList]
  intro hdot
  rcases List.mem_cons.mp hdot with rfl | hdot
  · exact absurd hfirst (by decide)
  · exact absurd (hrest '.' hdot) (by decide)

theorem SpelledBy.isIdentifier {name : List Char} (h : SpelledBy isNameStart name) :
    IsIdentifier (String.ofList name) := by
  obtain ⟨first, rest, rfl, hfirst, hrest⟩ := h
  exact isIdentifier_of_spelled ⟨first, rest, rfl, by simp [isFoldedStart, hfirst], hrest⟩

theorem IsPlainName.isIdentifier {name : String} (h : IsPlainName name) : IsIdentifier name := by
  rw [← String.ofList_toList (s := name)]
  exact SpelledBy.isIdentifier h

/-- A name is read as it is spelled. -/
theorem nameBy_yields (start : Char → Bool) : (nameBy start).Yields (SpelledBy start) := by
  intro c s c' h
  obtain ⟨hread, rfl⟩ := mem_text.mp h
  obtain ⟨_, mid, hfirst, hrun⟩ := mem_bind.mp hread
  obtain ⟨first, hstart, hc, -⟩ := mem_one.mp hfirst
  obtain ⟨rest, hmid, hrest, -⟩ := mem_run.mp hrun
  refine ⟨first, rest, ?_, hstart, hrest⟩
  rw [hc, hmid, ← List.cons_append, List.length_append, Nat.add_sub_cancel, List.take_left]

/-- What a name reads is an identifier. -/
theorem name_yields : name.Yields fun s => IsIdentifier (String.ofList s) := by
  intro c s c' h
  exact (nameBy_yields isNameStart c s c' h).isIdentifier

theorem foldedName_yields :
    (nameBy fun c => isNameStart (fold c)).Yields fun s => IsIdentifier (String.ofList s) := by
  intro c s c' h
  obtain ⟨first, rest, rfl, hfirst, hrest⟩ := nameBy_yields _ c s c' h
  refine isIdentifier_of_spelled ⟨first, rest, rfl, ?_, hrest⟩
  rw [isFoldedStart, Bool.or_eq_true, List.contains_iff_mem]
  exact isNameStart_of_fold hfirst

theorem dotted_yields : dotted.Yields fun s => IsIdentifier (String.ofList s) :=
  .skip fun _ => name_yields

theorem typeArgument_yields : typeArgument.Yields fun s => IsIdentifier (String.ofList s) := by
  iterate 3 refine .skip fun _ => ?_
  refine .bind dotted_yields fun _ hname => ?_
  iterate 2 refine .skip fun _ => ?_
  exact .pure hname

end EventAtlas.CSharp
