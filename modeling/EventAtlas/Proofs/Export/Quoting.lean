import EventAtlas.Export.Cypher
import Mathlib.Tactic.Common

namespace EventAtlas.Cypher

/-- The character that is meant by one behind a backslash. -/
def unescape (c : Char) : Char := if c = 'n' then '\n' else c

/-- The value of a literal from behind its opening quote on, and what comes behind its closing quote. A
backslash takes the next character with it. -/
def readQuoted : List Char → Option (List Char × List Char)
  | [] => none
  | '\'' :: rest => some ([], rest)
  | '\\' :: c :: rest => (readQuoted rest).map fun (value, after) => (unescape c :: value, after)
  | c :: rest => (readQuoted rest).map fun (value, after) => (c :: value, after)

/-- Reads a literal at the start of a text. -/
def readLiteral : List Char → Option (List Char × List Char)
  | '\'' :: rest => readQuoted rest
  | _ => none

def withoutReturns (s : List Char) : List Char := s.filter (· != '\r')

theorem withoutReturns_eq_self {s : List Char} (h : '\r' ∉ s) : withoutReturns s = s := by
  rw [withoutReturns, List.filter_eq_self]
  intro c hc
  rw [bne_iff_ne]
  rintro rfl
  exact h hc

private theorem readQuoted_cons {c : Char} (hquote : c ≠ '\'') (hbackslash : c ≠ '\\') (rest : List Char) :
    readQuoted (c :: rest) = (readQuoted rest).map fun (value, after) => (c :: value, after) := by
  rw [readQuoted]
  · exact hquote
  · intro _ _ h _
    exact hbackslash h

/-- What becomes of a character in a literal: a pair with a backslash, nothing, or itself. -/
theorem escapeChar_cases (c : Char) :
    (∃ e, escapeChar c = ['\\', e] ∧ e ≠ '\n' ∧ unescape e = c ∧ c ≠ '\r') ∨ (escapeChar c = [] ∧ c = '\r') ∨
      (escapeChar c = [c] ∧ c ≠ '\'' ∧ c ≠ '\\' ∧ c ≠ '\n' ∧ c ≠ '\r') := by
  unfold escapeChar
  split
  · exact .inl ⟨'\\', by decide⟩
  · exact .inl ⟨'\'', by decide⟩
  · exact .inl ⟨'n', by decide⟩
  · exact .inr (.inl ⟨rfl, rfl⟩)
  · rename_i hbackslash hquote hnewline hreturn
    exact .inr (.inr ⟨rfl, hquote, hbackslash, hnewline, hreturn⟩)

/-- An escaped value ends at its own closing quote, whatever comes behind it. -/
theorem readQuoted_escaped (value rest : List Char) :
    readQuoted (value.flatMap escapeChar ++ '\'' :: rest) = some (withoutReturns value, rest) := by
  induction value with
  | nil => rfl
  | cons c value ih =>
    rw [List.flatMap_cons, List.append_assoc]
    obtain ⟨e, hescape, _, hmeant, hreturn⟩ | ⟨hescape, rfl⟩ | ⟨hescape, hquote, hbackslash, _, hreturn⟩ :=
      escapeChar_cases c
    · rw [hescape, List.cons_append, List.singleton_append, readQuoted, ih, Option.map_some, hmeant]
      simp [withoutReturns, hreturn]
    · rw [hescape, List.nil_append, ih]
      rfl
    · rw [hescape, List.singleton_append, readQuoted_cons hquote hbackslash, ih, Option.map_some]
      simp [withoutReturns, hreturn]

theorem literal_append (value : String) (rest : List Char) :
    literal value ++ rest = '\'' :: (value.toList.flatMap escapeChar ++ '\'' :: rest) := by
  simp [literal]

/-- A literal is read back as its value without carriage returns. -/
theorem readLiteral_append (value : String) (rest : List Char) :
    readLiteral (literal value ++ rest) = some (withoutReturns value.toList, rest) := by
  rw [literal_append]
  exact readQuoted_escaped value.toList rest

/-- A value without carriage returns can be told from its literal, whatever follows. -/
theorem literal_append_inj {value value' : String} {rest rest' : List Char} (h : '\r' ∉ value.toList)
    (h' : '\r' ∉ value'.toList) (heq : literal value ++ rest = literal value' ++ rest') :
    value = value' ∧ rest = rest' := by
  have hread := congrArg readLiteral heq
  rw [readLiteral_append, readLiteral_append, withoutReturns_eq_self h, withoutReturns_eq_self h'] at hread
  obtain ⟨hvalue, hrest⟩ := Prod.mk.inj (Option.some.inj hread)
  exact ⟨String.toList_inj.mp hvalue, hrest⟩

theorem newline_not_mem_literal (value : String) : '\n' ∉ literal value := by
  have hescape (c : Char) : '\n' ∉ escapeChar c := by
    obtain ⟨e, hescape, he, _⟩ | ⟨hescape, _⟩ | ⟨hescape, _, _, hc, _⟩ := escapeChar_cases c
    · simp [hescape, Ne.symm he]
    · simp [hescape]
    · simp [hescape, Ne.symm hc]
  simp [literal, List.mem_flatMap, hescape]

private theorem readQuoted_length {s value after : List Char} (h : readQuoted s = some (value, after)) :
    after.length < s.length := by
  fun_induction readQuoted s generalizing value after with
  | case1 => simp at h
  | case2 rest =>
    obtain ⟨-, rfl⟩ := Prod.mk.inj (Option.some.inj h)
    simp
  | case3 c rest ih =>
    obtain ⟨⟨_, _⟩, hrest, heq⟩ := Option.map_eq_some_iff.mp h
    obtain ⟨-, rfl⟩ := Prod.mk.inj heq
    have := ih hrest
    simp only [List.length_cons]
    omega
  | case4 c rest _ _ ih =>
    obtain ⟨⟨_, _⟩, hrest, heq⟩ := Option.map_eq_some_iff.mp h
    obtain ⟨-, rfl⟩ := Prod.mk.inj heq
    have := ih hrest
    simp only [List.length_cons]
    omega

/-- The values of all literals in a text, read from its start on. A literal without an end has none. -/
def quotedValues : List Char → List (List Char)
  | [] => []
  | c :: rest =>
    if c = '\'' then
      match _ : readQuoted rest with
      | some (value, after) => value :: quotedValues after
      | none => []
    else quotedValues rest
termination_by s => s.length
decreasing_by
  · have := readQuoted_length ‹readQuoted rest = _›
    simp only [List.length_cons]
    omega
  · simp

theorem quotedValues_append {s : List Char} (h : '\'' ∉ s) (rest : List Char) :
    quotedValues (s ++ rest) = quotedValues rest := by
  induction s with
  | nil => rfl
  | cons c s ih =>
    obtain ⟨hc, hs⟩ := not_or.mp (List.mem_cons.not.mp h)
    rw [List.cons_append, quotedValues, if_neg (Ne.symm hc), ih hs]

theorem quotedValues_literal (value : String) (rest : List Char) :
    quotedValues (literal value ++ rest) = withoutReturns value.toList :: quotedValues rest := by
  rw [literal_append, quotedValues, if_pos rfl]
  split
  · rename_i found after hread
    rw [readQuoted_escaped] at hread
    obtain ⟨rfl, rfl⟩ := Prod.mk.inj (Option.some.inj hread)
    rfl
  · rename_i hread
    rw [readQuoted_escaped] at hread
    simp at hread

end EventAtlas.Cypher
