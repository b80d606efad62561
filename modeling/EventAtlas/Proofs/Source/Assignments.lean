import EventAtlas.Proofs.Source.Tracing

namespace EventAtlas.Source

open Recognizer CSharp Text

section Occurrences

variable {identifier : List Char} {c : Cursor} {places : List (Cursor × Cursor)}
  (hscan : Scan (Occurs identifier) c places)

include hscan

/-- What a scan meets are occurrences in the text. -/
theorem exists_front_of_mem_scan {place : Cursor × Cursor} (hplace : place ∈ places) :
    ∃ front, c.After front place.1 ∧ place.1.After identifier place.2 := by
  induction hscan with
  | nil before => cases hplace
  | skip _ _ ih =>
    obtain ⟨front, hfront, hread⟩ := ih hplace
    exact ⟨_ :: front, Cursor.after_cons.mpr ⟨_, rfl, hfront⟩, hread⟩
  | hit hoccurs _ ih =>
    obtain ⟨rfl, hafter⟩ := hoccurs
    rcases List.mem_cons.mp hplace with rfl | hplace
    · exact ⟨[], Cursor.after_nil.mpr rfl, hafter⟩
    · obtain ⟨front, hfront, hread⟩ := ih hplace
      exact ⟨identifier ++ front, hafter.trans hfront, hread⟩

/-- A scan meets every occurrence of a name that does not continue another name. One that it passes over starts
inside the occurrence before it, behind a character of the name. -/
theorem mem_scan_of_startsName (hne : identifier ≠ []) (hname : ∀ x ∈ identifier, isVariableChar x = true)
    {front : List Char} {start stop : Cursor} (hfront : c.After front start) (hread : start.After identifier stop)
    (hstart : start.before.any isVariableChar = false) : (start, stop) ∈ places := by
  induction hscan generalizing front with
  | nil before =>
    have hnil : [] = front ++ (identifier ++ stop.rest) := hread.rest ▸ hfront.rest
    simp [hne] at hnil
  | skip hnone _ ih =>
    cases front with
    | nil =>
      obtain rfl := Cursor.after_nil.mp hfront
      exact absurd ⟨rfl, hread⟩ (hnone _ stop)
    | cons x front =>
      obtain ⟨rest, hrest, hafter⟩ := Cursor.after_cons.mp hfront
      obtain ⟨rfl, rfl⟩ := List.cons.inj hrest
      exact ih hafter
  | @hit c c' ends items hoccurs _ ih =>
    obtain ⟨rfl, hafter⟩ := hoccurs
    rcases List.append_eq_append_iff.mp (hafter.rest.symm.trans hfront.rest) with
      ⟨more, rfl, -⟩ | ⟨more, hidentifier, -⟩
    · exact List.mem_cons_of_mem _ (ih (hfront.of_append hafter))
    · cases hlast : front.getLast? with
      | none =>
        obtain rfl := List.getLast?_eq_none_iff.mp hlast
        obtain rfl := Cursor.after_nil.mp hfront
        rw [hafter.unique hread]
        exact List.mem_cons_self
      | some x =>
        have hx : x ∈ identifier := hidentifier ▸ List.mem_append_left _ (List.mem_of_getLast? hlast)
        rw [hfront.before, hlast] at hstart
        simp [hname x hx] at hstart

end Occurrences

/-- A line assigns to a variable exactly if its name stands somewhere on the line as a name of its own, also where
occurrences overlap, and an equals sign that assigns follows. -/
theorem assignsTo_iff_stands (line : Line) {identifier : List Char} (hne : identifier ≠ [])
    (hname : ∀ x ∈ identifier, isVariableChar x = true) :
    assignsTo line identifier = true ↔
      ∃ front back, line = front ++ identifier ++ back ∧ AssignedAt front.getLast? back := by
  rw [assignsTo_iff]
  constructor
  · intro h
    obtain ⟨-, places, hscan, place, hplace, hassigned⟩ := h
    obtain ⟨front, hfront, hread⟩ := exists_front_of_mem_scan hscan hplace
    have hbefore : place.1.before = front.getLast? := by rw [hfront.before, Option.or_none]
    refine ⟨front, place.2.rest, ?_, hbefore ▸ hassigned⟩
    rw [List.append_assoc, ← hread.rest]
    exact hfront.rest
  · intro h
    obtain ⟨front, back, rfl, hassigned⟩ := h
    have hscan := (occurrence_prefers hne).scan_findFrom ⟨none, front ++ identifier ++ back⟩
    have hfront : Cursor.After ⟨none, front ++ identifier ++ back⟩ front ⟨front.getLast?, identifier ++ back⟩ :=
      ⟨List.append_assoc _ _ _, (Option.or_none).symm⟩
    have hread : Cursor.After ⟨front.getLast?, identifier ++ back⟩ identifier
      ⟨identifier.getLast?.or front.getLast?, back⟩ := ⟨rfl, rfl⟩
    exact ⟨hne, _, hscan, _, mem_scan_of_startsName hscan hne hname hfront hread hassigned.startsName, hassigned⟩

theorem overlappingName_stands :
    "aa".toList ≠ [] ∧ (∀ x ∈ "aa".toList, isVariableChar x = true) ∧
      assignsTo "aaa.aa \t= aa == 1;".toList "aa".toList = true := by
  have hne : "aa".toList ≠ [] := by decide
  have hname : ∀ x ∈ "aa".toList, isVariableChar x = true := List.all_eq_true.mp (by decide +kernel)
  have hassigned : AssignedAt "aaa.".toList.getLast? " \t= aa == 1;".toList :=
    ⟨by decide +kernel, by decide +kernel, " \t".toList, " aa == 1;".toList, rfl,
      List.all_eq_true.mp (by decide +kernel), by decide, by decide⟩
  exact ⟨hne, hname, (assignsTo_iff_stands _ hne hname).mpr ⟨_, _, rfl, hassigned⟩⟩

example : assignsTo "a a a = 1;".toList "a a".toList = false := by decide +kernel

end EventAtlas.Source
