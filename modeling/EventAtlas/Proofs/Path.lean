import EventAtlas.Path
import EventAtlas.Proofs.RawText
import EventAtlas.Proofs.Text.Search

namespace EventAtlas

open Std
open RawText (slash dot)

namespace Path

instance : TransOrd Component := inferInstanceAs (TransCmp (compareLex _ _))

instance : LawfulEqOrd Component where
  eq_of_compare {a b} h := by
    obtain ⟨hrank, hlabel⟩ := compareLex_eq_eq.mp h
    have hrank : a.rank = b.rank := LawfulEqOrd.eq_of_compare hrank
    have hlabel : a.label = b.label := LawfulEqOrd.eq_of_compare hlabel
    cases a <;> cases b <;> simp_all [Component.rank, Component.label, RawText.ext_iff]

instance : TransOrd Path := inferInstanceAs (TransCmp (compareOn components))

theorem same_iff {p q : Path} : p.same q = true ↔ p.components = q.components := beq_iff_eq

/-- The order of paths ties exactly the paths with the same components. -/
theorem compare_eq_iff {p q : Path} : compare p q = .eq ↔ p.components = q.components :=
  LawfulEqOrd.compare_eq_iff_eq (a := p.components) (b := q.components)

/-- A name that a directory entry can have. -/
structure IsEntryName (name : RawText) : Prop where
  ne_empty : name ≠ ""
  ne_current : name ≠ "."
  ne_parent : name ≠ ".."
  no_slash : slash ∉ name.bytes

instance (name : RawText) : Decidable (IsEntryName name) :=
  decidable_of_iff (name ≠ "" ∧ name ≠ "." ∧ name ≠ ".." ∧ slash ∉ name.bytes)
    ⟨fun h => ⟨h.1, h.2.1, h.2.2.1, h.2.2.2⟩,
      fun h => ⟨h.ne_empty, h.ne_current, h.ne_parent, h.no_slash⟩⟩

theorem IsEntryName.bytes_ne_nil {name : RawText} (h : IsEntryName name) : name.bytes ≠ [] :=
  fun he => h.ne_empty (congrArg RawText.mk he)

theorem IsEntryName.bytes_ne_dot {name : RawText} (h : IsEntryName name) : name.bytes ≠ [dot] :=
  fun he => h.ne_current (congrArg RawText.mk he)

theorem step?_entryName {name : RawText} (h : IsEntryName name) :
    step? name.bytes = some (.name name) := by
  have h0 := h.bytes_ne_nil
  have h1 := h.bytes_ne_dot
  have h2 : name.bytes ≠ [dot, dot] := fun he => h.ne_parent (congrArg RawText.mk he)
  simp [step?, h0, h1, h2]

theorem pieces_entryName {name : RawText} (h : IsEntryName name) :
    pieces name.bytes = [name.bytes] :=
  Text.splitAtMark_of_not_mem h.no_slash

theorem start_append_slash {s : List UInt8} (hs : s ≠ []) (t : List UInt8) :
    start (s ++ slash :: t) = start s := by
  have hhead : (s ++ slash :: t).head? = s.head? := List.head?_append_of_ne_nil _ hs
  have hpieces : (pieces (s ++ slash :: t)).head? = (pieces s).head? := by
    rw [pieces, Text.splitAtMark_append_mark]
    exact List.head?_append_of_ne_nil _ (Text.splitAtMark_ne_nil slash s)
  unfold start
  rw [hhead, hpieces]

private theorem start_entryName {name : RawText} (h : IsEntryName name) : start name.bytes = [] := by
  have hslash : name.bytes.head? ≠ some slash := fun he => h.no_slash (List.mem_of_mem_head? he)
  have hdot : (pieces name.bytes).head? ≠ some [dot] := by
    simpa [pieces_entryName h] using h.bytes_ne_dot
  rw [start, if_neg hslash, if_neg hdot]

/-- The pieces of a text are those before a slash and those behind it. -/
theorem pieces_append_slash (s t : List UInt8) : pieces (s ++ slash :: t) = pieces s ++ pieces t :=
  Text.splitAtMark_append_mark slash s t

/-- A slash at the end of a text is no step. -/
theorem components_append_slash {s : List UInt8} (hs : s ≠ []) :
    components ⟨⟨s ++ [slash]⟩⟩ = components ⟨⟨s⟩⟩ := by
  unfold components
  rw [start_append_slash hs, pieces_append_slash, List.filterMap_append]
  exact congrArg (_ ++ ·) (List.append_nil _)

/-- Behind a slash a name is one more step. -/
theorem components_append_slash_name (s : List UInt8) {name : RawText} (h : IsEntryName name) :
    components ⟨⟨s ++ slash :: name.bytes⟩⟩ = components ⟨⟨s ++ [slash]⟩⟩ ++ [.name name] := by
  have hstart : start (s ++ slash :: name.bytes) = start (s ++ [slash]) := by
    by_cases hs : s = []
    · subst hs
      rfl
    · rw [start_append_slash hs, start_append_slash hs]
  have hlast : (pieces name.bytes).filterMap step? = [.name name] := by
    simp [pieces_entryName h, step?_entryName h]
  unfold components
  rw [hstart, pieces_append_slash, pieces_append_slash, List.filterMap_append, List.filterMap_append, hlast,
    List.append_assoc, List.append_assoc]
  rfl

/-- A name that is joined to a path is its new last component. -/
theorem components_join (p : Path) {name : RawText} (h : IsEntryName name) :
    (p.join name).components = p.components ++ [.name name] := by
  unfold join
  split_ifs with hempty hslash
  · have hnone : p.components = [] := by
      rw [components, hempty]
      rfl
    rw [hnone, components, start_entryName h, pieces_entryName h]
    simp [step?_entryName h]
  · obtain ⟨before, hbefore⟩ := List.getLast?_eq_some_iff.mp hslash
    obtain rfl : p = ⟨⟨before ++ [slash]⟩⟩ := by
      rw [← hbefore]
    rw [← components_append_slash_name before h]
    exact congrArg (fun bytes => components ⟨⟨bytes⟩⟩) (List.append_assoc before [slash] name.bytes)
  · rw [← components_append_slash hempty, ← components_append_slash_name p.text.bytes h]
    exact congrArg (fun bytes => components ⟨⟨bytes⟩⟩) (List.append_assoc p.text.bytes [slash] name.bytes)

end Path

end EventAtlas
