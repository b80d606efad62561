import EventAtlas.Proofs.Report.Monotonicity
import EventAtlas.Proofs.Text.Sigma

namespace EventAtlas

private theorem length_eq_of_sameAscii {s t : List Char} (h : Text.sameAscii s t = true) : s.length = t.length := by
  have hmap : s.map Char.toLower = t.map Char.toLower := beq_iff_eq.mp h
  simpa using congrArg List.length hmap

/-- Every name that contains a definition's name refers to it exactly if no capital sigma of the definition's
name is open, that is, takes its form from what stands around the name. -/
theorem refersTo_containing_iff (definition : String) (hne : definition ≠ "") :
    (∀ p s : String, refersTo (p ++ definition ++ s) definition = true) ↔
      Text.SigmasSettled definition.toList := by
  constructor
  · intro h
    by_contra hopen
    obtain ⟨p, s, hps, hlower⟩ := Text.exists_surroundings_of_open hopen
    have hrefers := h (String.ofList p) (String.ofList s)
    simp only [refersTo_iff, String.toList_append, String.toList_ofList] at hrefers
    rcases hrefers with hsame | ⟨-, hpart⟩
    · have hlength := length_eq_of_sameAscii hsame
      have hempty : p.length + s.length = 0 := by
        simp only [List.length_append] at hlength
        omega
      apply hps
      rwa [← List.length_append, List.length_eq_zero_iff] at hempty
    · exact hlower hpart
  · intro hsettled p s
    rw [refersTo_iff, String.toList_append, String.toList_append]
    exact .inr ⟨hne, hsettled.lower_within p.toList s.toList⟩

/-- The sigma before the digit has its final form in every name, so all names that contain this one refer to
it. -/
theorem roads_refersTo :
    "ΟΔΟΣ1" ≠ "" ∧ ∀ p s : String, refersTo (p ++ "ΟΔΟΣ1" ++ s) "ΟΔΟΣ1" = true := by
  have hne : "ΟΔΟΣ1" ≠ "" := by decide
  have hsettled : Text.SigmasSettled "ΟΔΟΣ1".toList := by decide +kernel
  exact ⟨hne, (refersTo_containing_iff "ΟΔΟΣ1" hne).mpr hsettled⟩

/-- A name need not refer to a name that it contains: a sigma at the end of one is final, within the other it
is not. -/
theorem not_refersTo_contained :
    ¬∀ p definition s : String, definition ≠ "" → refersTo (p ++ definition ++ s) definition = true := by
  intro h
  have hrefers := h "" "ΟΔΟΣ" "Α" (by decide)
  exact absurd hrefers (by decide +kernel)

end EventAtlas
