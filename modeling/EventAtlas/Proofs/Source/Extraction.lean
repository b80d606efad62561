import EventAtlas.Proofs.Report.Selection
import EventAtlas.Source.Extraction

namespace EventAtlas.Source

/-- The facts of a document, sort by sort. -/
theorem extract_eq (s : Indicators) (o : Options) (d : Document) :
    extract s o d =
      { events := definitions s d
        publications := if o.bytecodePublishers then [] else publications s d
        consumptions := consumptions s o.includeDetails d
        subscriptions := subscriptions s d } := by
  have hjoin (f g : Facts) : f ++ g = ⟨f.events ++ g.events, f.publications ++ g.publications,
      f.consumptions ++ g.consumptions, f.subscriptions ++ g.subscriptions⟩ := rfl
  unfold extract passes
  split_ifs <;> simp [Pass.facts, hjoin]

private theorem consumptionsAt_withoutSnippet (s : Indicators) (inJob : Bool) (origin : Origin) (lines : List Line)
    (place : Nat) (line : Line) :
    (consumptionsAt s true inJob origin lines place line).map (·.withoutSnippet) =
      consumptionsAt s false inJob origin lines place line := by
  simp only [consumptionsAt, if_true, Bool.false_eq_true, if_false]
  split_ifs
  · rfl
  · rw [List.map_map]
    rfl

/-- The bodies of handlers are all that the details add. -/
theorem consumptions_withoutSnippet (s : Indicators) (d : Document) :
    (consumptions s true d).map (·.withoutSnippet) = consumptions s false d := by
  unfold consumptions
  split_ifs
  · rfl
  · rw [List.map_flatMap]
    apply List.flatMap_congr
    intro spot _
    exact consumptionsAt_withoutSnippet s _ _ _ spot.2 spot.1

end EventAtlas.Source
