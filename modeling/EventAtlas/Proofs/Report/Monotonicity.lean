import EventAtlas.Proofs.Report.Correlation
import EventAtlas.Proofs.Text.Lowercase
import EventAtlas.Proofs.Text.Search

namespace EventAtlas

theorem refersTo_iff (event definition : String) :
    refersTo event definition = true ↔ Text.sameAscii event.toList definition.toList = true ∨
      (definition ≠ "" ∧ Text.lower definition.toList <:+: Text.lower event.toList) := by
  simp [refersTo, Text.occursIn_iff]

private theorem ne_empty_of_sameAscii {a b : String} (h : Text.sameAscii a.toList b.toList = true) (ha : a ≠ "") :
    b ≠ "" := by
  rintro rfl
  have hmap : a.toList.map Char.toLower = [] := beq_iff_eq.mp h
  exact ha (String.toList_eq_nil_iff.mp (List.map_eq_nil_iff.mp hmap))

/-- What refers to a name that refers to another refers to that one too. Each way to refer keeps the
lower case or takes a part of it. -/
theorem refersTo_trans {a b c : String} (hab : refersTo a b = true) (hbc : refersTo b c = true) :
    refersTo a c = true := by
  rw [refersTo_iff] at hab hbc ⊢
  rcases hab with hab | ⟨hb, hab⟩
  · rcases hbc with hbc | ⟨hc, hbc⟩
    · have hmap : a.toList.map Char.toLower = b.toList.map Char.toLower := beq_iff_eq.mp hab
      have hmap' : b.toList.map Char.toLower = c.toList.map Char.toLower := beq_iff_eq.mp hbc
      exact .inl (beq_iff_eq.mpr (hmap.trans hmap'))
    · rw [← Text.lower_eq_of_sameAscii hab] at hbc
      exact .inr ⟨hc, hbc⟩
  · right
    rcases hbc with hbc | ⟨hc, hbc⟩
    · rw [Text.lower_eq_of_sameAscii hbc] at hab
      exact ⟨ne_empty_of_sameAscii hbc hb, hab⟩
    · exact ⟨hc, hbc.trans hab⟩

/-- All facts of a flow are in another one, in the same order. -/
structure Flow.Within (flow other : Flow) : Prop where
  publications : flow.publications.Sublist other.publications
  consumptions : flow.consumptions.Sublist other.consumptions
  subscriptions : flow.subscriptions.Sublist other.subscriptions

/-- No number of a row is greater than that of another. -/
structure MatrixRow.CountsAtMost (row other : MatrixRow) : Prop where
  publications : row.publications ≤ other.publications
  consumptions : row.consumptions ≤ other.consumptions
  subscriptions : row.subscriptions ≤ other.subscriptions

namespace Facts

variable (f : Facts)

private theorem flowOf_within {d e : EventDefinition} (h : refersTo d.name e.name = true) :
    (f.flowOf d).Within (f.flowOf e) := by
  have hsub {α : Type} (event : α → String) (items : List α) :
      (items.filter fun a => refersTo (event a) d.name).Sublist
        (items.filter fun a => refersTo (event a) e.name) := by
    apply List.monotone_filter_right
    intro a ha
    exact refersTo_trans ha h
  exact ⟨hsub _ f.publications, hsub _ f.consumptions, hsub _ f.subscriptions⟩

private theorem rowOf_countsAtMost {m n : String} (h : refersTo m n = true) :
    (f.rowOf m).CountsAtMost (f.rowOf n) := by
  have hcount {α : Type} (event : α → String) (items : List α) :
      (items.countP fun a => refersTo (event a) m) ≤ items.countP fun a => refersTo (event a) n := by
    apply List.countP_mono_left
    intro a _ ha
    exact refersTo_trans ha h
  exact ⟨hcount _ f.publications, hcount _ f.consumptions, hcount _ f.subscriptions⟩

/-- To refer to a name is reflexive and transitive. So a name counts all that is counted for the names
that refer to it, and where nothing publishes or consumes it, nothing does so with them. -/
theorem counts_monotone :
    (∀ a, refersTo a a = true) ∧
    (∀ a b c, refersTo a b = true → refersTo b c = true → refersTo a c = true) ∧
    ∀ (f : Facts) (m n : String), refersTo m n = true →
      (∀ d e : EventDefinition, d.name = m → e.name = n → (f.flowOf d).Within (f.flowOf e)) ∧
      (∀ row ∈ f.matrix, ∀ other ∈ f.matrix, row.event = m → other.event = n → row.CountsAtMost other) ∧
      ∀ d ∈ f.events, ∀ e ∈ f.events, d.name = m → e.name = n →
        (e ∈ f.orphaned → d ∈ f.orphaned) ∧ (e ∈ f.deadLetters → d ∈ f.deadLetters) := by
  refine ⟨refersTo_self, fun _ _ _ => refersTo_trans, ?_⟩
  intro f m n h
  have hrows := f.rowOf_countsAtMost h
  refine ⟨?_, ?_, ?_⟩
  · rintro d e rfl rfl
    exact f.flowOf_within h
  · rintro row hrow other hother rfl rfl
    rw [(f.mem_matrix.mp hrow).2, (f.mem_matrix.mp hother).2]
    exact hrows
  · rintro d hd e _ rfl rfl
    rw [f.mem_orphaned, f.mem_orphaned, f.mem_deadLetters, f.mem_deadLetters]
    constructor
    · rintro ⟨-, hzero⟩
      have := hrows.publications
      exact ⟨hd, by omega⟩
    · rintro ⟨-, hzero⟩
      have := hrows.consumptions
      exact ⟨hd, by omega⟩

/-- Two definitions whose names differ in case and at the end, and one handler. -/
def sigmaFacts : Facts :=
  let origin : Origin := ⟨"shop", "Shop", ⟨"shop/Orders.cs"⟩⟩
  { events := [{ name := "ORDERΣ", qualifiedName := "ORDERΣ", origin },
      { name := "Order", qualifiedName := "Order", origin }]
    consumptions := [{ event := "orderΣ", origin, handlerClass := "H", position := 1 }] }

theorem sigmaFacts_monotone :
    refersTo "ORDERΣ" "Order" = true ∧ sigmaFacts.events.map (·.name) = ["ORDERΣ", "Order"] ∧
      (∀ d ∈ sigmaFacts.events, d.name = "ORDERΣ" → d ∈ sigmaFacts.orphaned) ∧
      ∀ row ∈ sigmaFacts.matrix, ∀ other ∈ sigmaFacts.matrix, row.event = "ORDERΣ" →
        other.event = "Order" → row.CountsAtMost other := by
  have hrefers : refersTo "ORDERΣ" "Order" = true := by decide +kernel
  obtain ⟨-, hrows, hmarks⟩ := counts_monotone.2.2 sigmaFacts _ _ hrefers
  refine ⟨hrefers, rfl, ?_, hrows⟩
  intro d hd hname
  exact (hmarks d hd _ (.tail _ (.head _)) hname rfl).1 (by decide +kernel)

end Facts

end EventAtlas
