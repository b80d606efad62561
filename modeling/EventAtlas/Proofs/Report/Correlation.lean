import EventAtlas.Proofs.NameMap
import EventAtlas.Report.Correlation
import Mathlib.Data.List.Basic
import Mathlib.Data.List.Forall2

namespace EventAtlas

/-- A name refers to itself. -/
theorem refersTo_self (name : String) : refersTo name name = true := by
  simp [refersTo, Text.sameAscii]

namespace Facts

variable (f : Facts)

/-- Whether a definition or a fact of any sort has the name. -/
def Names (name : String) : Prop :=
  (∃ d ∈ f.events, d.name = name) ∨ (∃ p ∈ f.publications, p.event = name) ∨
    (∃ c ∈ f.consumptions, c.event = name) ∨ ∃ s ∈ f.subscriptions, s.event = name

/-- The event names of definitions and facts. -/
def eventNames : List String := f.events.map (·.name) ++ f.mentions

private theorem mem_eventNames {name : String} : name ∈ f.eventNames ↔ f.Names name := by
  simp [eventNames, mentions, Names]

/-- Whether a definition has the name. -/
def defines (name : String) : Bool := f.events.any (·.name == name)

theorem defines_iff {name : String} : f.defines name = true ↔ ∃ d ∈ f.events, d.name = name := by
  simp [defines]

private theorem getElem?_defined (name : String) :
    (NameMap.collect ∅ false EventDefinition.name (fun _ _ => true) f.events)[name]? =
      if f.defines name then some true else none := by
  rw [NameMap.getElem?_collect]
  change (if f.defines name then _ else _) = _
  by_cases hname : f.defines name = true
  · obtain ⟨d, rest, hfilter⟩ : ∃ d rest, (f.events.filter (·.name == name)) = d :: rest := by
      apply List.exists_cons_of_ne_nil
      simpa [defines] using hname
    rw [if_pos hname, if_pos hname, hfilter, List.foldl_cons, List.foldl_fixed' fun _ => rfl]
  · rw [if_neg hname, if_neg hname]
    exact Std.TreeMap.getElem?_emptyc

/-- A mention does not change what the definitions have told of a name. -/
theorem knownNames_eq_some_iff {name : String} {known : Bool} :
    f.knownNames[name]? = some known ↔ f.Names name ∧ known = f.defines name := by
  have hnames : f.Names name ↔ f.defines name = true ∨ f.mentions.any (id · == name) = true := by
    rw [← mem_eventNames, eventNames, List.mem_append, defines_iff]
    simp
  rw [hnames, knownNames, NameMap.getElem?_collect, getElem?_defined, List.foldl_fixed' fun _ => rfl]
  cases f.defines name with
  | true =>
    cases f.mentions.any (id · == name) with
    | true => simp [eq_comm]
    | false => simp [eq_comm]
  | false =>
    cases f.mentions.any (id · == name) with
    | true => simp [eq_comm]
    | false => simp

/-- The row of a name. -/
def rowOf (name : String) : MatrixRow := f.matrixRow name (f.defines name)

theorem mem_matrix {row : MatrixRow} : row ∈ f.matrix ↔ f.Names row.event ∧ row = f.rowOf row.event := by
  rw [matrix, List.mem_map]
  constructor
  · rintro ⟨⟨name, known⟩, hentry, rfl⟩
    obtain ⟨hname, rfl⟩ := f.knownNames_eq_some_iff.mp (Std.TreeMap.mem_toList_iff_getElem?_eq_some.mp hentry)
    exact ⟨hname, rfl⟩
  · rintro ⟨hname, hrow⟩
    refine ⟨(row.event, f.defines row.event), ?_, hrow.symm⟩
    exact Std.TreeMap.mem_toList_iff_getElem?_eq_some.mpr (f.knownNames_eq_some_iff.mpr ⟨hname, rfl⟩)

theorem rowOf_mem {name : String} (h : f.Names name) : f.rowOf name ∈ f.matrix := f.mem_matrix.mpr ⟨h, rfl⟩

private theorem matrix_events : f.matrix.map (·.event) = f.knownNames.keys := by
  rw [matrix, List.map_map, ← Std.TreeMap.map_fst_toList_eq_keys]
  rfl

/-- A name that no definition has is counted by the fact that mentions it. -/
theorem rowOf_count_ne_zero {name : String} (h : f.Names name) (hnone : ¬∃ d ∈ f.events, d.name = name) :
    (f.rowOf name).publications ≠ 0 ∨ (f.rowOf name).consumptions ≠ 0 ∨
      (f.rowOf name).subscriptions ≠ 0 := by
  have hcounted {α : Type} {items : List α} {event : α → String} (h : ∃ a ∈ items, event a = name) :
      (items.countP fun a => refersTo (event a) name) ≠ 0 := by
    obtain ⟨a, ha, rfl⟩ := h
    have hpos : 0 < items.countP fun b => refersTo (event b) (event a) :=
      List.countP_pos_iff.mpr ⟨a, ha, refersTo_self _⟩
    exact Nat.ne_of_gt hpos
  rcases h with hd | hp | hc | hs
  · exact absurd hd hnone
  · exact .inl (hcounted hp)
  · exact .inr (.inl (hcounted hc))
  · exact .inr (.inr (hcounted hs))

theorem mem_orphaned {d : EventDefinition} :
    d ∈ f.orphaned ↔ d ∈ f.events ∧ (f.rowOf d.name).publications = 0 := by
  simp [orphaned, flows, rowOf, matrixRow, flowOf, Flow.isOrphaned, List.countP_eq_length_filter]

theorem mem_deadLetters {d : EventDefinition} :
    d ∈ f.deadLetters ↔ d ∈ f.events ∧ (f.rowOf d.name).consumptions = 0 := by
  simp [deadLetters, flows, rowOf, matrixRow, flowOf, Flow.isDeadLetter, List.countP_eq_length_filter]

/-- The names of the definitions that a summary marks are those of the flows that are so. -/
theorem summary_names (marked : EventSummary → Bool) (flowMarked : Flow → Bool)
    (h : ∀ flow : Flow, marked flow.summary = flowMarked flow) :
    (f.summary.events.filter marked).map (·.name) =
      ((f.flows.filter flowMarked).map Flow.definition).map (·.name) := by
  have hmarked : marked ∘ Flow.summary = flowMarked := funext h
  change ((f.flows.map Flow.summary).filter marked).map (·.name) = _
  rw [List.filter_map, hmarked, List.map_map, List.map_map]
  rfl

end Facts

/-- A row has these numbers of facts. -/
structure MatrixRow.Counts (row : MatrixRow) (publications consumptions subscriptions : Nat) : Prop where
  publications : row.publications = publications
  consumptions : row.consumptions = consumptions
  subscriptions : row.subscriptions = subscriptions

theorem Facts.rowOf_counts (f : Facts) (d : EventDefinition) :
    (f.rowOf d.name).Counts (f.flowOf d).publications.length (f.flowOf d).consumptions.length
      (f.flowOf d).subscriptions.length :=
  ⟨List.countP_eq_length_filter .., List.countP_eq_length_filter .., List.countP_eq_length_filter ..⟩

/-- The views of a report agree: the matrix has one row for each name, the row of a definition counts the
facts of its flow, and the summary tells of each definition what its row does. -/
theorem Facts.views_agree (f : Facts) :
    (f.matrix.map (·.event)).Pairwise (· < ·) ∧
    (∀ name, (∃ row ∈ f.matrix, row.event = name) ↔ f.Names name) ∧
    (∀ row ∈ f.matrix, row.hasDefinition = true ↔ ∃ d ∈ f.events, d.name = row.event) ∧
    (∀ d ∈ f.events, ∀ row ∈ f.matrix, row.event = d.name →
      row.Counts (f.flowOf d).publications.length (f.flowOf d).consumptions.length
        (f.flowOf d).subscriptions.length ∧
      (d ∈ f.orphaned ↔ row.publications = 0) ∧ (d ∈ f.deadLetters ↔ row.consumptions = 0)) ∧
    (∀ row ∈ f.matrix, row.hasDefinition = false →
      row.publications ≠ 0 ∨ row.consumptions ≠ 0 ∨ row.subscriptions ≠ 0) ∧
    List.Forall₂ (fun d e => e.name = d.name ∧ ∃ row ∈ f.matrix, row.event = d.name ∧
      row.Counts e.publications e.consumptions e.subscriptions) f.events f.summary.events ∧
    f.summary.orphaned = f.orphaned.map (·.name) ∧
    f.summary.deadLetters = f.deadLetters.map (·.name) := by
  refine ⟨?_, ?_, ?_, ?_, ?_, ?_, ?_, ?_⟩
  · rw [f.matrix_events]
    exact NameMap.keys_rising _
  · intro name
    constructor
    · rintro ⟨row, hrow, rfl⟩
      exact (f.mem_matrix.mp hrow).1
    · intro hname
      exact ⟨_, f.rowOf_mem hname, rfl⟩
  · intro row hrow
    obtain ⟨-, heq⟩ := f.mem_matrix.mp hrow
    rw [heq]
    exact f.defines_iff
  · intro d hd row hrow hname
    obtain ⟨-, heq⟩ := f.mem_matrix.mp hrow
    rw [hname] at heq
    rw [heq, f.mem_orphaned, f.mem_deadLetters]
    exact ⟨f.rowOf_counts d, and_iff_right hd, and_iff_right hd⟩
  · intro row hrow hdefinition
    obtain ⟨hname, heq⟩ := f.mem_matrix.mp hrow
    rw [heq] at hdefinition ⊢
    apply f.rowOf_count_ne_zero hname
    rw [← f.defines_iff]
    exact ne_true_of_eq_false hdefinition
  · have hevents : f.summary.events = f.events.map fun d => (f.flowOf d).summary := List.map_map
    rw [hevents, List.forall₂_map_right_iff, List.forall₂_same]
    intro d hd
    exact ⟨rfl, f.rowOf d.name, f.rowOf_mem (.inl ⟨d, hd, rfl⟩), rfl, f.rowOf_counts d⟩
  · exact f.summary_names (·.orphaned) Flow.isOrphaned fun _ => rfl
  · exact f.summary_names (·.deadLetter) Flow.isDeadLetter fun _ => rfl

end EventAtlas
