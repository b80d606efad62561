import EventAtlas.Proofs.Source.Body

namespace EventAtlas.Source

open Recognizer CSharp

/-- The first closing brace of a line has no opening brace before it. -/
def ClosesBlock (line : Line) : Prop :=
  ∃ front rest, line = front ++ '}' :: rest ∧ '}' ∉ front ∧ '{' ∉ front

/-- A line closes a block if its first brace is a closing one. -/
theorem closesBlock_iff {line : Line} : closesBlock line = true ↔ ClosesBlock line := by
  unfold closesBlock ClosesBlock
  rw [beq_iff_eq, List.find?_eq_some_iff_append]
  constructor
  · intro h
    obtain ⟨-, front, rest, hline, hfront⟩ := h
    refine ⟨front, rest, hline, ?_, ?_⟩
    · intro hmem
      have hbrace := hfront _ hmem
      simp at hbrace
    · intro hmem
      have hbrace := hfront _ hmem
      simp at hbrace
  · intro h
    obtain ⟨front, rest, hline, hclosing, hopening⟩ := h
    refine ⟨by decide, front, rest, hline, ?_⟩
    intro c hc
    have hc' : c ≠ '{' ∧ c ≠ '}' := ⟨fun h => hopening (h ▸ hc), fun h => hclosing (h ▸ hc)⟩
    simp [hc'.1, hc'.2]

/-- A line that opens a block and closes it again closes none that was open before. -/
theorem OpensAndCloses.not_closesBlock {line : Line} (h : OpensAndCloses line) : ¬ClosesBlock line := by
  intro hcloses
  obtain ⟨front, rest, rfl, hclosing, hopening⟩ := hcloses
  have hfront : front ++ ['}'] <+: front ++ '}' :: rest := ⟨rest, by simp⟩
  have hdepth := h.nested _ hfront
  rw [braceBalance_append] at hdepth
  unfold braceBalance at hdepth
  rw [List.count_eq_zero.mpr hclosing, List.count_eq_zero.mpr hopening] at hdepth
  simp at hdepth

/-- Items are taken through one with `p`, or there are no more of them. -/
def EndsThrough {α : Type} (p : α → Bool) (items : List α) (n : Nat) : Prop :=
  (∃ k a, n = k + 1 ∧ items[k]? = some a ∧ p a = true) ∨ items.length ≤ n

theorem not_endsThrough_zero {α : Type} {p : α → Bool} {a : α} {items : List α} :
    ¬EndsThrough p (a :: items) 0 := by
  intro h
  rcases h with ⟨k, b, hk, -, -⟩ | hlength
  · cases hk
  · cases hlength

private theorem endsThrough_succ {α : Type} {p : α → Bool} {a : α} {items : List α} (ha : p a = false) (m : Nat) :
    EndsThrough p (a :: items) (m + 1) ↔ EndsThrough p items m := by
  constructor
  · intro h
    rcases h with ⟨k, b, hk, hb, hp⟩ | hlength
    · cases k with
      | zero =>
        obtain rfl := Option.some.inj hb
        rw [ha] at hp
        cases hp
      | succ k => exact .inl ⟨k, b, Nat.succ.inj hk, hb, hp⟩
    · exact .inr (Nat.le_of_succ_le_succ hlength)
  · intro h
    rcases h with ⟨k, b, rfl, hb, hp⟩ | hlength
    · exact .inl ⟨k + 1, b, rfl, hb, hp⟩
    · exact .inr (Nat.succ_le_succ hlength)

private theorem takeThrough_ends {α : Type} (p : α → Bool) (items : List α) :
    ∃ n, IsLeast {n | EndsThrough p items n} n ∧ takeThrough p items = items.take n := by
  induction items with
  | nil => exact ⟨0, ⟨.inr (Nat.le_refl 0), fun m _ => Nat.zero_le m⟩, rfl⟩
  | cons a items ih =>
    rw [takeThrough]
    cases ha : p a with
    | true =>
      refine ⟨1, ⟨.inl ⟨0, a, rfl, rfl, ha⟩, fun m hm => Nat.pos_of_ne_zero ?_⟩, rfl⟩
      intro hm0
      exact not_endsThrough_zero (hm0 ▸ hm)
    | false =>
      obtain ⟨n, hleast, htake⟩ := ih
      refine ⟨n + 1, isLeast_succ not_endsThrough_zero (endsThrough_succ ha) hleast, ?_⟩
      rw [htake, List.take_succ_cons]
      rfl

/-- What is read below a declaration can end before the place `stop`: the line above it is the first below the
declaration to close a block, fifty lines have been read, or there are no more lines. -/
inductive EndsEvent (lines : List Line) (place stop : Nat) : Prop where
  | closed (k : Nat) (line : Line) : stop = k + 1 → place < k → lines[k]? = some line → ClosesBlock line →
      EndsEvent lines place stop
  | full : place + 50 ≤ stop → EndsEvent lines place stop
  | ended : lines.length ≤ stop → EndsEvent lines place stop

/-- The body of an event ends through the first of its lines that closes a block. -/
theorem endsEvent_iff {lines : List Line} {place n : Nat} :
    EndsEvent lines place (place + 1 + n) ↔
      EndsThrough closesBlock (slice lines (place + 1) (place + 50)) n := by
  have hlength : (slice lines (place + 1) (place + 50)).length = min (place + 50) lines.length - (place + 1) := by
    rw [slice, List.length_drop, List.length_take]
  unfold EndsThrough
  simp only [getElem?_slice, hlength, closesBlock_iff]
  constructor
  · intro h
    cases h with
    | closed k line hstop hbelow hline hcloses =>
      by_cases hk : k < place + 50
      · obtain ⟨m, rfl⟩ := Nat.exists_eq_add_of_le (Nat.succ_le_of_lt hbelow)
        exact .inl ⟨m, line, by omega, by rw [if_pos hk]; exact hline, hcloses⟩
      · exact .inr (by omega)
    | full hstop => exact .inr (by omega)
    | ended hstop => exact .inr (by omega)
  · intro h
    rcases h with ⟨k, line, rfl, hline, hcloses⟩ | hstop
    · split_ifs at hline with hk
      exact .closed _ line (by omega) (by omega) hline hcloses
    · by_cases hlong : place + 50 ≤ lines.length
      · exact .full (by omega)
      · exact .ended (by omega)

/-- Below the declaration, the body of an event goes down to the first place where it can end. -/
theorem eventBody_ends {lines : List Line} {place : Nat} {line : Line} (hline : lines[place]? = some line)
    (hopen : ¬ClosesBlock line) :
    ∃ stop, IsLeast {stop | place < stop ∧ EndsEvent lines place stop} stop ∧
      eventBody lines place = line :: slice lines (place + 1) stop := by
  obtain ⟨n, hleast, htake⟩ := takeThrough_ends closesBlock (slice lines (place + 1) (place + 50))
  refine ⟨place + 1 + n, isLeast_below (fun _ => endsEvent_iff) hleast, ?_⟩
  have hwindow : slice lines (place + 1) (place + 50) = (lines.drop (place + 1)).take 49 :=
    slice_eq_take_drop lines (place + 1) 49
  have hn : n ≤ 49 := by
    have hle := hleast.2 (show EndsThrough closesBlock _ _ from .inr (Nat.le_refl _))
    rw [hwindow, List.length_take] at hle
    omega
  have hgoes : closesBlock line = false := by
    rw [← Bool.not_eq_true, closesBlock_iff]
    exact hopen
  unfold eventBody
  rw [slice_eq_cons hline (by omega), takeThrough, hgoes, if_neg Bool.false_ne_true, htake, hwindow,
    List.take_take, Nat.min_eq_left hn, slice_eq_take_drop]

private theorem getElem?_of_mem_scopedFrom {place : Nat} {scope : Scope} {lines : List Line} {spot : ScopedLine}
    (h : spot ∈ scopedFrom place scope lines) : place ≤ spot.place ∧ lines[spot.place - place]? = some spot.line := by
  induction lines generalizing place scope with
  | nil => cases h
  | cons line rest ih =>
    rcases List.mem_cons.mp h with rfl | h
    · exact ⟨Nat.le_refl place, by rw [Nat.sub_self]; rfl⟩
    · obtain ⟨hplace, hline⟩ := ih h
      refine ⟨by omega, ?_⟩
      rw [show spot.place - place = spot.place - (place + 1) + 1 by omega]
      exact hline

theorem getElem?_of_mem_scopedLines {lines : List Line} {spot : ScopedLine} (h : spot ∈ scopedLines lines) :
    lines[spot.place]? = some spot.line :=
  (getElem?_of_mem_scopedFrom h).2

/-- An event whose block opens and closes on the line of its declaration has the properties of that line, and
then those of the lines below it, down to the first that closes a block and at most fifty lines in all. So it
keeps to its line only where none of those lines declares a property. -/
theorem oneLineEvent_properties {s : Indicators} {d : Document} {spot : ScopedLine} {e : EventDefinition}
    (hspot : spot ∈ scopedLines d.lines) (hone : OpensAndCloses spot.line)
    (he : definitionAt? s d.origin d.lines spot = some e) :
    e ∈ definitions s d ∧
    ∃ stop, IsLeast {stop | spot.place < stop ∧ EndsEvent d.lines spot.place stop} stop ∧
      e.properties = propertyClause.findAll spot.line ++
        (slice d.lines (spot.place + 1) stop).flatMap propertyClause.findAll ∧
      (e.properties = propertyClause.findAll spot.line ↔ ∀ k line, spot.place < k → k < stop →
        d.lines[k]? = some line → propertyClause.findAll line = []) := by
  obtain ⟨stop, hleast, hbody⟩ := eventBody_ends (getElem?_of_mem_scopedLines hspot) hone.not_closesBlock
  have hproperties : e.properties = propertyClause.findAll spot.line ++
      (slice d.lines (spot.place + 1) stop).flatMap propertyClause.findAll := by
    obtain ⟨event, -, rfl⟩ := Option.map_eq_some_iff.mp he
    dsimp only
    rw [eventProperties, hbody, List.flatMap_cons]
  refine ⟨List.mem_filterMap.mpr ⟨spot, hspot, he⟩, stop, hleast, hproperties, ?_⟩
  rw [hproperties, List.append_right_eq_self, List.flatMap_eq_nil_iff]
  simp only [mem_slice_iff]
  constructor
  · intro h k line hbelow hstop hline
    exact h line ⟨k, hbelow, hstop, hline⟩
  · intro h line hline
    obtain ⟨k, hbelow, hstop, hline⟩ := hline
    exact h k line hbelow hstop hline

/-- The declaration of an event on one line. -/
def paidLine : Line := "public class Paid:IntegrationEvent \x7b \x7d".toList

/-- An event on one line, and a class with a property below it. -/
def crowdedUnit : Document where
  origin := ⟨"shop", "Shop", ⟨"shop/Paid.cs"⟩⟩
  text := String.ofList paidLine ++ "\nclass Cart\n\x7b\npublic int Sum \x7b get; \x7d\n\x7d"

def paidSpot : ScopedLine := ⟨0, paidLine, Scope.advance {} paidLine⟩

/-- The event as it is read. -/
def paidEvent : EventDefinition where
  name := "Paid"
  qualifiedName := "Paid"
  origin := crowdedUnit.origin
  properties := ["int Sum"]

theorem paidSpot_mem : paidSpot ∈ scopedLines crowdedUnit.lines := by
  have hlines : crowdedUnit.lines.head? = some paidLine := by decide +kernel
  obtain ⟨rest, hrest⟩ := List.head?_eq_some_iff.mp hlines
  rw [hrest]
  exact List.mem_cons_self

theorem paidLine_opensAndCloses : OpensAndCloses paidLine := by decide +kernel

theorem definitionAt?_paidSpot :
    definitionAt? {} crowdedUnit.origin crowdedUnit.lines paidSpot = some paidEvent := by decide +kernel

theorem crowdedUnit_properties :
    OpensAndCloses paidLine ∧ paidEvent ∈ definitions {} crowdedUnit ∧
    ∃ stop, IsLeast {stop | 0 < stop ∧ EndsEvent crowdedUnit.lines 0 stop} stop ∧
      ["int Sum"] = propertyClause.findAll paidLine ++
        (slice crowdedUnit.lines 1 stop).flatMap propertyClause.findAll ∧
      (["int Sum"] = propertyClause.findAll paidLine ↔ ∀ k line, 0 < k → k < stop →
        crowdedUnit.lines[k]? = some line → propertyClause.findAll line = []) :=
  ⟨paidLine_opensAndCloses,
    oneLineEvent_properties paidSpot_mem paidLine_opensAndCloses definitionAt?_paidSpot⟩

theorem not_oneLineEvent_keeps_to_line :
    ¬∀ (s : Indicators) (d : Document) (spot : ScopedLine) (e : EventDefinition),
      spot ∈ scopedLines d.lines → OpensAndCloses spot.line →
      definitionAt? s d.origin d.lines spot = some e →
      ∀ property ∈ e.properties, property ∈ propertyClause.findAll spot.line := by
  intro h
  have hkeeps := h {} crowdedUnit paidSpot paidEvent paidSpot_mem paidLine_opensAndCloses definitionAt?_paidSpot
  have hnone : propertyClause.findAll paidLine = [] := by decide +kernel
  have hmem := hkeeps "int Sum" (by decide)
  change "int Sum" ∈ propertyClause.findAll paidLine at hmem
  rw [hnone] at hmem
  cases hmem

end EventAtlas.Source
