import EventAtlas.Proofs.CSharp.DottedName
import EventAtlas.Proofs.CSharp.Words
import EventAtlas.Proofs.Lookback
import EventAtlas.Proofs.Text.Search
import EventAtlas.Source.Publications

namespace EventAtlas.Source

open Recognizer CSharp Text

/-- The construction of an object that comes at a cursor: the word `new`, white space, and a dotted name whose
last part is the type. -/
structure Construction (c : Cursor) (type : List Char) (c' : Cursor) : Prop where
  startsWord : c.before.any isWord = false
  named : ∃ afterNew blanks start, c.After "new".toList afterNew ∧ afterNew.After blanks start ∧ blanks ≠ [] ∧
    (∀ x ∈ blanks, isBlank x = true) ∧ DottedName start type c'

/-- What is read as a construction is one. -/
theorem construction_prefers : Prefers construction Construction where
  head c type c' := by
    have hletter : isWord 'n' = true := by decide
    unfold construction
    rw [wordBoundary_sure.head?_bind]
    constructor
    · intro h
      obtain ⟨_, mid, hboundary, hhead⟩ := h
      obtain ⟨hword, rfl⟩ := mem_wordBoundary.mp hboundary
      obtain ⟨afterNew, hafterNew, hhead⟩ := head?_literalBy_bind.mp hhead
      obtain ⟨blanks, start, hafter, hne, hblank, hhead⟩ := (head?_blanks1_bind dotted_refuses_blanks).mp hhead
      refine ⟨?_, afterNew, blanks, start, hafterNew, hafter, hne, hblank, head?_dotted.mp hhead⟩
      simpa [hafterNew.rest, hletter] using hword
    · intro h
      obtain ⟨afterNew, blanks, start, hafterNew, hafter, hne, hblank, hname⟩ := h.named
      refine ⟨(), c, mem_wordBoundary.mpr ⟨?_, rfl⟩, ?_⟩
      · simp [hafterNew.rest, hletter, h.startsWord]
      · refine head?_literalBy_bind.mpr ⟨afterNew, hafterNew, ?_⟩
        exact (head?_blanks1_bind dotted_refuses_blanks).mpr
          ⟨blanks, start, hafter, hne, hblank, head?_dotted.mpr hname⟩
  advances c type c' h := by
    obtain ⟨afterNew, blanks, start, hafterNew, hafter, -, -, hname⟩ := h.named
    obtain ⟨read, hread⟩ := hname.exists_after
    exact ⟨_, _, hafterNew.trans (hafter.trans hread)⟩

/-- The types that are constructed on a line, from left to right. -/
def ConstructedTypes (line : Line) (types : List (List Char)) : Prop := Scan Construction ⟨none, line⟩ types

/-- A text comes at a cursor, between that cursor and the one behind it. -/
def Occurs (text : List Char) (c : Cursor) (ends : Cursor × Cursor) (c' : Cursor) : Prop :=
  ends = (c, c') ∧ c.After text c'

/-- An occurrence is found where the text comes. -/
theorem occurrence_prefers {text : List Char} (hne : text ≠ []) : Prefers (occurrence text) (Occurs text) where
  head c ends c' := by
    have hsure : Sure (occurrence text) := by
      have hhere : Sure here := fun _ => Nat.le_refl 1
      exact hhere.bind fun _ => (Sure.literalBy _ _).bind fun _ => hhere.bind fun _ => Sure.pure _
    rw [hsure.head?_eq_some_iff]
    unfold occurrence Occurs
    simp only [mem_bind, mem_literalBy_iff]
    constructor
    · intro h
      obtain ⟨start, _, hstart, _, stop, hread, _, _, hstop, hends⟩ := h
      obtain ⟨rfl, rfl⟩ := Prod.mk.inj (List.mem_singleton.mp hstart)
      obtain ⟨rfl, rfl⟩ := Prod.mk.inj (List.mem_singleton.mp hstop)
      obtain ⟨rfl, rfl⟩ := Prod.mk.inj (List.mem_singleton.mp hends)
      exact ⟨rfl, hread⟩
    · intro h
      obtain ⟨rfl, hread⟩ := h
      exact ⟨c, c, List.mem_singleton.mpr rfl, (), c', hread, c', c', List.mem_singleton.mpr rfl,
        List.mem_singleton.mpr rfl⟩
  advances c ends c' h := by
    obtain ⟨x, read, rfl⟩ := List.exists_cons_of_ne_nil hne
    exact ⟨x, read, h.2⟩

/-- What stands before and behind a name makes it a variable that is assigned to: no character that continues
the name, and, after white space, an equals sign that is no comparison and no arrow. -/
structure AssignedAt (before : Option Char) (after : List Char) : Prop where
  startsName : before.any isVariableChar = false
  endsName : after.head?.any isVariableChar = false
  equals : ∃ blanks rest, after = blanks ++ '=' :: rest ∧ (∀ x ∈ blanks, isBlank x = true) ∧
    rest.head? ≠ some '=' ∧ rest.head? ≠ some '>'

/-- One of the occurrences of an identifier on a line, taken from left to right, is assigned to. -/
def Assigns (identifier : List Char) (line : Line) : Prop :=
  identifier ≠ [] ∧ ∃ places, Scan (Occurs identifier) ⟨none, line⟩ places ∧
    ∃ place ∈ places, AssignedAt place.1.before place.2.rest

theorem startsAssignment_iff (s : List Char) :
    startsAssignment s = true ↔ ∃ rest, s = '=' :: rest ∧ rest.head? ≠ some '=' ∧ rest.head? ≠ some '>' := by
  unfold startsAssignment
  split
  · simp
  · simp
  · rename_i rest hequals harrow
    simp only [true_iff]
    refine ⟨rest, rfl, ?_, ?_⟩
    · intro hhead
      obtain ⟨more, rfl⟩ := List.head?_eq_some_iff.mp hhead
      exact hequals more rfl
    · intro hhead
      obtain ⟨more, rfl⟩ := List.head?_eq_some_iff.mp hhead
      exact harrow more rfl
  · rename_i hnone
    simp only [Bool.false_eq_true, false_iff]
    intro h
    obtain ⟨rest, rfl, -, -⟩ := h
    exact hnone rest rfl

theorem startsAssignment_trimStart_iff (s : List Char) :
    startsAssignment (trimStart s) = true ↔ ∃ blanks rest, s = blanks ++ '=' :: rest ∧
      (∀ x ∈ blanks, isBlank x = true) ∧ rest.head? ≠ some '=' ∧ rest.head? ≠ some '>' := by
  rw [startsAssignment_iff, trimStart]
  constructor
  · intro h
    obtain ⟨rest, hrest, hequals, harrow⟩ := h
    refine ⟨s.takeWhile isBlank, rest, ?_, fun x hx => List.mem_takeWhile_imp hx, hequals, harrow⟩
    rw [← hrest, List.takeWhile_append_dropWhile]
  · intro h
    obtain ⟨blanks, rest, rfl, hblanks, hequals, harrow⟩ := h
    have hmark : isBlank '=' = false := by decide
    refine ⟨rest, ?_, hequals, harrow⟩
    rw [List.dropWhile_append_of_pos hblanks, List.dropWhile_cons_of_neg (by simp [hmark])]

/-- The search for an assignment finds exactly the assignments. -/
theorem assignsTo_iff (line : Line) (identifier : List Char) :
    assignsTo line identifier = true ↔ Assigns identifier line := by
  have hplace (place : Cursor × Cursor) :
      (!place.1.before.any isVariableChar && !place.2.rest.head?.any isVariableChar &&
        startsAssignment (trimStart place.2.rest)) = true ↔ AssignedAt place.1.before place.2.rest := by
    simp only [Bool.and_eq_true, Bool.not_eq_true', startsAssignment_trimStart_iff]
    constructor
    · intro h
      exact ⟨h.1.1, h.1.2, h.2⟩
    · intro h
      exact ⟨⟨h.startsName, h.endsName⟩, h.equals⟩
  unfold assignsTo Assigns
  rw [Bool.and_eq_true, List.any_eq_true, Bool.not_eq_true', List.isEmpty_eq_false_iff]
  simp only [hplace]
  constructor
  · intro h
    obtain ⟨hne, hassigned⟩ := h
    exact ⟨hne, _, ((occurrence_prefers hne).findAll_eq_iff line _).mp rfl, hassigned⟩
  · intro h
    obtain ⟨hne, places, hscan, hassigned⟩ := h
    rw [((occurrence_prefers hne).findAll_eq_iff line places).mpr hscan]
    exact ⟨hne, hassigned⟩

/-- A line gives a variable its value: it holds the word `new` with a space and the identifier, or it assigns
to the identifier. -/
def Defines (identifier : List Char) (line : Line) : Prop :=
  ("new ".toList <:+: line ∧ identifier <:+: line) ∨ Assigns identifier line

/-- The search for a line that gives a variable its value finds exactly these lines. -/
theorem defines_iff (identifier : List Char) (line : Line) :
    defines identifier line = true ↔ Defines identifier line := by
  unfold defines Defines
  rw [Bool.or_eq_true, Bool.and_eq_true, occursIn_iff, occursIn_iff, assignsTo_iff]

/-- The name of a type ends in one of the event suffixes. -/
def IsEventName (s : Indicators) (type : List Char) : Prop :=
  ∃ ending ∈ s.eventSuffixes, ending ≠ "" ∧ ending.toList <:+ type

theorem hasEventSuffix_iff (s : Indicators) (type : List Char) :
    s.hasEventSuffix type = true ↔ IsEventName s type := by
  simp [Indicators.hasEventSuffix, IsEventName]

/-- The first event type among those that are constructed on a line. -/
def ConstructsFirst (s : Indicators) (line : Line) (event : List Char) : Prop :=
  ∃ earlier later, ConstructedTypes line (earlier ++ event :: later) ∧ IsEventName s event ∧
    ∀ type ∈ earlier, ¬IsEventName s type

/-- No event type is constructed on a line. -/
def ConstructsNone (s : Indicators) (line : Line) : Prop :=
  ∃ types, ConstructedTypes line types ∧ ∀ type ∈ types, ¬IsEventName s type

/-- The first type constructed on a line whose name ends in an event suffix. -/
theorem constructedEvent?_eq_some_iff (s : Indicators) (line : Line) (event : List Char) :
    constructedEvent? s line = some event ↔ ConstructsFirst s line event := by
  unfold constructedEvent? ConstructsFirst ConstructedTypes
  simp only [List.find?_eq_some_iff_append, hasEventSuffix_iff, ← construction_prefers.findAll_eq_iff,
    Bool.not_eq_true', ← Bool.not_eq_true]
  constructor
  · intro h
    obtain ⟨hevent, earlier, later, htypes, hearlier⟩ := h
    exact ⟨earlier, later, htypes, hevent, hearlier⟩
  · intro h
    obtain ⟨earlier, later, htypes, hevent, hearlier⟩ := h
    exact ⟨hevent, earlier, later, htypes, hearlier⟩

theorem constructedEvent?_eq_none_iff (s : Indicators) (line : Line) :
    constructedEvent? s line = none ↔ ConstructsNone s line := by
  unfold constructedEvent? ConstructsNone ConstructedTypes
  simp only [List.find?_eq_none, hasEventSuffix_iff, ← construction_prefers.findAll_eq_iff,
    exists_eq_left']

/-- The nearest of the twenty lines above a call that gives a variable its value, by its place. -/
abbrev IsDefinition (lines : List Line) (call : Nat) (identifier : List Char) : Nat → Line → Prop :=
  IsNearest lines call (some 20) fun _ line => Defines identifier line

/-- None of the twenty lines above a call gives a variable its value. -/
def Undefined (lines : List Line) (call : Nat) (identifier : List Char) : Prop :=
  ∀ place line, InWindow lines.length call (some 20) place → lines[place]? = some line → ¬Defines identifier line

section

variable (s : Indicators) (lines : List Line) (call : Nat) (identifier : List Char)

/-- The line that tracing looks at. -/
def definingLine? : Option Line :=
  nearestSome? lines call (some traceWindow) fun _ line => if defines identifier line then some line else none

/-- The line that is found is the nearest one above that gives the variable its value. -/
theorem definingLine?_eq_some_iff (line : Line) :
    definingLine? lines call identifier = some line ↔ ∃ place, IsDefinition lines call identifier place line := by
  have hsome (line : Line) : (if defines identifier line then some line else none).isSome = true ↔
      Defines identifier line := by
    rw [← defines_iff]
    cases defines identifier line with
    | false => simp
    | true => simp
  unfold definingLine?
  rw [nearestSome?_eq_some_iff]
  simp only [hsome]
  constructor
  · intro h
    obtain ⟨place, found, hnearest, hfound⟩ := h
    rw [if_pos ((defines_iff identifier found).mpr hnearest.holds)] at hfound
    obtain rfl := Option.some.inj hfound
    exact ⟨place, hnearest⟩
  · intro h
    obtain ⟨place, hnearest⟩ := h
    exact ⟨place, line, hnearest, if_pos ((defines_iff identifier line).mpr hnearest.holds)⟩

theorem definingLine?_eq_none_iff :
    definingLine? lines call identifier = none ↔ Undefined lines call identifier := by
  unfold definingLine? Undefined
  rw [nearestSome?_eq_none_iff]
  simp only [ite_eq_right_iff, reduceCtorEq, imp_false, defines_iff]
  rfl

/-- Only the nearest line that gives the variable its value is looked at. -/
theorem traceVariable?_eq_bind :
    traceVariable? s lines call identifier = (definingLine? lines call identifier).bind (constructedEvent? s) :=
  rfl

end

/-- Lines above the nearest line that gives a variable its value do not show. -/
theorem IsDefinition.of_below {lines other : List Line} {call : Nat} {identifier : List Char} {place : Nat}
    {line : Line} (h : IsDefinition lines call identifier place line) (hlength : other.length = lines.length)
    (hbelow : ∀ k, place ≤ k → other[k]? = lines[k]?) : IsDefinition other call identifier place line where
  inWindow := hlength ▸ h.inWindow
  item := (hbelow place (Nat.le_refl place)).trans h.item
  holds := h.holds
  last := by
    intro k found hk hfound hdefines
    by_contra hlater
    rw [hbelow k (by omega)] at hfound
    have hle := h.last k found (hlength ▸ hk) hfound hdefines
    omega

/-- The event type of a variable at a call is the first one that is constructed on the nearest of the twenty
lines above that gives the variable its value. That line hides the lines above it, whatever it constructs. -/
theorem traceVariable?_tells (s : Indicators) (lines : List Line) (call : Nat) (identifier : List Char) :
    (∀ event, traceVariable? s lines call identifier = some event ↔
      ∃ place line, IsDefinition lines call identifier place line ∧ ConstructsFirst s line event) ∧
    (traceVariable? s lines call identifier = none ↔
      Undefined lines call identifier ∨
        ∃ place line, IsDefinition lines call identifier place line ∧ ConstructsNone s line) ∧
    (∀ other place line, IsDefinition lines call identifier place line → other.length = lines.length →
      (∀ k, place ≤ k → other[k]? = lines[k]?) →
      traceVariable? s other call identifier = traceVariable? s lines call identifier) ∧
    ∀ event, traceVariable? s lines call identifier = some event → IsEventName s event := by
  have hsome (event : List Char) : traceVariable? s lines call identifier = some event ↔
      ∃ place line, IsDefinition lines call identifier place line ∧ ConstructsFirst s line event := by
    rw [traceVariable?_eq_bind, Option.bind_eq_some_iff]
    simp only [definingLine?_eq_some_iff, constructedEvent?_eq_some_iff, ← exists_and_right]
    exact exists_comm
  refine ⟨hsome, ?_, ?_, ?_⟩
  · rw [traceVariable?_eq_bind, Option.bind_eq_none_iff, ← definingLine?_eq_none_iff]
    simp only [constructedEvent?_eq_none_iff]
    cases hline : definingLine? lines call identifier with
    | none => simp
    | some line =>
      obtain ⟨place, hplace⟩ := (definingLine?_eq_some_iff lines call identifier line).mp hline
      constructor
      · intro h
        exact .inr ⟨place, line, hplace, h line rfl⟩
      · intro h found hfound
        obtain rfl := Option.some.inj hfound
        obtain hnone | ⟨place', line', hplace', hconstructs⟩ := h
        · cases hnone
        · have hsame := (definingLine?_eq_some_iff lines call identifier line').mpr ⟨place', hplace'⟩
          rw [hline] at hsame
          rwa [Option.some.inj hsame]
  · intro other place line hplace hlength hbelow
    have hline := (definingLine?_eq_some_iff lines call identifier line).mpr ⟨place, hplace⟩
    have hother := (definingLine?_eq_some_iff other call identifier line).mpr
      ⟨place, hplace.of_below hlength hbelow⟩
    rw [traceVariable?_eq_bind, traceVariable?_eq_bind, hline, hother]
  · intro event hevent
    obtain ⟨place, line, -, earlier, later, -, hname, -⟩ := (hsome event).mp hevent
    exact hname

/-- An event is constructed, and then the variable is given another value. -/
def reassignedLines : List Line :=
  ["var evt = new Shop.OrderPlacedEvent();".toList, "evt = Load(evt);".toList, "_bus.Publish(evt);".toList]

theorem reassignedLines_traced :
    traceVariable? {} reassignedLines 1 "evt".toList = some "OrderPlacedEvent".toList ∧
      traceVariable? {} reassignedLines 2 "evt".toList = none := by
  have hassigns : Defines "evt".toList "evt = Load(evt);".toList := (defines_iff _ _).mp (by decide +kernel)
  have hnearest : IsDefinition reassignedLines 2 "evt".toList 1 "evt = Load(evt);".toList := by
    refine ⟨⟨by decide, by decide⟩, rfl, hassigns, ?_⟩
    intro k line hk _ _
    have hlt := hk.1
    omega
  have hnone : ConstructsNone {} "evt = Load(evt);".toList :=
    (constructedEvent?_eq_none_iff _ _).mp (by decide +kernel)
  refine ⟨by decide +kernel, ?_⟩
  exact (traceVariable?_tells {} reassignedLines 2 "evt".toList).2.1.mpr (.inr ⟨1, _, hnearest, hnone⟩)

end EventAtlas.Source
