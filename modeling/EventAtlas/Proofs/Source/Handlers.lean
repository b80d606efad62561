import EventAtlas.Proofs.CSharp.DottedName
import EventAtlas.Proofs.Source.Registration
import EventAtlas.Proofs.Source.Window
import Mathlib.Data.List.Forall2

namespace EventAtlas.Source

open Recognizer CSharp Text

/-- The name of a document's file holds an entry token, so the document only wires handlers up. -/
def WiresUp (s : Indicators) (d : Document) : Prop :=
  ∃ token ∈ s.entryUnitTokens, token ≠ "" ∧ token.toList <:+: d.origin.path.fileName.toList

/-- A line from ten above to three below a place holds a registration keyword. -/
def NearRegistration (s : Indicators) (lines : List Line) (place : Nat) : Prop :=
  ∃ k line, place ≤ k + 10 ∧ k ≤ place + 3 ∧ lines[k]? = some line ∧
    ∃ keyword ∈ s.registrationKeywords, keyword ≠ "" ∧ keyword.toList <:+: line

/-- A handler interface that comes at a cursor where a word starts or ends, and the event that it is applied to. Of
several interfaces that are applied there the one that is listed first counts. -/
structure HandlerAt (s : Indicators) (c : Cursor) (event : List Char) (c' : Cursor) : Prop where
  boundary : c.before.any isWord ≠ c.rest.head?.any isWord
  applied : ∃ earlier interface later mid, tokenChoices s.handlerInterfaces = earlier ++ interface :: later ∧
    c.After interface mid ∧ ArgumentAt mid event c' ∧
    ∀ other ∈ earlier, ∀ mid' event' stop, c.After other mid' → ¬ArgumentAt mid' event' stop

/-- A modifier of a handling method, and white space behind it. -/
def IsHandleModifier (text : List Char) : Prop :=
  ∃ modifier ∈ handleModifiers, ∃ gap, gap ≠ [] ∧ (∀ x ∈ gap, isBlank x = true) ∧ text = modifier.toList ++ gap

/-- A line with the signature of a handling method: modifiers, what it returns, its name and the parenthesis that
opens its parameters. -/
def IsHandleSignature (line : Line) : Prop :=
  ∃ indent modifiers type gap ending gap' rest,
    line = indent ++ (List.flatten modifiers ++ (type ++ (gap ++
      ("Handle".toList ++ (ending ++ (gap' ++ '(' :: rest)))))) ∧
    (∀ x ∈ indent, isBlank x = true) ∧ (∀ text ∈ modifiers, IsHandleModifier text) ∧
    (type ≠ [] ∧ ∀ x ∈ type, isHandleTypeChar x = true) ∧ (gap ≠ [] ∧ ∀ x ∈ gap, isBlank x = true) ∧
    (ending = "Async".toList ∨ ending = []) ∧ ∀ x ∈ gap', isBlank x = true

private theorem handlerClause_prefers (s : Indicators) : Prefers (handlerClause s) (HandlerAt s) where
  head c event c' := by
    have hnone (mid : Cursor) : typeArgument mid = [] ↔ ∀ event stop, ¬ArgumentAt mid event stop := by
      rw [← List.head?_eq_none_iff, Option.eq_none_iff_forall_ne_some, Prod.forall]
      exact forall₂_congr fun event stop => not_congr head?_typeArgument
    unfold handlerClause
    rw [wordBoundary_sure.head?_bind]
    simp only [mem_wordBoundary, head?_token_bind, head?_typeArgument, hnone]
    constructor
    · rintro ⟨_, _, ⟨hboundary, rfl⟩, earlier, interface, later, mid, hlisted, hread, hargument, hearlier⟩
      exact ⟨hboundary, earlier, interface, later, mid, hlisted, hread, hargument,
        fun other hother mid' event' stop hread' => hearlier other hother mid' hread' event' stop⟩
    · rintro ⟨hboundary, earlier, interface, later, mid, hlisted, hread, hargument, hearlier⟩
      exact ⟨(), c, ⟨hboundary, rfl⟩, earlier, interface, later, mid, hlisted, hread, hargument,
        fun other hother mid' hread' event' stop => hearlier other hother mid' event' stop hread'⟩
  advances c event c' h := by
    obtain ⟨_, interface, _, mid, -, hread, hargument, -⟩ := h.applied
    obtain ⟨x, read, hmore⟩ := hargument.exists_after
    obtain ⟨y, more, hcons⟩ := List.exists_cons_of_ne_nil
      (List.append_ne_nil_of_right_ne_nil interface (List.cons_ne_nil x read))
    exact ⟨y, more, hcons ▸ hread.trans hmore⟩

theorem isSome_handleSignature_iff {line : Line} :
    (handleSignature.atStart? line).isSome = true ↔ IsHandleSignature line := by
  have hmodifier : Spells handleModifier IsHandleModifier := by
    refine ((Spells.oneOf handleModifiers).bind (.run1 isBlank)).congr fun text => ?_
    constructor
    · rintro ⟨_, gap, ⟨modifier, hmem, rfl⟩, ⟨hne, hblank⟩, rfl⟩
      exact ⟨modifier, hmem, gap, hne, hblank, rfl⟩
    · rintro ⟨modifier, hmem, gap, hne, hblank, rfl⟩
      exact ⟨_, gap, ⟨modifier, hmem, rfl⟩, ⟨hne, hblank⟩, rfl⟩
  have hne (text : List Char) (h : IsHandleModifier text) : text ≠ [] := by
    obtain ⟨modifier, -, gap, hne, -, rfl⟩ := h
    exact List.append_ne_nil_of_right_ne_nil _ hne
  have hspells := (Spells.run isBlank).bind ((hmodifier.many hne).bind ((Spells.run1 isHandleTypeChar).bind
    ((Spells.run1 isBlank).bind ((Spells.literal "Handle").bind ((Spells.literal "Async").optional.bind
      ((Spells.run isBlank).bind (.char '(')))))))
  refine hspells.isSome_atStart?_iff.trans ?_
  constructor
  · rintro ⟨_, rest, ⟨indent, _, hindent, ⟨_, _, ⟨modifiers, hmodifiers, rfl⟩, ⟨type, _, htype, ⟨gap, _, hgap,
      ⟨_, _, rfl, ⟨ending, _, hending, ⟨gap', _, hgap', rfl, rfl⟩, rfl⟩, rfl⟩, rfl⟩, rfl⟩, rfl⟩, rfl⟩, rfl⟩
    refine ⟨indent, modifiers, type, gap, ending, gap', rest, ?_, hindent, hmodifiers, htype, hgap, hending, hgap'⟩
    simp
  · rintro ⟨indent, modifiers, type, gap, ending, gap', rest, rfl, hindent, hmodifiers, htype, hgap, hending, hgap'⟩
    refine ⟨_, rest, ⟨indent, _, hindent, ⟨_, _, ⟨modifiers, hmodifiers, rfl⟩, ⟨type, _, htype, ⟨gap, _, hgap,
      ⟨_, _, rfl, ⟨ending, _, hending, ⟨gap', _, hgap', rfl, rfl⟩, rfl⟩, rfl⟩, rfl⟩, rfl⟩, rfl⟩, rfl⟩, ?_⟩
    simp

instance (line : Line) : Decidable (IsHandleSignature line) := decidable_of_iff _ isSome_handleSignature_iff

/-- The first signature of a handling method in the fifty lines from a place on. -/
theorem firstSignature_eq_some_iff {lines : List Line} {place k : Nat} :
    (firstPlace? lines place 50 fun line => (handleSignature.atStart? line).isSome) = some k ↔
      ∃ line, IsFirstFrom lines place 50 IsHandleSignature k line := by
  rw [firstPlace?_eq_some_iff]
  simp only [isSome_handleSignature_iff]

theorem isEntryUnit_iff {s : Indicators} {d : Document} :
    isEntryUnit s d.origin.path.fileName = true ↔ WiresUp s d :=
  holdsToken_iff

theorem inRegistration_iff {s : Indicators} {lines : List Line} {place : Nat} :
    inRegistration lines place s.registrationKeywords = true ↔ NearRegistration s lines place := by
  unfold inRegistration linesAround NearRegistration
  simp only [List.any_eq_true, mem_slice_iff, holdsToken_iff]
  constructor
  · intro h
    obtain ⟨line, ⟨k, hstart, hstop, hline⟩, hkeyword⟩ := h
    exact ⟨k, line, by omega, by omega, hline, hkeyword⟩
  · intro h
    obtain ⟨k, line, habove, hbelow, hline, hkeyword⟩ := h
    exact ⟨line, ⟨k, by omega, by omega, hline⟩, hkeyword⟩

instance (s : Indicators) (d : Document) : Decidable (WiresUp s d) := decidable_of_iff _ isEntryUnit_iff

instance (s : Indicators) (lines : List Line) (place : Nat) : Decidable (NearRegistration s lines place) :=
  decidable_of_iff _ inRegistration_iff

/-- The class that a handler at a place belongs to: the type declared on the closest of the lines up to five
above and below, or unknown if none of them declares one. -/
inductive IsHandlerClass (lines : List Line) (place : Nat) : String → Prop where
  | declared {k : Nat} {line : Line} {type : String} :
      IsClosest lines place 5 (fun line => (declaredType line).isSome = true) k line →
      declaredType line = some type → IsHandlerClass lines place type
  | unknown : (∀ k line, Nat.dist place k ≤ 5 → lines[k]? = some line → declaredType line = none) →
      IsHandlerClass lines place "Unknown"

/-- What is kept of the body of a handler at a place: at most fifteen lines below the first signature of a
handling method in the fifty lines from the place on, or nothing if there is no such signature. -/
inductive IsSnippet (lines : List Line) (place : Nat) : Option (List String) → Prop where
  | body {k : Nat} {line : Line} : IsFirstFrom lines place 50 IsHandleSignature k line →
      IsSnippet lines place (some ((bodyAfter lines k 15).map String.ofList))
  | absent : (∀ k line, place ≤ k → k < place + 50 → lines[k]? = some line → ¬IsHandleSignature line) →
      IsSnippet lines place none

/-- What a consumption says of the handler that was found at a place of a document. -/
structure IsSiteOf (s : Indicators) (details : Bool) (d : Document) (found : Nat × List Char)
    (c : Consumption) : Prop where
  event : c.event = String.ofList found.2
  origin : c.origin = d.origin
  handlerClass : IsHandlerClass d.lines found.1 c.handlerClass
  handlerMethod : c.handlerMethod = "Handle"
  position : c.position = found.1 + 1
  inBackgroundJob : c.inBackgroundJob = d.mentionsJob s
  snippet : if details then IsSnippet d.lines found.1 c.snippet else c.snippet = none

private theorem handlerClass_isHandlerClass (lines : List Line) (place : Nat) :
    IsHandlerClass lines place ((nearestAround? lines place 5 declaredType).getD unknownName) := by
  cases h : nearestAround? lines place 5 declaredType with
  | none => exact .unknown (nearestAround?_eq_none_iff.mp h)
  | some type =>
    obtain ⟨k, line, hclosest, hline⟩ := nearestAround?_eq_some_iff.mp h
    exact .declared hclosest hline

private theorem handlerBody?_isSnippet (lines : List Line) (place : Nat) :
    IsSnippet lines place (handlerBody? lines place) := by
  unfold handlerBody?
  cases h : firstPlace? lines place 50 fun line => (handleSignature.atStart? line).isSome with
  | none =>
    refine .absent ?_
    intro k line hstart hstop hline hsignature
    have hnot := firstPlace?_eq_none_iff.mp h k line hstart hstop hline
    exact Bool.noConfusion (hnot.symm.trans (isSome_handleSignature_iff.mpr hsignature))
  | some k =>
    obtain ⟨line, hfirst⟩ := firstSignature_eq_some_iff.mp h
    exact .body hfirst

/-- The handler interfaces that are applied to events on the lines of a document, from top to bottom and from
left to right, each by its place and its event. -/
def handlersFound (s : Indicators) (lines : List Line) : List (Nat × List Char) :=
  lines.zipIdx.flatMap fun spot => ((handlerClause s).findAll spot.1).map (spot.2, ·)

/-- The consumption for a handler that was found. -/
def siteOf (s : Indicators) (details : Bool) (d : Document) (found : Nat × List Char) : Consumption where
  event := String.ofList found.2
  origin := d.origin
  handlerClass := (nearestAround? d.lines found.1 5 declaredType).getD unknownName
  position := found.1 + 1
  inBackgroundJob := d.mentionsJob s
  snippet := if details then handlerBody? d.lines found.1 else none

private theorem siteOf_isSiteOf (s : Indicators) (details : Bool) (d : Document) (found : Nat × List Char) :
    IsSiteOf s details d found (siteOf s details d found) where
  event := rfl
  origin := rfl
  handlerClass := handlerClass_isHandlerClass d.lines found.1
  handlerMethod := rfl
  position := rfl
  inBackgroundJob := rfl
  snippet := by
    unfold siteOf
    cases details with
    | false => rfl
    | true => exact handlerBody?_isSnippet d.lines found.1

/-- On one line either all handlers count or none does. -/
theorem consumptionsAt_eq_map (s : Indicators) (details : Bool) (d : Document) (place : Nat) (line : Line) :
    consumptionsAt s details (d.mentionsJob s) d.origin d.lines place line =
      if NearRegistration s d.lines place then []
      else (((handlerClause s).findAll line).map (place, ·)).map (siteOf s details d) := by
  by_cases hnear : NearRegistration s d.lines place
  · rw [if_pos hnear, consumptionsAt_of_inRegistration (inRegistration_iff.mpr hnear)]
  · have hoff : inRegistration d.lines place s.registrationKeywords = false := by
      rw [← Bool.not_eq_true, inRegistration_iff]
      exact hnear
    unfold consumptionsAt
    dsimp only
    rw [if_neg hnear, hoff, Bool.or_false, List.map_map]
    by_cases hnone : (handlerClause s).findAll line = []
    · rw [hnone]
      rfl
    · rw [List.isEmpty_eq_false_iff.mpr hnone]
      rfl

private theorem consumptions_eq_map (s : Indicators) (details : Bool) (d : Document) :
    consumptions s details d = ((handlersFound s d.lines).filter fun found =>
      ¬WiresUp s d ∧ ¬NearRegistration s d.lines found.1).map (siteOf s details d) := by
  unfold consumptions
  by_cases hentry : WiresUp s d
  · simp [isEntryUnit_iff.mpr hentry, hentry]
  · have hoff : isEntryUnit s d.origin.path.fileName = false := by
      rw [← Bool.not_eq_true, isEntryUnit_iff]
      exact hentry
    rw [hoff, if_neg Bool.false_ne_true, handlersFound, List.filter_flatMap, List.map_flatMap]
    apply List.flatMap_congr
    intro spot _
    obtain ⟨line, place⟩ := spot
    dsimp only
    rw [consumptionsAt_eq_map, List.filter_map]
    by_cases hnear : NearRegistration s d.lines place
    · simp [Function.comp_def, hnear]
    · simp [Function.comp_def, hentry, hnear]

/-- There is one consumption for each handler that is found, in the order of the lines, exactly when the
document is no entry unit and no registration keyword stands from ten lines above the handler to three below
it. Its class is the closest one declared within five lines, and its snippet, where details are asked for, is
the body below the first handling method in the fifty lines from it on. The handlers of a line are those that a
scan of the line meets. -/
theorem consumptions_tell (s : Indicators) (details : Bool) (d : Document) :
    List.Forall₂ (IsSiteOf s details d)
      ((handlersFound s d.lines).filter fun found =>
        ¬WiresUp s d ∧ ¬NearRegistration s d.lines found.1)
      (consumptions s details d) ∧
    ∀ line events, (handlerClause s).findAll line = events ↔ Scan (HandlerAt s) ⟨none, line⟩ events := by
  constructor
  · rw [consumptions_eq_map, List.forall₂_map_right_iff, List.forall₂_same]
    intro found _
    exact siteOf_isSiteOf s details d found
  · exact (handlerClause_prefers s).findAll_eq_iff

end EventAtlas.Source
