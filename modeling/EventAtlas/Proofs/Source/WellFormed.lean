import EventAtlas.Proofs.Analysis.Units
import EventAtlas.Proofs.CSharp.Scope
import EventAtlas.Proofs.Source.Extraction
import EventAtlas.Proofs.Source.Lookahead

namespace EventAtlas

/-- Positions of lines from the first to the `n`-th, none behind a later one. -/
structure PositionsIn (n : Nat) (positions : List Nat) : Prop where
  inside : ∀ p ∈ positions, 1 ≤ p ∧ p ≤ n
  sorted : positions.Pairwise (· ≤ ·)

theorem positionsIn_nil (n : Nat) : PositionsIn n [] := ⟨by simp, .nil⟩

/-- What placed items give one after the other stands in order. -/
theorem positionsIn_flatMap {α β : Type} {place : α → Nat} {items : List α}
    (hplaces : items.map place = List.range items.length) {f : α → List β} {position : β → Nat}
    (hposition : ∀ a ∈ items, ∀ b ∈ f a, position b = place a + 1) :
    PositionsIn items.length ((items.flatMap f).map position) := by
  constructor
  · intro p hp
    obtain ⟨b, hb, rfl⟩ := List.mem_map.mp hp
    obtain ⟨a, ha, hb⟩ := List.mem_flatMap.mp hb
    have hmem : place a ∈ List.range items.length := hplaces ▸ List.mem_map_of_mem ha
    have hlt := List.mem_range.mp hmem
    have heq := hposition a ha b hb
    omega
  · have hincrease : items.Pairwise fun a b => place a < place b := by
      have hrange : (items.map place).Pairwise (· < ·) := hplaces ▸ List.pairwise_lt_range
      exact List.pairwise_map.mp hrange
    refine List.pairwise_map.mpr (List.pairwise_flatMap.mpr ⟨?_, ?_⟩)
    · intro a ha
      apply List.pairwise_of_forall_mem_list
      intro b hb b' hb'
      rw [hposition a ha b hb, hposition a ha b' hb']
    · refine hincrease.imp_of_mem ?_
      intro a a' ha ha' hlt b hb b' hb'
      have hb := hposition a ha b hb
      have hb' := hposition a' ha' b' hb'
      omega

namespace Source

open Recognizer CSharp Text

private theorem eventClause_yields (bases : List String) :
    (eventClause bases).Yields fun event => IsIdentifier (String.ofList event) := by
  iterate 5 refine .skip fun _ => ?_
  refine .bind foldedName_yields fun _ hname => ?_
  iterate 6 refine .skip fun _ => ?_
  exact .pure hname

private theorem nestedClassClause_yields : nestedClassClause.Yields fun type => IsIdentifier (String.ofList type) := by
  iterate 4 refine .skip fun _ => ?_
  exact name_yields

private theorem handlerClause_yields (s : Indicators) :
    (handlerClause s).Yields fun event => IsIdentifier (String.ofList event) := by
  iterate 2 refine .skip fun _ => ?_
  exact typeArgument_yields

private theorem registrationClause_yields (s : Indicators) :
    (registrationClause s).Yields fun event => IsIdentifier (String.ofList event) := by
  iterate 8 refine .skip fun _ => ?_
  exact typeArgument_yields

private theorem busClause_yields :
    busClause.Yields fun event => IsIdentifier (String.ofList event) := by
  iterate 7 refine .skip fun _ => ?_
  refine .bind dotted_yields fun _ hname => ?_
  iterate 2 refine .skip fun _ => ?_
  exact .pure hname

private theorem fieldCall_yields (s : Indicators) :
    (fieldCall s).Yields fun call => IsIdentifier (String.ofList call.name) := by
  iterate 6 refine .skip fun _ => ?_
  refine .bind name_yields fun _ hname => ?_
  iterate 2 refine .skip fun _ => ?_
  exact .pure hname

private theorem inlineCall_yields (s : Indicators) :
    (inlineCall s).Yields fun call => IsIdentifier (String.ofList call.name) := by
  iterate 3 refine .skip fun _ => ?_
  refine .bind dotted_yields fun _ hname => ?_
  iterate 2 refine .skip fun _ => ?_
  exact .pure hname

private theorem construction_yields : construction.Yields fun type => IsIdentifier (String.ofList type) := by
  iterate 3 refine .skip fun _ => ?_
  exact dotted_yields

/-- The name of a published event: an identifier that ends in an event suffix, or the identifier of a
variable whose value is not known. -/
def IsPublishedName (s : Indicators) (event : String) : Prop :=
  (IsIdentifier event ∧ ∃ suffix ∈ s.eventSuffixes, suffix ≠ "" ∧ suffix.toList <:+ event.toList) ∨
    ∃ identifier, IsIdentifier identifier ∧ event = unknownEvent identifier

theorem isPublishedName_of_suffix {s : Indicators} {event : List Char}
    (hname : IsIdentifier (String.ofList event)) (hsuffix : s.hasEventSuffix event = true) :
    IsPublishedName s (String.ofList event) := by
  refine .inl ⟨hname, ?_⟩
  simpa [Indicators.hasEventSuffix] using hsuffix

private theorem isPublishedName_of_traced {s : Indicators} {lines : List Line} {place : Nat}
    {identifier event : List Char} (h : traceVariable? s lines place identifier = some event) :
    IsPublishedName s (String.ofList event) := by
  obtain ⟨line, -, hline⟩ := Option.bind_eq_some_iff.mp h
  have hmem := List.mem_of_find?_eq_some hline
  exact isPublishedName_of_suffix (construction_yields.of_mem_findAll hmem) (List.find?_some hline)

private theorem isPublishedName_of_mem_publishedAt {s : Indicators} {lines : List Line} {place : Nat} {line : Line}
    {event : String} (h : event ∈ publishedAt s lines place line) : IsPublishedName s event := by
  rcases List.mem_append.mp h with hvariable | hconstructed
  · obtain ⟨call, hcall, rfl⟩ := List.mem_map.mp hvariable
    cases htrace : traceVariable? s lines place call.name with
    | some event => exact isPublishedName_of_traced htrace
    | none => exact .inr ⟨_, (fieldCall_yields s).of_mem_findAll hcall, rfl⟩
  · obtain ⟨type, htype, rfl⟩ := List.mem_map.mp hconstructed
    obtain ⟨htype, hsuffix⟩ := List.mem_filter.mp htype
    obtain ⟨call, hcall, rfl⟩ := List.mem_map.mp htype
    exact isPublishedName_of_suffix ((inlineCall_yields s).of_mem_findAll hcall) hsuffix

private theorem scope_wellSpelled {lines : List Line} {spot : ScopedLine} (hspot : spot ∈ scopedLines lines) :
    spot.scope.WellSpelled := by
  have hmem : spot.scope ∈ Scope.after {} lines := by
    rw [← Scope.map_scope_scopedFrom 0]
    exact List.mem_map_of_mem hspot
  obtain ⟨k, hk⟩ := List.mem_iff_getElem?.mp hmem
  exact (Scope.tracks_nil.after hk).wellSpelled

section Around

variable {α : Type} {lines : List Line} {i : Nat} {f : Line → Option α} {a : α}

theorem exists_line_of_atDistance {d : Nat} (h : atDistance lines i f d = some a) :
    ∃ line ∈ lines, f line = some a := by
  have hat {place : Nat} (hplace : lines[place]?.bind f = some a) : ∃ line ∈ lines, f line = some a := by
    obtain ⟨line, hline, hvalue⟩ := Option.bind_eq_some_iff.mp hplace
    exact ⟨line, List.mem_of_getElem? hline, hvalue⟩
  unfold atDistance at h
  dsimp only at h
  split_ifs at h
  all_goals exact hat h

private theorem exists_line_of_outward {d more : Nat} (h : outward lines i f d more = some a) :
    ∃ line ∈ lines, f line = some a := by
  induction more generalizing d with
  | zero => exact exists_line_of_atDistance h
  | succ more ih =>
    rw [outward] at h
    split at h
    · rename_i b hb
      obtain rfl := Option.some.inj h
      exact exists_line_of_atDistance hb
    · exact ih h

end Around

/-- An identifier, or what stands in its place where none has been seen. -/
def IsNameOrUnknown (name : String) : Prop := IsIdentifier name ∨ name = unknownName

private theorem handlerClass_named (lines : List Line) (place radius : Nat) :
    IsNameOrUnknown ((nearestAround? lines place radius declaredType).getD unknownName) := by
  cases h : nearestAround? lines place radius declaredType with
  | none => exact .inr rfl
  | some type =>
    obtain ⟨line, -, hline⟩ := exists_line_of_outward h
    exact .inl (declaredType_isPlainName hline).isIdentifier

theorem isNameOrUnknown_getD {name : Option String} (h : ∀ known ∈ name, IsPlainName known) :
    IsNameOrUnknown (name.getD unknownName) := by
  cases name with
  | none => exact .inr rfl
  | some known => exact .inl (h known rfl).isIdentifier

private theorem isIdentifier_of_eventPayload {body : List Line} {type : String} (h : eventPayload body = some type) :
    IsIdentifier type := by
  obtain ⟨line, -, hline⟩ := List.mem_filterMap.mp (List.mem_of_getLast? h)
  unfold payloadClass? at hline
  split_ifs at hline
  obtain ⟨chars, hchars, rfl⟩ := Option.map_eq_some_iff.mp hline
  exact nestedClassClause_yields.of_find? hchars

/-- Facts as a document gives them: found where it lies, with names that are identifiers, at its lines from
the first to the last, and all of them inside a background job or none. -/
structure FoundIn (s : Indicators) (d : Document) (f : Facts) : Prop where
  origins : f.AllFrom d.origin
  definitions : ∀ e ∈ f.events, IsIdentifier e.name ∧ ∀ type ∈ e.payloadClass, IsIdentifier type
  publications : ∀ p ∈ f.publications,
    IsPublishedName s p.event ∧ IsNameOrUnknown p.className ∧ IsNameOrUnknown p.methodName
  consumptions : ∀ c ∈ f.consumptions,
    IsIdentifier c.event ∧ IsNameOrUnknown c.handlerClass ∧ IsNameOrUnknown c.handlerMethod
  subscriptions : ∀ r ∈ f.subscriptions, IsIdentifier r.event
  publicationPositions : PositionsIn d.lines.length (f.publications.map (·.position))
  consumptionPositions : PositionsIn d.lines.length (f.consumptions.map (·.position))
  subscriptionPositions : PositionsIn d.lines.length (f.subscriptions.map (·.position))
  jobs : ∃ inJob, (∀ p ∈ f.publications, p.inBackgroundJob = inJob) ∧
    (∀ c ∈ f.consumptions, c.inBackgroundJob = inJob) ∧ ∀ r ∈ f.subscriptions, r.inBackgroundJob = inJob
  jobClasses : ∀ p ∈ f.publications, p.jobClass = if p.inBackgroundJob then some p.className else none

private theorem definitions_named {s : Indicators} {d : Document} {e : EventDefinition} (h : e ∈ definitions s d) :
    IsIdentifier e.name ∧ ∀ type ∈ e.payloadClass, IsIdentifier type := by
  obtain ⟨spot, -, hspot⟩ := List.mem_filterMap.mp h
  obtain ⟨event, hevent, rfl⟩ := Option.map_eq_some_iff.mp hspot
  exact ⟨(eventClause_yields _).of_find? hevent, fun type htype => isIdentifier_of_eventPayload htype⟩

private theorem scopedLines_length (lines : List Line) : (scopedLines lines).length = lines.length := by
  have hplaces := congrArg List.length (scopedFrom_places 0 {} lines)
  rwa [List.length_map, List.length_range'] at hplaces

/-- What a publication says besides its event. -/
theorem publicationAt_fields (origin : Origin) (inJob : Bool) (spot : ScopedLine) (event : String) :
    let p := publicationAt origin inJob spot event
    p.event = event ∧ p.className = spot.scope.typeOrUnknown ∧ p.methodName = spot.scope.methodOrUnknown ∧
      p.inBackgroundJob = inJob ∧ p.jobClass = if p.inBackgroundJob then some p.className else none := by
  cases inJob <;> exact ⟨rfl, rfl, rfl, rfl, rfl⟩

theorem mem_publications {s : Indicators} {d : Document} {p : Publication} (h : p ∈ publications s d) :
    ∃ spot ∈ scopedLines d.lines, ∃ event ∈ publishedAt s d.lines spot.place spot.line,
      p = publicationAt d.origin (d.mentionsJob s) spot event := by
  obtain ⟨spot, hspot, hp⟩ := List.mem_flatMap.mp h
  obtain ⟨event, hevent, rfl⟩ := List.mem_map.mp hp
  exact ⟨spot, hspot, event, hevent, rfl⟩

private theorem publications_named {s : Indicators} {d : Document} {p : Publication} (h : p ∈ publications s d) :
    IsPublishedName s p.event ∧ IsNameOrUnknown p.className ∧ IsNameOrUnknown p.methodName := by
  obtain ⟨spot, hspot, event, hevent, rfl⟩ := mem_publications h
  obtain ⟨hname, hclass, hmethod, -⟩ := publicationAt_fields d.origin (d.mentionsJob s) spot event
  have hscope := scope_wellSpelled hspot
  rw [hname, hclass, hmethod]
  exact ⟨isPublishedName_of_mem_publishedAt hevent, isNameOrUnknown_getD hscope.typeName,
    isNameOrUnknown_getD hscope.methodName⟩

private theorem publications_positionsIn (s : Indicators) (d : Document) :
    PositionsIn d.lines.length ((publications s d).map (·.position)) := by
  rw [← scopedLines_length]
  refine positionsIn_flatMap (scopedLines_places d.lines) ?_
  intro spot _ p hp
  obtain ⟨event, -, rfl⟩ := List.mem_map.mp hp
  exact publicationAt_position _ _ _ _

/-- What a line that declares handlers says of them. -/
theorem mem_consumptionsAt {s : Indicators} {details inJob : Bool} {origin : Origin} {lines : List Line}
    {place : Nat} {line : Line} {c : Consumption}
    (h : c ∈ consumptionsAt s details inJob origin lines place line) :
    IsIdentifier c.event ∧ IsNameOrUnknown c.handlerClass ∧ c.handlerMethod = "Handle" ∧
      c.inBackgroundJob = inJob := by
  unfold consumptionsAt at h
  dsimp only at h
  split_ifs at h
  · simp at h
  all_goals
    obtain ⟨event, hevent, rfl⟩ := List.mem_map.mp h
    exact ⟨(handlerClause_yields s).of_mem_findAll hevent, handlerClass_named lines place 5, rfl, rfl⟩

theorem mem_consumptions {s : Indicators} {details : Bool} {d : Document} {c : Consumption}
    (h : c ∈ consumptions s details d) :
    IsIdentifier c.event ∧ IsNameOrUnknown c.handlerClass ∧ c.handlerMethod = "Handle" ∧
      c.inBackgroundJob = d.mentionsJob s := by
  unfold consumptions at h
  split_ifs at h
  · simp at h
  · obtain ⟨spot, -, hc⟩ := List.mem_flatMap.mp h
    exact mem_consumptionsAt hc

private theorem handle_isPlainName : IsPlainName "Handle" :=
  ⟨'H', ['a', 'n', 'd', 'l', 'e'], by decide, by decide, List.all_eq_true.mp (by decide)⟩

private theorem consumptions_positionsIn (s : Indicators) (details : Bool) (d : Document) :
    PositionsIn d.lines.length ((consumptions s details d).map (·.position)) := by
  unfold consumptions
  split_ifs
  · exact positionsIn_nil _
  · have hlength : d.lines.zipIdx.length = d.lines.length := List.length_zipIdx
    rw [← hlength]
    refine positionsIn_flatMap (zipIdx_places d.lines) ?_
    intro spot _ c hc
    exact position_of_mem_consumptionsAt hc

/-- A subscription comes from one of the two clauses on its line. -/
theorem mem_subscriptions {s : Indicators} {d : Document} {r : Subscription} (h : r ∈ subscriptions s d) :
    IsIdentifier r.event ∧ r.inBackgroundJob = d.mentionsJob s := by
  obtain ⟨⟨line, place⟩, -, hr⟩ := List.mem_flatMap.mp h
  obtain ⟨⟨kind, event⟩, hevent, rfl⟩ := List.mem_map.mp hr
  refine ⟨?_, rfl⟩
  rcases List.mem_append.mp hevent with hfound | hfound
  · obtain ⟨found, hmem, heq⟩ := List.mem_map.mp hfound
    obtain ⟨-, rfl⟩ := Prod.mk.inj heq
    exact (registrationClause_yields s).of_mem_findAll hmem
  · obtain ⟨found, hmem, heq⟩ := List.mem_map.mp hfound
    obtain ⟨-, rfl⟩ := Prod.mk.inj heq
    exact busClause_yields.of_mem_findAll hmem

private theorem subscriptions_positionsIn (s : Indicators) (d : Document) :
    PositionsIn d.lines.length ((subscriptions s d).map (·.position)) := by
  have hlength : d.lines.zipIdx.length = d.lines.length := List.length_zipIdx
  rw [← hlength]
  refine positionsIn_flatMap (zipIdx_places d.lines) ?_
  intro spot _ r hr
  obtain ⟨found, -, rfl⟩ := List.mem_map.mp hr
  rfl

/-- Whatever the text and the indicators are, the facts of a document are well-formed. -/
theorem extract_foundIn (s : Indicators) (o : Options) (d : Document) : FoundIn s d (extract s o d) := by
  have horigins := extract_allFrom s o d
  have hpublication {p : Publication} (hp : p ∈ if o.bytecodePublishers then [] else publications s d) :
      p ∈ publications s d := by
    split_ifs at hp
    · simp at hp
    · exact hp
  rw [extract_eq] at horigins ⊢
  refine
    { origins := horigins
      definitions := fun e he => definitions_named he
      publications := fun p hp => publications_named (hpublication hp)
      consumptions := ?_
      subscriptions := fun r hr => (mem_subscriptions hr).1
      publicationPositions := ?_
      consumptionPositions := consumptions_positionsIn s _ d
      subscriptionPositions := subscriptions_positionsIn s d
      jobs := ⟨d.mentionsJob s, ?_, ?_, fun r hr => (mem_subscriptions hr).2⟩
      jobClasses := ?_ }
  · intro c hc
    obtain ⟨hevent, hclass, hmethod, -⟩ := mem_consumptions hc
    rw [hmethod]
    exact ⟨hevent, hclass, .inl handle_isPlainName.isIdentifier⟩
  · dsimp only
    split_ifs
    · exact positionsIn_nil _
    · exact publications_positionsIn s d
  · intro p hp
    obtain ⟨spot, -, event, -, rfl⟩ := mem_publications (hpublication hp)
    exact (publicationAt_fields _ _ spot event).2.2.2.1
  · intro c hc
    exact (mem_consumptions hc).2.2.2
  · intro p hp
    obtain ⟨spot, -, event, -, rfl⟩ := mem_publications (hpublication hp)
    exact (publicationAt_fields _ _ spot event).2.2.2.2

end Source

end EventAtlas
