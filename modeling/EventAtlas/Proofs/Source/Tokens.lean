import EventAtlas.Proofs.Recognizer.Choice
import EventAtlas.Proofs.Source.Extraction
import EventAtlas.Proofs.Text.Letters

namespace EventAtlas

open Recognizer Text

/-- Every token consists of ASCII letters, digits and underscores. -/
def WordTokens (tokens : List String) : Prop :=
  ∀ token ∈ tokens, ∀ x ∈ token.toList, x.isAlphanum = true ∨ x = '_'

instance (tokens : List String) : Decidable (WordTokens tokens) :=
  decidable_of_iff (tokens.all fun token => token.toList.all fun x => x.isAlphanum || x == '_') (by
    simp [WordTokens])

theorem WordTokens.isWord {tokens : List String} (h : WordTokens tokens) {token : String}
    (htoken : token ∈ tokens) {x : Char} (hx : x ∈ token.toList) : x.toNat < 128 ∧ isWord x = true := by
  rcases h token htoken x hx with halphanum | rfl
  · have hascii := ascii_of_isAlphanum halphanum
    exact ⟨hascii, by simp [Text.isWord, hascii, halphanum]⟩
  · decide

/-- What a token asks of a text is asked by the set of tokens, not by their order. -/
theorem Recognizer.SameTokens.any_eq {tokens others : List String} (h : SameTokens tokens others)
    (p : String → Bool) :
    (tokens.any fun token => decide (token ≠ "") && p token) =
      others.any fun token => decide (token ≠ "") && p token := by
  rw [Bool.eq_iff_iff, List.any_eq_true, List.any_eq_true]
  apply exists_congr
  intro token
  rw [Bool.and_eq_true, decide_eq_true_iff]
  constructor
  · rintro ⟨hmem, hne, hp⟩
    exact ⟨(h token hne).mp hmem, hne, hp⟩
  · rintro ⟨hmem, hne, hp⟩
    exact ⟨(h token hne).mpr hmem, hne, hp⟩

namespace Indicators

/-- Two sets of indicators that hold the same tokens, as far as source text is read by them. -/
structure ReadAlike (s s' : Indicators) : Prop where
  backgroundJobMarkers : SameTokens s.backgroundJobMarkers s'.backgroundJobMarkers
  publisherMethods : SameTokens s.publisherMethods s'.publisherMethods
  publisherFieldSuffixes : SameTokens s.publisherFieldSuffixes s'.publisherFieldSuffixes
  eventSuffixes : SameTokens s.eventSuffixes s'.eventSuffixes
  eventBaseTypes : SameTokens s.eventBaseTypes s'.eventBaseTypes
  handlerInterfaces : SameTokens s.handlerInterfaces s'.handlerInterfaces
  registrationKeywords : SameTokens s.registrationKeywords s'.registrationKeywords
  entryUnitTokens : SameTokens s.entryUnitTokens s'.entryUnitTokens

/-- The tokens that are read as parts of calls and type names are words. -/
structure HasWordTokens (s : Indicators) : Prop where
  publisherMethods : WordTokens s.publisherMethods
  publisherFieldSuffixes : WordTokens s.publisherFieldSuffixes
  handlerInterfaces : WordTokens s.handlerInterfaces

end Indicators

namespace Source

open CSharp

theorem refuses_blanks {α : Type} {f : Unit → Recognizer α} (hf : Refuses isWord (f ())) :
    Refuses isWord (blanks >>= f) :=
  .run_bind (fun _ hx => isBlank_of_isWord hx) hf

variable {s s' : Indicators} (h : s.ReadAlike s') (hwords : s.HasWordTokens)

include h

/-- Which base type is read does not show in the event. -/
theorem eventClause_alike : Alike Prod.fst (eventClause s.eventBaseTypes) (eventClause s'.eventBaseTypes) := by
  iterate 5 refine .bind_right fun _ => ?_
  refine .bind_right fun event => ?_
  iterate 4 refine .bind_right fun _ => ?_
  refine .of_mem_iff (a := event) ?_ ?_
  · rintro c ⟨found, c'⟩
    simp only [mem_bind, h.eventBaseTypes.mem_tokenBy]
  · iterate 2 refine .skip fun _ => ?_
    exact .pure rfl

theorem hasEventSuffix_eq (type : List Char) : s.hasEventSuffix type = s'.hasEventSuffix type :=
  h.eventSuffixes.any_eq _

theorem mentionsJob_eq (d : Document) : d.mentionsJob s = d.mentionsJob s' :=
  h.backgroundJobMarkers.any_eq _

private theorem inRegistration_eq (lines : List Line) (place : Nat) :
    inRegistration lines place s.registrationKeywords = inRegistration lines place s'.registrationKeywords := by
  have hkeywords (line : Line) :
      holdsToken s.registrationKeywords line = holdsToken s'.registrationKeywords line :=
    h.registrationKeywords.any_eq _
  unfold inRegistration
  congr 1
  funext line
  exact hkeywords line

private theorem traceVariable?_eq (lines : List Line) (place : Nat) (identifier : List Char) :
    traceVariable? s lines place identifier = traceVariable? s' lines place identifier := by
  have hevent : constructedEvent? s = constructedEvent? s' := by
    funext line
    unfold constructedEvent?
    congr 1
    funext type
    exact hasEventSuffix_eq h type
  unfold traceVariable?
  rw [hevent]

private theorem definitions_eq (d : Document) : definitions s d = definitions s' d := by
  unfold definitions
  apply List.filterMap_congr
  intro spot _
  unfold definitionAt?
  rw [(eventClause_alike h).find?_eq]

include hwords

/-- The order of the publisher methods does not show in a call. -/
theorem methodCall_alike : Alike id (methodCall s) (methodCall s') := by
  refine .bind_right fun _ => .bind_right fun _ => ?_
  refine h.publisherMethods.alike (p := isWord) ?_ ?_
  · intro token htoken x hx y hy
    rw [← beq_iff_eq.mp hy]
    exact (hwords.publisherMethods.isWord htoken hx).2
  · refine refuses_blanks ?_
    refine .optional_bind (.bind (.char (by decide)) _) ?_
    refine refuses_blanks (.here_bind fun _ => ?_)
    exact .bind (.char (by decide)) _

private theorem fieldCall_alike : Alike id (fieldCall s) (fieldCall s') := by
  iterate 3 refine .bind_right fun _ => ?_
  have hcall : Alike id (methodCall s) (methodCall s') := methodCall_alike h hwords
  refine .trans (.bind_right fun _ => .bind_right fun _ => .bind_left hcall) ?_
  refine h.publisherFieldSuffixes.alike (p := isWord) ?_ ?_
  · intro token htoken x hx y hy
    obtain ⟨hascii, hword⟩ := hwords.publisherFieldSuffixes.isWord htoken hx
    exact isWord_of_sameLetter hascii hword hy
  · exact refuses_blanks (.bind (.bind (.char (by decide)) _) _)

private theorem inlineCall_alike : Alike id (inlineCall s) (inlineCall s') :=
  .bind_left (methodCall_alike h hwords)

/-- A handler interface before its event type. -/
theorem interface_alike {α : Type} {f : Unit → Recognizer α} (hf : Refuses isWord (f ())) :
    Alike id (token s.handlerInterfaces >>= f) (token s'.handlerInterfaces >>= f) := by
  refine h.handlerInterfaces.alike (p := isWord) ?_ hf
  intro token htoken x hx y hy
  rw [← beq_iff_eq.mp hy]
  exact (hwords.handlerInterfaces.isWord htoken hx).2

private theorem handlerClause_alike : Alike id (handlerClause s) (handlerClause s') := by
  refine .bind_right fun _ => interface_alike h hwords ?_
  exact refuses_blanks (.bind (.char (by decide)) _)

private theorem registrationClause_alike : Alike id (registrationClause s) (registrationClause s') := by
  iterate 7 refine .bind_right fun _ => ?_
  refine interface_alike h hwords ?_
  exact refuses_blanks (.bind (.char (by decide)) _)

/-- The publications depend on the sets of tokens only. -/
theorem publications_eq (d : Document) : publications s d = publications s' d := by
  have hpublished (lines : List Line) (place : Nat) (line : Line) :
      publishedAt s lines place line = publishedAt s' lines place line := by
    have hsuffix : s.hasEventSuffix = s'.hasEventSuffix := funext (hasEventSuffix_eq h)
    unfold publishedAt
    simp only [(fieldCall_alike h hwords).findAll_eq, (inlineCall_alike h hwords).findAll_eq,
      traceVariable?_eq h, hsuffix]
  unfold publications
  simp only [hpublished, mentionsJob_eq h]

theorem consumptions_eq (details : Bool) (d : Document) : consumptions s details d = consumptions s' details d := by
  have hentry (name : String) : isEntryUnit s name = isEntryUnit s' name := h.entryUnitTokens.any_eq _
  have hconsumptions (inJob : Bool) (origin : Origin) (lines : List Line) (place : Nat) (line : Line) :
      consumptionsAt s details inJob origin lines place line =
        consumptionsAt s' details inJob origin lines place line := by
    unfold consumptionsAt
    rw [(handlerClause_alike h hwords).findAll_eq, inRegistration_eq h]
  unfold consumptions
  simp only [hentry, hconsumptions, mentionsJob_eq h]

theorem subscriptions_eq (d : Document) : subscriptions s d = subscriptions s' d := by
  have hsubscribed (line : Line) : subscribedAt s line = subscribedAt s' line := by
    unfold subscribedAt
    rw [(registrationClause_alike h hwords).findAll_eq]
  unfold subscriptions
  simp only [hsubscribed, mentionsJob_eq h]

/-- Only the sets of tokens count: neither their order and number nor empty ones show in what is found. -/
theorem extract_eq_of_readAlike (o : Options) (d : Document) : extract s o d = extract s' o d := by
  rw [extract_eq, extract_eq, definitions_eq h, publications_eq h hwords, consumptions_eq h hwords,
    subscriptions_eq h hwords]

end Source

/-- The default lists in another order, with repetitions and empty tokens. -/
def shuffledIndicators : Indicators where
  publisherMethods := ["SendAsync", "", "Send", "PublishAsync", "Publish", "Send"]
  publisherFieldSuffixes := ["Bus", "PublishEndpoint", "EventBus", "Publisher", "Bus"]
  eventSuffixes := ["", "Event", "IntegrationEvent"]
  eventBaseTypes := ["IntegrationEvent", "", "IntegrationEventBase"]
  handlerInterfaces := ["IConsumer", "IEventHandler", "IIntegrationEventHandler", ""]

/-- A publication through a field and a method that tokens of different length fit. -/
def busUnit : Source.Document where
  origin := ⟨"shop", "Shop", ⟨"shop/Pay.cs"⟩⟩
  text := "_eventBus.PublishAsync(new PaidEvent());"

theorem busUnit_shuffled :
    (Source.extract {} {} busUnit).publications.map (·.event) = ["PaidEvent"] ∧
      Source.extract {} {} busUnit = Source.extract shuffledIndicators {} busUnit := by
  refine ⟨by decide +kernel, Source.extract_eq_of_readAlike ?_ ?_ {} busUnit⟩
  · constructor <;> decide
  · constructor <;> decide

end EventAtlas
