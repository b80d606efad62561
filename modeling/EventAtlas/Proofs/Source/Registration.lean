import EventAtlas.Proofs.Recognizer
import EventAtlas.Proofs.Source.Lookahead
import EventAtlas.Proofs.Source.Window
import EventAtlas.Proofs.Text.Search

namespace EventAtlas

theorem holdsToken_iff {tokens : List String} {text : List Char} :
    holdsToken tokens text = true ↔ ∃ token ∈ tokens, token ≠ "" ∧ token.toList <:+: text := by
  simp [holdsToken, Text.occursIn_iff]

namespace Source

open Recognizer CSharp

/-- The methods that tie a handler to an event in a dependency container. -/
def registrationMethods : List String := ["AddScoped", "AddTransient", "AddSingleton"]

/-- A registration is written with one of the registration methods. -/
theorem exists_method_of_mem_registrations {s : Indicators} {event : List Char} {line : Line}
    (h : event ∈ (registrationClause s).findAll line) :
    ∃ method ∈ registrationMethods, method.toList <:+: line := by
  obtain ⟨c, c', hstart, hread⟩ := exists_start_of_mem_findAll h
  obtain ⟨_, c₁, hboundary, hread⟩ := mem_bind.mp hread
  obtain ⟨_, c₂, hadd, hread⟩ := mem_bind.mp hread
  obtain ⟨_, c₃, hlifetime, -⟩ := mem_bind.mp hread
  have hsame : c₁ = c := by
    unfold wordBoundary at hboundary
    split_ifs at hboundary
    · exact (Prod.mk.inj (List.mem_singleton.mp hboundary)).2
    · simp at hboundary
  obtain ⟨lifetime, hmem, hrest⟩ := rest_of_mem_oneOf hlifetime
  have hcall : c.rest = ("Add" ++ lifetime).toList ++ c₃.rest := by
    rw [← hsame, rest_of_mem_literal hadd, hrest, String.toList_append, List.append_assoc]
  have hmethods : ∀ lifetime ∈ lifetimes, "Add" ++ lifetime ∈ registrationMethods := by decide
  refine ⟨"Add" ++ lifetime, hmethods lifetime hmem, ?_⟩
  exact (List.prefix_append _ c₃.rest).isInfix.trans (hcall ▸ hstart.isInfix)

/-- A keyword on a line keeps the lines from three above it to ten below it from declaring handlers. -/
theorem inRegistration_of_near {lines : List Line} {line : Line} {i j : Nat} {keywords : List String}
    (hline : lines[j]? = some line) (hkeyword : holdsToken keywords line = true) (habove : i ≤ j + 10)
    (hbelow : j ≤ i + 3) : inRegistration lines i keywords = true := by
  have hmem : line ∈ linesAround lines i 10 3 :=
    mem_slice_iff.mpr ⟨j, by omega, by omega, hline⟩
  exact List.any_eq_true.mpr ⟨line, hmem, hkeyword⟩

private theorem exists_line_of_registration {s : Indicators} {d : Document} {r : Subscription}
    (hr : r ∈ subscriptions s d) (hkind : r.kind = .dependencyRegistration) :
    ∃ place line, r.position = place + 1 ∧ d.lines[place]? = some line ∧
      ∃ method ∈ registrationMethods, method.toList <:+: line := by
  obtain ⟨⟨line, place⟩, hspot, hr⟩ := List.mem_flatMap.mp hr
  obtain ⟨⟨kind, event⟩, hfound, rfl⟩ := List.mem_map.mp hr
  refine ⟨place, line, rfl, List.mem_zipIdx_iff_getElem?.mp hspot, ?_⟩
  obtain rfl : kind = .dependencyRegistration := hkind
  rcases List.mem_append.mp hfound with hregistration | hbus
  · obtain ⟨event', hevent, -⟩ := List.mem_map.mp hregistration
    exact exists_method_of_mem_registrations hevent
  · simp at hbus

theorem consumptionsAt_of_inRegistration {s : Indicators} {lines : List Line} {place : Nat}
    (h : inRegistration lines place s.registrationKeywords = true) {details inJob : Bool} {origin : Origin}
    {line : Line} : consumptionsAt s details inJob origin lines place line = [] := by
  simp [consumptionsAt, h]

private theorem exists_place_of_consumption {s : Indicators} {details : Bool} {d : Document} {c : Consumption}
    (hc : c ∈ consumptions s details d) :
    ∃ place, c.position = place + 1 ∧ inRegistration d.lines place s.registrationKeywords = false := by
  unfold consumptions at hc
  split_ifs at hc
  · simp at hc
  · obtain ⟨⟨line, place⟩, -, hc⟩ := List.mem_flatMap.mp hc
    refine ⟨place, position_of_mem_consumptionsAt hc, ?_⟩
    cases hinside : inRegistration d.lines place s.registrationKeywords with
    | false => rfl
    | true => simp [consumptionsAt_of_inRegistration hinside] at hc

/-- Where a registration of a handler stands, no handler is declared from three lines above it to ten lines
below it. -/
theorem registration_excludes_consumption {s : Indicators}
    (hkeywords : ∀ method ∈ registrationMethods, method ∈ s.registrationKeywords) {d : Document}
    {r : Subscription} (hr : r ∈ subscriptions s d) (hkind : r.kind = .dependencyRegistration)
    (details : Bool) :
    (∀ c ∈ consumptions s details d, c.position + 3 < r.position ∨ r.position + 10 < c.position) ∧
      ∀ c ∈ consumptions s details d, c.position ≠ r.position := by
  obtain ⟨j, line, hj, hline, method, hmethod, hinfix⟩ := exists_line_of_registration hr hkind
  have hnonempty : ∀ method ∈ registrationMethods, method ≠ "" := by decide
  have hkeyword : holdsToken s.registrationKeywords line = true :=
    holdsToken_iff.mpr ⟨method, hkeywords method hmethod, hnonempty method hmethod, hinfix⟩
  have happart : ∀ c ∈ consumptions s details d,
      c.position + 3 < r.position ∨ r.position + 10 < c.position := by
    intro c hc
    obtain ⟨i, hi, hfree⟩ := exists_place_of_consumption hc
    by_contra hnear
    have hinside := inRegistration_of_near hline hkeyword (i := i) (by omega) (by omega)
    rw [hinside] at hfree
    exact Bool.noConfusion hfree
  refine ⟨happart, fun c hc heq => ?_⟩
  have := happart c hc
  omega

/-- A registration on the first line and a handler declared as close below it as may be. -/
def wiredUnit : Document where
  origin := ⟨"shop", "Shop", ⟨"shop/Wiring.cs"⟩⟩
  text := "AddScoped<IConsumer<Paid>>\n\n\n\n\n\n\n\n\n\n\nIConsumer<Paid>"

theorem wiredUnit_apart :
    ∃ r ∈ subscriptions {} wiredUnit, r.kind = .dependencyRegistration ∧ r.position = 1 ∧
      (∃ c ∈ consumptions {} false wiredUnit, c.position = 12) ∧
      (∀ c ∈ consumptions {} false wiredUnit, c.position + 3 < r.position ∨ r.position + 10 < c.position) ∧
        ∀ c ∈ consumptions {} false wiredUnit, c.position ≠ r.position := by
  have hr : (⟨"Paid", wiredUnit.origin, .dependencyRegistration, 1, some "AddScoped<IConsumer<Paid>>",
    false⟩ : Subscription) ∈ subscriptions {} wiredUnit := by decide +kernel
  have hc : ∃ c ∈ consumptions {} false wiredUnit, c.position = 12 := by decide +kernel
  exact ⟨_, hr, rfl, rfl, hc, registration_excludes_consumption (by decide) hr rfl false⟩

end Source

end EventAtlas
