import EventAtlas.Export.Json
import EventAtlas.Proofs.Json.Record
import EventAtlas.Proofs.RawText
import EventAtlas.Proofs.Report.Facts

namespace EventAtlas

open Json (Plain Reads Record)

/-- The value under a key. -/
def Json.member? (key : String) : Json → Option Json
  | obj fields => fields.lookup key
  | _ => none

/-- Every line number fits a 64-bit word. -/
structure Facts.FitsWords (f : Facts) : Prop where
  publications : ∀ p ∈ f.publications, p.position < UInt64.size
  consumptions : ∀ c ∈ f.consumptions, c.position < UInt64.size
  subscriptions : ∀ s ∈ f.subscriptions, s.position < UInt64.size

/-- A path that is a text. -/
def Path.IsText (p : Path) : Prop := ∃ s : String, p.text = s

/-- All paths of facts are texts. -/
def Facts.HasTextPaths (f : Facts) : Prop := ∀ o ∈ f.origins, o.path.IsText

theorem Path.toJson?_eq_some_iff {p : Path} {j : Json} :
    p.toJson? = some j ↔ ∃ s : String, p.text = s ∧ j = .str s := by
  rw [toJson?, Option.map_eq_some_iff]
  simp only [RawText.string?_eq_some_iff, eq_comm (b := j)]

/-- Exactly the paths that are texts can be written. -/
theorem Path.toJson?_isSome_iff {p : Path} : p.toJson?.isSome = true ↔ p.IsText := by
  rw [Option.isSome_iff_exists]
  simp only [toJson?_eq_some_iff]
  constructor
  · rintro ⟨-, s, hs, -⟩
    exact ⟨s, hs⟩
  · rintro ⟨s, hs⟩
    exact ⟨.str s, s, hs, rfl⟩

section ReadBack

variable {r : Record} {fields : List (String × Json)}

/-- The three fields that tell where a fact was found are read as they were written. -/
theorem Origin.fields_eq (o : Origin) (offers : r.Offers [] fields)
    (hrepository : fields.lookup "repository" = some (.str o.repository))
    (hproject : fields.lookup "project" = some (.str o.project)) {path : Json}
    (hpath : fields.lookup "origin_unit" = some path) (hwritten : o.path.toJson? = some path) :
    r.field? "repository" Json.str? = some o.repository ∧ r.field? "project" Json.str? = some o.project ∧
      r.field? "origin_unit" Path.ofJson? = some o.path := by
  obtain ⟨s, hs, rfl⟩ := Path.toJson?_eq_some_iff.mp hwritten
  have hread : Reads [] Path.ofJson? (.str s) o.path := by
    have hpath : o.path = ⟨s⟩ := congrArg Path.mk hs
    rw [hpath]
    exact (Reads.str s).map fun text : String => (⟨.ofString text⟩ : Path)
  exact ⟨offers.field? hrepository List.not_mem_nil (.str _), offers.field? hproject List.not_mem_nil (.str _),
    offers.field? hpath List.not_mem_nil hread⟩

theorem EventDefinition.reads {e : EventDefinition} {j : Json} (hj : e.toJson? = some j) :
    Reads [] ofJson? j e := by
  obtain ⟨path, hwritten, rfl⟩ := Option.map_eq_some_iff.mp hj
  intro k h
  obtain ⟨r, hr, offers⟩ := Record.exists_offers (by simp) h ["name", "fully_qualified_name", "origin_unit",
    "repository", "project", "properties", "payload_class_name", "standard_properties"]
  obtain ⟨hrepository, hproject, hpath⟩ := e.origin.fields_eq offers rfl rfl rfl hwritten
  have hname : r.field? "name" Json.str? = some e.name := offers.field? rfl List.not_mem_nil (.str _)
  have hqualified : r.field? "fully_qualified_name" Json.str? = some e.qualifiedName :=
    offers.field? rfl List.not_mem_nil (.str _)
  have hproperties : r.field? "properties" Json.strings? = some e.properties :=
    offers.field? rfl List.not_mem_nil (.strings _)
  have hpayload : r.nullable? "payload_class_name" Json.str? = some e.payloadClass :=
    offers.nullable? rfl List.not_mem_nil (.orNull rfl fun name _ => .str name)
  have hstandard : r.field? "standard_properties" Json.strings? = some e.standardProperties :=
    offers.field? rfl List.not_mem_nil (.strings _)
  simp [ofJson?, hr, hrepository, hproject, hpath, hname, hqualified, hproperties, hpayload, hstandard]

theorem Publication.reads {p : Publication} (hp : p.position < UInt64.size) {j : Json}
    (hj : p.toJson? = some j) : Reads [] ofJson? j p := by
  obtain ⟨path, hwritten, rfl⟩ := Option.map_eq_some_iff.mp hj
  intro k h
  obtain ⟨r, hr, offers⟩ := Record.exists_offers (by simp) h ["event_name", "repository", "project",
    "origin_unit", "class_name", "method_name", "position", "context", "is_in_background_job",
    "background_job_class_name"]
  obtain ⟨hrepository, hproject, hpath⟩ := p.origin.fields_eq offers rfl rfl rfl hwritten
  have hevent : r.field? "event_name" Json.str? = some p.event := offers.field? rfl List.not_mem_nil (.str _)
  have hclass : r.field? "class_name" Json.str? = some p.className := offers.field? rfl List.not_mem_nil (.str _)
  have hmethod : r.field? "method_name" Json.str? = some p.methodName :=
    offers.field? rfl List.not_mem_nil (.str _)
  have hposition : r.field? "position" Json.count? = some p.position :=
    offers.field? rfl List.not_mem_nil (.natBelow hp)
  have hcontext : r.nullable? "context" Json.str? = some p.context :=
    offers.nullable? rfl List.not_mem_nil (.orNull rfl fun text _ => .str text)
  have hinJob : r.field? "is_in_background_job" Json.bool? = some p.inBackgroundJob :=
    offers.field? rfl List.not_mem_nil (.bool _)
  have hjob : r.nullable? "background_job_class_name" Json.str? = some p.jobClass :=
    offers.nullable? rfl List.not_mem_nil (.orNull rfl fun name _ => .str name)
  simp [ofJson?, hr, hrepository, hproject, hpath, hevent, hclass, hmethod, hposition, hcontext, hinJob, hjob]

theorem Consumption.reads {c : Consumption} (hc : c.position < UInt64.size) {j : Json}
    (hj : c.toJson? = some j) : Reads [] ofJson? j c := by
  obtain ⟨path, hwritten, rfl⟩ := Option.map_eq_some_iff.mp hj
  intro k h
  obtain ⟨r, hr, offers⟩ := Record.exists_offers (by simp) h ["event_name", "repository", "project",
    "origin_unit", "handler_class_name", "handler_method_name", "position", "is_in_background_job",
    "handler_body_snippet"]
  obtain ⟨hrepository, hproject, hpath⟩ := c.origin.fields_eq offers rfl rfl rfl hwritten
  have hevent : r.field? "event_name" Json.str? = some c.event := offers.field? rfl List.not_mem_nil (.str _)
  have hclass : r.field? "handler_class_name" Json.str? = some c.handlerClass :=
    offers.field? rfl List.not_mem_nil (.str _)
  have hmethod : r.field? "handler_method_name" Json.str? = some c.handlerMethod :=
    offers.field? rfl List.not_mem_nil (.str _)
  have hposition : r.field? "position" Json.count? = some c.position :=
    offers.field? rfl List.not_mem_nil (.natBelow hc)
  have hinJob : r.field? "is_in_background_job" Json.bool? = some c.inBackgroundJob :=
    offers.field? rfl List.not_mem_nil (.bool _)
  have hsnippet : r.nullable? "handler_body_snippet" Json.strings? = some c.snippet :=
    offers.nullable? rfl List.not_mem_nil (.orNull rfl fun lines _ => .strings lines)
  simp [ofJson?, hr, hrepository, hproject, hpath, hevent, hclass, hmethod, hposition, hinJob, hsnippet]

theorem SubscriptionKind.reads (kind : SubscriptionKind) : Reads [] ofJson? (.str kind.label) kind := by
  intro k h
  cases h
  cases kind <;> rfl

theorem Subscription.reads {s : Subscription} (hs : s.position < UInt64.size) {j : Json}
    (hj : s.toJson? = some j) : Reads [] ofJson? j s := by
  obtain ⟨path, hwritten, rfl⟩ := Option.map_eq_some_iff.mp hj
  intro k h
  obtain ⟨r, hr, offers⟩ := Record.exists_offers (by simp) h ["event_name", "repository", "project",
    "origin_unit", "kind", "position", "context", "is_in_background_job"]
  obtain ⟨hrepository, hproject, hpath⟩ := s.origin.fields_eq offers rfl rfl rfl hwritten
  have hevent : r.field? "event_name" Json.str? = some s.event := offers.field? rfl List.not_mem_nil (.str _)
  have hkind : r.field? "kind" SubscriptionKind.ofJson? = some s.kind :=
    offers.field? rfl List.not_mem_nil s.kind.reads
  have hposition : r.field? "position" Json.count? = some s.position :=
    offers.field? rfl List.not_mem_nil (.natBelow hs)
  have hcontext : r.nullable? "context" Json.str? = some s.context :=
    offers.nullable? rfl List.not_mem_nil (.orNull rfl fun text _ => .str text)
  have hinJob : r.field? "is_in_background_job" Json.bool? = some s.inBackgroundJob :=
    offers.field? rfl List.not_mem_nil (.bool _)
  simp [ofJson?, hr, hrepository, hproject, hpath, hevent, hkind, hposition, hcontext, hinJob]

end ReadBack

section Plain

theorem Path.plain {p : Path} {j : Json} (hj : p.toJson? = some j) : Plain j := by
  obtain ⟨s, -, rfl⟩ := toJson?_eq_some_iff.mp hj
  exact .str s

theorem EventDefinition.plain {e : EventDefinition} {j : Json} (hj : e.toJson? = some j) : Plain j := by
  obtain ⟨path, hwritten, rfl⟩ := Option.map_eq_some_iff.mp hj
  exact .obj (by simp [Plain.str, Plain.strings, Plain.text?, Path.plain hwritten])

theorem Publication.plain {p : Publication} {j : Json} (hj : p.toJson? = some j) : Plain j := by
  obtain ⟨path, hwritten, rfl⟩ := Option.map_eq_some_iff.mp hj
  exact .obj (by simp [Plain.str, Plain.bool, Plain.nat, Plain.text?, Path.plain hwritten])

theorem Consumption.plain {c : Consumption} {j : Json} (hj : c.toJson? = some j) : Plain j := by
  obtain ⟨path, hwritten, rfl⟩ := Option.map_eq_some_iff.mp hj
  have hsnippet : Plain (.ofOption .strings c.snippet) := .option fun lines _ => .strings lines
  exact .obj (by simp [Plain.str, Plain.bool, Plain.nat, hsnippet, Path.plain hwritten])

theorem Subscription.plain {s : Subscription} {j : Json} (hj : s.toJson? = some j) : Plain j := by
  obtain ⟨path, hwritten, rfl⟩ := Option.map_eq_some_iff.mp hj
  exact .obj (by simp [Plain.str, Plain.bool, Plain.nat, Plain.text?, Path.plain hwritten])

theorem EventSummary.plain (e : EventSummary) : Plain e.toJson :=
  .obj (by simp [Plain.str, Plain.bool, Plain.nat])

theorem MatrixRow.plain (row : MatrixRow) : Plain row.toJson :=
  .obj (by simp [Plain.str, Plain.bool, Plain.nat])

end Plain

namespace Report

private theorem metaJson_plain (r : Report) : Plain r.metaJson :=
  .obj (by simp [Plain.str, Plain.nat])

private theorem exportJson?_plain {r : Report} {j : Json} (hj : r.exportJson? = some j) : Plain j := by
  simp only [exportJson?, Option.bind_eq_bind, Option.bind_eq_some_iff] at hj
  obtain ⟨consumers, hconsumers, events, hevents, publishers, hpublishers, subscriptions, hsubscriptions, hj⟩ := hj
  obtain rfl := Option.some.inj hj
  have hflows : Plain (.ofList EventSummary.toJson r.toFacts.summary.events) := .list fun e _ => e.plain
  have hmatrix : Plain (.ofList MatrixRow.toJson r.toFacts.summary.matrix) := .list fun row _ => row.plain
  have hconsumers := Plain.list? hconsumers fun c _ j => Consumption.plain
  have hevents := Plain.list? hevents fun e _ j => EventDefinition.plain
  have hpublishers := Plain.list? hpublishers fun p _ j => Publication.plain
  have hsubscriptions := Plain.list? hsubscriptions fun s _ j => Subscription.plain
  exact .obj (by
    simp [Plain.strings, r.metaJson_plain, hevents, hpublishers, hconsumers, hsubscriptions, hflows, hmatrix])

/-- A value from which a report can be told: the facts can be read, their numbers are given, and the
correlation is that of the report. -/
structure ToldBy (r : Report) (value : Json) : Prop where
  events : (value.member? "events").bind (Json.list? EventDefinition.ofJson?) = some r.events
  publications : (value.member? "publishers").bind (Json.list? Publication.ofJson?) = some r.publications
  consumptions : (value.member? "consumers").bind (Json.list? Consumption.ofJson?) = some r.consumptions
  subscriptions : (value.member? "subscriptions").bind (Json.list? Subscription.ofJson?) = some r.subscriptions
  counts : ∀ key ∈ ["events", "publishers", "consumers", "subscriptions"], ∃ items,
    value.member? key = some (.arr items) ∧
      (value.member? "meta").bind (·.member? key) = some (.nat items.length)
  flows : value.member? "flows" = some (.ofList EventSummary.toJson r.toFacts.summary.events)
  orphaned : value.member? "orphaned" = some (.strings r.toFacts.summary.orphaned)
  deadLetters : value.member? "dead_letters" = some (.strings r.toFacts.summary.deadLetters)
  matrix : value.member? "matrix" = some (.ofList MatrixRow.toJson r.toFacts.summary.matrix)

private theorem toldBy_exportJson? {r : Report} (h : r.toFacts.FitsWords) {j : Json} (hj : r.exportJson? = some j) :
    r.ToldBy j := by
  simp only [exportJson?, Option.bind_eq_bind, Option.bind_eq_some_iff] at hj
  obtain ⟨consumers, hconsumers, events, hevents, publishers, hpublishers, subscriptions, hsubscriptions, hj⟩ := hj
  obtain rfl := Option.some.inj hj
  have hcount {α : Type} {write? : α → Option Json} {items : List α} {j : Json}
      (hj : Json.ofList? write? items = some j) :
      ∃ written, some j = some (Json.arr written) ∧ some (Json.nat items.length) = some (.nat written.length) := by
    obtain ⟨write, -, rfl⟩ := Json.exists_write_of_ofList? hj
    exact ⟨items.map write, rfl, by rw [List.length_map]⟩
  exact {
    events := (Reads.listOf? hevents fun e _ j => EventDefinition.reads).eq
    publications := (Reads.listOf? hpublishers fun p hp j => Publication.reads (h.publications p hp)).eq
    consumptions := (Reads.listOf? hconsumers fun c hc j => Consumption.reads (h.consumptions c hc)).eq
    subscriptions := (Reads.listOf? hsubscriptions fun s hs j => Subscription.reads (h.subscriptions s hs)).eq
    counts := by
      simp only [List.forall_mem_cons]
      exact ⟨hcount hevents, hcount hpublishers, hcount hconsumers, hcount hsubscriptions, by simp⟩
    flows := rfl
    orphaned := rfl
    deadLetters := rfl
    matrix := rfl }

/-- A list of facts can be written exactly if the paths of all its facts are texts. -/
theorem ofList?_isSome_iff_isText {α : Type} {write? : α → Option Json} (origin : α → Origin)
    (h : ∀ a, (write? a).isSome = (origin a).path.toJson?.isSome) {items : List α} :
    (Json.ofList? write? items).isSome = true ↔ ∀ o ∈ items.map origin, o.path.IsText := by
  simp only [Json.ofList?_isSome_iff, h, Path.toJson?_isSome_iff, List.forall_mem_map]

/-- A report can be exported exactly if all its paths are texts. -/
theorem exportJson?_isSome_iff {r : Report} : r.exportJson?.isSome = true ↔ r.toFacts.HasTextPaths := by
  have hevents : (Json.ofList? EventDefinition.toJson? r.events).isSome = true ↔ _ :=
    ofList?_isSome_iff_isText EventDefinition.origin fun e => Option.isSome_map
  have hpublications : (Json.ofList? Publication.toJson? r.publications).isSome = true ↔ _ :=
    ofList?_isSome_iff_isText Publication.origin fun p => Option.isSome_map
  have hconsumptions : (Json.ofList? Consumption.toJson? r.consumptions).isSome = true ↔ _ :=
    ofList?_isSome_iff_isText Consumption.origin fun c => Option.isSome_map
  have hsubscriptions : (Json.ofList? Subscription.toJson? r.subscriptions).isSome = true ↔ _ :=
    ofList?_isSome_iff_isText Subscription.origin fun s => Option.isSome_map
  have hexport : r.exportJson?.isSome = true ↔ (Json.ofList? Consumption.toJson? r.consumptions).isSome = true ∧
      (Json.ofList? EventDefinition.toJson? r.events).isSome = true ∧
      (Json.ofList? Publication.toJson? r.publications).isSome = true ∧
      (Json.ofList? Subscription.toJson? r.subscriptions).isSome = true := by
    simp [exportJson?, Option.isSome_iff_exists, Option.bind_eq_some_iff]
  rw [hexport, hevents, hpublications, hconsumptions, hsubscriptions, Facts.HasTextPaths, Facts.origins]
  simp only [List.forall_mem_append]
  tauto

/-- A report with the greatest line number there is and with texts that have to be escaped. -/
def escapedReport : Report where
  publications := [{
    event := "Placed", origin := ⟨"shop", "Orders", ⟨"shop/\"a\".cs"⟩⟩, className := "Café", methodName := "Run"
    position := UInt64.size - 1, context := some "bus.Publish(\n\t\\ \x01)" }]
  consumptions := [{
    event := "Placed", origin := ⟨"shop", "Billing", ⟨"b.cs"⟩⟩, handlerClass := "H", position := 3
    snippet := some [] }]
  subscriptions := [{
    event := "Placed", origin := ⟨"shop", "Billing", ⟨"b.cs"⟩⟩, kind := .eventBusSubscription, position := 0 }]
  generatedAt := .ofEpoch 0
  repositoryCount := 1
  projectCount := 2

/-- The same report with a path that is no text. -/
def lostPathReport : Report :=
  { escapedReport with
    events := [{ name := "Placed", qualifiedName := "Shop.Placed", origin := ⟨"shop", "Orders", ⟨⟨[0xFF]⟩⟩⟩ }] }

end Report

end EventAtlas
