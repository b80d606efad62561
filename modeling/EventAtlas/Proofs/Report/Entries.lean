import EventAtlas.Proofs.Report.Correlation
import EventAtlas.Report.Correlation
import EventAtlas.Report.FlowGraph
import Mathlib.Data.List.Nodup

namespace EventAtlas.FlowGraph

/-- The kinds of nodes that stand for single facts. -/
def NodeKind.isSite : NodeKind → Bool
  | publisher | consumer | subscription => true
  | _ => false

/-- A fact that has a node of its own. -/
structure Site where
  origin : Origin
  node : Node
  edge : EdgeKind
  event : String
  isSite : node.kind.isSite = true := by rfl
  edge_ne : edge ≠ .defines := by decide
  deriving DecidableEq

theorem Site.kind_ne (s : Site) {kind : NodeKind} (hkind : kind.isSite = false) : s.node.kind ≠ kind := by
  intro heq
  have hs := s.isSite
  rw [heq, hkind] at hs
  exact Bool.false_ne_true hs

def publicationSite (p : Publication) : Site where
  origin := p.origin
  node := publicationNode p
  edge := .publishes
  event := p.event

def consumptionSite (c : Consumption) : Site where
  origin := c.origin
  node := consumptionNode c
  edge := .consumes
  event := c.event

def subscriptionSite (s : Subscription) : Site where
  origin := s.origin
  node := subscriptionNode s
  edge := .subscribes
  event := s.event

/-- The facts that have nodes of their own, in the order of the report. -/
def sites (f : Facts) : List Site :=
  f.publications.map publicationSite ++ f.consumptions.map consumptionSite ++
    f.subscriptions.map subscriptionSite

/-- What a definition says about its event. -/
def definitionProperties (e : EventDefinition) : List (String × String) :=
  [("fullName", e.qualifiedName), ("properties", ", ".intercalate e.properties)]

/-- The properties of the last definition of a name. -/
def lastProperties (events : List EventDefinition) (name : String) : List (String × String) :=
  (events.reverse.find? (·.name == name)).elim [] definitionProperties

theorem lastProperties_concat (events : List EventDefinition) (e : EventDefinition) :
    lastProperties (events ++ [e]) =
      Function.update (lastProperties events) e.name (definitionProperties e) := by
  funext name
  by_cases hname : name = e.name
  · simp [lastProperties, hname]
  · simp [lastProperties, Function.update_of_ne hname, Ne.symm hname]

def repositoryNode (repository : String) : Node := { kind := .repository, name := repository }

def serviceNode (service : String × String) : Node :=
  { kind := .service, name := service.2, properties := [("repository", service.1)] }

/-- What a node stands for. A site has its number among the facts of its kind. -/
inductive Entity where
  | repository (name : String)
  | service (service : String × String)
  | event (name : String)
  | site (number : Nat) (site : Site)
  deriving DecidableEq

def Entity.kind : Entity → NodeKind
  | repository _ => .repository
  | service _ => .service
  | event _ => .event
  | site _ s => s.node.kind

def Entity.isService : Entity → Bool
  | service _ => true
  | _ => false

theorem Entity.kind_of_isService {x : Entity} (hx : x.isService = true) : x.kind = .service := by
  cases x with
  | service s => rfl
  | repository _ | event _ | site _ _ => simp [isService] at hx

structure Tie where
  source : Entity
  kind : EdgeKind
  target : Entity
  deriving DecidableEq

/-- What the report tells at one place: a definition, or a site with its number. -/
inductive Entry where
  | definition (event : EventDefinition)
  | site (number : Nat) (site : Site)

namespace Entry

def service : Entry → String × String
  | definition e => e.origin.service
  | site _ s => s.origin.service

def event : Entry → String
  | definition e => e.name
  | site _ s => s.event

def definition? : Entry → Option EventDefinition
  | definition e => some e
  | site _ _ => none

def site? : Entry → Option (Nat × Site)
  | definition _ => none
  | site number s => some (number, s)

/-- The things that an entry mentions, in the order it mentions them. -/
def entities (e : Entry) : List Entity :=
  [.repository e.service.1, .service e.service] ++
    (e.site?.map fun s => Entity.site s.1 s.2).toList ++ [.event e.event]

/-- What an entry mentions: the repository and the service, the site if it is one, and the event. -/
theorem mem_entities {e : Entry} {x : Entity} : x ∈ e.entities ↔ x = .repository e.service.1 ∨
    x = .service e.service ∨ (∃ s ∈ e.site?, x = .site s.1 s.2) ∨ x = .event e.event := by
  cases e with
  | definition e => simp [entities, site?]
  | site number s => simp [entities, site?]

/-- The ties that each entry adds. -/
def ties : Entry → List Tie
  | definition e => [⟨.service e.origin.service, .defines, .event e.name⟩]
  | site number s =>
    [⟨.service s.origin.service, .contains, .site number s⟩,
      ⟨.site number s, s.edge, .event s.event⟩]

/-- No entry ties anything to a service itself. -/
theorem not_isService_of_mem_ties {e : Entry} {t : Tie} (ht : t ∈ e.ties) : t.target.isService = false := by
  cases e with
  | definition e =>
    obtain rfl := List.mem_singleton.mp ht
    rfl
  | site number s =>
    rcases List.mem_pair.mp ht with rfl | rfl
    · rfl
    · rfl

theorem eq_site_of_site? {e : Entry} {number : Nat} {s : Site} (h : e.site? = some (number, s)) :
    e = .site number s := by
  cases e with
  | definition e => simp [site?] at h
  | site _ _ =>
    obtain ⟨rfl, rfl⟩ := Prod.mk.inj (Option.some.inj h)
    rfl

/-- Only the entry of a site has ties with the site. -/
theorem site?_of_mem_ties {e : Entry} {t : Tie} (ht : t ∈ e.ties) {number : Nat} {s : Site}
    (hsite : t.source = .site number s ∨ t.target = .site number s) : e.site? = some (number, s) := by
  cases e with
  | definition e =>
    obtain rfl := List.mem_singleton.mp ht
    simp at hsite
  | site _ _ =>
    rcases List.mem_pair.mp ht with rfl | rfl
    · simpa [site?] using hsite
    · simpa [site?] using hsite

/-- An entry mentions at most one thing of each kind that many facts share. -/
theorem filter_entities_kind (e : Entry) {kind : NodeKind} (hkind : kind.isSite = false) :
    e.entities.filter (·.kind == kind) =
      [Entity.repository e.service.1, .service e.service, .event e.event].filter (·.kind == kind) := by
  cases e with
  | definition e => rfl
  | site number s =>
    have hsite : (s.node.kind == kind) = false := beq_false_of_ne (s.kind_ne hkind)
    simp [entities, site?, List.filter_cons, Entity.kind, hsite]

/-- An entry mentions no site but its own. -/
theorem filter_entities_site (e : Entry) :
    e.entities.filter (·.kind.isSite) = (e.site?.map fun s => Entity.site s.1 s.2).toList := by
  cases e with
  | definition e => rfl
  | site number s =>
    have hothers : NodeKind.repository.isSite = false ∧ NodeKind.service.isSite = false ∧
        NodeKind.event.isSite = false := by decide
    simp [entities, site?, Entity.kind, hothers, s.isSite]

end Entry

def numbered (sites : List Site) : List (Nat × Site) := sites.zipIdx.map Prod.swap

/-- The sites of a report. Each kind is numbered by itself. -/
def numberedSites (f : Facts) : List (Nat × Site) :=
  numbered (f.publications.map publicationSite) ++ numbered (f.consumptions.map consumptionSite) ++
    numbered (f.subscriptions.map subscriptionSite)

def entries (f : Facts) : List Entry :=
  f.events.map .definition ++ (numberedSites f).map fun s => .site s.1 s.2

private theorem numbered_sites (sites : List Site) : (numbered sites).map Prod.snd = sites := by
  simp [numbered, Function.comp_def]

theorem numberedSites_sites (f : Facts) : (numberedSites f).map Prod.snd = sites f := by
  simp only [numberedSites, List.map_append, numbered_sites]
  rfl

theorem entries_map {α : Type} (f : Facts) (field : Entry → α) (ofSite : Site → α)
    (hsite : ∀ number s, field (.site number s) = ofSite s) :
    (entries f).map field = f.events.map (fun e => field (.definition e)) ++ (sites f).map ofSite := by
  rw [← numberedSites_sites f]
  simp [entries, Function.comp_def, hsite]

/-- The services of the entries are those of the facts, in the order of the facts. -/
theorem entries_services (f : Facts) : (entries f).map Entry.service = f.services := by
  rw [entries_map f _ (fun s => s.origin.service) fun _ _ => rfl]
  simp [sites, Facts.services, Function.comp_def, Entry.service, publicationSite, consumptionSite,
    subscriptionSite]

theorem entries_events (f : Facts) : (entries f).map Entry.event = f.eventNames := by
  rw [entries_map f _ (fun s => s.event) fun _ _ => rfl]
  simp [sites, Facts.eventNames, Facts.mentions, Function.comp_def, Entry.event, publicationSite, consumptionSite,
    subscriptionSite]

/-- The definitions among the entries are those of the facts. -/
theorem entries_definitions (f : Facts) : (entries f).filterMap Entry.definition? = f.events := by
  simp [entries, List.filterMap_map, Function.comp_def, Entry.definition?]

/-- The sites among the entries are those of the facts, with their numbers. -/
theorem entries_sites (f : Facts) : (entries f).filterMap Entry.site? = numberedSites f := by
  simp [entries, List.filterMap_map, Function.comp_def, Entry.site?]

/-- The site with a number among those of its kind. -/
def siteAt? (f : Facts) (kind : NodeKind) (number : Nat) : Option Site :=
  if kind = .publisher then (f.publications.map publicationSite)[number]?
  else if kind = .consumer then (f.consumptions.map consumptionSite)[number]?
  else (f.subscriptions.map subscriptionSite)[number]?

theorem mem_numbered {sites : List Site} {number : Nat} {s : Site} :
    (number, s) ∈ numbered sites ↔ sites[number]? = some s := by
  simp [numbered, List.mem_zipIdx_iff_getElem?]

theorem kind_of_mem_numbered {α : Type} {items : List α} (siteOf : α → Site) {kind : NodeKind}
    (hkind : ∀ a, (siteOf a).node.kind = kind) {x : Nat × Site} (hx : x ∈ numbered (items.map siteOf)) :
    x.2.node.kind = kind := by
  have hitem := mem_numbered.mp hx
  rw [List.getElem?_map] at hitem
  obtain ⟨a, -, ha⟩ := Option.map_eq_some_iff.mp hitem
  rw [← ha, hkind a]

section

variable {f : Facts} {x : Nat × Site}

theorem kind_publisher (hx : x ∈ numbered (f.publications.map publicationSite)) :
    x.2.node.kind = .publisher :=
  kind_of_mem_numbered publicationSite (fun _ => rfl) hx

theorem kind_consumer (hx : x ∈ numbered (f.consumptions.map consumptionSite)) :
    x.2.node.kind = .consumer :=
  kind_of_mem_numbered consumptionSite (fun _ => rfl) hx

theorem kind_subscription (hx : x ∈ numbered (f.subscriptions.map subscriptionSite)) :
    x.2.node.kind = .subscription :=
  kind_of_mem_numbered subscriptionSite (fun _ => rfl) hx

end

/-- A kind and a number tell a site. -/
theorem siteAt?_of_mem {f : Facts} {x : Nat × Site} (hx : x ∈ numberedSites f) :
    siteAt? f x.2.node.kind x.1 = some x.2 := by
  rw [numberedSites, List.mem_append, List.mem_append] at hx
  rcases hx with (hx | hx) | hx
  · rw [kind_publisher hx]
    exact mem_numbered.mp hx
  · rw [kind_consumer hx]
    exact mem_numbered.mp hx
  · rw [kind_subscription hx]
    exact mem_numbered.mp hx

theorem numbered_nodup (sites : List Site) : (numbered sites).Nodup := by
  have hnumbers : ((numbered sites).map Prod.fst).Nodup := by
    simp [numbered, Function.comp_def, List.nodup_range']
  exact hnumbers.of_map

/-- No site is numbered twice. -/
theorem numberedSites_nodup (f : Facts) : (numberedSites f).Nodup := by
  refine List.nodup_append.mpr ⟨List.nodup_append.mpr ⟨numbered_nodup _, numbered_nodup _, ?_⟩,
    numbered_nodup _, ?_⟩
  · intro x hx y hy hxy
    have hkinds := kind_publisher hx
    rw [hxy, kind_consumer hy] at hkinds
    simp at hkinds
  · intro x hx y hy hxy
    have hsubscription := kind_subscription hy
    rw [← hxy] at hsubscription
    rcases List.mem_append.mp hx with hx | hx
    · simp [kind_publisher hx] at hsubscription
    · simp [kind_consumer hx] at hsubscription

end EventAtlas.FlowGraph
