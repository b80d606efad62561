import EventAtlas.Proofs.Report.Drafting
import Mathlib.Data.List.Forall2

namespace EventAtlas.FlowGraph

/-- The nodes of a kind, in the order of their numbers. -/
def nodesOf (g : FlowGraph) (kind : NodeKind) : List Node := g.nodes.filter (·.kind == kind)

/-- The numbers of the nodes whose kinds pass a test. -/
def numbersOf (g : FlowGraph) (p : NodeKind → Bool) : List Nat :=
  (g.nodes.zipIdx.filter fun n => p n.1.kind).map Prod.snd

def into (g : FlowGraph) (i : Nat) : List Edge := g.edges.filter (·.target == i)

def outOf (g : FlowGraph) (i : Nat) : List Edge := g.edges.filter (·.source == i)

/-- The node of an event, with what the last definition of its name says. -/
def eventNode (f : Facts) (name : String) : Node :=
  { kind := .event, name, properties := lastProperties f.events name }

/-- Node `i` is a service that only its own repository points to. -/
structure IsServiceAt (g : FlowGraph) (i : Nat) (s : String × String) : Prop where
  node : g.nodes[i]? = some (serviceNode s)
  contained : ∃ r, g.nodes[r]? = some (repositoryNode s.1) ∧ g.into i = [⟨r, .contains, i⟩]

/-- Node `i` is a site that only its own service points to, and that points to its own event only. -/
structure IsSiteAt (g : FlowGraph) (f : Facts) (i : Nat) (s : Site) : Prop where
  node : g.nodes[i]? = some s.node
  contained : ∃ j, g.nodes[j]? = some (serviceNode s.origin.service) ∧ g.into i = [⟨j, .contains, i⟩]
  tied : ∃ v, g.nodes[v]? = some (eventNode f s.event) ∧ g.outOf i = [⟨i, s.edge, v⟩]

/-- An edge from the service of a definition to its event. -/
structure IsDefinitionEdge (g : FlowGraph) (f : Facts) (edge : Edge) (e : EventDefinition) : Prop where
  source : g.nodes[edge.source]? = some (serviceNode e.origin.service)
  target : g.nodes[edge.target]? = some (eventNode f e.name)

/-- The edge defines something, points to a service or a site, or comes from a site. -/
def IsExpected (g : FlowGraph) (edge : Edge) : Prop :=
  edge.kind = .defines ∨
    (∃ n, g.nodes[edge.target]? = some n ∧ (n.kind = .service ∨ n.kind.isSite = true)) ∨
    ∃ n, g.nodes[edge.source]? = some n ∧ n.kind.isSite = true

/-- The graph has the nodes and edges of the facts and no more. -/
structure Shows (g : FlowGraph) (f : Facts) : Prop where
  repositories : g.nodesOf .repository = (f.origins.map (·.repository)).eraseDups.map repositoryNode
  services : List.Forall₂ g.IsServiceAt (g.numbersOf (· == .service)) f.services.eraseDups
  events : g.nodesOf .event = f.eventNames.eraseDups.map (eventNode f)
  sites : List.Forall₂ (g.IsSiteAt f) (g.numbersOf NodeKind.isSite) (sites f)
  definitions : List.Forall₂ (g.IsDefinitionEdge f) (g.edges.filter (·.kind == .defines)) f.events
  noOthers : ∀ edge ∈ g.edges, g.IsExpected edge

namespace Outline

variable {o : Outline} {x : Entity}

theorem graph_nodesOf (o : Outline) (kind : NodeKind) :
    o.graph.nodesOf kind = (o.entities.filter (·.kind == kind)).map (·.node o.description) := by
  simp [graph, nodesOf, List.filter_map, Function.comp_def]

theorem graph_node (hx : x ∈ o.entities) : o.graph.nodes[o.number x]? = some (x.node o.description) := by
  rw [graph, List.getElem?_map, number, List.getElem?_idxOf hx, Option.map_some]

private theorem zipIdx_eq_map_idxOf {xs : List Entity} (h : xs.Nodup) :
    xs.zipIdx = xs.map fun x => (x, xs.idxOf x) := by
  refine List.ext_getElem (by simp) fun i hi _ => ?_
  have hi : i < xs.length := by simpa using hi
  simp [h.idxOf_getElem i hi]

theorem graph_numbersOf (h : o.entities.Nodup) (p : NodeKind → Bool) :
    o.graph.numbersOf p = (o.entities.filter fun x => p x.kind).map o.number := by
  rw [numbersOf, graph, List.zipIdx_map, zipIdx_eq_map_idxOf h, List.filter_map, List.filter_map]
  simp [Function.comp_def, number]

/-- Choosing edges is choosing ties. -/
theorem filter_edges {p : Edge → Bool} {q : Tie → Bool} (h : ∀ t ∈ o.ties, p (o.edgeOf t) = q t) :
    o.graph.edges.filter p = (o.ties.filter q).map o.edgeOf := by
  rw [graph, List.filter_map]
  exact congrArg (List.map o.edgeOf) (List.filter_congr h)

section Ends

variable (hends : ∀ t ∈ o.ties, t.source ∈ o.entities ∧ t.target ∈ o.entities)

include hends

/-- One tie into a thing is one edge into its node. -/
theorem exists_into {t : Tie} (htie : o.ties.filter (·.target == x) = [t]) :
    ∃ i, o.graph.nodes[i]? = some (t.source.node o.description) ∧
      o.graph.into (o.number x) = [⟨i, t.kind, o.number x⟩] := by
  have ht : t ∈ o.ties.filter (·.target == x) := htie ▸ List.mem_singleton_self t
  obtain ⟨ht, htarget⟩ := List.mem_filter.mp ht
  have hinto : o.graph.into (o.number x) = (o.ties.filter (·.target == x)).map o.edgeOf := by
    refine filter_edges fun t ht => ?_
    rw [Bool.eq_iff_iff, beq_iff_eq, beq_iff_eq]
    exact number_inj (hends t ht).2
  refine ⟨o.number t.source, graph_node (hends t ht).1, ?_⟩
  rw [hinto, htie, List.map_singleton, edgeOf, beq_iff_eq.mp htarget]

/-- One tie from a thing is one edge from its node. -/
theorem exists_outOf {t : Tie} (htie : o.ties.filter (·.source == x) = [t]) :
    ∃ i, o.graph.nodes[i]? = some (t.target.node o.description) ∧
      o.graph.outOf (o.number x) = [⟨o.number x, t.kind, i⟩] := by
  have ht : t ∈ o.ties.filter (·.source == x) := htie ▸ List.mem_singleton_self t
  obtain ⟨ht, hsource⟩ := List.mem_filter.mp ht
  have hout : o.graph.outOf (o.number x) = (o.ties.filter (·.source == x)).map o.edgeOf := by
    refine filter_edges fun t ht => ?_
    rw [Bool.eq_iff_iff, beq_iff_eq, beq_iff_eq]
    exact number_inj (hends t ht).1
  refine ⟨o.number t.target, graph_node (hends t ht).2, ?_⟩
  rw [hout, htie, List.map_singleton, edgeOf, beq_iff_eq.mp hsource]

end Ends

end Outline

section OfEntries

open Outline

variable {entries : List Entry}

theorem mem_ofEntries {e : Entry} (he : e ∈ entries) {x : Entity} (hx : x ∈ e.entities) :
    x ∈ (ofEntries entries).entities := by
  rw [ofEntries_entities, List.mem_eraseDups]
  exact List.mem_flatMap.mpr ⟨e, he, hx⟩

variable (hends : ∀ t ∈ (ofEntries entries).ties,
  t.source ∈ (ofEntries entries).entities ∧ t.target ∈ (ofEntries entries).entities)

include hends

private theorem service_isServiceAt {s : String × String} (hs : s ∈ entries.map Entry.service) :
    (ofEntries entries).graph.IsServiceAt ((ofEntries entries).number (.service s)) s := by
  have hinto := (ofEntries_ties entries).services s
  rw [if_pos hs] at hinto
  obtain ⟨e, he, rfl⟩ := List.mem_map.mp hs
  have hmem := mem_ofEntries he (Entry.mem_entities.mpr (.inr (.inl rfl)))
  exact ⟨graph_node hmem, exists_into hends hinto⟩

private theorem site_isSiteAt {f : Facts} (hevents : entries.filterMap Entry.definition? = f.events)
    (hsites : (entries.filterMap Entry.site?).Nodup) {number : Nat} {s : Site}
    (hs : (number, s) ∈ entries.filterMap Entry.site?) :
    (ofEntries entries).graph.IsSiteAt f ((ofEntries entries).number (.site number s)) s := by
  have hcontained := exists_into hends (ofEntries_into_site hsites hs)
  have htied := exists_outOf hends (ofEntries_outOf_site hsites hs)
  rw [ofEntries_description, hevents] at htied
  obtain ⟨e, he, hsite⟩ := List.mem_filterMap.mp hs
  have hmem := mem_ofEntries he (Entry.mem_entities.mpr (.inr (.inr (.inl ⟨_, hsite, rfl⟩))))
  exact ⟨graph_node hmem, hcontained, htied⟩

private theorem definitions_areEdges {f : Facts} (hevents : entries.filterMap Entry.definition? = f.events) :
    List.Forall₂ ((ofEntries entries).graph.IsDefinitionEdge f)
      ((ofEntries entries).graph.edges.filter (·.kind == .defines)) f.events := by
  have hties := ofEntries_definitions entries
  rw [hevents] at hties
  rw [filter_edges (q := (·.kind == .defines)) fun _ _ => rfl, hties, List.map_map,
    List.forall₂_map_left_iff, List.forall₂_same]
  intro e he
  have hmem := List.mem_of_mem_filter (hties ▸ List.mem_map_of_mem he)
  obtain ⟨hsource, htarget⟩ := hends _ hmem
  have htargetNode := graph_node htarget
  rw [ofEntries_description, hevents] at htargetNode
  exact ⟨graph_node hsource, htargetNode⟩

/-- A tie goes into a service, or it is one of the ties of an entry. -/
theorem edge_isExpected {edge : Edge} (hedge : edge ∈ (ofEntries entries).graph.edges) :
    (ofEntries entries).graph.IsExpected edge := by
  obtain ⟨t, ht, rfl⟩ := List.mem_map.mp hedge
  obtain ⟨hsource, htarget⟩ := hends t ht
  have hsourceNode := graph_node hsource
  have htargetNode := graph_node htarget
  by_cases hservice : t.target.isService = true
  · refine .inr (.inl ⟨_, htargetNode, .inl ?_⟩)
    rw [Entity.node_kind]
    exact Entity.kind_of_isService hservice
  · have hown : t ∈ entries.flatMap Entry.ties := by
      rw [← (ofEntries_ties entries).others]
      exact List.mem_filter.mpr ⟨ht, by simpa using hservice⟩
    obtain ⟨e, -, hown⟩ := List.mem_flatMap.mp hown
    cases e with
    | definition e =>
      obtain rfl := List.mem_singleton.mp hown
      exact .inl rfl
    | site number s =>
      rcases List.mem_pair.mp hown with rfl | rfl
      · exact .inr (.inl ⟨_, htargetNode, .inr s.isSite⟩)
      · exact .inr (.inr ⟨_, hsourceNode, s.isSite⟩)

end OfEntries

/-- For a report whose repositories have no slashes in their names, the flow graph has one node for every
repository, service and event, one for every site, and only the edges between them. -/
theorem ofFacts_shows {f : Facts} (hf : ∀ o ∈ f.origins, '/' ∉ o.repository.toList) :
    (ofFacts f).Shows f := by
  obtain ⟨d, hgraph, hdraft⟩ := ofFacts_represents hf
  rw [← hgraph, hdraft.graph]
  constructor
  case repositories =>
    have hrepositories : (entries f).map (·.service.1) = f.origins.map (·.repository) := by
      have hservices := congrArg (List.map Prod.fst) ((entries_services f).trans f.services_eq_map)
      rwa [List.map_map, List.map_map] at hservices
    rw [Outline.graph_nodesOf, Outline.ofEntries_repositories, List.map_map, hrepositories]
    rfl
  case services =>
    rw [Outline.graph_numbersOf hdraft.nodup, Outline.ofEntries_services, List.map_map, entries_services,
      List.forall₂_map_left_iff, List.forall₂_same]
    intro s hs
    have hmem : s ∈ (entries f).map Entry.service := entries_services f ▸ List.mem_eraseDups.mp hs
    exact service_isServiceAt hdraft.ends hmem
  case events =>
    rw [Outline.graph_nodesOf, Outline.ofEntries_events, List.map_map, entries_events,
      Outline.ofEntries_description, entries_definitions]
    rfl
  case sites =>
    have hsites : ((entries f).filterMap Entry.site?).Nodup := entries_sites f ▸ numberedSites_nodup f
    rw [Outline.graph_numbersOf hdraft.nodup, Outline.ofEntries_sites hsites, List.map_map, entries_sites,
      ← numberedSites_sites, List.forall₂_map_left_iff, List.forall₂_map_right_iff, List.forall₂_same]
    intro s hs
    exact site_isSiteAt hdraft.ends (entries_definitions f) hsites (entries_sites f ▸ hs)
  case definitions => exact definitions_areEdges hdraft.ends (entries_definitions f)
  case noOthers => exact fun _ => edge_isExpected hdraft.ends

/-- An event that two projects define, and that a third one handles. -/
def sharedEvent : Facts where
  events := [
    { name := "OrderPlaced", qualifiedName := "Shop.OrderPlaced"
      origin := ⟨"shop", "Api", ⟨"shop/Api/Order.cs"⟩⟩ },
    { name := "OrderPlaced", qualifiedName := "Bank.OrderPlaced"
      origin := ⟨"bank", "Api", ⟨"bank/Api/Order.cs"⟩⟩, properties := ["Guid OrderId"] }]
  publications := [{
    event := "OrderPlaced", origin := ⟨"shop", "Api", ⟨"shop/Api/Checkout.cs"⟩⟩
    className := "Checkout", methodName := "Place", position := 12 }]
  consumptions := [{
    event := "OrderPlaced", origin := ⟨"bank", "Ledger", ⟨"bank/Ledger/Booking.cs"⟩⟩
    handlerClass := "Booking", position := 7 }]
  subscriptions := [{
    event := "OrderPaid", origin := ⟨"bank", "Ledger", ⟨"bank/Ledger/Startup.cs"⟩⟩
    kind := .eventBusSubscription, position := 30 }]

theorem sharedEvent_shown : (∀ o ∈ sharedEvent.origins, '/' ∉ o.repository.toList) ∧
    (ofFacts sharedEvent).Shows sharedEvent := by
  have hrepositories : ∀ o ∈ sharedEvent.origins, '/' ∉ o.repository.toList := by decide
  exact ⟨hrepositories, ofFacts_shows hrepositories⟩

example :
    let events : List EventDefinition := [
      { name := "Placed", qualifiedName := "Placed", origin := ⟨"shop/api", "Orders", ⟨"Orders.cs"⟩⟩ },
      { name := "Placed", qualifiedName := "Placed", origin := ⟨"shop", "api/Orders", ⟨"Orders.cs"⟩⟩ }]
    ((ofFacts { events }).nodesOf .service).length = 1 := by decide

end EventAtlas.FlowGraph
