import EventAtlas.Report.FlowGraph
import Mathlib.Order.Nat

namespace EventAtlas.FlowGraph

/-- The keys that properties of nodes have. -/
def propertyKeys : List String := ["repository", "fullName", "properties", "file", "line", "backgroundJob"]

/-- A node whose properties have known keys, and whose name and values are all `good`. -/
structure Node.Holds (good : String → Prop) (n : Node) : Prop where
  name : good n.name
  keys : ∀ p ∈ n.properties, p.1 ∈ propertyKeys
  values : ∀ p ∈ n.properties, good p.2

/-- The texts of an origin that nodes of services show. -/
def ShowsGood (good : String → Prop) (o : Origin) : Prop := good o.repository ∧ good o.project

namespace Draft

variable {good : String → Prop}

/-- Every node has a key, holds good texts, and every edge joins two of the nodes. -/
structure Sound (good : String → Prop) (d : Draft) : Prop where
  keys : d.keys.length = d.graph.nodes.length
  nodes : ∀ n ∈ d.graph.nodes, n.Holds good
  edges : ∀ e ∈ d.graph.edges, e.source < d.graph.nodes.length ∧ e.target < d.graph.nodes.length

/-- A sound draft that `d` has grown to, and the number of one of its nodes. -/
structure Step (good : String → Prop) (d : Draft) (step : Nat × Draft) : Prop where
  sound : step.2.Sound good
  grows : d.graph.nodes.length ≤ step.2.graph.nodes.length
  inRange : step.1 < step.2.graph.nodes.length

theorem node_step {d : Draft} (h : d.Sound good) (key : String) {n : Node} (hn : n.Holds good) :
    Step good d (d.node key n) := by
  unfold node
  cases hfound : d.keys.findIdx? (· == (n.kind, key)) with
  | some i =>
    obtain ⟨hi, -⟩ := List.findIdx?_eq_some_iff_getElem.mp hfound
    exact ⟨h, le_rfl, h.keys ▸ hi⟩
  | none =>
    refine ⟨⟨?_, ?_, ?_⟩, ?_, ?_⟩
    · simp [h.keys]
    · intro m hm
      rcases List.mem_append.mp hm with hm | hm
      · exact h.nodes m hm
      · exact List.mem_singleton.mp hm ▸ hn
    · intro e he
      have hends := h.edges e he
      simp only [List.length_append, List.length_singleton]
      omega
    · simp
    · simp

/-- A new edge between nodes keeps a draft sound. -/
theorem edge_sound {d : Draft} (h : d.Sound good) {source target : Nat} (kind : EdgeKind)
    (hsource : source < d.graph.nodes.length) (htarget : target < d.graph.nodes.length) :
    (d.edge source kind target).Sound good := by
  refine ⟨h.keys, h.nodes, ?_⟩
  intro e he
  rcases List.mem_append.mp he with he | he
  · exact h.edges e he
  · obtain rfl := List.mem_singleton.mp he
    exact ⟨hsource, htarget⟩

theorem service_step {d : Draft} (h : d.Sound good) {o : Origin} (ho : ShowsGood good o) :
    Step good d (d.service o) := by
  have hrepository := node_step h o.repository (n := { kind := .repository, name := o.repository })
    ⟨ho.1, by simp, by simp⟩
  have hservice := node_step hrepository.sound (o.repository ++ "/" ++ o.project)
    (n := { kind := .service, name := o.project, properties := [("repository", o.repository)] })
    ⟨ho.2, by simp [propertyKeys], by simpa using ho.1⟩
  have hgrows := hrepository.grows.trans hservice.grows
  have hrange := hrepository.inRange.trans_le hservice.grows
  unfold service
  dsimp only
  split_ifs
  · exact ⟨hservice.sound, hgrows, hservice.inRange⟩
  · exact ⟨edge_sound hservice.sound .contains hrange hservice.inRange, hgrows, hservice.inRange⟩

theorem event_step {d : Draft} (h : d.Sound good) {name : String} (hname : good name) :
    Step good d (d.event name) :=
  node_step h name ⟨hname, by simp, by simp⟩

private theorem describe_sound {d : Draft} (h : d.Sound good) (i : Nat) (properties : List (String × String))
    (hkeys : ∀ p ∈ properties, p.1 ∈ propertyKeys) (hvalues : ∀ p ∈ properties, good p.2) :
    (d.describe i properties).Sound good := by
  have hlength : (d.describe i properties).graph.nodes.length = d.graph.nodes.length :=
    List.length_modify _ _ _
  refine ⟨h.keys.trans hlength.symm, ?_, ?_⟩
  · intro n hn
    obtain ⟨j, hj⟩ := List.mem_iff_getElem?.mp hn
    rw [describe, List.getElem?_modify] at hj
    obtain ⟨m, hm, rfl⟩ := Option.map_eq_some_iff.mp hj
    have hold := h.nodes m (List.mem_of_getElem? hm)
    split_ifs
    · exact ⟨hold.name, hkeys, hvalues⟩
    · exact hold
  · rw [hlength]
    exact h.edges

private theorem define_sound {d : Draft} (h : d.Sound good) {e : EventDefinition} (horigin : ShowsGood good e.origin)
    (hname : good e.name) (hqualified : good e.qualifiedName)
    (hproperties : good (", ".intercalate e.properties)) : (d.define e).Sound good := by
  have hservice := service_step h horigin
  have hevent := event_step hservice.sound hname
  have hdescribed := describe_sound hevent.sound (((d.service e.origin).2).event e.name).1
    [("fullName", e.qualifiedName), ("properties", ", ".intercalate e.properties)]
    (by simp [propertyKeys]) (by simp [hqualified, hproperties])
  unfold define
  dsimp only
  apply edge_sound hdescribed
  · rw [describe, List.length_modify]
    exact hservice.inRange.trans_le hevent.grows
  · rw [describe, List.length_modify]
    exact hevent.inRange

private theorem site_sound {d : Draft} (h : d.Sound good) (i : Nat) {o : Origin} (ho : ShowsGood good o) {n : Node}
    (hn : n.Holds good) (kind : EdgeKind) {eventName : String} (hname : good eventName) :
    (d.site i o n kind eventName).Sound good := by
  have hservice := service_step h ho
  have hsite := node_step hservice.sound (String.ofList (Nat.toDigits 10 i)) hn
  have hevent := event_step hsite.sound hname
  have hcontains := edge_sound hevent.sound .contains
    (hservice.inRange.trans_le (hsite.grows.trans hevent.grows)) (hsite.inRange.trans_le hevent.grows)
  exact edge_sound hcontains kind (hsite.inRange.trans_le hevent.grows) hevent.inRange

end Draft

/-- The texts of facts that their graph shows. -/
structure FactsShowGood (good : String → Prop) (f : Facts) : Prop where
  events : ∀ e ∈ f.events, ShowsGood good e.origin ∧ good e.name ∧ good e.qualifiedName ∧
    good (", ".intercalate e.properties)
  publications : ∀ p ∈ f.publications, ShowsGood good p.origin ∧ (publicationNode p).Holds good ∧ good p.event
  consumptions : ∀ c ∈ f.consumptions, ShowsGood good c.origin ∧ (consumptionNode c).Holds good ∧ good c.event
  subscriptions : ∀ s ∈ f.subscriptions,
    ShowsGood good s.origin ∧ (subscriptionNode s).Holds good ∧ good s.event

/-- Sites are added one by one, and each keeps a draft sound. -/
theorem foldl_site_sound {α : Type} {good : String → Prop} {items : List α} {origin : α → Origin}
    {node : α → Node} (kind : EdgeKind) {event : α → String}
    (hitems : ∀ a ∈ items, ShowsGood good (origin a) ∧ (node a).Holds good ∧ good (event a)) {d : Draft}
    (h : d.Sound good) :
    (items.zipIdx.foldl (fun d (a, i) => d.site i (origin a) (node a) kind (event a)) d).Sound good := by
  apply List.foldlRecOn _ _ h
  rintro d hd ⟨a, i⟩ ha
  obtain ⟨horigin, hnode, hevent⟩ := hitems a (List.fst_mem_of_mem_zipIdx ha)
  exact Draft.site_sound hd i horigin hnode kind hevent

/-- The nodes of a graph hold good texts and its edges join its nodes. -/
theorem ofFacts_sound {good : String → Prop} {f : Facts} (h : FactsShowGood good f) :
    (∀ n ∈ (ofFacts f).nodes, n.Holds good) ∧
      ∀ e ∈ (ofFacts f).edges, e.source < (ofFacts f).nodes.length ∧ e.target < (ofFacts f).nodes.length := by
  have hstart : Draft.Sound good {} := ⟨rfl, by simp, by simp⟩
  have hevents : Draft.Sound good (f.events.foldl Draft.define {}) := by
    apply List.foldlRecOn _ _ hstart
    intro d hd e he
    obtain ⟨horigin, hname, hqualified, hproperties⟩ := h.events e he
    exact Draft.define_sound hd horigin hname hqualified hproperties
  have hpublications := foldl_site_sound .publishes h.publications hevents
  have hconsumptions := foldl_site_sound .consumes h.consumptions hpublications
  have hsubscriptions := foldl_site_sound .subscribes h.subscriptions hconsumptions
  exact ⟨hsubscriptions.nodes, hsubscriptions.edges⟩

theorem factsShowGood_true (f : Facts) : FactsShowGood (fun _ => True) f where
  events _ _ := by simp [ShowsGood]
  publications p _ := ⟨⟨trivial, trivial⟩,
    ⟨trivial, by simp [publicationNode, place, jobProperty, propertyKeys], fun _ _ => trivial⟩, trivial⟩
  consumptions c _ := ⟨⟨trivial, trivial⟩,
    ⟨trivial, by simp [consumptionNode, place, jobProperty, propertyKeys], fun _ _ => trivial⟩, trivial⟩
  subscriptions s _ := ⟨⟨trivial, trivial⟩,
    ⟨trivial, by simp [subscriptionNode, place, propertyKeys], fun _ _ => trivial⟩, trivial⟩

/-- The properties of nodes have fixed keys. -/
theorem ofFacts_keys {f : Facts} {n : Node} (hn : n ∈ (ofFacts f).nodes) :
    ∀ p ∈ n.properties, p.1 ∈ propertyKeys :=
  ((ofFacts_sound (factsShowGood_true f)).1 n hn).keys

end EventAtlas.FlowGraph
