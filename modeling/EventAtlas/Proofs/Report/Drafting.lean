import EventAtlas.Proofs.Report.Outline
import EventAtlas.Proofs.Text.Search

namespace EventAtlas.FlowGraph

namespace Entity

def key : Entity → String
  | repository name => name
  | service s => s.1 ++ "/" ++ s.2
  | event name => name
  | site number _ => String.ofList (Nat.toDigits 10 number)

/-- The node of a thing, where the events have these descriptions. -/
def node (description : String → List (String × String)) : Entity → Node
  | repository name => repositoryNode name
  | service s => serviceNode s
  | event name => { kind := .event, name, properties := description name }
  | site _ s => s.node

@[simp]
theorem node_kind (description : String → List (String × String)) (x : Entity) :
    (x.node description).kind = x.kind := by
  cases x <;> rfl

private theorem node_update_self (description : String → List (String × String)) (name : String)
    (properties : List (String × String)) :
    (event name).node (Function.update description name properties) =
      { (event name).node description with properties } := by
  simp [node]

theorem node_update {description : String → List (String × String)} {x : Entity} {name : String}
    (hx : x ≠ .event name) (properties : List (String × String)) :
    x.node (Function.update description name properties) = x.node description := by
  cases x with
  | event other =>
    have hother : other ≠ name := fun heq => hx (congrArg Entity.event heq)
    simp [node, Function.update_of_ne hother]
  | repository _ | service _ | site _ _ => rfl

end Entity

namespace Outline

def number (o : Outline) (x : Entity) : Nat := o.entities.idxOf x

def edgeOf (o : Outline) (t : Tie) : Edge := ⟨o.number t.source, t.kind, o.number t.target⟩

/-- The things and ties of an outline, with numbers. -/
def graph (o : Outline) : FlowGraph where
  nodes := o.entities.map (·.node o.description)
  edges := o.ties.map o.edgeOf

variable {o : Outline} {x y : Entity}

theorem number_inj (hx : x ∈ o.entities) : o.number x = o.number y ↔ x = y :=
  List.idxOf_inj hx

theorem mention_of_mem (hx : x ∈ o.entities) : o.mention x = o := by
  rw [mention, if_pos hx]

theorem mention_of_not_mem (hx : x ∉ o.entities) : (o.mention x).entities = o.entities ++ [x] := by
  rw [mention, if_neg hx]

theorem mem_mention_of_mem (hy : y ∈ o.entities) (x : Entity) : y ∈ (o.mention x).entities := by
  by_cases hx : x ∈ o.entities
  · rwa [mention_of_mem hx]
  · rw [mention_of_not_mem hx]
    exact List.mem_append_left _ hy

private theorem mem_mention (o : Outline) (x : Entity) : x ∈ (o.mention x).entities := by
  by_cases hx : x ∈ o.entities
  · rwa [mention_of_mem hx]
  · rw [mention_of_not_mem hx]
    exact List.mem_append_right _ (List.mem_singleton_self x)

/-- A number stays the same as things are added. -/
theorem number_mention (hy : y ∈ o.entities) (x : Entity) : (o.mention x).number y = o.number y := by
  by_cases hx : x ∈ o.entities
  · rw [mention_of_mem hx]
  · rw [number, mention_of_not_mem hx, List.idxOf_append_of_mem hy, number]

private theorem number_new (hx : x ∉ o.entities) : (o.mention x).number x = o.entities.length := by
  rw [number, mention_of_not_mem hx, List.idxOf_append_of_notMem hx, List.idxOf_cons_self, Nat.add_zero]

end Outline

namespace Draft

/-- Things of one kind with one key are the same. -/
def KeysApart (known : List Entity) : Prop :=
  ∀ x ∈ known, ∀ y ∈ known, x.kind = y.kind → x.key = y.key → x = y

/-- The draft has the keys and the graph of the outline, of which all things are known. -/
structure Represents (known : List Entity) (o : Outline) (d : Draft) : Prop where
  keys : d.keys = o.entities.map fun x => (x.kind, x.key)
  graph : d.graph = o.graph
  nodup : o.entities.Nodup
  known : ∀ x ∈ o.entities, x ∈ known
  ends : ∀ t ∈ o.ties, t.source ∈ o.entities ∧ t.target ∈ o.entities
  undescribed : ∀ name, .event name ∉ o.entities → o.description name = []

/-- A draft for the outline, and the number of a thing in it. -/
structure Gives (known : List Entity) (x : Entity) (o : Outline) (step : Nat × Draft) : Prop where
  represents : Represents known o step.2
  mem : x ∈ o.entities
  number : step.1 = o.number x

variable {known : List Entity} {o : Outline} {d : Draft} {x y : Entity}

/-- A thing keeps its number in what is mentioned later. -/
theorem Gives.later {step : Nat × Draft} (h : Gives known x o step) (y : Entity) :
    x ∈ (o.mention y).entities ∧ step.1 = (o.mention y).number x :=
  ⟨Outline.mem_mention_of_mem h.mem y, h.number.trans (Outline.number_mention h.mem y).symm⟩

theorem Represents.mention (h : Represents known o d) (hx : x ∈ known) (hnew : x ∉ o.entities) :
    Represents known (o.mention x)
      { keys := d.keys ++ [(x.kind, x.key)]
        graph := { d.graph with nodes := d.graph.nodes ++ [x.node o.description] } } where
  keys := by rw [Outline.mention_of_not_mem hnew, h.keys, List.map_append, List.map_singleton]
  graph := by
    have hedges : o.ties.map (o.mention x).edgeOf = o.ties.map o.edgeOf := by
      refine List.map_congr_left fun t ht => ?_
      obtain ⟨hsource, htarget⟩ := h.ends t ht
      rw [Outline.edgeOf, Outline.edgeOf, Outline.number_mention hsource, Outline.number_mention htarget]
    have hnodes : (o.mention x).entities.map (·.node o.description) =
        o.graph.nodes ++ [x.node o.description] := by
      rw [Outline.mention_of_not_mem hnew, List.map_append, List.map_singleton, Outline.graph]
    rw [h.graph, Outline.graph]
    exact congrArg₂ FlowGraph.mk hnodes.symm hedges.symm
  nodup := by
    have hothers : ∀ y ∈ o.entities, ∀ z ∈ [x], y ≠ z := by
      intro y hy z hz heq
      rw [heq, List.mem_singleton.mp hz] at hy
      exact hnew hy
    rw [Outline.mention_of_not_mem hnew]
    exact List.nodup_append.mpr ⟨h.nodup, List.nodup_singleton x, hothers⟩
  known := by
    intro y hy
    rw [Outline.mention_of_not_mem hnew] at hy
    rcases List.mem_append.mp hy with hy | hy
    · exact h.known y hy
    · exact List.mem_singleton.mp hy ▸ hx
  ends := by
    intro t ht
    obtain ⟨hsource, htarget⟩ := h.ends t ht
    exact ⟨Outline.mem_mention_of_mem hsource x, Outline.mem_mention_of_mem htarget x⟩
  undescribed := by
    intro name hname
    exact h.undescribed name fun hmem => hname (Outline.mem_mention_of_mem hmem x)

/-- Looking for a node by its key finds the thing itself, or adds it. -/
theorem node_gives (hapart : KeysApart known) (h : Represents known o d) (hx : x ∈ known) {n : Node}
    (hkind : n.kind = x.kind) (hnode : x ∉ o.entities → n = x.node o.description) :
    Gives known x (o.mention x) (d.node x.key n) := by
  have hkeys : d.keys.findIdx? (· == (n.kind, x.key)) =
      o.entities.findIdx? fun y => (y.kind, y.key) == (x.kind, x.key) := by
    rw [h.keys, List.findIdx?_map, hkind]
    rfl
  rw [node, hkeys]
  cases hfound : o.entities.findIdx? fun y => (y.kind, y.key) == (x.kind, x.key) with
  | some i =>
    obtain ⟨hi, hkey, -⟩ := List.findIdx?_eq_some_iff_getElem.mp hfound
    have hmem : o.entities[i] ∈ o.entities := List.getElem_mem hi
    obtain ⟨hk, hkey⟩ := Prod.mk.inj (beq_iff_eq.mp hkey)
    have hxi : o.entities[i] = x := hapart _ (h.known _ hmem) x hx hk hkey
    have hx : x ∈ o.entities := hxi ▸ hmem
    rw [Outline.mention_of_mem hx]
    refine ⟨h, hx, ?_⟩
    rw [Outline.number, ← hxi, h.nodup.idxOf_getElem i hi]
  | none =>
    have hnew : x ∉ o.entities := by
      intro hmem
      have hkey := List.findIdx?_eq_none_iff.mp hfound x hmem
      simp at hkey
    obtain rfl := hnode hnew
    refine ⟨hkind ▸ h.mention hx hnew, Outline.mem_mention o x, ?_⟩
    rw [Outline.number_new hnew, h.graph, Outline.graph, List.length_map]

theorem edge_represents (h : Represents known o d) (hx : x ∈ o.entities) (hy : y ∈ o.entities)
    (kind : EdgeKind) : Represents known (o.tie x kind y) (d.edge (o.number x) kind (o.number y)) where
  keys := h.keys
  graph := by
    rw [edge, h.graph, Outline.graph]
    simp [Outline.graph, Outline.tie, Outline.edgeOf, Outline.number]
  nodup := h.nodup
  known := h.known
  ends := by
    intro t ht
    rcases List.mem_append.mp ht with ht | ht
    · exact h.ends t ht
    · obtain rfl := List.mem_singleton.mp ht
      exact ⟨hx, hy⟩
  undescribed := h.undescribed

private theorem hasEdge_eq (h : Represents known o d) (x y : Entity) :
    d.hasEdge (o.number x) (o.number y) = o.hasTie x y := by
  rw [hasEdge, h.graph, Outline.graph, List.any_map, Outline.hasTie, Bool.eq_iff_iff, List.any_eq_true,
    List.any_eq_true]
  refine exists_congr fun t => and_congr_right fun ht => ?_
  obtain ⟨hsource, htarget⟩ := h.ends t ht
  simp [Outline.edgeOf, Outline.number_inj hsource, Outline.number_inj htarget]

private theorem service_eq (d : Draft) (origin : Origin) :
    d.service origin =
      let first := d.node (Entity.repository origin.repository).key (repositoryNode origin.repository)
      let second := first.2.node (Entity.service origin.service).key (serviceNode origin.service)
      (second.1, if second.2.hasEdge first.1 second.1 then second.2
        else second.2.edge first.1 .contains second.1) :=
  rfl

/-- A service is found or added, with its repository and the tie between them. -/
theorem service_gives (hapart : KeysApart known) (h : Represents known o d) (origin : Origin)
    (hrepository : .repository origin.repository ∈ known) (hservice : .service origin.service ∈ known) :
    Gives known (.service origin.service) (o.service origin.service) (d.service origin) := by
  have hfirst := node_gives hapart h hrepository (n := repositoryNode origin.repository) rfl fun _ => rfl
  have hsecond := node_gives hapart hfirst.represents hservice (n := serviceNode origin.service) rfl
    fun _ => rfl
  obtain ⟨hmem, hnumber⟩ := hfirst.later (.service origin.service)
  have hedge := hasEdge_eq hsecond.represents (.repository origin.repository) (.service origin.service)
  have htied := edge_represents hsecond.represents hmem hsecond.mem .contains
  rw [← hnumber, ← hsecond.number] at hedge htied
  rw [Origin.service] at hedge
  rw [service_eq, Outline.service, Origin.service]
  dsimp only
  rw [← hedge]
  split_ifs
  · exact hsecond
  · exact ⟨htied, hsecond.mem, hsecond.number⟩

theorem event_gives (hapart : KeysApart known) (h : Represents known o d) {name : String}
    (hname : .event name ∈ known) : Gives known (.event name) (o.mention (.event name)) (d.event name) := by
  refine node_gives hapart h hname rfl fun hnew => ?_
  rw [Entity.node, h.undescribed name hnew]

/-- The nodes of different things, one of which is an event described anew. -/
theorem modify_map_node {xs : List Entity} (hnodup : xs.Nodup) {name : String} (hmem : .event name ∈ xs)
    (description : String → List (String × String)) (properties : List (String × String)) :
    (xs.map (·.node description)).modify (xs.idxOf (.event name)) ({ · with properties }) =
      xs.map (·.node (Function.update description name properties)) := by
  induction xs with
  | nil => simp at hmem
  | cons x rest ih =>
    obtain ⟨hx, hrest⟩ := List.nodup_cons.mp hnodup
    by_cases heq : x = .event name
    · subst heq
      have hsame : rest.map (·.node (Function.update description name properties)) =
          rest.map (·.node description) := by
        refine List.map_congr_left fun y hy => Entity.node_update ?_ properties
        intro hyx
        exact hx (hyx ▸ hy)
      rw [List.idxOf_cons_self, List.map_cons, List.modify_zero_cons, List.map_cons, hsame,
        Entity.node_update_self]
    · have hlater : Entity.event name ∈ rest := (List.mem_cons.mp hmem).resolve_left (Ne.symm heq)
      rw [List.idxOf_cons_ne _ heq, List.map_cons, List.modify_succ_cons, ih hrest hlater, List.map_cons,
        Entity.node_update heq]

private theorem describe_represents (h : Represents known o d) {name : String} (hmem : .event name ∈ o.entities)
    (properties : List (String × String)) :
    Represents known (o.describe name properties) (d.describe (o.number (.event name)) properties) where
  keys := h.keys
  graph := by
    have hnodes := modify_map_node h.nodup hmem o.description properties
    rw [describe, h.graph, Outline.graph]
    exact congrArg (FlowGraph.mk · _) hnodes
  nodup := h.nodup
  known := h.known
  ends := h.ends
  undescribed := by
    intro other hother
    have hne : other ≠ name := fun heq => hother (heq ▸ hmem)
    rw [← h.undescribed other hother]
    exact Function.update_of_ne hne _ _

/-- The draft with an entry read into it. -/
def read (d : Draft) : Entry → Draft
  | .definition e => d.define e
  | .site number s => d.site number s.origin s.node s.edge s.event

private theorem define_represents (hapart : KeysApart known) (h : Represents known o d) (e : EventDefinition)
    (hknown : ∀ x ∈ (Entry.definition e).entities, x ∈ known) :
    Represents known (o.read (.definition e)) (d.define e) := by
  simp only [Entry.mem_entities] at hknown
  have hservice := service_gives hapart h e.origin (hknown _ (.inl rfl)) (hknown _ (.inr (.inl rfl)))
  have hevent := event_gives hapart hservice.represents (hknown (.event e.name) (.inr (.inr (.inr rfl))))
  obtain ⟨hmem, hnumber⟩ := hservice.later (.event e.name)
  have hdescribed := describe_represents hevent.represents hevent.mem (definitionProperties e)
  unfold define
  dsimp only
  rw [hnumber, hevent.number]
  exact edge_represents hdescribed hmem hevent.mem .defines

private theorem site_eq (d : Draft) (number : Nat) (s : Site) :
    d.site number s.origin s.node s.edge s.event =
      let service := d.service s.origin
      let site := service.2.node (Entity.site number s).key s.node
      let event := site.2.event s.event
      (event.2.edge service.1 .contains site.1).edge site.1 s.edge event.1 :=
  rfl

private theorem site_represents (hapart : KeysApart known) (h : Represents known o d) (number : Nat) (s : Site)
    (hknown : ∀ x ∈ (Entry.site number s).entities, x ∈ known) :
    Represents known (o.read (.site number s)) (d.site number s.origin s.node s.edge s.event) := by
  simp only [Entry.mem_entities] at hknown
  have hservice := service_gives hapart h s.origin (hknown _ (.inl rfl)) (hknown _ (.inr (.inl rfl)))
  have hsite := node_gives hapart hservice.represents
    (hknown (.site number s) (.inr (.inr (.inl ⟨_, rfl, rfl⟩)))) (n := s.node) rfl fun _ => rfl
  have hevent := event_gives hapart hsite.represents (hknown (.event s.event) (.inr (.inr (.inr rfl))))
  obtain ⟨hmem, hnumber⟩ := hservice.later (.site number s)
  obtain ⟨hsiteMem, hsiteNumber⟩ := hsite.later (.event s.event)
  have hserviceMem := Outline.mem_mention_of_mem hmem (.event s.event)
  rw [← Outline.number_mention hmem (.event s.event)] at hnumber
  have hcontained := edge_represents hevent.represents hserviceMem hsiteMem .contains
  rw [site_eq]
  dsimp only
  rw [hnumber, hsiteNumber, hevent.number]
  exact edge_represents hcontained hsiteMem hevent.mem s.edge

private theorem read_represents (hapart : KeysApart known) (h : Represents known o d) (e : Entry)
    (hknown : ∀ x ∈ e.entities, x ∈ known) : Represents known (o.read e) (d.read e) := by
  cases e with
  | definition e => exact define_represents hapart h e hknown
  | site number s => exact site_represents hapart h number s hknown

/-- Reading entry by entry, the draft goes on having the graph of the outline. -/
theorem foldl_read_represents (hapart : KeysApart known) (h : Represents known o d) (entries : List Entry)
    (hknown : ∀ e ∈ entries, ∀ x ∈ e.entities, x ∈ known) :
    Represents known (entries.foldl Outline.read o) (entries.foldl read d) := by
  induction entries generalizing o d with
  | nil => exact h
  | cons e rest ih =>
    have hread := read_represents hapart h e (hknown e List.mem_cons_self)
    exact ih hread fun e he => hknown e (List.mem_cons_of_mem _ he)

private theorem ofFacts_eq_foldl (f : Facts) : ofFacts f = ((entries f).foldl read {}).graph := by
  simp only [ofFacts, entries, numberedSites, numbered, List.foldl_append, List.foldl_map, List.map_append,
    List.zipIdx_map]
  rfl

/-- A repository without slashes ends at the first slash. -/
theorem serviceKey_inj {s t : String × String} (hs : '/' ∉ s.1.toList) (ht : '/' ∉ t.1.toList)
    (h : (Entity.service s).key = (Entity.service t).key) : s = t := by
  have hrun {name : String} (hname : '/' ∉ name.toList) : ∀ c ∈ name.toList, (c != '/') = true := by
    intro c hc
    exact bne_iff_ne.mpr fun heq => hname (heq ▸ hc)
  have hlists : s.1.toList ++ '/' :: s.2.toList = t.1.toList ++ '/' :: t.2.toList := by
    have hkeys := congrArg String.toList h
    simpa [Entity.key] using hkeys
  obtain ⟨hfirst, -, hsecond⟩ := Text.run_append_inj (hrun hs) (hrun ht) rfl rfl hlists
  exact Prod.ext (String.toList_inj.mp hfirst) (String.toList_inj.mp hsecond)

private theorem siteKey_inj {number other : Nat} {s t : Site}
    (h : (Entity.site number s).key = (Entity.site other t).key) : number = other := by
  have hdigits : Nat.toDigits 10 number = Nat.toDigits 10 other := String.ofList_injective h
  have hvalues := congrArg (Nat.ofDigitChars 10 · 0) hdigits
  simpa [Nat.ofDigitChars_toDigits] using hvalues

/-- The things that a report mentions have different keys. -/
theorem keysApart_entries {f : Facts} (hf : ∀ o ∈ f.origins, '/' ∉ o.repository.toList) :
    KeysApart ((entries f).flatMap Entry.entities) := by
  have hrepository {s : String × String} (hs : .service s ∈ (entries f).flatMap Entry.entities) :
      '/' ∉ s.1.toList := by
    obtain ⟨e, he, hs⟩ := List.mem_flatMap.mp hs
    have hservice : e.service = s := by simpa [Entry.mem_entities, eq_comm] using hs
    have hmem : s ∈ f.services := by
      rw [← entries_services f]
      exact List.mem_map.mpr ⟨e, he, hservice⟩
    rw [Facts.services_eq_map] at hmem
    obtain ⟨o, ho, rfl⟩ := List.mem_map.mp hmem
    exact hf o ho
  have hsite {number : Nat} {s : Site} (hs : .site number s ∈ (entries f).flatMap Entry.entities) :
      siteAt? f s.node.kind number = some s := by
    obtain ⟨e, he, hs⟩ := List.mem_flatMap.mp hs
    have hentry : e.site? = some (number, s) := by
      obtain ⟨t, ht, heq⟩ : ∃ t ∈ e.site?, Entity.site number s = .site t.1 t.2 := by
        simpa [Entry.mem_entities] using hs
      obtain ⟨rfl, rfl⟩ := Entity.site.inj heq
      exact ht
    have hmem : (number, s) ∈ numberedSites f := by
      rw [← entries_sites f]
      exact List.mem_filterMap.mpr ⟨e, he, hentry⟩
    exact siteAt?_of_mem hmem
  intro x hx y hy hkind hkey
  cases x with
  | repository a =>
    cases y with
    | repository b => exact congrArg Entity.repository hkey
    | service _ | event _ => simp [Entity.kind] at hkind
    | site _ t => exact absurd hkind.symm (t.kind_ne rfl)
  | service s =>
    cases y with
    | service t => exact congrArg Entity.service (serviceKey_inj (hrepository hx) (hrepository hy) hkey)
    | repository _ | event _ => simp [Entity.kind] at hkind
    | site _ t => exact absurd hkind.symm (t.kind_ne rfl)
  | event a =>
    cases y with
    | event b => exact congrArg Entity.event hkey
    | repository _ | service _ => simp [Entity.kind] at hkind
    | site _ t => exact absurd hkind.symm (t.kind_ne rfl)
  | site number s =>
    cases y with
    | site other t =>
      obtain rfl := siteKey_inj hkey
      have hfound := hsite hx
      have hkinds : s.node.kind = t.node.kind := hkind
      rw [hkinds, hsite hy] at hfound
      rw [Option.some.inj hfound]
    | repository _ | service _ | event _ => exact absurd hkind (s.kind_ne rfl)

end Draft

/-- The flow graph is the graph of the outline of the report. -/
theorem ofFacts_represents {f : Facts} (hf : ∀ o ∈ f.origins, '/' ∉ o.repository.toList) :
    ∃ d : Draft, d.graph = ofFacts f ∧
      d.Represents ((entries f).flatMap Entry.entities) (Outline.ofEntries (entries f)) := by
  have hempty : Draft.Represents ((entries f).flatMap Entry.entities) {} {} := by
    constructor <;> simp [Outline.graph]
  exact ⟨_, (Draft.ofFacts_eq_foldl f).symm, Draft.foldl_read_represents (Draft.keysApart_entries hf) hempty
    (entries f) fun e he x hx => List.mem_flatMap.mpr ⟨e, he, hx⟩⟩

end EventAtlas.FlowGraph
