import EventAtlas.Report.Basic

namespace EventAtlas

namespace FlowGraph

inductive NodeKind where
  | repository
  | service
  | event
  | publisher
  | consumer
  | subscription
  deriving DecidableEq, Repr

inductive EdgeKind where
  | contains
  | defines
  | publishes
  | consumes
  | subscribes
  deriving DecidableEq, Repr

structure Node where
  kind : NodeKind
  name : String
  properties : List (String × String) := []
  deriving DecidableEq, Repr

/-- An edge between two nodes, which are given by their numbers. -/
structure Edge where
  source : Nat
  kind : EdgeKind
  target : Nat
  deriving DecidableEq, Repr

end FlowGraph

/-- The repositories, services, events and sites of a report and what ties them. Nodes and edges are
numbered in the order they came. -/
structure FlowGraph where
  nodes : List FlowGraph.Node := []
  edges : List FlowGraph.Edge := []
  deriving DecidableEq, Repr

namespace FlowGraph

/-- A graph with the key of every node. Two nodes of one kind have different keys. -/
structure Draft where
  keys : List (NodeKind × String) := []
  graph : FlowGraph := {}

namespace Draft

/-- The number of the node with a kind and a key, and the draft with that node in it. -/
def node (d : Draft) (key : String) (n : Node) : Nat × Draft :=
  match d.keys.findIdx? (· == (n.kind, key)) with
  | some i => (i, d)
  | none =>
    (d.graph.nodes.length,
      { keys := d.keys ++ [(n.kind, key)], graph := { d.graph with nodes := d.graph.nodes ++ [n] } })

def edge (d : Draft) (source : Nat) (kind : EdgeKind) (target : Nat) : Draft :=
  { d with graph := { d.graph with edges := d.graph.edges ++ [⟨source, kind, target⟩] } }

def hasEdge (d : Draft) (source target : Nat) : Bool :=
  d.graph.edges.any fun e => e.source == source && e.target == target

/-- The node of a project, tied to the node of its repository. -/
def service (d : Draft) (o : Origin) : Nat × Draft :=
  let (repository, d) := d.node o.repository { kind := .repository, name := o.repository }
  let (service, d) := d.node (o.repository ++ "/" ++ o.project)
    { kind := .service, name := o.project, properties := [("repository", o.repository)] }
  (service, if d.hasEdge repository service then d else d.edge repository .contains service)

def event (d : Draft) (name : String) : Nat × Draft := d.node name { kind := .event, name }

/-- Gives a node new properties. -/
def describe (d : Draft) (i : Nat) (properties : List (String × String)) : Draft :=
  { d with graph := { d.graph with nodes := d.graph.nodes.modify i ({ · with properties }) } }

/-- Adds a definition. The last definition of a name describes its event. -/
def define (d : Draft) (e : EventDefinition) : Draft :=
  let (service, d) := d.service e.origin
  let (event, d) := d.event e.name
  (d.describe event [("fullName", e.qualifiedName), ("properties", ", ".intercalate e.properties)]).edge
    service .defines event

/-- Adds the site with number `i` of its kind, tied to its service and its event. -/
def site (d : Draft) (i : Nat) (o : Origin) (n : Node) (kind : EdgeKind) (eventName : String) : Draft :=
  let (service, d) := d.service o
  let (site, d) := d.node (String.ofList (Nat.toDigits 10 i)) n
  let (event, d) := d.event eventName
  (d.edge service .contains site).edge site kind event

end Draft

/-- Where a site lies. -/
def place (o : Origin) (position : Nat) : List (String × String) :=
  [("file", o.path.shown), ("line", String.ofList (Nat.toDigits 10 position))]

def jobProperty (inJob : Bool) : String × String :=
  ("backgroundJob", if inJob then "true" else "false")

def publicationNode (p : Publication) : Node where
  kind := .publisher
  name := p.className ++ "." ++ p.methodName
  properties := place p.origin p.position ++ [jobProperty p.inBackgroundJob]

def consumptionNode (c : Consumption) : Node where
  kind := .consumer
  name := c.handlerClass
  properties := place c.origin c.position ++ [jobProperty c.inBackgroundJob]

def subscriptionNode (s : Subscription) : Node where
  kind := .subscription
  name := s.kind.label
  properties := place s.origin s.position

/-- The graph of all definitions, publications, consumptions and subscriptions, in this order. -/
def ofFacts (f : Facts) : FlowGraph :=
  let d : Draft := f.events.foldl Draft.define {}
  let d := f.publications.zipIdx.foldl
    (fun d (p, i) => d.site i p.origin (publicationNode p) .publishes p.event) d
  let d := f.consumptions.zipIdx.foldl
    (fun d (c, i) => d.site i c.origin (consumptionNode c) .consumes c.event) d
  let d := f.subscriptions.zipIdx.foldl
    (fun d (s, i) => d.site i s.origin (subscriptionNode s) .subscribes s.event) d
  d.graph

end FlowGraph

end EventAtlas
