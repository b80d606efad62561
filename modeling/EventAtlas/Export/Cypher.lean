import EventAtlas.Report.FlowGraph

namespace EventAtlas.Cypher

open FlowGraph

def escapeChar : Char → List Char
  | '\\' => ['\\', '\\']
  | '\'' => ['\\', '\'']
  | '\n' => ['\\', 'n']
  | '\r' => []
  | c => [c]

/-- A string literal. Carriage returns are left out. -/
def literal (value : String) : List Char :=
  '\'' :: (value.toList.flatMap escapeChar ++ ['\''])

def kindLabel : NodeKind → String
  | .repository => "Repository"
  | .service => "Service"
  | .event => "Event"
  | .publisher => "Publisher"
  | .consumer => "Consumer"
  | .subscription => "Subscription"

/-- How the variables of a kind start. -/
def variableStem : NodeKind → String
  | .repository => "repo"
  | .service => "svc"
  | .event => "evt"
  | .publisher => "pub"
  | .consumer => "con"
  | .subscription => "sub"

def relationship : EdgeKind → String
  | .contains => "CONTAINS"
  | .defines => "DEFINES"
  | .publishes => "PUBLISHES"
  | .consumes => "CONSUMES"
  | .subscribes => "SUBSCRIBES"

/-- The variable of a node. -/
def variableName (kind : NodeKind) (i : Nat) : List Char :=
  (variableStem kind).toList ++ Nat.toDigits 10 i

/-- A property with its value. -/
def property (p : String × String) : List Char := p.1.toList ++ ": ".toList ++ literal p.2

/-- The properties behind one another. -/
def propertyList : List (String × String) → List Char
  | [] => []
  | [p] => property p
  | p :: rest => property p ++ ", ".toList ++ propertyList rest

/-- The statement that creates a node. -/
def nodeLine (n : Node) (i : Nat) : List Char :=
  "CREATE (".toList ++ variableName n.kind i ++ ":".toList ++ (kindLabel n.kind).toList ++
    [' ', '{'] ++ propertyList (("name", n.name) :: n.properties) ++ ['}', ')', '\n']

/-- The variable of the node with a number. -/
def variableAt (nodes : List Node) (i : Nat) : List Char :=
  match nodes[i]? with
  | some n => variableName n.kind i
  | none => []

/-- The statement that creates an edge. -/
def edgeLine (nodes : List Node) (e : Edge) : List Char :=
  "CREATE (".toList ++ variableAt nodes e.source ++ ")-[:".toList ++ (relationship e.kind).toList ++
    "]->(".toList ++ variableAt nodes e.target ++ ")\n".toList

/-- The script that creates a graph. -/
def script (generatedAt : Timestamp) (g : FlowGraph) : List Char :=
  "// msgflow graph generated ".toList ++ generatedAt.textWith "+00:00".toList ++ ['\n'] ++
    g.nodes.zipIdx.flatMap (fun (n, i) => nodeLine n i) ++ g.edges.flatMap (edgeLine g.nodes) ++
    [';', '\n']

/-- The script for a report. -/
def text (r : Report) : String := String.ofList (script r.generatedAt (ofFacts r.toFacts))

end EventAtlas.Cypher
