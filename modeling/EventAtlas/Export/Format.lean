import EventAtlas.Export.Cypher
import EventAtlas.Export.Json
import EventAtlas.Export.Markdown
import EventAtlas.Text.Search

namespace EventAtlas

/-- The formats of an export. -/
inductive Format where
  | json
  | markdown
  | cypher
  deriving DecidableEq, Repr

namespace Format

def all : List Format := [json, markdown, cypher]

def key : Format → String
  | json => "json"
  | markdown => "markdown"
  | cypher => "cypher"

def ofKey? (key : String) : Option Format := all.find? (·.key == key)

/-- The format with a name in any ASCII case. -/
def ofKeyAnyCase? (key : String) : Option Format :=
  all.find? fun f => Text.sameAscii f.key.toList key.toList

def fileName : Format → String
  | json => "flow-report.json"
  | markdown => "flow-report.md"
  | cypher => "flow-graph.cypher"

/-- Each format once, where it first came. -/
def distinct (formats : List Format) : List Format := formats.eraseDups

/-- A report in a format, if the format can hold it. -/
def render? (r : Report) : Format → Option String
  | json => r.jsonText?
  | markdown => some (Markdown.text true r)
  | cypher => some (Cypher.text r)

end Format

end EventAtlas
