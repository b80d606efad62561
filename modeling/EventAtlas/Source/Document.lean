import EventAtlas.CSharp.Scope
import EventAtlas.Fact
import EventAtlas.Source.Window
import EventAtlas.Text.Lines

namespace EventAtlas.Source

open CSharp

/-- A file of source text. -/
structure Document where
  origin : Origin
  text : String
  deriving DecidableEq, Repr

/-- A line with its place and the scope after it. -/
structure ScopedLine where
  place : Nat
  line : Line
  scope : Scope

namespace Document

def lines (d : Document) : List Line := Text.lines d.text

/-- Whether the text speaks of background jobs; this holds for all facts of a document at once. -/
def mentionsJob (d : Document) (s : Indicators) : Bool := s.mentionsJob d.text.toList

end Document

/-- The lines of a unit from a place on, each with the scope after it. -/
def scopedFrom (place : Nat) (scope : Scope) : List Line → List ScopedLine
  | [] => []
  | line :: rest =>
    ⟨place, line, scope.advance line⟩ :: scopedFrom (place + 1) (scope.advance line) rest

def scopedLines (lines : List Line) : List ScopedLine := scopedFrom 0 {} lines

end EventAtlas.Source
