import EventAtlas.Indicators
import EventAtlas.Lookback

namespace EventAtlas.Source

open Text

abbrev Line := List Char

/-- The lines at places `start` to `stop - 1`, as far as they are there. -/
def slice (lines : List Line) (start stop : Nat) : List Line := (lines.take stop).drop start

/-- The lines from `before` above a place to `after` below it. -/
def linesAround (lines : List Line) (i before after : Nat) : List Line :=
  slice lines (i - before) (i + after + 1)

/-- The first of `count` places from `i` on whose line satisfies `p`. -/
def firstPlace? (lines : List Line) (i count : Nat) (p : Line → Bool) : Option Nat :=
  ((lines.drop i).take count).findIdx? p |>.map (i + ·)

variable {α : Type}

/-- The value of `f` at distance `d` from place `i`: at the line itself, or else at the one above and
then at the one below. -/
def atDistance (lines : List Line) (i : Nat) (f : Line → Option α) (d : Nat) : Option α :=
  let above := if d ≤ i then lines[i - d]?.bind f else none
  if above.isSome || d == 0 then above else lines[i + d]?.bind f

/-- The first value of `f` at distance `d` or at one of the next `more` distances. -/
def outward (lines : List Line) (i : Nat) (f : Line → Option α) : Nat → Nat → Option α
  | d, 0 => atDistance lines i f d
  | d, more + 1 =>
    match atDistance lines i f d with
    | some a => some a
    | none => outward lines i f (d + 1) more

/-- The value of `f` at the line nearest to place `i`, at most `radius` lines away; of two lines at one
distance the upper one counts. -/
def nearestAround? (lines : List Line) (i radius : Nat) (f : Line → Option α) : Option α :=
  outward lines i f 0 radius

/-- Opening braces minus closing braces. -/
def braceBalance (line : Line) : Int := (line.count '{' : Int) - line.count '}'

/-- Whether a closing brace comes before any opening brace. -/
def closesBlock (line : Line) : Bool :=
  (line.find? fun c => c == '{' || c == '}') == some '}'

/-- Copies at most `limit` non-blank lines of a body, without the blanks at their ends. `depth` braces
are open, and `opened` tells whether the body's own brace has come. The body ends with the line that
closes it, or before a line that closes more than is open. -/
def copyBody (depth : Int) (opened : Bool) : Nat → List Line → List Line
  | 0, _ => []
  | _, [] => []
  | limit + 1, line :: rest =>
    let depth' := depth + braceBalance line
    if depth' < 0 then []
    else
      let opened' := opened || line.contains '{'
      let ends := opened' && depth' == 0
      if allBlank line then (if ends then [] else copyBody depth' opened' (limit + 1) rest)
      else trimEnd line :: (if ends then [] else copyBody depth' opened' limit rest)

/-- The body below the signature at a place, at most `limit` non-blank lines of it. -/
def bodyAfter (lines : List Line) (signature limit : Nat) : List Line :=
  let depth := braceBalance (lines[signature]?.getD [])
  copyBody depth (0 < depth) limit (lines.drop (signature + 1))

/-- Whether a line from ten above to three below a place holds a registration keyword. -/
def inRegistration (lines : List Line) (i : Nat) (keywords : List String) : Bool :=
  (linesAround lines i 10 3).any (holdsToken keywords)

end EventAtlas.Source
