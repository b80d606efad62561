import EventAtlas.Source.Window

namespace EventAtlas.Source

open Text

/-- What does not fit its word: a sum of positions 64 bits, or a count of braces 32 bits with a sign. -/
inductive Overflow where
  | position
  | depth
  deriving DecidableEq, Repr

/-- The lines of a unit addressed by 64-bit positions, which their number is one of. -/
structure LineView where
  lines : List Line
  length_lt : lines.length < UInt64.size

namespace LineView

variable {α : Type}

/-- A sum of positions, if it is a position. -/
def position (sum : Nat) : Except Overflow Nat :=
  if sum < UInt64.size then .ok sum else .error .position

/-- Whether 32 bits with a sign hold a count. -/
def Fits (count : Int) : Prop := Int32.minValue.toInt ≤ count ∧ count ≤ Int32.maxValue.toInt

instance (count : Int) : Decidable (Fits count) := inferInstanceAs (Decidable (_ ∧ _))

/-- A count of braces, if it fits. -/
def counted (count : Int) : Except Overflow Int :=
  if Fits count then .ok count else .error .depth

def line? (v : LineView) (i : UInt64) : Option Line := v.lines[i.toNat]?

/-- The lines from `before` above a position to `after` below it. -/
def context (v : LineView) (i before after : UInt64) : Except Overflow (List Line) :=
  if v.lines.isEmpty then .ok []
  else do
    let last ← position (i.toNat + after.toNat)
    let stop ← position (last + 1)
    return slice v.lines (i.toNat - before.toNat) stop

/-- The value of `f` at the nearest earlier line it is defined for, at most `window` lines back. -/
def backward? (v : LineView) (i window : UInt64) (f : Line → Option α) : Option α :=
  nearestSome? v.lines i.toNat (some window.toNat) fun _ line => f line

/-- The first of `window` positions from `i` on whose line satisfies `p`. -/
def forward? (v : LineView) (i window : UInt64) (p : Line → Bool) : Option Nat :=
  firstPlace? v.lines i.toNat window.toNat p

/-- The value of `f` at distance `d` from a position. The position below is summed up only where nothing is
found above. -/
def atDistance (v : LineView) (i : UInt64) (f : Line → Option α) (d : Nat) : Except Overflow (Option α) :=
  let above := if d ≤ i.toNat then v.lines[i.toNat - d]?.bind f else none
  if above.isSome || d == 0 then .ok above
  else do
    let below ← position (i.toNat + d)
    return v.lines[below]?.bind f

/-- The first value of `f` at distance `d` or at one of the next `more` distances. -/
def outward (v : LineView) (i : UInt64) (f : Line → Option α) : Nat → Nat → Except Overflow (Option α)
  | d, 0 => v.atDistance i f d
  | d, more + 1 => do
    match ← v.atDistance i f d with
    | some a => return some a
    | none => v.outward i f (d + 1) more

/-- The value of `f` at the line nearest to a position, at most `radius` lines away. -/
def around? (v : LineView) (i radius : UInt64) (f : Line → Option α) : Except Overflow (Option α) :=
  v.outward i f 0 radius.toNat

/-- Whether a line from ten above to three below a position holds a keyword. -/
def inRegistration (v : LineView) (i : UInt64) (keywords : List String) : Except Overflow Bool := do
  let near ← v.context i 10 3
  return near.any (holdsToken keywords)

/-- The count of braces after a character, from the count before it. -/
def countBrace (count : Int) (c : Char) : Except Overflow Int :=
  if c == '{' then counted (count + 1) else if c == '}' then counted (count - 1) else .ok count

/-- Opening braces minus closing braces, counted brace by brace. -/
def tally (line : Line) : Except Overflow Int := line.foldlM countBrace 0

/-- Copies a body as `Source.copyBody` does, with every count of braces in its word. -/
def copyBody (depth : Int) (opened : Bool) : Nat → List Line → Except Overflow (List Line)
  | 0, _ => .ok []
  | _, [] => .ok []
  | limit + 1, line :: rest => do
    let change ← tally line
    let depth' ← counted (depth + change)
    if depth' < 0 then .ok []
    else
      let opened' := opened || line.contains '{'
      let ends := opened' && depth' == 0
      if allBlank line then (if ends then .ok [] else copyBody depth' opened' (limit + 1) rest)
      else (trimEnd line :: ·) <$> (if ends then .ok [] else copyBody depth' opened' limit rest)

/-- The body below the signature at a position. -/
def bodyAfter (v : LineView) (i limit : UInt64) : Except Overflow (List Line) := do
  let depth ← tally ((v.line? i).getD [])
  let start ← position (i.toNat + 1)
  copyBody depth (0 < depth) limit.toNat (v.lines.drop start)

end LineView

end EventAtlas.Source
