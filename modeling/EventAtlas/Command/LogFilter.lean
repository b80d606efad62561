import EventAtlas.Log
import EventAtlas.Text.Alphanumeric
import EventAtlas.Text.Digits
import EventAtlas.Text.Search

namespace EventAtlas

/-- The least level that is logged, or nothing at all. -/
inductive Threshold where
  | off
  | atLeast (level : Level)
  deriving DecidableEq, Repr

namespace Threshold

def admits : Threshold → Level → Bool
  | off, _ => false
  | .atLeast least, level => least.rank ≤ level.rank

/-- The threshold with a number. -/
def ofNumber? : Nat → Option Threshold
  | 0 => some off
  | 1 => some (.atLeast .error)
  | 2 => some (.atLeast .warn)
  | 3 => some (.atLeast .info)
  | 4 => some (.atLeast .debug)
  | 5 => some (.atLeast .trace)
  | _ => none

/-- The number that digits stand for, with a plus sign in front or none. -/
def number? (text : List Char) : Option Nat :=
  let digits := if text.head? == some '+' then text.tail else text
  if digits.isEmpty || !digits.all Char.isDigit then none
  else some (Text.digitsValue digits)

def names : List (String × Threshold) :=
  ("off", off) :: Level.all.map fun level => (level.key, .atLeast level)

/-- A threshold by its number, or by its name in any ASCII case. -/
def ofText? (text : List Char) : Option Threshold :=
  match (number? text).bind ofNumber? with
  | some threshold => some threshold
  | none => (names.find? fun (name, _) => Text.sameAscii name.toList text).map Prod.snd

end Threshold

/-- A part of a log filter: a threshold for the targets that start with `target`. One that is bound to a
span concerns no line outside of spans. -/
structure Directive where
  target : List Char
  inSpan : Bool
  threshold : Threshold
  deriving DecidableEq, Repr

/-- Why a text is no directive. -/
inductive DirectiveError where
  | malformed
  | unknownLevel
  deriving DecidableEq, Repr

def DirectiveError.message : DirectiveError → String
  | malformed => "invalid filter directive"
  | unknownLevel =>
    "error parsing level filter: expected one of \"off\", \"error\", \"warn\", \"info\", \"debug\", " ++
      "\"trace\", or a number 0-5"

namespace Directive

/-- Whether a directive may start with a character. -/
def isStart (c : Char) : Bool :=
  Text.isAlphanumeric c || c == '_' || c == '-' || c == ':' || c == '['

/-- The threshold behind an equals sign. Without one everything is admitted. -/
def level? (text : List Char) : Except DirectiveError Threshold :=
  if text.isEmpty then .ok (.atLeast .trace)
  else
    match Threshold.ofText? text with
    | some threshold => .ok threshold
    | none => .error .unknownLevel

/-- What follows the opening bracket of a span: its name, the closing bracket, and a level or none. -/
def spanLevel? (text : List Char) : Except DirectiveError Threshold :=
  match text.drop (Text.upTo (· == ']') text).length with
  | [']'] => .ok (.atLeast .trace)
  | ']' :: '=' :: level => level? level
  | _ => .error .malformed

/-- A threshold alone, or a target, a span or both, with an equals sign and a threshold behind them or
without. -/
def parse (text : List Char) : Except DirectiveError Directive :=
  if !(text.head?.any isStart) then .error .malformed
  else
    let target := Text.upTo (fun c => c == '=' || c == '[') text
    match text.drop target.length with
    | [] =>
      match Threshold.ofText? text with
      | some threshold => .ok ⟨[], false, threshold⟩
      | none => .ok ⟨text, false, .atLeast .trace⟩
    | '[' :: rest => (spanLevel? rest).map (⟨target, true, ·⟩)
    | _ :: level => (level? level).map (⟨target, false, ·⟩)

/-- Whether a directive has a say on the lines of a source. -/
def concerns (d : Directive) (source : LogSource) : Bool :=
  !d.inSpan && d.target.isPrefixOf source.target.toList

/-- The directive with the longer target, the later one if they are equally long. -/
def stronger (a b : Directive) : Directive := if a.target.length ≤ b.target.length then b else a

end Directive

/-- A log filter, with what is to be said about its text. -/
structure LogFilter where
  directives : List Directive
  notices : List String
  deriving DecidableEq, Repr

namespace LogFilter

/-- Whether a line is logged: the strongest of the directives that concern it decides. -/
def admits (f : LogFilter) (line : LogLine) : Bool :=
  match f.directives.filter (·.concerns line.source) with
  | [] => false
  | d :: rest => (rest.foldl Directive.stronger d).threshold.admits line.level

/-- What is said about a part of a filter that is left out. -/
def notice? (piece : List Char) : Option String :=
  match Directive.parse piece with
  | .ok _ => none
  | .error e => some ("ignoring `" ++ String.ofList piece ++ "`: " ++ e.message)

/-- Reads directives with commas between them. Those that make no sense are left out with a notice, and
without any only errors are logged. -/
def ofText (text : String) : LogFilter :=
  let pieces := (Text.splitAtMark ',' text.toList).filter (!·.isEmpty)
  let directives := pieces.filterMap fun piece => (Directive.parse piece).toOption
  { directives := if directives.isEmpty then [⟨[], false, .atLeast .error⟩] else directives
    notices := pieces.filterMap notice? }

end LogFilter

end EventAtlas
