import EventAtlas.Text.Search

namespace EventAtlas.Module

open Text

/-- Whether a character divides a nested type's name from the name of the type around it. -/
def isNestingMark (c : Char) : Bool := c == '/' || c == '+'

/-- Strips segments that a compiler generated, which start with an angle bracket, from the end of a
type name. The first argument bounds their number. -/
def stripGenerated : Nat → List Char → List Char
  | 0, name => name
  | count + 1, name =>
    match splitLast? isNestingMark name with
    | some (c :: owner, '<' :: _) => stripGenerated count (c :: owner)
    | _ => name

/-- The name of the type as it was written in source, without generated segments. -/
def sourceTypeName (name : List Char) : List Char := stripGenerated name.length name

/-- The part of a text behind the last character that `p` holds for. -/
def lastSegment (p : Char → Bool) (s : List Char) : List Char :=
  match splitLast? p s with
  | some (_, after) => after
  | none => s

/-- A type name up to its type arguments, unless it starts with them. -/
def dropArguments : List Char → List Char
  | '<' :: rest => '<' :: rest
  | name => upTo (· == '<') name

/-- The name of a type alone: without namespace, enclosing types, generated segments, arity and type
arguments. Where nothing is left the whole name stands. -/
def simpleChars (name : List Char) : List Char :=
  let bare := dropArguments (upTo (· == '\x60') (sourceTypeName name))
  let last := lastSegment (fun c => c == '.' || isNestingMark c) bare
  if last = [] then name else last

def simpleName (name : String) : String := String.ofList (simpleChars name.toList)

/-- The member that a generated name was made for, which stands in the first angle brackets. -/
def generatedMember? : List Char → Option (List Char)
  | '<' :: rest =>
    let member := upTo (· == '>') rest
    if rest.contains '>' && !member.isEmpty then some member else none
  | _ => none

end EventAtlas.Module
