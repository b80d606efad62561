import EventAtlas.Recognizer
import EventAtlas.Text.Blank
import EventAtlas.Text.Word

namespace EventAtlas.CSharp

open Recognizer Text

/-- A place between a word character and another character, or an end of the line. -/
def wordBoundary : Recognizer Unit := fun c =>
  if c.before.any isWord != c.rest.head?.any isWord then [((), c)] else []

def blanks : Recognizer Unit := run isBlank

def blanks1 : Recognizer Unit := run1 isBlank

/-- A name whose first character satisfies `start`. -/
def nameBy (start : Char → Bool) : Recognizer (List Char) := text do
  one start
  run isWord

/-- A name: a letter or an underscore, then word characters. -/
def name : Recognizer (List Char) := nameBy isNameStart

/-- A name with a dot behind it. -/
def segment : Recognizer Unit := do
  one isNameStart
  run isWord
  char '.'

/-- Any number of names with a dot behind each. -/
def qualifier : Recognizer Unit := many segment

/-- A dotted name, as its last part. -/
def dotted : Recognizer (List Char) := do
  qualifier
  name

/-- The only type argument, in angle brackets, as the last part of its name. -/
def typeArgument : Recognizer (List Char) := do
  blanks
  char '<'
  blanks
  let type ← dotted
  blanks
  char '>'
  return type

/-- Type arguments in angle brackets, if there are any; they hold no parentheses. -/
def typeArguments : Recognizer Unit := optional do
  char '<'
  run fun c => c != '>' && c != '(' && c != ')'
  char '>'

end EventAtlas.CSharp
