import EventAtlas.CSharp.Name

namespace EventAtlas.CSharp

open Recognizer Text

/-- The characters of a namespace's name. -/
def isNamespaceChar (c : Char) : Bool := isWord c || c == '.'

/-- The namespace that a line opens. -/
def namespaceClause : Recognizer (List Char) := do
  blanks
  literal "namespace"
  blanks1
  text (run1 isNamespaceChar)

/-- The words that declare a type. -/
def typeKeywords : List String := ["class", "interface", "record", "struct"]

/-- The declaration of a type by one of its keywords. -/
def typeClause : Recognizer (List Char) := do
  wordBoundary
  oneOf typeKeywords
  blanks1
  name

def methodModifiers : List String :=
  ["public", "private", "protected", "internal", "static", "async", "virtual", "override", "sealed",
    "abstract", "extern", "unsafe", "partial"]

def modifier : Recognizer Unit := do
  oneOf methodModifiers
  blanks1

/-- The characters of a return type. -/
def isTypeChar (c : Char) : Bool := isWord c || ['.', '<', '>', '[', ']', ',', '?'].contains c

def returnType : Recognizer Unit := do
  run1 isTypeChar
  blanks1

/-- The parenthesis that opens the parameters of a method, perhaps behind type arguments. -/
def parameters (method : List Char) : Recognizer (List Char) := do
  blanks
  typeArguments
  blanks
  char '('
  return method

def signature : Recognizer (List Char) := do
  let method ← name
  parameters method

/-- What comes behind the first modifier of a method: more of them, a return type unless it is a constructor, and the
signature. -/
def heading : Recognizer (List Char) := do
  many modifier
  optional returnType
  signature

/-- The start of a method, which has a modifier. -/
def methodClause : Recognizer (List Char) := do
  blanks
  modifier
  heading

/-- The type that a line declares, if any. -/
def declaredType (line : List Char) : Option String :=
  (typeClause.find? line).map String.ofList

/-- What stands in place of a declaration that has not been seen. -/
def unknownName : String := "Unknown"

/-- The declarations last seen on the way down a unit. A closing brace ends none of them. -/
structure Scope where
  namespaceName : Option String := none
  typeName : Option String := none
  methodName : Option String := none
  deriving DecidableEq, Repr

namespace Scope

/-- The scope after a line. A line counts as a namespace, else as a type, else as a method. -/
def advance (scope : Scope) (line : List Char) : Scope :=
  match namespaceClause.atStart? line with
  | some ns => { scope with namespaceName := some (String.ofList ns) }
  | none =>
    match declaredType line with
    | some type => { scope with typeName := some type }
    | none =>
      match methodClause.atStart? line with
      | some method => { scope with methodName := some (String.ofList method) }
      | none => scope

def typeOrUnknown (scope : Scope) : String := scope.typeName.getD unknownName

def methodOrUnknown (scope : Scope) : String := scope.methodName.getD unknownName

/-- The scopes after each of the lines in turn, from `scope` on. -/
def after (scope : Scope) : List (List Char) → List Scope
  | [] => []
  | line :: rest => scope.advance line :: (scope.advance line).after rest

end Scope

end EventAtlas.CSharp
