namespace EventAtlas

/-- A JSON value. The fields of an object keep their order and may repeat a key. -/
inductive Json where
  | null
  | bool (b : Bool)
  | nat (n : Nat)
  /-- A number that is no plain natural number, as it was written. -/
  | decimal (text : String)
  | str (s : String)
  | arr (items : List Json)
  | obj (fields : List (String × Json))
  /-- A string, or an object with a key, whose escapes name half of a surrogate pair. It is well formed
  and can be skipped, but has no text to read. -/
  | unreadable

namespace Json

instance : Inhabited Json := ⟨null⟩

def ofOption {α : Type} (write : α → Json) : Option α → Json
  | none => null
  | some a => write a

def ofList {α : Type} (write : α → Json) (items : List α) : Json := arr (items.map write)

/-- The list of some items, if each can be written. -/
def ofList? {α : Type} (write? : α → Option Json) (items : List α) : Option Json :=
  (items.mapM write?).map arr

def strings (texts : List String) : Json := ofList str texts

mutual

/-- The number of brackets that are open at the deepest place of a value. -/
def nesting : Json → Nat
  | arr items => nestingItems items + 1
  | obj fields => nestingFields fields + 1
  | _ => 0

def nestingItems : List Json → Nat
  | [] => 0
  | j :: rest => max (nesting j) (nestingItems rest)

def nestingFields : List (String × Json) → Nat
  | [] => 0
  | (_, j) :: rest => max (nesting j) (nestingFields rest)

end

mutual

/-- Whether all strings and keys of a value have a text. -/
def readable : Json → Bool
  | arr items => readableItems items
  | obj fields => readableFields fields
  | unreadable => false
  | _ => true

def readableItems : List Json → Bool
  | [] => true
  | j :: rest => readable j && readableItems rest

def readableFields : List (String × Json) → Bool
  | [] => true
  | (_, j) :: rest => readable j && readableFields rest

end

/-- The blanks that may stand between the parts of a JSON text. -/
def isSpace (c : Char) : Bool := c == ' ' || c == '\n' || c == '\t' || c == '\r'

end Json

end EventAtlas
