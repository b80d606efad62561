import EventAtlas.Json.Basic

namespace EventAtlas.Json

/-- The fields of a structured value by their keys. -/
structure Record where
  get? : String → Option Json
  /-- Whether the fields were given by position, as an array. -/
  positional : Bool

/-- The number of fields with a key. -/
def occurrences (key : String) (fields : List (String × Json)) : Nat :=
  (fields.filter (·.1 == key)).length

/-- Reads a value as a record with the given keys: an object that has each of them at most once, other
keys being skipped, or an array that gives the first of them in order. -/
def record? (keys : List String) : Json → Option Record
  | obj fields =>
    if keys.all (occurrences · fields ≤ 1) then some ⟨fun key => fields.lookup key, false⟩ else none
  | arr items =>
    if items.length ≤ keys.length then some ⟨fun key => (keys.zip items).lookup key, true⟩ else none
  | _ => none

def bool? : Json → Option Bool
  | bool b => some b
  | _ => none

def str? : Json → Option String
  | str s => some s
  | _ => none

/-- A natural number below `bound`. -/
def natBelow? (bound : Nat) : Json → Option Nat
  | nat n => if n < bound then some n else none
  | _ => none

def uint16? (j : Json) : Option UInt16 := (natBelow? UInt16.size j).map UInt16.ofNat

def uint32? (j : Json) : Option UInt32 := (natBelow? UInt32.size j).map UInt32.ofNat

def uint64? (j : Json) : Option UInt64 := (natBelow? UInt64.size j).map UInt64.ofNat

def list? {α : Type} (read : Json → Option α) : Json → Option (List α)
  | arr items => items.mapM read
  | _ => none

def strings? (j : Json) : Option (List String) := list? str? j

/-- Reads `null` as none. -/
def orNull? {α : Type} (read : Json → Option α) : Json → Option (Option α)
  | null => some none
  | j => (read j).map some

/-- The name of a case without data: a string, or an object with `null` under the name. -/
def case? : Json → Option String
  | str s => some s
  | obj [(key, null)] => some key
  | _ => none

namespace Record

variable {α : Type}

/-- A field that has to be there. -/
def field? (r : Record) (key : String) (read : Json → Option α) : Option α :=
  (r.get? key).bind read

/-- A field that may be left out. -/
def fieldD? (r : Record) (key : String) (default : α) (read : Json → Option α) : Option α :=
  match r.get? key with
  | none => some default
  | some j => read j

/-- A field that may be `null`, and may be left out where fields are given by key. -/
def nullable? (r : Record) (key : String) (read : Json → Option α) : Option (Option α) :=
  match r.get? key with
  | none => if r.positional then none else some none
  | some j => orNull? read j

end Record

end EventAtlas.Json
