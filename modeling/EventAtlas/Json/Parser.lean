import EventAtlas.Json.Basic
import EventAtlas.Text.Digits

namespace EventAtlas.Json

def skipSpace (s : List Char) : List Char := s.dropWhile isSpace

/-- A part of a string as it is written: a character, or a code unit given by its number. -/
inductive Piece where
  | char (c : Char)
  | unit (n : Nat)
  deriving DecidableEq

def hexValue? (c : Char) : Option Nat :=
  if '0' ≤ c ∧ c ≤ '9' then some (c.toNat - '0'.toNat)
  else if 'a' ≤ c ∧ c ≤ 'f' then some (c.toNat - 'a'.toNat + 10)
  else if 'A' ≤ c ∧ c ≤ 'F' then some (c.toNat - 'A'.toNat + 10)
  else none

/-- The number that four hexadecimal digits write. -/
def hex4? (a b c d : Char) : Option Nat := do
  return ((← hexValue? a) * 16 + (← hexValue? b)) * 256 + ((← hexValue? c) * 16 + (← hexValue? d))

/-- What a character behind a backslash stands for. -/
def unescape? : Char → Option Char
  | '"' => some '"'
  | '\\' => some '\\'
  | '/' => some '/'
  | 'b' => some (Char.ofNat 8)
  | 'f' => some (Char.ofNat 12)
  | 'n' => some '\n'
  | 'r' => some '\r'
  | 't' => some '\t'
  | _ => none

/-- The pieces of a string up to its closing quote, in reverse behind `done`, and the text after it. -/
def pieces? (done : List Piece) : List Char → Option (List Piece × List Char)
  | [] => none
  | '"' :: rest => some (done, rest)
  | '\\' :: 'u' :: a :: b :: c :: d :: rest =>
    match hex4? a b c d with
    | some n => pieces? (.unit n :: done) rest
    | none => none
  | '\\' :: c :: rest =>
    match unescape? c with
    | some e => pieces? (.char e :: done) rest
    | none => none
  | c :: rest => if c.toNat < 0x20 then none else pieces? (.char c :: done) rest

def isHighHalf (n : Nat) : Bool := 0xd800 ≤ n && n < 0xdc00

def isLowHalf (n : Nat) : Bool := 0xdc00 ≤ n && n < 0xe000

/-- The character of a surrogate pair. -/
def joinHalves (high low : Nat) : Char :=
  Char.ofNat (0x10000 + (high - 0xd800) * 0x400 + (low - 0xdc00))

/-- The text of pieces given in reverse, before `done`. There is none if half of a pair stands alone. -/
def textOf? (done : List Char) : List Piece → Option (List Char)
  | [] => some done
  | .char c :: rest => textOf? (c :: done) rest
  | .unit low :: .unit high :: rest =>
    if isLowHalf low then
      if isHighHalf high then textOf? (joinHalves high low :: done) rest else none
    else if isHighHalf low then none
    else textOf? (Char.ofNat low :: done) (.unit high :: rest)
  | .unit n :: rest =>
    if isLowHalf n || isHighHalf n then none else textOf? (Char.ofNat n :: done) rest

/-- A string behind its opening quote: its text if it has one, and what comes after it. -/
def string? (s : List Char) : Option (Option String × List Char) :=
  (pieces? [] s).map fun (pieces, rest) => ((textOf? [] pieces).map String.ofList, rest)

/-- The digits at the start of a text, at least one, and what comes after them. -/
def digits1? (s : List Char) : Option (List Char × List Char) :=
  match s.takeWhile Char.isDigit with
  | [] => none
  | digits => some (digits, s.dropWhile Char.isDigit)

/-- The digits before the point: a zero stands alone. -/
def whole? (s : List Char) : Option (List Char × List Char) :=
  match digits1? s with
  | some ('0' :: _ :: _, _) => none
  | read => read

/-- A point and digits, if there is a point. -/
def fraction? : List Char → Option (List Char × List Char)
  | '.' :: rest => (digits1? rest).map fun (digits, rest) => ('.' :: digits, rest)
  | s => some ([], s)

/-- An exponent mark, a sign and digits, if there is a mark. -/
def exponent? : List Char → Option (List Char × List Char)
  | [] => some ([], [])
  | e :: rest =>
    if e = 'e' ∨ e = 'E' then
      match rest with
      | '+' :: rest => (digits1? rest).map fun (digits, rest) => (e :: '+' :: digits, rest)
      | '-' :: rest => (digits1? rest).map fun (digits, rest) => (e :: '-' :: digits, rest)
      | rest => (digits1? rest).map fun (digits, rest) => (e :: digits, rest)
    else some ([], e :: rest)

/-- A number that starts with the digits of its whole part. -/
def unsigned? (s : List Char) : Option (Json × List Char) := do
  let (whole, s) ← whole? s
  let (fraction, s) ← fraction? s
  let (exponent, s) ← exponent? s
  if fraction = [] ∧ exponent = [] then return (nat (Text.digitsValue whole), s)
  else return (decimal (String.ofList (whole ++ fraction ++ exponent)), s)

/-- A number with a minus sign before it. -/
def negative? (s : List Char) : Option (Json × List Char) := do
  let (whole, s) ← whole? s
  let (fraction, s) ← fraction? s
  let (exponent, s) ← exponent? s
  return (decimal (String.ofList ('-' :: (whole ++ fraction ++ exponent))), s)

/-- An object of fields whose keys may lack a text. -/
def ofFields (fields : List (Option String × Json)) : Json :=
  if fields.all (·.1.isSome) then obj (fields.map fun (key, j) => (key.getD "", j)) else unreadable

mutual

/-- The value at the start of a text and what comes after it. The first argument bounds the number of
steps. -/
def value? : Nat → List Char → Option (Json × List Char)
  | 0, _ => none
  | steps + 1, s =>
    match skipSpace s with
    | 'n' :: 'u' :: 'l' :: 'l' :: rest => some (null, rest)
    | 't' :: 'r' :: 'u' :: 'e' :: rest => some (bool true, rest)
    | 'f' :: 'a' :: 'l' :: 's' :: 'e' :: rest => some (bool false, rest)
    | '"' :: rest => (string? rest).map fun (text, rest) =>
      match text with
      | some text => (str text, rest)
      | none => (unreadable, rest)
    | '[' :: rest =>
      match skipSpace rest with
      | ']' :: rest => some (arr [], rest)
      | rest => (items? steps rest).map fun (items, rest) => (arr items, rest)
    | '{' :: rest =>
      match skipSpace rest with
      | '}' :: rest => some (obj [], rest)
      | rest => (fields? steps rest).map fun (fields, rest) => (ofFields fields, rest)
    | '-' :: rest => negative? rest
    | rest => unsigned? rest

/-- The items of an array from one of them on, and what comes after the closing bracket. -/
def items? : Nat → List Char → Option (List Json × List Char)
  | 0, _ => none
  | steps + 1, s =>
    match value? steps s with
    | none => none
    | some (j, rest) =>
      match skipSpace rest with
      | ']' :: rest => some ([j], rest)
      | ',' :: rest => (items? steps rest).map fun (items, rest) => (j :: items, rest)
      | _ => none

/-- The fields of an object from one of them on, and what comes after the closing brace. -/
def fields? : Nat → List Char → Option (List (Option String × Json) × List Char)
  | 0, _ => none
  | steps + 1, s =>
    match skipSpace s with
    | '"' :: rest =>
      match string? rest with
      | none => none
      | some (key, rest) =>
        match skipSpace rest with
        | ':' :: rest =>
          match value? steps rest with
          | none => none
          | some (j, rest) =>
            match skipSpace rest with
            | '}' :: rest => some ([(key, j)], rest)
            | ',' :: rest => (fields? steps rest).map fun (fields, rest) => ((key, j) :: fields, rest)
            | _ => none
        | _ => none
    | _ => none

end

/-- The value that a text holds, with nothing but blanks around it. -/
def parse? (s : List Char) : Option Json :=
  match value? (2 * s.length + 2) s with
  | some (j, rest) => if skipSpace rest = [] then some j else none
  | none => none

end EventAtlas.Json
