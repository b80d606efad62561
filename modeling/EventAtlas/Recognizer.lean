namespace EventAtlas

/-- A place in a line: the character just before it, if there is one, and the text from it on. -/
structure Cursor where
  before : Option Char
  rest : List Char
  deriving DecidableEq

/-- A recogniser lists all ways to read text at a cursor, the preferred way first. A way consists of a
value and the cursor behind what was read. -/
def Recognizer (α : Type) : Type := Cursor → List (α × Cursor)

namespace Recognizer

variable {α β : Type}

instance : Monad Recognizer where
  pure a := fun c => [(a, c)]
  bind r f := fun c => (r c).flatMap fun way => f way.1 way.2

/-- The ways of `r`, then those of `s`. -/
def either (r s : Recognizer α) : Recognizer α := fun c => r c ++ s c

/-- Reads by `r` if that leads anywhere, else nothing. -/
def optional (r : Recognizer Unit) : Recognizer Unit := either r (pure ())

/-- One character that `p` holds for. -/
def one (p : Char → Bool) : Recognizer Unit := fun c =>
  match c.rest with
  | [] => []
  | x :: rest => if p x then [((), ⟨some x, rest⟩)] else []

/-- The character `x`. -/
def char (x : Char) : Recognizer Unit := one (· == x)

/-- The places that a run of characters with `p` can end at, the nearest first. -/
def stops (p : Char → Bool) (before : Option Char) : List Char → List Cursor
  | [] => [⟨before, []⟩]
  | x :: rest => ⟨before, x :: rest⟩ :: if p x then stops p (some x) rest else []

/-- Any number of characters with `p`, as many as possible preferred. -/
def run (p : Char → Bool) : Recognizer Unit := fun c =>
  (stops p c.before c.rest).reverse.map fun c' => ((), c')

/-- Any number of characters with `p`, as few as possible preferred. -/
def shortRun (p : Char → Bool) : Recognizer Unit := fun c =>
  (stops p c.before c.rest).map fun c' => ((), c')

/-- At least one character with `p`, as many as possible preferred. -/
def run1 (p : Char → Bool) : Recognizer Unit := do
  one p
  run p

/-- At most `n` readings by `r` in a row, each of at least one character, more readings preferred. -/
def repeatUpTo (r : Recognizer Unit) : Nat → Recognizer Unit
  | 0 => pure ()
  | n + 1 => fun c =>
    (r c).flatMap (fun way =>
      if way.2.rest.length < c.rest.length then repeatUpTo r n way.2 else []) ++ [((), c)]

/-- Any number of readings by `r` in a row, more readings preferred. The text left bounds their number. -/
def many (r : Recognizer Unit) : Recognizer Unit := fun c => repeatUpTo r c.rest.length c

/-- The given text, where `same` decides which characters stand for a given one. -/
def literalBy (same : Char → Char → Bool) : List Char → Recognizer Unit
  | [] => pure ()
  | x :: text => do
    one (same x)
    literalBy same text

/-- One of the given texts, the first preferred. -/
def oneOfBy (same : Char → Char → Bool) (texts : List (List Char)) : Recognizer Unit := fun c =>
  texts.flatMap fun text => literalBy same text c

/-- The texts of the tokens that count, which are not empty. -/
def tokenTexts (tokens : List String) : List (List Char) := (tokens.map String.toList).filter (!·.isEmpty)

/-- One of a set of tokens, the first preferred. A set without tokens that count stands for the empty text. -/
def tokenBy (same : Char → Char → Bool) (tokens : List String) : Recognizer Unit :=
  if (tokenTexts tokens).isEmpty then pure () else oneOfBy same (tokenTexts tokens)

def literal (text : String) : Recognizer Unit := literalBy (· == ·) text.toList

def oneOf (texts : List String) : Recognizer Unit := oneOfBy (· == ·) (texts.map String.toList)

def token (tokens : List String) : Recognizer Unit := tokenBy (· == ·) tokens

/-- The text that `r` reads. -/
def text (r : Recognizer Unit) : Recognizer (List Char) := fun c =>
  (r c).map fun way => (c.rest.take (c.rest.length - way.2.rest.length), way.2)

/-- Reads nothing and gives the cursor. -/
def here : Recognizer Cursor := fun c => [(c, c)]

/-- The preferred way to read from the start of a line. -/
def atStart? (r : Recognizer α) (line : List Char) : Option α :=
  (r ⟨none, line⟩).head?.map Prod.fst

/-- The readings of a text from left to right, none overlapping another, after `skip` characters: at
each place the preferred one, and behind it the next. -/
def findFrom (r : Recognizer α) : Nat → Option Char → List Char → List α
  | _, before, [] => ((r ⟨before, []⟩).head?.map Prod.fst).toList
  | skip + 1, _, x :: rest => findFrom r skip (some x) rest
  | 0, before, x :: rest =>
    match (r ⟨before, x :: rest⟩).head? with
    | none => findFrom r 0 (some x) rest
    | some (a, c) => a :: findFrom r (rest.length - c.rest.length) (some x) rest

/-- All readings in a line from left to right, none overlapping another. -/
def findAll (r : Recognizer α) (line : List Char) : List α := findFrom r 0 none line

/-- The first reading in a line. -/
def find? (r : Recognizer α) (line : List Char) : Option α := (findAll r line).head?

end Recognizer

end EventAtlas
