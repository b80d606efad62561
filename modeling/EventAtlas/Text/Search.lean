namespace EventAtlas.Text

/-- Whether `needle` stands somewhere in a text. The empty text stands in every text. -/
def occursIn (needle : List Char) : List Char → Bool
  | [] => needle.isEmpty
  | c :: rest => needle.isPrefixOf (c :: rest) || occursIn needle rest

/-- The text before the first character that `p` holds for. -/
def upTo (p : Char → Bool) (s : List Char) : List Char := s.takeWhile (!p ·)

/-- The pieces of a text between occurrences of a mark. -/
def splitAtMark {α : Type} [DecidableEq α] (mark : α) : List α → List (List α)
  | [] => [[]]
  | c :: rest =>
    if c = mark then [] :: splitAtMark mark rest
    else
      match splitAtMark mark rest with
      | [] => [[c]]
      | piece :: more => (c :: piece) :: more

/-- A text cut at the last character that `p` holds for: what comes before it and what comes after it. -/
def splitLast? {α : Type} (p : α → Bool) : List α → Option (List α × List α)
  | [] => none
  | c :: rest =>
    match splitLast? p rest with
    | some (before, after) => some (c :: before, after)
    | none => if p c then some ([], rest) else none

/-- A text without `ending`, if it ends so. -/
def dropEnding? (ending s : List Char) : Option (List Char) :=
  if ending.isSuffixOf s then some (s.take (s.length - ending.length)) else none

/-- Equality up to the case of ASCII letters. -/
def sameAscii (s t : List Char) : Bool := s.map Char.toLower == t.map Char.toLower

end EventAtlas.Text
