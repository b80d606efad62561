import EventAtlas.Json.Basic

namespace EventAtlas.Json

/-- The digit of a hexadecimal numeral, in lower case. -/
def hexDigit (n : Nat) : Char := Nat.digitChar n

/-- A character inside a string. Quotes, backslashes and the controls below the space are escaped. -/
def escapeChar (c : Char) : List Char :=
  match c with
  | '"' => ['\\', '"']
  | '\\' => ['\\', '\\']
  | '\n' => ['\\', 'n']
  | '\r' => ['\\', 'r']
  | '\t' => ['\\', 't']
  | c =>
    if c.toNat = 8 then ['\\', 'b']
    else if c.toNat = 12 then ['\\', 'f']
    else if c.toNat < 0x20 then
      ['\\', 'u', '0', '0', hexDigit (c.toNat / 16), hexDigit (c.toNat % 16)]
    else [c]

def quote (s : String) : List Char := '"' :: (s.toList.flatMap escapeChar ++ ['"'])

def numeral (n : Nat) : List Char := Nat.toDigits 10 n

/-- The text of a value without brackets inside. -/
def atom : Json → List Char
  | bool true => ['t', 'r', 'u', 'e']
  | bool false => ['f', 'a', 'l', 's', 'e']
  | nat n => numeral n
  | decimal text => text.toList
  | str s => quote s
  | _ => ['n', 'u', 'l', 'l']

/-- The blanks in a text: those before each item and closing bracket at a nesting depth, and those behind
each colon. -/
structure Layout where
  line : Nat → List Char
  gap : List Char
  line_blank : ∀ depth, ∀ c ∈ line depth, isSpace c = true
  gap_blank : ∀ c ∈ gap, isSpace c = true

namespace Layout

mutual

/-- The text of a value at a nesting depth. -/
def write (l : Layout) (depth : Nat) : Json → List Char
  | arr [] => ['[', ']']
  | arr (j :: rest) => '[' :: (l.line (depth + 1) ++ (l.write (depth + 1) j ++ l.moreItems depth rest))
  | obj [] => ['{', '}']
  | obj ((key, j) :: rest) =>
    '{' :: (l.line (depth + 1) ++ (quote key ++ ':' ::
      (l.gap ++ (l.write (depth + 1) j ++ l.moreFields depth rest))))
  | j => atom j

/-- The text of an array from behind an item on. -/
def moreItems (l : Layout) (depth : Nat) : List Json → List Char
  | [] => l.line depth ++ [']']
  | j :: rest => ',' :: (l.line (depth + 1) ++ (l.write (depth + 1) j ++ l.moreItems depth rest))

/-- The text of an object from behind a field on. -/
def moreFields (l : Layout) (depth : Nat) : List (String × Json) → List Char
  | [] => l.line depth ++ ['}']
  | (key, j) :: rest =>
    ',' :: (l.line (depth + 1) ++ (quote key ++ ':' ::
      (l.gap ++ (l.write (depth + 1) j ++ l.moreFields depth rest))))

end

/-- No blanks at all. -/
def dense : Layout where
  line _ := []
  gap := []
  line_blank _ _ h := absurd h List.not_mem_nil
  gap_blank _ h := absurd h List.not_mem_nil

/-- A line for each item and field, with two blanks of indentation for each level. -/
def indented : Layout where
  line depth := '\n' :: List.replicate (2 * depth) ' '
  gap := [' ']
  line_blank depth c h := by
    rcases List.mem_cons.mp h with rfl | hblank
    · rfl
    · rw [List.eq_of_mem_replicate hblank]
      rfl
  gap_blank c h := by
    rw [List.mem_singleton.mp h]
    rfl

end Layout

/-- The text of a value on one line without blanks. -/
def compact (j : Json) : List Char := Layout.dense.write 0 j

/-- The text of a value with a line for each item and field. -/
def pretty (j : Json) : List Char := Layout.indented.write 0 j

end EventAtlas.Json
