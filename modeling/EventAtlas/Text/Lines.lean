namespace EventAtlas.Text

/-- A line that a line feed ends: one carriage return before the line feed belongs to the break. -/
def dropReturn (line : List Char) : List Char :=
  if line.getLast? = some '\r' then line.dropLast else line

/-- The lines of a text, where `line` holds the characters of the current line so far. A text that ends
in a line feed has no empty last line. -/
def linesFrom (line : List Char) : List Char → List (List Char)
  | [] => if line.isEmpty then [] else [line.reverse]
  | c :: rest =>
    if c = '\n' then dropReturn line.reverse :: linesFrom [] rest else linesFrom (c :: line) rest

/-- The lines of a text without their ends. A carriage return elsewhere is kept. -/
def lines (s : String) : List (List Char) := linesFrom [] s.toList

end EventAtlas.Text
