namespace EventAtlas.Text

/-- The white space of a text: the ASCII blanks and line breaks, the next-line control, and the space,
line and paragraph separators. -/
def isBlank (c : Char) : Bool :=
  let n := c.toNat
  (9 ≤ n && n ≤ 13) || n == 0x20 || n == 0x85 || n == 0xa0 || n == 0x1680 ||
    (0x2000 ≤ n && n ≤ 0x200a) || n == 0x2028 || n == 0x2029 || n == 0x202f || n == 0x205f ||
    n == 0x3000

def trimStart (s : List Char) : List Char := s.dropWhile isBlank

/-- A text without the characters at its end that `drop` holds for. -/
def trimEndWhile (drop : Char → Bool) (s : List Char) : List Char :=
  (s.reverse.dropWhile drop).reverse

def trimEnd (s : List Char) : List Char := trimEndWhile isBlank s

def trim (s : List Char) : List Char := trimEnd (trimStart s)

/-- Whether a text holds nothing but white space. -/
def allBlank (s : List Char) : Bool := s.all isBlank

end EventAtlas.Text
