namespace EventAtlas

/-- A text as a file system keeps it: bytes that need not be UTF-8. -/
@[ext]
structure RawText where
  bytes : List UInt8
  deriving DecidableEq, Repr

namespace RawText

/-- A text in UTF-8. -/
def ofString (s : String) : RawText := ⟨s.toList.flatMap String.utf8EncodeChar⟩

instance : Coe String RawText := ⟨ofString⟩

def slash : UInt8 := 0x2F

def dot : UInt8 := 0x2E

instance : Append RawText := ⟨fun s t => ⟨s.bytes ++ t.bytes⟩⟩

/-- The character in UTF-8 that bytes start with. -/
def first? (bytes : List UInt8) : Option Char := bytes.toByteArray.utf8DecodeChar? 0

def continues (b : UInt8) : Bool := 0x80 ≤ b && b ≤ 0xBF

/-- Whether two bytes can open a character of three or four bytes. -/
def opens (first second : UInt8) : Bool :=
  if first = 0xE0 then 0xA0 ≤ second && second ≤ 0xBF
  else if first = 0xED then 0x80 ≤ second && second ≤ 0x9F
  else if first = 0xF0 then 0x90 ≤ second && second ≤ 0xBF
  else if first = 0xF4 then 0x80 ≤ second && second ≤ 0x8F
  else 0xE1 ≤ first && first ≤ 0xF3 && continues second

/-- How many bytes are lost together where no character starts: all that could have opened one. -/
def lost : List UInt8 → Nat
  | first :: second :: rest =>
    if !opens first second then 1
    else if 0xF0 ≤ first && rest.head?.any continues then 3
    else 2
  | _ => 1

/-- The characters that bytes stand for. A replacement character stands where bytes are lost. Each step
takes a byte at least, so that `steps` can be their number. -/
def read : Nat → List UInt8 → List Char
  | 0, _ => []
  | _, [] => []
  | steps + 1, bytes =>
    match first? bytes with
    | some c => c :: read steps (bytes.drop c.utf8Size)
    | none => '�' :: read steps (bytes.drop (lost bytes))

/-- A text for readers. -/
def shown (t : RawText) : String := String.ofList (read t.bytes.length t.bytes)

/-- The same text, if it is UTF-8. -/
def string? (t : RawText) : Option String := if ofString t.shown = t then some t.shown else none

end RawText

end EventAtlas
