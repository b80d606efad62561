/-!
Classes of characters given by tables. A table lists ranges of code points in increasing order and
speaks of the characters above ASCII only; each class decides ASCII by a condition of its own.
-/

namespace EventAtlas.Text

/-- Whether one of the ranges with numbers from `lo` to `hi - 1` holds `n`, by halving the interval.
The first argument bounds the number of halvings. -/
def Ranges.search (table : Array (Nat × Nat)) (n : Nat) : Nat → Nat → Nat → Bool
  | 0, _, _ => false
  | steps + 1, lo, hi =>
    if lo < hi then
      let mid := (lo + hi) / 2
      match table[mid]? with
      | none => false
      | some (first, last) =>
        if n < first then search table n steps lo mid
        else if last < n then search table n steps (mid + 1) hi
        else true
    else false

/-- Whether a range of the table holds the code point of `c`. -/
def Ranges.holds (table : Array (Nat × Nat)) (c : Char) : Bool :=
  search table c.toNat table.size 0 table.size

/-- A row of a table of single-character mappings: every `step`-th code point from `first` to `last`
moves by `shift`. -/
structure ShiftRow where
  first : Nat
  last : Nat
  step : Nat
  shift : Int

def ShiftRow.covers (row : ShiftRow) (n : Nat) : Bool :=
  row.first ≤ n && n ≤ row.last && (n - row.first) % row.step == 0

/-- The character that a table of mappings gives for `c`, which is `c` itself outside the table. -/
def shifted (table : List ShiftRow) (c : Char) : Char :=
  match table.find? (·.covers c.toNat) with
  | none => c
  | some row => Char.ofNat (c.toNat + row.shift).toNat

end EventAtlas.Text
