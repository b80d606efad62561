namespace EventAtlas

/-- How far back, in lines or instructions, a published value is traced. -/
def traceWindow : Nat := 20

variable {α β : Type}

/-- The items strictly before place `i` with their places, the nearest first, at most `window` of them
if a window is given. A place past the end counts as the end. -/
def lookback (items : List α) (i : Nat) (window : Option Nat) : List (Nat × α) :=
  let earlier := ((items.take i).zipIdx.map Prod.swap).reverse
  match window with
  | none => earlier
  | some n => earlier.take n

/-- The place of the nearest earlier item that `p` holds for. -/
def nearest? (items : List α) (i : Nat) (window : Option Nat) (p : α → Bool) : Option Nat :=
  ((lookback items i window).find? fun (_, item) => p item).map Prod.fst

/-- The value of `f` at the nearest earlier item that it is defined for. -/
def nearestSome? (items : List α) (i : Nat) (window : Option Nat) (f : Nat → α → Option β) : Option β :=
  (lookback items i window).findSome? fun (j, item) => f j item

end EventAtlas
