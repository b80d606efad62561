import Std.Data.TreeMap

namespace EventAtlas

/-- Values by names, in the order of the names. -/
abbrev NameMap (β : Type) := Std.TreeMap String β

/-- Adds items one after the other to the values of their names. A name that comes up first has `start`. -/
def NameMap.collect {α β : Type} (m : NameMap β) (start : β) (key : α → String) (push : β → α → β)
    (items : List α) : NameMap β :=
  items.foldl (fun m a => m.alter (key a) fun old => some (push (old.getD start) a)) m

end EventAtlas
