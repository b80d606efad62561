import EventAtlas.NameMap
import Std.Data.TreeMap.Lemmas

namespace EventAtlas.NameMap

variable {α β : Type} (m : NameMap β)

/-- The names come in rising order, so each comes once. -/
theorem keys_rising : m.keys.Pairwise (· < ·) := by
  refine Std.TreeMap.ordered_keys.imp ?_
  intro name other h
  exact compareOfLessAndEq_eq_lt.mp h

/-- A name has the value that its own items lead to, in their order. -/
theorem getElem?_collect (start : β) (key : α → String) (push : β → α → β) (items : List α) (name : String) :
    (m.collect start key push items)[name]? =
      if items.any (key · == name) then
        some ((items.filter (key · == name)).foldl push (m[name]?.getD start))
      else m[name]? := by
  induction items generalizing m with
  | nil => rfl
  | cons a items ih =>
    have hstep : m.collect start key push (a :: items) =
        NameMap.collect (m.alter (key a) fun old => some (push (old.getD start) a)) start key push items := rfl
    rw [hstep, ih, Std.TreeMap.getElem?_alter]
    by_cases hname : key a = name
    · subst hname
      by_cases hlater : items.any (key · == key a) = true
      · simp [hlater]
      · have hnone : items.filter (key · == key a) = [] := by simpa using hlater
        simp [hlater, hnone]
    · simp [hname]

end EventAtlas.NameMap
