import EventAtlas.Text.Search
import Mathlib.Data.List.Infix

namespace EventAtlas.Text

/-- Searching a text finds exactly the texts that stand in it. -/
theorem occursIn_iff (needle s : List Char) : occursIn needle s = true ↔ needle <:+: s := by
  induction s with
  | nil => simp [occursIn]
  | cons c rest ih =>
    rw [occursIn, Bool.or_eq_true, List.isPrefixOf_iff_prefix, ih]
    exact List.infix_cons_iff.symm

theorem splitAtMark_ne_nil {α : Type} [DecidableEq α] (mark : α) (s : List α) : splitAtMark mark s ≠ [] := by
  cases s with
  | nil => simp [splitAtMark]
  | cons c rest =>
    unfold splitAtMark
    split_ifs
    · simp
    · split <;> simp

theorem splitAtMark_append_mark {α : Type} [DecidableEq α] (mark : α) (s t : List α) :
    splitAtMark mark (s ++ mark :: t) = splitAtMark mark s ++ splitAtMark mark t := by
  induction s with
  | nil => simp [splitAtMark]
  | cons c rest ih =>
    by_cases hc : c = mark
    · simp [splitAtMark, hc, ih]
    · obtain ⟨piece, more, hrest⟩ := List.exists_cons_of_ne_nil (splitAtMark_ne_nil mark rest)
      simp [splitAtMark, hc, ih, hrest]

theorem splitAtMark_of_not_mem {α : Type} [DecidableEq α] {mark : α} {s : List α} (h : mark ∉ s) :
    splitAtMark mark s = [s] := by
  induction s with
  | nil => rfl
  | cons c rest ih =>
    obtain ⟨hc, hrest⟩ := List.ne_and_not_mem_of_not_mem_cons h
    simp [splitAtMark, hc.symm, ih hrest]

theorem splitLast?_eq_none_iff {α : Type} {p : α → Bool} {s : List α} : splitLast? p s = none ↔ s.any p = false := by
  induction s with
  | nil => simp [splitLast?]
  | cons c rest ih =>
    rw [splitLast?, List.any_cons, Bool.or_eq_false_iff, ← ih]
    cases splitLast? p rest with
    | some cut => simp
    | none => simp

theorem splitLast?_append {α : Type} {p : α → Bool} (before : List α) (mark : α) (after : List α)
    (hmark : p mark = true) (hafter : after.any p = false) :
    splitLast? p (before ++ mark :: after) = some (before, after) := by
  induction before with
  | nil => simp [splitLast?, splitLast?_eq_none_iff.mpr hafter, hmark]
  | cons c before ih => rw [List.cons_append, splitLast?, ih]

/-- A text is cut at a character with `p`, and none follows. -/
theorem eq_append_of_splitLast? {α : Type} {p : α → Bool} {s before after : List α}
    (h : splitLast? p s = some (before, after)) :
    ∃ mark, p mark = true ∧ after.any p = false ∧ s = before ++ mark :: after := by
  induction s generalizing before with
  | nil => simp [splitLast?] at h
  | cons c rest ih =>
    rw [splitLast?] at h
    cases hrest : splitLast? p rest with
    | some cut =>
      rw [hrest] at h
      obtain ⟨rfl, rfl⟩ := Prod.mk.inj (Option.some.inj h)
      obtain ⟨mark, hmark, hafter, hs⟩ := ih hrest
      exact ⟨mark, hmark, hafter, congrArg (c :: ·) hs⟩
    | none =>
      rw [hrest] at h
      dsimp only at h
      split_ifs at h with hc
      obtain ⟨rfl, rfl⟩ := Prod.mk.inj (Option.some.inj h)
      exact ⟨c, hc, splitLast?_eq_none_iff.mp hrest, rfl⟩

/-- Where a run of characters ends is determined by the character behind it. -/
theorem run_append_inj {p : Char → Bool} {run run' : List Char} (h : ∀ c ∈ run, p c = true)
    (h' : ∀ c ∈ run', p c = true) {c c' : Char} (hc : p c = false) (hc' : p c' = false)
    {rest rest' : List Char} (heq : run ++ c :: rest = run' ++ c' :: rest') :
    run = run' ∧ c = c' ∧ rest = rest' := by
  have htake {run rest : List Char} {c : Char} (h : ∀ c ∈ run, p c = true) (hc : p c = false) :
      (run ++ c :: rest).takeWhile p = run := by
    rw [List.takeWhile_append_of_pos h, List.takeWhile_cons_of_neg (by simp [hc]), List.append_nil]
  have hrun : run = run' := by rw [← htake h hc, heq, htake h' hc']
  subst hrun
  obtain ⟨rfl, rfl⟩ := List.cons.inj (List.append_cancel_left heq)
  exact ⟨rfl, rfl, rfl⟩

end EventAtlas.Text
