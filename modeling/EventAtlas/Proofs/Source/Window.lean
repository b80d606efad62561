import EventAtlas.Source.Window
import Mathlib.Data.List.Basic
import Mathlib.Data.Nat.Dist
import Mathlib.Order.Bounds.Basic

namespace EventAtlas.Source

variable {lines : List Line}

theorem slice_eq_take_drop (lines : List Line) (start count : Nat) :
    slice lines start (start + count) = (lines.drop start).take count := by
  rw [slice, List.take_drop]

/-- A slice holds the lines of its window, as far as there are any. -/
theorem getElem?_slice (lines : List Line) (start stop k : Nat) :
    (slice lines start stop)[k]? = if start + k < stop then lines[start + k]? else none := by
  rw [slice, List.getElem?_drop, List.getElem?_take]

/-- The lines of a slice are those at its places. -/
theorem mem_slice_iff {line : Line} {start stop : Nat} :
    line ∈ slice lines start stop ↔ ∃ k, start ≤ k ∧ k < stop ∧ lines[k]? = some line := by
  rw [List.mem_iff_getElem?]
  simp only [getElem?_slice]
  constructor
  · intro h
    obtain ⟨k, hk⟩ := h
    split_ifs at hk with hstop
    exact ⟨start + k, by omega, hstop, hk⟩
  · intro h
    obtain ⟨k, hstart, hstop, hline⟩ := h
    refine ⟨k - start, ?_⟩
    rw [Nat.add_sub_cancel' hstart, if_pos hstop, hline]

theorem slice_eq_cons {line : Line} {start stop : Nat} (hline : lines[start]? = some line) (hstop : start < stop) :
    slice lines start stop = line :: slice lines (start + 1) stop := by
  apply List.ext_getElem?
  intro k
  cases k with
  | zero => rw [getElem?_slice, Nat.add_zero, if_pos hstop, hline, List.getElem?_cons_zero]
  | succ k =>
    rw [List.getElem?_cons_succ, getElem?_slice, getElem?_slice, Nat.add_assoc start 1 k, Nat.add_comm 1 k]

theorem isLeast_succ {P Q : Nat → Prop} {n : Nat} (hzero : ¬P 0) (hsucc : ∀ m, P (m + 1) ↔ Q m)
    (h : IsLeast {m | Q m} n) : IsLeast {m | P m} (n + 1) := by
  refine ⟨(hsucc n).mpr h.1, ?_⟩
  intro m hm
  cases m with
  | zero => exact absurd hm hzero
  | succ m => exact Nat.succ_le_succ (h.2 ((hsucc m).mp hm))

/-- What comes first below a place is first among the places below it. -/
theorem isLeast_below {P Q : Nat → Prop} {place n : Nat} (hbelow : ∀ m, P (place + 1 + m) ↔ Q m)
    (h : IsLeast {m | Q m} n) : IsLeast {stop | place < stop ∧ P stop} (place + 1 + n) := by
  refine ⟨⟨by omega, (hbelow n).mpr h.1⟩, ?_⟩
  intro stop hstop
  obtain ⟨hlt, hstop⟩ := hstop
  obtain ⟨m, rfl⟩ := Nat.exists_eq_add_of_le (Nat.succ_le_of_lt hlt)
  exact Nat.add_le_add_left (h.2 ((hbelow m).mp hstop)) _

/-- The first of `count` places from `i` on whose line has a property. -/
structure IsFirstFrom (lines : List Line) (i count : Nat) (P : Line → Prop) (j : Nat) (line : Line) : Prop where
  start : i ≤ j
  stop : j < i + count
  item : lines[j]? = some line
  holds : P line
  first : ∀ k other, i ≤ k → lines[k]? = some other → P other → j ≤ k

theorem getElem?_window (lines : List Line) {i count k : Nat} (hk : k < count) :
    ((lines.drop i).take count)[k]? = lines[i + k]? := by
  rw [List.getElem?_take_of_lt hk, List.getElem?_drop]

/-- The place that is found is the first one in the window. -/
theorem firstPlace?_eq_some_iff {i count j : Nat} {p : Line → Bool} :
    firstPlace? lines i count p = some j ↔ ∃ line, IsFirstFrom lines i count (fun line => p line = true) j line := by
  unfold firstPlace?
  rw [Option.map_eq_some_iff]
  constructor
  · intro h
    obtain ⟨k, hk, rfl⟩ := h
    obtain ⟨hlt, hp, hbefore⟩ := List.findIdx?_eq_some_iff_getElem.mp hk
    have hcount : k < count := by
      rw [List.length_take] at hlt
      omega
    have hitem := getElem?_window lines (i := i) hcount
    rw [List.getElem?_eq_getElem hlt] at hitem
    refine ⟨_, by omega, by omega, hitem.symm, hp, ?_⟩
    intro place other hstart hother hholds
    by_contra hearlier
    have hplace : place - i < k := by omega
    have hsame := getElem?_window lines (i := i) (show place - i < count by omega)
    rw [Nat.add_sub_cancel' hstart, hother, List.getElem?_eq_getElem (by omega)] at hsame
    apply hbefore (place - i) hplace
    rw [Option.some.inj hsame]
    exact hholds
  · intro h
    obtain ⟨line, hfirst⟩ := h
    have hstart := hfirst.start
    have hstop := hfirst.stop
    have hitem : ((lines.drop i).take count)[j - i]? = some line := by
      rw [getElem?_window lines (by omega), Nat.add_sub_cancel' hstart]
      exact hfirst.item
    obtain ⟨hlt, hget⟩ := List.getElem?_eq_some_iff.mp hitem
    refine ⟨j - i, List.findIdx?_eq_some_iff_getElem.mpr ⟨hlt, ?_, ?_⟩, by omega⟩
    · rw [hget]
      exact hfirst.holds
    · intro k hk hp
      have hother := getElem?_window lines (i := i) (show k < count by omega)
      rw [List.getElem?_eq_getElem (by omega)] at hother
      have hle := hfirst.first (i + k) _ (by omega) hother.symm hp
      omega

theorem firstPlace?_eq_none_iff {i count : Nat} {p : Line → Bool} :
    firstPlace? lines i count p = none ↔
      ∀ k line, i ≤ k → k < i + count → lines[k]? = some line → p line = false := by
  unfold firstPlace?
  rw [Option.map_eq_none_iff, List.findIdx?_eq_none_iff, ← slice_eq_take_drop]
  simp only [mem_slice_iff]
  constructor
  · intro h k line hstart hstop hline
    exact h line ⟨k, hstart, hstop, hline⟩
  · intro h line hline
    obtain ⟨k, hstart, hstop, hline⟩ := hline
    exact h k line hstart hstop hline

/-- The line closest to place `i` that has a property, at most `radius` lines away; of two lines at one
distance the upper one. -/
structure IsClosest (lines : List Line) (i radius : Nat) (P : Line → Prop) (j : Nat) (line : Line) : Prop where
  near : Nat.dist i j ≤ radius
  item : lines[j]? = some line
  holds : P line
  closest : ∀ k other, lines[k]? = some other → P other →
    Nat.dist i j < Nat.dist i k ∨ Nat.dist i j = Nat.dist i k ∧ j ≤ k

section Around

variable {α : Type} {i radius d : Nat} {f : Line → Option α} {a : α}

theorem dist_eq_iff {i j d : Nat} : Nat.dist i j = d ↔ d ≤ i ∧ j = i - d ∨ j = i + d := by
  unfold Nat.dist
  omega

/-- At one distance the line above is tried before the line below. -/
theorem atDistance_eq_or (lines : List Line) (i : Nat) (f : Line → Option α) (d : Nat) :
    atDistance lines i f d =
      (if d ≤ i then lines[i - d]?.bind f else none).or (lines[i + d]?.bind f) := by
  unfold atDistance
  cases habove : (if d ≤ i then lines[i - d]?.bind f else none) with
  | some b => simp
  | none =>
    by_cases hzero : d = 0
    · subst hzero
      simpa using habove.symm
    · simp [hzero]

theorem atDistance_eq_none_iff :
    atDistance lines i f d = none ↔ ∀ j, Nat.dist i j = d → lines[j]?.bind f = none := by
  rw [atDistance_eq_or, Option.or_eq_none_iff, ite_eq_right_iff]
  simp only [dist_eq_iff]
  constructor
  · intro h j hj
    rcases hj with ⟨hd, rfl⟩ | rfl
    · exact h.1 hd
    · exact h.2
  · intro h
    exact ⟨fun hd => h _ (.inl ⟨hd, rfl⟩), h _ (.inr rfl)⟩

theorem atDistance_eq_some_iff :
    atDistance lines i f d = some a ↔ ∃ j, Nat.dist i j = d ∧ lines[j]?.bind f = some a ∧
      ∀ k, Nat.dist i k = d → k < j → lines[k]?.bind f = none := by
  rw [atDistance_eq_or, Option.or_eq_some_iff, Option.ite_none_right_eq_some, ite_eq_right_iff]
  simp only [dist_eq_iff]
  constructor
  · intro h
    rcases h with ⟨hd, habove⟩ | ⟨hnone, hbelow⟩
    · refine ⟨i - d, .inl ⟨hd, rfl⟩, habove, ?_⟩
      intro k hk hlt
      omega
    · refine ⟨i + d, .inr rfl, hbelow, ?_⟩
      intro k hk hlt
      rcases hk with ⟨hd, rfl⟩ | rfl
      · exact hnone hd
      · omega
  · intro h
    obtain ⟨j, hj, hvalue, hearlier⟩ := h
    rcases hj with ⟨hd, rfl⟩ | rfl
    · exact .inl ⟨hd, hvalue⟩
    · by_cases hzero : d = 0
      · subst hzero
        exact .inl ⟨Nat.zero_le i, hvalue⟩
      · exact .inr ⟨fun hd => hearlier _ (.inl ⟨hd, rfl⟩) (by omega), hvalue⟩

/-- A search outward goes through the distances in order. -/
theorem outward_eq_findSome? (lines : List Line) (i : Nat) (f : Line → Option α)
    (d more : Nat) :
    outward lines i f d more = (List.range' d (more + 1)).findSome? (atDistance lines i f) := by
  induction more generalizing d with
  | zero => rw [outward, List.range'_one, List.findSome?_singleton]
  | succ more ih =>
    rw [outward, List.range'_succ, List.findSome?_cons, ih]
    rfl

theorem outward_eq_none_iff {more : Nat} :
    outward lines i f d more = none ↔
      ∀ e, d ≤ e → e ≤ d + more → atDistance lines i f e = none := by
  rw [outward_eq_findSome?, List.findSome?_eq_none_iff]
  simp only [List.mem_range'_1, and_imp]
  constructor
  · intro h e hd he
    exact h e hd (by omega)
  · intro h e hd he
    exact h e hd (by omega)

theorem outward_eq_some_iff {more : Nat} :
    outward lines i f d more = some a ↔ ∃ e, d ≤ e ∧ e ≤ d + more ∧
      atDistance lines i f e = some a ∧ ∀ e', d ≤ e' → e' < e → atDistance lines i f e' = none := by
  rw [outward_eq_findSome?, List.findSome?_eq_some_iff]
  constructor
  · intro h
    obtain ⟨earlier, e, later, hsplit, hvalue, hearlier⟩ := h
    obtain ⟨k, hk, rfl, hrest⟩ := List.range'_eq_append_iff.mp hsplit
    obtain ⟨rfl, hlater, -⟩ := List.range'_eq_cons_iff.mp hrest.symm
    refine ⟨_, by omega, by omega, hvalue, ?_⟩
    intro e' hd hlt
    exact hearlier e' (List.mem_range'_1.mpr ⟨hd, by omega⟩)
  · intro h
    obtain ⟨e, hd, he, hvalue, hearlier⟩ := h
    obtain ⟨m, rfl⟩ := Nat.exists_eq_add_of_le hd
    refine ⟨List.range' d m, d + m, List.range' (d + m + 1) (more - m), ?_, hvalue, ?_⟩
    · rw [← List.range'_succ, List.range'_append_1, show m + (more - m + 1) = more + 1 by omega]
    · intro e' he'
      obtain ⟨hd', hlt⟩ := List.mem_range'_1.mp he'
      exact hearlier e' hd' (by omega)

/-- The value that is found is that of the closest line, the one above first. -/
theorem nearestAround?_eq_some_iff :
    nearestAround? lines i radius f = some a ↔
      ∃ j line, IsClosest lines i radius (fun line => (f line).isSome = true) j line ∧ f line = some a := by
  unfold nearestAround?
  simp only [outward_eq_some_iff, atDistance_eq_some_iff, atDistance_eq_none_iff]
  constructor
  · intro h
    obtain ⟨e, -, he, ⟨j, hj, hvalue, hupper⟩, hearlier⟩ := h
    obtain ⟨line, hline, hvalue⟩ := Option.bind_eq_some_iff.mp hvalue
    refine ⟨j, line, ⟨by omega, hline, by rw [hvalue]; rfl, ?_⟩, hvalue⟩
    intro k other hother hsome
    have hdefined : lines[k]?.bind f ≠ none := by
      rw [hother, Option.bind_some]
      exact Option.isSome_iff_ne_none.mp hsome
    by_contra hcloser
    by_cases hsame : Nat.dist i k = e
    · exact hdefined (hupper k hsame (by omega))
    · exact hdefined (hearlier _ (Nat.zero_le _) (by omega) k rfl)
  · intro h
    obtain ⟨j, line, hclosest, hvalue⟩ := h
    have hnone {k : Nat} (hcloser : Nat.dist i k < Nat.dist i j ∨ Nat.dist i k = Nat.dist i j ∧ k < j) :
        lines[k]?.bind f = none := by
      by_contra hdefined
      obtain ⟨b, hb⟩ := Option.ne_none_iff_exists'.mp hdefined
      obtain ⟨other, hother, hb⟩ := Option.bind_eq_some_iff.mp hb
      have horder := hclosest.closest k other hother (by rw [hb]; rfl)
      omega
    refine ⟨Nat.dist i j, Nat.zero_le _, by have := hclosest.near; omega, ⟨j, rfl, ?_, ?_⟩, ?_⟩
    · rw [hclosest.item, Option.bind_some, hvalue]
    · intro k hk hlt
      exact hnone (.inr ⟨hk, hlt⟩)
    · intro e _ hlt k hk
      exact hnone (.inl (by omega))

/-- Nothing is found exactly if no line within the radius has a value. -/
theorem nearestAround?_eq_none_iff :
    nearestAround? lines i radius f = none ↔
      ∀ j line, Nat.dist i j ≤ radius → lines[j]? = some line → f line = none := by
  unfold nearestAround?
  simp only [outward_eq_none_iff, atDistance_eq_none_iff, Option.bind_eq_none_iff]
  constructor
  · intro h j line hnear hline
    exact h _ (Nat.zero_le _) (by omega) j rfl line hline
  · intro h e _ he j hj line hline
    exact h j line (by omega) hline

end Around

end EventAtlas.Source
