import EventAtlas.Lookback
import Mathlib.Data.List.Basic

namespace EventAtlas

variable {α β : Type}

/-- The place `j` lies before place `i` of a list, and within the window if there is one. A place `i` past
the end counts as the end. -/
def InWindow (length i : Nat) (window : Option Nat) (j : Nat) : Prop :=
  j < min i length ∧ ∀ n ∈ window, min i length ≤ j + n

/-- The last place of the window whose item has a property, and the item there. -/
structure IsNearest (items : List α) (i : Nat) (window : Option Nat) (P : Nat → α → Prop) (j : Nat) (a : α) :
    Prop where
  inWindow : InWindow items.length i window j
  item : items[j]? = some a
  holds : P j a
  last : ∀ k b, InWindow items.length i window k → items[k]? = some b → P k b → k ≤ j

variable {items : List α} {i : Nat} {window : Option Nat}

private theorem getElem?_lookback_none (items : List α) (i k : Nat) (hk : k < min i items.length) :
    (lookback items i none)[k]? = items[min i items.length - 1 - k]?.map (min i items.length - 1 - k, ·) := by
  have hlength : ((items.take i).zipIdx.map Prod.swap).length = min i items.length := by simp
  have hplace : min i items.length - 1 - k < i := by omega
  unfold lookback
  rw [List.getElem?_reverse (by omega), hlength, List.getElem?_map, List.getElem?_zipIdx,
    List.getElem?_take_of_lt hplace]
  simp [Function.comp_def]

private theorem length_lookback_none (items : List α) (i : Nat) :
    (lookback items i none).length = min i items.length := by
  simp [lookback]

/-- What is walked over are the items at the places in the window. -/
theorem mem_lookback {j : Nat} {a : α} :
    (j, a) ∈ lookback items i window ↔ InWindow items.length i window j ∧ items[j]? = some a := by
  have hplaces (k : Nat) : (lookback items i none)[k]? = some (j, a) ↔
      k < min i items.length ∧ j = min i items.length - 1 - k ∧ items[j]? = some a := by
    by_cases hk : k < min i items.length
    · rw [getElem?_lookback_none items i k hk]
      simp only [Option.map_eq_some_iff, Prod.mk.injEq, hk, true_and]
      constructor
      · rintro ⟨b, hb, rfl, rfl⟩
        exact ⟨rfl, hb⟩
      · rintro ⟨rfl, hb⟩
        exact ⟨a, hb, rfl, rfl⟩
    · have hnone : (lookback items i none)[k]? = none := by
        rw [List.getElem?_eq_none_iff, length_lookback_none]
        omega
      simp [hnone, hk]
  cases window with
  | none =>
    simp only [List.mem_iff_getElem?, hplaces, InWindow]
    constructor
    · rintro ⟨k, hk, rfl, hitem⟩
      exact ⟨⟨by omega, by simp⟩, hitem⟩
    · rintro ⟨⟨hj, -⟩, hitem⟩
      exact ⟨min i items.length - 1 - j, by omega, by omega, hitem⟩
  | some n =>
    have htake : lookback items i (some n) = (lookback items i none).take n := rfl
    have hn : (∀ m ∈ some n, min i items.length ≤ j + m) ↔ min i items.length ≤ j + n := by simp
    rw [htake, List.mem_iff_getElem?, InWindow, hn]
    constructor
    · rintro ⟨k, hk⟩
      have hkn : k < n := by
        obtain ⟨hlt, -⟩ := List.getElem?_eq_some_iff.mp hk
        rw [List.length_take] at hlt
        omega
      rw [List.getElem?_take_of_lt hkn, hplaces] at hk
      obtain ⟨hk, rfl, hitem⟩ := hk
      exact ⟨⟨by omega, by omega⟩, hitem⟩
    · rintro ⟨⟨hj, hwindow⟩, hitem⟩
      refine ⟨min i items.length - 1 - j, ?_⟩
      rw [List.getElem?_take_of_lt (by omega), hplaces]
      exact ⟨by omega, by omega, hitem⟩

/-- The places of the window before place `i`, the nearest first. -/
def windowPlaces (length i : Nat) (window : Option Nat) : List Nat :=
  let stop := min i length
  let start := window.elim 0 (stop - ·)
  (List.range' start (stop - start)).reverse

theorem map_fst_lookback (items : List α) (i : Nat) (window : Option Nat) :
    (lookback items i window).map Prod.fst = windowPlaces items.length i window := by
  have hall : (lookback items i none).map Prod.fst = (List.range' 0 (min i items.length)).reverse := by
    unfold lookback
    rw [List.map_reverse, List.map_map]
    have hplaces := List.zipIdx_map_snd 0 (items.take i)
    rw [List.length_take] at hplaces
    exact congrArg List.reverse hplaces
  cases window with
  | none => exact hall
  | some n =>
    have htake : lookback items i (some n) = (lookback items i none).take n := rfl
    rw [htake, List.map_take, hall, List.take_reverse, List.length_range', List.drop_range']
    simp [windowPlaces]

/-- The places are met in falling order. -/
theorem lookback_pairwise (items : List α) (i : Nat) (window : Option Nat) :
    (lookback items i window).Pairwise fun x y => y.1 < x.1 := by
  have hplaces : ((lookback items i window).map Prod.fst).Pairwise fun j k => k < j := by
    rw [map_fst_lookback, windowPlaces, List.pairwise_reverse]
    exact List.pairwise_lt_range'
  exact List.pairwise_map.mp hplaces

/-- In a list of falling places the first hit is the one at the greatest place. -/
theorem findSome?_eq_some_iff_of_falling {places : List (Nat × α)} (h : places.Pairwise fun x y => y.1 < x.1)
    (f : Nat × α → Option β) (b : β) :
    places.findSome? f = some b ↔
      ∃ x ∈ places, f x = some b ∧ ∀ y ∈ places, (f y).isSome = true → y.1 ≤ x.1 := by
  induction places with
  | nil => simp
  | cons first rest ih =>
    obtain ⟨hfirst, hrest⟩ := List.pairwise_cons.mp h
    rw [List.findSome?_cons]
    cases hf : f first with
    | some c =>
      constructor
      · intro hb
        refine ⟨first, List.mem_cons_self, hf.trans hb, ?_⟩
        intro y hy _
        rcases List.mem_cons.mp hy with rfl | hy
        · exact Nat.le_refl _
        · exact Nat.le_of_lt (hfirst y hy)
      · rintro ⟨x, hx, hb, hlast⟩
        rcases List.mem_cons.mp hx with rfl | hx
        · exact hf.symm.trans hb
        · have hle := hlast first List.mem_cons_self (by rw [hf]; rfl)
          have hlt := hfirst x hx
          omega
    | none =>
      rw [ih hrest]
      constructor
      · rintro ⟨x, hx, hb, hlast⟩
        refine ⟨x, List.mem_cons_of_mem _ hx, hb, ?_⟩
        intro y hy hsome
        rcases List.mem_cons.mp hy with rfl | hy
        · simp [hf] at hsome
        · exact hlast y hy hsome
      · rintro ⟨x, hx, hb, hlast⟩
        rcases List.mem_cons.mp hx with rfl | hx
        · simp [hf] at hb
        · exact ⟨x, hx, hb, fun y hy => hlast y (List.mem_cons_of_mem _ hy)⟩

/-- The value that is found comes from the nearest place in the window that has one. -/
theorem nearestSome?_eq_some_iff {f : Nat → α → Option β} {b : β} :
    nearestSome? items i window f = some b ↔
      ∃ j a, IsNearest items i window (fun j a => (f j a).isSome = true) j a ∧ f j a = some b := by
  unfold nearestSome?
  rw [findSome?_eq_some_iff_of_falling (lookback_pairwise items i window)]
  constructor
  · rintro ⟨⟨j, a⟩, hmem, hb, hlast⟩
    obtain ⟨hj, hitem⟩ := mem_lookback.mp hmem
    have hsome : (f j a).isSome = true := Option.isSome_of_eq_some hb
    exact ⟨j, a, ⟨hj, hitem, hsome, fun k c hk hc => hlast (k, c) (mem_lookback.mpr ⟨hk, hc⟩)⟩, hb⟩
  · rintro ⟨j, a, hnearest, hb⟩
    refine ⟨(j, a), mem_lookback.mpr ⟨hnearest.inWindow, hnearest.item⟩, hb, ?_⟩
    intro y hy hsome
    obtain ⟨hk, hitem⟩ := mem_lookback.mp hy
    exact hnearest.last y.1 y.2 hk hitem hsome

/-- Nothing is found exactly if no place in the window has a value. -/
theorem nearestSome?_eq_none_iff {f : Nat → α → Option β} :
    nearestSome? items i window f = none ↔
      ∀ j a, InWindow items.length i window j → items[j]? = some a → f j a = none := by
  unfold nearestSome?
  rw [List.findSome?_eq_none_iff]
  constructor
  · intro h j a hj hitem
    exact h (j, a) (mem_lookback.mpr ⟨hj, hitem⟩)
  · rintro h ⟨j, a⟩ hmem
    obtain ⟨hj, hitem⟩ := mem_lookback.mp hmem
    exact h j a hj hitem

theorem nearest?_eq_nearestSome? (p : α → Bool) :
    nearest? items i window p = nearestSome? items i window fun j a => if p a then some j else none := by
  unfold nearest? nearestSome?
  induction lookback items i window with
  | nil => rfl
  | cons first rest ih =>
    obtain ⟨j, a⟩ := first
    rw [List.find?_cons, List.findSome?_cons]
    cases hp : p a with
    | true => simp [hp]
    | false => simpa [hp] using ih

/-- The place that is found is the nearest one in the window with the property. -/
theorem nearest?_eq_some_iff {p : α → Bool} {j : Nat} :
    nearest? items i window p = some j ↔ ∃ a, IsNearest items i window (fun _ a => p a = true) j a := by
  have hsome (k : Nat) (a : α) : (if p a then some k else none).isSome = true ↔ p a = true := by
    cases p a <;> simp
  rw [nearest?_eq_nearestSome?, nearestSome?_eq_some_iff]
  simp only [hsome]
  constructor
  · rintro ⟨k, a, hnearest, hk⟩
    rw [if_pos hnearest.holds] at hk
    obtain rfl := Option.some.inj hk
    exact ⟨a, hnearest⟩
  · rintro ⟨a, hnearest⟩
    exact ⟨j, a, hnearest, if_pos hnearest.holds⟩

theorem nearest?_eq_none_iff {p : α → Bool} :
    nearest? items i window p = none ↔
      ∀ j a, InWindow items.length i window j → items[j]? = some a → p a = false := by
  rw [nearest?_eq_nearestSome?, nearestSome?_eq_none_iff]
  simp only [ite_eq_right_iff, reduceCtorEq, imp_false, Bool.not_eq_true]

/-- Looking back meets the places of the window from the nearest to the farthest, each with its item. The first hit
on the way is the one at the greatest place, and nothing is found only where the window holds no hit. -/
theorem lookback_exactly (items : List α) (i : Nat) (window : Option Nat) :
    (lookback items i window).map Prod.fst = windowPlaces items.length i window ∧
      (∀ j a, (j, a) ∈ lookback items i window ↔ InWindow items.length i window j ∧ items[j]? = some a) ∧
      (∀ p j, nearest? items i window p = some j ↔ ∃ a, IsNearest items i window (fun _ a => p a = true) j a) ∧
      (∀ p, nearest? items i window p = none ↔
        ∀ j a, InWindow items.length i window j → items[j]? = some a → p a = false) ∧
      (∀ (f : Nat → α → Option β) b, nearestSome? items i window f = some b ↔
        ∃ j a, IsNearest items i window (fun j a => (f j a).isSome = true) j a ∧ f j a = some b) ∧
      ∀ f : Nat → α → Option β, nearestSome? items i window f = none ↔
        ∀ j a, InWindow items.length i window j → items[j]? = some a → f j a = none := by
  refine ⟨map_fst_lookback items i window, ?_, ?_, ?_, ?_, ?_⟩
  · intro j a
    exact mem_lookback
  · intro p j
    exact nearest?_eq_some_iff
  · intro p
    exact nearest?_eq_none_iff
  · intro f b
    exact nearestSome?_eq_some_iff
  · intro f
    exact nearestSome?_eq_none_iff

theorem take_eq_of_le {items others : List α} {n m : Nat} (h : items.take n = others.take n) (hm : m ≤ n) :
    items.take m = others.take m := by
  have htake := congrArg (List.take m) h
  rwa [List.take_take, List.take_take, Nat.min_eq_left hm] at htake

theorem getElem?_eq_of_take {items others : List α} {n i : Nat} (h : items.take n = others.take n)
    (hi : i < n) : items[i]? = others[i]? := by
  have hget := congrArg (·[i]?) h
  simpa [List.getElem?_take, hi] using hget

theorem nearestSome?_eq_of_take {items others : List α} {n i : Nat} (h : items.take n = others.take n)
    (hi : i ≤ n) (window : Option Nat) (f : Nat → α → Option β) :
    nearestSome? items i window f = nearestSome? others i window f := by
  unfold nearestSome? lookback
  rw [take_eq_of_le h hi]

theorem nearest?_eq_of_take {items others : List α} {n i : Nat} (h : items.take n = others.take n) (hi : i ≤ n)
    (window : Option Nat) (p : α → Bool) : nearest? items i window p = nearest? others i window p := by
  rw [nearest?_eq_nearestSome?, nearest?_eq_nearestSome?]
  exact nearestSome?_eq_of_take h hi window _

end EventAtlas
