import EventAtlas.Proofs.Report.Selection
import Mathlib.Data.List.Lex
import Mathlib.Data.Prod.Lex
import Mathlib.Data.String.Basic
import Mathlib.Order.Compare

namespace EventAtlas

/-- An order that goes by a key. -/
def OrdersBy {α κ : Type} [LinearOrder κ] (order : α → α → Ordering) (key : α → κ) : Prop :=
  ∀ a b, order a b = cmp (key a) (key b)

theorem ordersBy_compareOn {α κ : Type} [LinearOrder κ] (key : α → κ) : OrdersBy (compareOn key) key :=
  fun a b => (cmp_eq_compare (key a) (key b)).symm

namespace OrdersBy

variable {α β κ μ : Type} [LinearOrder κ] [LinearOrder μ] {order : α → α → Ordering} {key : α → κ}
  (h : OrdersBy order key)

include h

theorem compares (a b : α) : (order a b).Compares (key a) (key b) := by
  rw [h a b]
  exact cmp_compares (key a) (key b)

theorem isLE_iff (a b : α) : (order a b).isLE = true ↔ key a ≤ key b := by
  rw [Ordering.isLE_iff_ne_gt]
  exact (h.compares a b).ne_gt

/-- Items that are compared by a part of them. -/
theorem comap (part : β → α) : OrdersBy (fun a b => order (part a) (part b)) fun b => key (part b) :=
  fun a b => h (part a) (part b)

/-- Two orders, one after the other, go by the pair of their keys. -/
theorem compareLex {next : α → α → Ordering} {nextKey : α → μ} (hnext : OrdersBy next nextKey) :
    OrdersBy (compareLex order next) fun a => toLex (key a, nextKey a) := by
  intro a b
  rw [cmp_eq_compare, Prod.Lex.compare_def]
  change (order a b).then (next a b) = (compare (key a) (key b)).then (compare (nextKey a) (nextKey b))
  rw [h a b, hnext a b, cmp_eq_compare, cmp_eq_compare]

private theorem compares_cons {a b : α} {items others : List α}
    (hrest : (List.compareLex order items others).Compares (items.map key) (others.map key)) :
    (List.compareLex order (a :: items) (b :: others)).Compares ((a :: items).map key)
      ((b :: others).map key) := by
  have hfirst := h.compares a b
  rw [List.compareLex_cons_cons]
  cases horder : order a b with
  | lt =>
    rw [horder] at hfirst
    exact List.cons_lt_cons_iff.mpr (.inl hfirst)
  | gt =>
    rw [horder] at hfirst
    exact List.cons_lt_cons_iff.mpr (.inl hfirst)
  | eq =>
    rw [horder] at hfirst
    have hkey : key a = key b := hfirst
    rw [Ordering.eq_then, List.map_cons, List.map_cons, hkey]
    cases hmore : List.compareLex order items others with
    | lt =>
      rw [hmore] at hrest
      exact List.cons_lt_cons_iff.mpr (.inr ⟨rfl, hrest⟩)
    | gt =>
      rw [hmore] at hrest
      exact List.cons_lt_cons_iff.mpr (.inr ⟨rfl, hrest⟩)
    | eq =>
      rw [hmore] at hrest
      exact congrArg (key b :: ·) hrest

/-- Lists that are compared item by item. -/
theorem list : OrdersBy (List.compareLex order) fun items => items.map key := by
  have hcompares (items others : List α) :
      (List.compareLex order items others).Compares (items.map key) (others.map key) := by
    induction items generalizing others with
    | nil =>
      cases others with
      | nil => exact rfl
      | cons b others => exact List.nil_lt_cons _ _
    | cons a items ih =>
      cases others with
      | nil => exact List.nil_lt_cons _ _
      | cons b others => exact h.compares_cons (ih others)
  intro items others
  exact (hcompares items others).cmp_eq.symm

end OrdersBy

/-- A list that was sorted by a key: it has the same items, the keys rise, and items with one key are in
the order that they were in. -/
structure SortedByKey {α κ : Type} [LinearOrder κ] (key : α → κ) (items sorted : List α) : Prop where
  perm : sorted.Perm items
  ordered : sorted.Pairwise fun a b => key a ≤ key b
  stable : ∀ k, (sorted.filter fun a => key a = k) = items.filter fun a => key a = k

section Sorting

variable {α κ : Type} [LinearOrder κ] {order : α → α → Ordering} [Std.TransCmp order] {key : α → κ}

omit [Std.TransCmp order] in
theorem sortBy_of_sorted {items : List α} (h : items.Pairwise fun a b => (order a b).isLE = true) :
    sortBy order items = items :=
  List.mergeSort_of_pairwise h

variable (order) in
private theorem sortBy_sortBy (items : List α) : sortBy order (sortBy order items) = sortBy order items :=
  sortBy_of_sorted (sortBy_sorted order items)

/-- Sorting by an order that compares keys sorts by the keys. -/
theorem OrdersBy.sortedByKey (h : OrdersBy order key) (items : List α) :
    SortedByKey key items (sortBy order items) where
  perm := sortBy_perm order items
  ordered := (sortBy_sorted order items).imp fun hle => (h.isLE_iff _ _).mp hle
  stable := by
    intro k
    have htied : (items.filter fun a => key a = k).Pairwise fun a b => (order a b).isLE = true := by
      apply List.pairwise_of_forall_mem_list
      intro a ha b hb
      have hkey : key a = k := by simpa using (List.mem_filter.mp ha).2
      have hkey' : key b = k := by simpa using (List.mem_filter.mp hb).2
      rw [h.isLE_iff, hkey, hkey']
    rw [filter_sortBy, sortBy_of_sorted htied]

end Sorting

/-- What steps are compared by: their kind and the bytes of their label. -/
def Path.Component.key (c : Component) : ℕ ×ₗ List ℕ := toLex (c.rank, c.label.map UInt8.toNat)

def Path.key (p : Path) : List (ℕ ×ₗ List ℕ) := p.components.map Component.key

abbrev OriginKey := String ×ₗ String ×ₗ List (ℕ ×ₗ List ℕ)

def Origin.key (o : Origin) : OriginKey := toLex (o.repository, toLex (o.project, o.path.key))

def EventDefinition.key (e : EventDefinition) : OriginKey ×ₗ String :=
  toLex (e.origin.key, e.name)

def Publication.key (p : Publication) : OriginKey ×ₗ ℕ ×ₗ String :=
  toLex (p.origin.key, toLex (p.position, p.event))

def Consumption.key (c : Consumption) : OriginKey ×ₗ ℕ ×ₗ String :=
  toLex (c.origin.key, toLex (c.position, c.event))

def Subscription.key (s : Subscription) : OriginKey ×ₗ ℕ ×ₗ String :=
  toLex (s.origin.key, toLex (s.position, s.event))

theorem Path.compare_ordersBy : OrdersBy (compare : Path → Path → Ordering) Path.key := by
  have hbyte : OrdersBy (compare : UInt8 → UInt8 → Ordering) UInt8.toNat := by
    intro a b
    rw [cmp_eq_compare]
    change compareOfLessAndEq a b = compareOfLessAndEq a.toNat b.toNat
    simp only [compareOfLessAndEq, UInt8.lt_iff_toNat_lt, ← UInt8.toNat_inj]
  have hcomponent : OrdersBy (compare : Component → Component → Ordering) Component.key :=
    (ordersBy_compareOn Component.rank).compareLex (hbyte.list.comap Component.label)
  exact hcomponent.list.comap components

example : Path.key ⟨"a//b"⟩ = Path.key ⟨"a/./b/"⟩ := by decide +kernel

theorem Origin.order_ordersBy : OrdersBy Origin.order Origin.key :=
  (ordersBy_compareOn Origin.repository).compareLex
    ((ordersBy_compareOn Origin.project).compareLex (Path.compare_ordersBy.comap Origin.path))

theorem EventDefinition.order_ordersBy : OrdersBy EventDefinition.order EventDefinition.key :=
  (Origin.order_ordersBy.comap EventDefinition.origin).compareLex (ordersBy_compareOn EventDefinition.name)

theorem Publication.order_ordersBy : OrdersBy Publication.order Publication.key :=
  (Origin.order_ordersBy.comap Publication.origin).compareLex
    ((ordersBy_compareOn Publication.position).compareLex (ordersBy_compareOn Publication.event))

theorem Consumption.order_ordersBy : OrdersBy Consumption.order Consumption.key :=
  (Origin.order_ordersBy.comap Consumption.origin).compareLex
    ((ordersBy_compareOn Consumption.position).compareLex (ordersBy_compareOn Consumption.event))

theorem Subscription.order_ordersBy : OrdersBy Subscription.order Subscription.key :=
  (Origin.order_ordersBy.comap Subscription.origin).compareLex
    ((ordersBy_compareOn Subscription.position).compareLex (ordersBy_compareOn Subscription.event))

namespace Facts

/-- Facts that were sorted, each sort by its key. -/
structure SortedFrom (f sorted : Facts) : Prop where
  events : SortedByKey EventDefinition.key f.events sorted.events
  publications : SortedByKey Publication.key f.publications sorted.publications
  consumptions : SortedByKey Consumption.key f.consumptions sorted.consumptions
  subscriptions : SortedByKey Subscription.key f.subscriptions sorted.subscriptions

private theorem sorted_sortedFrom (f : Facts) : f.SortedFrom f.sorted where
  events := EventDefinition.order_ordersBy.sortedByKey f.events
  publications := Publication.order_ordersBy.sortedByKey f.publications
  consumptions := Consumption.order_ordersBy.sortedByKey f.consumptions
  subscriptions := Subscription.order_ordersBy.sortedByKey f.subscriptions

private theorem sorted_sorted (f : Facts) : f.sorted.sorted = f.sorted := by
  simp only [sorted, sortBy_sortBy]

/-- Sorting and keeping background jobs only can be done in either order. -/
theorem inBackgroundJobs_sorted (f : Facts) : f.inBackgroundJobs.sorted = f.sorted.inBackgroundJobs := by
  rw [inBackgroundJobs_eq_select, inBackgroundJobs_eq_select, select_sorted]

private theorem inBackgroundJobs_inBackgroundJobs (f : Facts) :
    f.inBackgroundJobs.inBackgroundJobs = f.inBackgroundJobs := by
  simp only [inBackgroundJobs, List.filter_filter, Bool.and_self]

private theorem inBackgroundJobs_concat (parts : List Facts) :
    (concat parts).inBackgroundJobs = concat (parts.map inBackgroundJobs) := by
  have hparts : parts.map inBackgroundJobs = parts.map (select .inJobs) :=
    List.map_congr_left fun f _ => inBackgroundJobs_eq_select f
  rw [inBackgroundJobs_eq_select, select_concat, hparts]

end Facts

namespace Report

/-- A report is sorted by the keys of its facts, and facts with one key keep their order. Facts outside
background jobs can be left out before the sort, after it, or already in the parts of the report, and nothing
else changes when they are. -/
theorem sorted_and_inBackgroundJobs (r : Report) (parts : List Facts) (now now' : Timestamp) (count count' : Nat) :
    r.toFacts.SortedFrom r.sorted.toFacts ∧ r.sorted.sorted = r.sorted ∧
    r.inBackgroundJobs.sorted = r.sorted.inBackgroundJobs ∧
    r.inBackgroundJobs.inBackgroundJobs = r.inBackgroundJobs ∧
    r.inBackgroundJobs = { r with
      publications := r.publications.filter (·.inBackgroundJob)
      consumptions := r.consumptions.filter (·.inBackgroundJob) } ∧
    (ofParts now count parts).inBackgroundJobs.toFacts =
      (ofParts now' count' (parts.map Facts.inBackgroundJobs)).toFacts := by
  have hsorted : r.sorted.sorted = r.sorted := by
    simp only [sorted, Facts.sorted_sorted]
  have hcommute : r.inBackgroundJobs.sorted = r.sorted.inBackgroundJobs := by
    simp only [sorted, inBackgroundJobs, Facts.inBackgroundJobs_sorted]
  have htwice : r.inBackgroundJobs.inBackgroundJobs = r.inBackgroundJobs := by
    simp only [inBackgroundJobs, Facts.inBackgroundJobs_inBackgroundJobs]
  have hparts : (Facts.concat parts).sorted.inBackgroundJobs =
      (Facts.concat (parts.map Facts.inBackgroundJobs)).sorted := by
    rw [← Facts.inBackgroundJobs_sorted, Facts.inBackgroundJobs_concat]
  exact ⟨r.toFacts.sorted_sortedFrom, hsorted, hcommute, htwice, rfl, hparts⟩

end Report

end EventAtlas
