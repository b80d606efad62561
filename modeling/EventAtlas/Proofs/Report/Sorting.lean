import EventAtlas.Proofs.Path
import EventAtlas.Report.Basic
import Mathlib.Data.List.Perm.Basic

namespace EventAtlas

open Std

section Stability

variable {α : Type} (order : α → α → Ordering) [TransCmp order]

/-- The items of a list that an order does not tell from `x`, in their places. -/
def tiedWith (x : α) (items : List α) : List α := items.filter fun a => order x a == .eq

omit [TransCmp order] in
theorem mem_tiedWith {x a : α} {items : List α} :
    a ∈ tiedWith order x items ↔ a ∈ items ∧ order x a = .eq := by
  simp [tiedWith]

theorem isLE_refl (a : α) : (order a a).isLE = true := by
  have h : order a a = .eq := ReflCmp.compare_self
  rw [h]
  rfl

theorem isLE_total (a b : α) : ((order a b).isLE || (order b a).isLE) = true := by
  have hswap : order b a = (order a b).swap := OrientedCmp.eq_swap
  rw [hswap]
  cases order a b <;> rfl

theorem isLE_transitive (a b c : α) (hab : (order a b).isLE = true) (hbc : (order b c).isLE = true) :
    (order a c).isLE = true :=
  TransCmp.isLE_trans hab hbc

omit [TransCmp order] in
theorem sortBy_perm (items : List α) : (sortBy order items).Perm items := List.mergeSort_perm _ _

omit [TransCmp order] in
@[simp] theorem mem_sortBy {a : α} {items : List α} : a ∈ sortBy order items ↔ a ∈ items :=
  (sortBy_perm order items).mem_iff

/-- Items that are sorted by what they are mapped to. -/
theorem sortBy_map {α β : Type} (f : α → β) (order : β → β → Ordering) (items : List α) :
    sortBy order (items.map f) = (sortBy (fun a b => order (f a) (f b)) items).map f := by
  unfold sortBy
  symm
  apply List.map_mergeSort
  intro a _ b _
  rfl

theorem sortBy_sorted (items : List α) :
    (sortBy order items).Pairwise fun a b => (order a b).isLE = true :=
  List.pairwise_mergeSort (isLE_transitive order) (isLE_total order) items

private theorem tiedWith_pairwise (x : α) (items : List α) :
    (tiedWith order x items).Pairwise fun a b => (order a b).isLE = true := by
  apply List.pairwise_of_forall_mem_list
  intro a ha b hb
  have hxa := ((mem_tiedWith order).mp ha).2
  have hxb := ((mem_tiedWith order).mp hb).2
  have hab : order a b = .eq := TransCmp.eq_trans (OrientedCmp.eq_symm hxa) hxb
  simp [hab]

/-- Sorting keeps tied items in their order. -/
theorem tiedWith_sortBy (x : α) (items : List α) :
    tiedWith order x (sortBy order items) = tiedWith order x items := by
  have hsub : (tiedWith order x items).Sublist (sortBy order items) :=
    List.sublist_mergeSort (isLE_transitive order) (isLE_total order)
      (tiedWith_pairwise order x items) List.filter_sublist
  have hfilter : (tiedWith order x items).Sublist (tiedWith order x (sortBy order items)) := by
    have h := hsub.filter fun a => order x a == .eq
    simpa only [tiedWith, List.filter_filter, Bool.and_self] using h
  have hlength := ((sortBy_perm order items).filter fun a => order x a == .eq).length_eq
  exact (hfilter.eq_of_length hlength.symm).symm

omit [TransCmp order] in
theorem tiedWith_cons_of_eq {x a : α} (h : order x a = .eq) (items : List α) :
    tiedWith order x (a :: items) = a :: tiedWith order x items := by
  simp [tiedWith, h]

/-- A sorted list is determined by its groups of tied items. -/
theorem eq_of_sorted_of_tiedWith {items others : List α}
    (hitems : items.Pairwise fun a b => (order a b).isLE = true)
    (hothers : others.Pairwise fun a b => (order a b).isLE = true)
    (h : ∀ x, tiedWith order x items = tiedWith order x others) : items = others := by
  induction items generalizing others with
  | nil =>
    cases others with
    | nil => rfl
    | cons b others =>
      have hb := h b
      rw [tiedWith_cons_of_eq order ReflCmp.compare_self] at hb
      simp [tiedWith] at hb
  | cons a items ih =>
    cases others with
    | nil =>
      have ha := h a
      rw [tiedWith_cons_of_eq order ReflCmp.compare_self] at ha
      simp [tiedWith] at ha
    | cons b others =>
      obtain ⟨hamin, hrest⟩ := List.pairwise_cons.mp hitems
      obtain ⟨hbmin, hrest'⟩ := List.pairwise_cons.mp hothers
      have hab : (order a b).isLE = true := by
        have hb : b ∈ tiedWith order b (a :: items) := by
          rw [h b, tiedWith_cons_of_eq order ReflCmp.compare_self]
          exact List.mem_cons_self
        rcases List.mem_cons.mp ((mem_tiedWith order).mp hb).1 with rfl | hb
        · exact isLE_refl order _
        · exact hamin b hb
      have hba : (order b a).isLE = true := by
        have ha : a ∈ tiedWith order a (b :: others) := by
          rw [← h a, tiedWith_cons_of_eq order ReflCmp.compare_self]
          exact List.mem_cons_self
        rcases List.mem_cons.mp ((mem_tiedWith order).mp ha).1 with rfl | ha
        · exact isLE_refl order _
        · exact hbmin a ha
      have heq : order a b = .eq := OrientedCmp.isLE_antisymm hab hba
      have hhead := h a
      rw [tiedWith_cons_of_eq order ReflCmp.compare_self, tiedWith_cons_of_eq order heq] at hhead
      obtain ⟨rfl, _⟩ := List.cons.inj hhead
      congr 1
      apply ih hrest hrest'
      intro x
      have hx := h x
      simp only [tiedWith, List.filter_cons] at hx
      split at hx
      · exact (List.cons.inj hx).2
      · exact hx

/-- What a sort gives depends only on the groups of tied items. -/
theorem sortBy_congr {items others : List α}
    (h : ∀ x, tiedWith order x items = tiedWith order x others) :
    sortBy order items = sortBy order others := by
  apply eq_of_sorted_of_tiedWith order (sortBy_sorted order items) (sortBy_sorted order others)
  intro x
  rw [tiedWith_sortBy, tiedWith_sortBy, h x]

/-- Leaving items out before a sort or after it is the same. -/
theorem filter_sortBy (keep : α → Bool) (items : List α) :
    (sortBy order items).filter keep = sortBy order (items.filter keep) := by
  apply eq_of_sorted_of_tiedWith order ((sortBy_sorted order items).filter keep) (sortBy_sorted order _)
  intro x
  rw [tiedWith_sortBy]
  simp only [tiedWith, List.filter_filter]
  have h := congrArg (List.filter keep) (tiedWith_sortBy order x items)
  simp only [tiedWith, List.filter_filter] at h
  simpa only [Bool.and_comm] using h

end Stability

instance : TransCmp Origin.order :=
  inferInstanceAs (TransCmp (compareLex (compareOn Origin.repository)
    (compareLex (compareOn Origin.project) (compareOn Origin.path))))

/-- An order by where items were found and then by something else. -/
instance transCmp_originFirst {α : Type} (origin : α → Origin) (next : α → α → Ordering) [TransCmp next] :
    TransCmp (compareLex (fun a b => Origin.order (origin a) (origin b)) next) := by
  have : TransCmp fun a b => Origin.order (origin a) (origin b) :=
    { eq_swap := OrientedCmp.eq_swap
      isLE_trans := TransCmp.isLE_trans }
  infer_instance

theorem path_eq_of_originFirst {α : Type} {origin : α → Origin} {next : α → α → Ordering} {a b : α}
    (h : compareLex (fun a b => Origin.order (origin a) (origin b)) next a b = .eq) :
    (origin a).path.components = (origin b).path.components := by
  have horigin : Origin.order (origin a) (origin b) = .eq := (compareLex_eq_eq.mp h).1
  have hrest := (compareLex_eq_eq.mp horigin).2
  exact Path.compare_eq_iff.mp (compareLex_eq_eq.mp hrest).2

instance : TransCmp EventDefinition.order :=
  transCmp_originFirst EventDefinition.origin (compareOn EventDefinition.name)

instance : TransCmp Publication.order :=
  transCmp_originFirst Publication.origin
    (compareLex (compareOn Publication.position) (compareOn Publication.event))

instance : TransCmp Consumption.order :=
  transCmp_originFirst Consumption.origin
    (compareLex (compareOn Consumption.position) (compareOn Consumption.event))

instance : TransCmp Subscription.order :=
  transCmp_originFirst Subscription.origin
    (compareLex (compareOn Subscription.position) (compareOn Subscription.event))

end EventAtlas
