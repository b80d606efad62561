import EventAtlas.Analysis.Basic
import EventAtlas.Proofs.Report.Facts

namespace EventAtlas

open Std

namespace Facts

/-- Every fact was found at the path, by its components. -/
structure FoundAt (path : Path) (f : Facts) : Prop where
  events : ∀ e ∈ f.events, e.origin.path.same path = true
  publications : ∀ p ∈ f.publications, p.origin.path.same path = true
  consumptions : ∀ c ∈ f.consumptions, c.origin.path.same path = true
  subscriptions : ∀ s ∈ f.subscriptions, s.origin.path.same path = true

end Facts

namespace Analysis

/-- No two of the paths have the same components. -/
def PathsDiffer (paths : List Path) : Prop :=
  paths.Pairwise fun p q => p.components ≠ q.components

theorem PathsDiffer.perm {paths others : List Path} (h : PathsDiffer paths) (hperm : paths.Perm others) :
    PathsDiffer others :=
  (hperm.pairwise_iff fun hne => hne.symm).mp h

theorem PathsDiffer.pairwise {α : Type} {path : α → Path} {items : List α}
    (h : PathsDiffer (items.map path)) : items.Pairwise fun a b => (path a).components ≠ (path b).components := by
  unfold PathsDiffer at h
  rwa [List.pairwise_map] at h

private theorem absorb_new {path : Path} {facts : Facts} {collected : Collected}
    (h : ∀ entry ∈ collected, entry.1.components ≠ path.components) :
    collected.absorb path facts = collected ++ [(path, facts)] := by
  induction collected with
  | nil => rfl
  | cons entry rest ih =>
    obtain ⟨other, old⟩ := entry
    have hother : ¬other.same path = true := fun hs => h _ List.mem_cons_self (Path.same_iff.mp hs)
    rw [Collected.absorb, if_neg hother, ih fun entry hentry => h entry (List.mem_cons_of_mem _ hentry)]
    rfl

/-- The entry of a unit in the map of facts. -/
def entryOf (unit : Origin × Facts) : Path × Facts := (unit.1.path, unit.2)

/-- Units at different paths are collected as they come. -/
theorem collect_eq_map {units : List (Origin × Facts)} (h : PathsDiffer (units.map (·.1.path))) :
    collect units = units.map entryOf := by
  induction units using List.reverseRecOn with
  | nil => rfl
  | append_singleton units unit ih =>
    rw [List.map_append] at h
    obtain ⟨hunits, _, hlast⟩ := List.pairwise_append.mp h
    have hnew : ∀ entry ∈ collect units, entry.1.components ≠ unit.1.path.components := by
      intro entry hentry
      rw [ih hunits] at hentry
      obtain ⟨u, hu, rfl⟩ := List.mem_map.mp hentry
      exact hlast u.1.path (List.mem_map.mpr ⟨u, hu, rfl⟩) unit.1.path List.mem_cons_self
    have hstep : collect (units ++ [unit]) = (collect units).absorb unit.1.path unit.2 := by
      simp [collect]
    rw [hstep, absorb_new hnew, ih hunits, List.map_append]
    rfl

/-- Where at most one part has anything to give, the order of the parts does not show. -/
theorem flatMap_eq_of_perm {α β : Type} {f : α → List β} {parts others : List α}
    (hperm : parts.Perm others) (h : parts.Pairwise fun a b => f a = [] ∨ f b = []) :
    parts.flatMap f = others.flatMap f := by
  induction hperm with
  | nil => rfl
  | cons a _ ih =>
    rw [List.flatMap_cons, List.flatMap_cons, ih (List.pairwise_cons.mp h).2]
  | swap a b rest =>
    have hab := (List.pairwise_cons.mp h).1 a List.mem_cons_self
    rcases hab with hb | ha <;> simp [*]
  | trans hfirst _ ih ih' =>
    have hmid := (hfirst.pairwise_iff fun {a b} (h : f a = [] ∨ f b = []) => h.symm).mp h
    rw [ih h, ih' hmid]

/-- Sorting the items of units at different paths, where tied items come from the same path. -/
theorem sortBy_flatMap_perm {α : Type} (order : α → α → Ordering) [TransCmp order] {origin : α → Origin}
    (hties : ∀ a b, order a b = .eq → (origin a).path.components = (origin b).path.components)
    {items : Facts → List α} {entries others : Collected} (hdiffer : PathsDiffer (entries.map Prod.fst))
    (hfound : ∀ e ∈ entries, ∀ a ∈ items e.2, (origin a).path.same e.1 = true)
    (hperm : entries.Perm others) :
    sortBy order ((entries.map Prod.snd).flatMap items) =
      sortBy order ((others.map Prod.snd).flatMap items) := by
  apply sortBy_congr
  intro x
  simp only [tiedWith, List.filter_flatMap, List.flatMap_map]
  apply flatMap_eq_of_perm hperm
  refine List.Pairwise.imp_of_mem ?_ hdiffer.pairwise
  intro u v hu hv hne
  by_contra hboth
  rw [not_or] at hboth
  obtain ⟨a, ha⟩ := List.exists_mem_of_ne_nil _ hboth.1
  obtain ⟨b, hb⟩ := List.exists_mem_of_ne_nil _ hboth.2
  obtain ⟨ha, hxa⟩ := (mem_tiedWith order).mp ha
  obtain ⟨hb, hxb⟩ := (mem_tiedWith order).mp hb
  have hab : (origin a).path.components = (origin b).path.components :=
    (hties x a hxa).symm.trans (hties x b hxb)
  have hua := Path.same_iff.mp (hfound u hu a ha)
  have hvb := Path.same_iff.mp (hfound v hv b hb)
  exact hne (hua.symm.trans (hab.trans hvb))

/-- The sorted facts of units at different paths do not depend on the order of the units. -/
theorem sorted_concat_perm {entries others : Collected} (hdiffer : PathsDiffer (entries.map Prod.fst))
    (hfound : ∀ e ∈ entries, e.2.FoundAt e.1) (hperm : entries.Perm others) :
    (Facts.concat (entries.map Prod.snd)).sorted = (Facts.concat (others.map Prod.snd)).sorted := by
  simp only [Facts.sorted, Facts.concat_events, Facts.concat_publications, Facts.concat_consumptions,
    Facts.concat_subscriptions]
  congr 1
  · exact sortBy_flatMap_perm _ (fun _ _ => path_eq_of_originFirst) hdiffer
      (fun e he => (hfound e he).events) hperm
  · exact sortBy_flatMap_perm _ (fun _ _ => path_eq_of_originFirst) hdiffer
      (fun e he => (hfound e he).publications) hperm
  · exact sortBy_flatMap_perm _ (fun _ _ => path_eq_of_originFirst) hdiffer
      (fun e he => (hfound e he).consumptions) hperm
  · exact sortBy_flatMap_perm _ (fun _ _ => path_eq_of_originFirst) hdiffer
      (fun e he => (hfound e he).subscriptions) hperm

/-- What the map of facts can hold, read in any order, after the units came in any order. -/
def Gathered (units : List (Origin × Facts)) (gathered : Collected) : Prop :=
  ∃ arrivals : List (Origin × Facts), arrivals.Perm units ∧ gathered.Perm (collect arrivals)

theorem Gathered.perm {units : List (Origin × Facts)} (hdiffer : PathsDiffer (units.map (·.1.path)))
    {gathered : Collected} (h : Gathered units gathered) : (units.map entryOf).Perm gathered := by
  obtain ⟨arrivals, harrivals, hgathered⟩ := h
  rw [collect_eq_map (hdiffer.perm (harrivals.symm.map _))] at hgathered
  exact (hgathered.trans (harrivals.map entryOf)).symm

/-- Two runs over the same units, with whatever order of arrivals and whatever order of reading the map,
report the same facts in the same places, facts that tie in the order of the report included. -/
theorem ofParts_schedule_independent (now now' : Timestamp) (count count' : Nat)
    {units : List (Origin × Facts)} (hdiffer : PathsDiffer (units.map (·.1.path)))
    (hfound : ∀ u ∈ units, u.2.FoundAt u.1.path) {gathered gathered' : Collected}
    (h : Gathered units gathered) (h' : Gathered units gathered') :
    (Report.ofParts now count (gathered.map Prod.snd)).toFacts =
        (Report.ofParts now' count' (gathered'.map Prod.snd)).toFacts ∧
      (Report.ofParts now count (gathered.map Prod.snd)).projectCount =
        (Report.ofParts now' count' (gathered'.map Prod.snd)).projectCount := by
  have hentries : PathsDiffer ((units.map entryOf).map Prod.fst) := by
    rw [List.map_map]
    exact hdiffer
  have hfound' : ∀ e ∈ units.map entryOf, e.2.FoundAt e.1 := by
    intro e he
    obtain ⟨u, hu, rfl⟩ := List.mem_map.mp he
    exact hfound u hu
  have hsorted : (Facts.concat (gathered.map Prod.snd)).sorted =
      (Facts.concat (gathered'.map Prod.snd)).sorted :=
    (sorted_concat_perm hentries hfound' (h.perm hdiffer)).symm.trans
      (sorted_concat_perm hentries hfound' (h'.perm hdiffer))
  exact ⟨hsorted, congrArg Facts.projectCount hsorted⟩

/-- A module whose two publications tie in the order of a report, and a source file beside it. -/
def tiedUnits : List (Origin × Facts) :=
  let compiled : Origin := ⟨"shop", "Shop", ⟨"shop/bin/Shop.module.json"⟩⟩
  let source : Origin := ⟨"shop", "Shop", ⟨"shop/Order.cs"⟩⟩
  [(compiled, { publications :=
      [{ event := "OrderPlaced", origin := compiled, className := "Cart", methodName := "Pay", position := 0 },
        { event := "OrderPlaced", origin := compiled, className := "Cart", methodName := "Book",
          position := 0 }] }),
    (source, { events := [{ name := "OrderPlaced", qualifiedName := "OrderPlaced", origin := source }] })]

theorem tiedUnits_reversed_report :
    (Report.ofParts (.ofEpoch 0) 1 ((collect tiedUnits).map Prod.snd)).toFacts =
        (Report.ofParts (.ofEpoch 5) 1 ((collect tiedUnits.reverse).reverse.map Prod.snd)).toFacts ∧
      (Report.ofParts (.ofEpoch 0) 1 ((collect tiedUnits).map Prod.snd)).projectCount =
        (Report.ofParts (.ofEpoch 5) 1 ((collect tiedUnits.reverse).reverse.map Prod.snd)).projectCount := by
  have hdiffer : PathsDiffer (tiedUnits.map (·.1.path)) := by
    unfold PathsDiffer
    decide
  have hfound : ∀ u ∈ tiedUnits, u.2.FoundAt u.1.path := by
    intro u hu
    constructor <;> revert u <;> decide
  have hsame : Gathered tiedUnits (collect tiedUnits) := ⟨tiedUnits, .refl _, .refl _⟩
  have hreversed : Gathered tiedUnits (collect tiedUnits.reverse).reverse :=
    ⟨tiedUnits.reverse, List.reverse_perm _, List.reverse_perm _⟩
  exact ofParts_schedule_independent _ _ 1 1 hdiffer hfound hsame hreversed

end Analysis

end EventAtlas
