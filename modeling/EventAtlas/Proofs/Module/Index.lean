import EventAtlas.Module.Index
import EventAtlas.Proofs.Report.Facts
import Mathlib.Data.List.Basic
import Std.Data.HashMap.Lemmas

namespace EventAtlas.Module

/-- All types of the modules, in order. -/
def typesOf (modules : List Module) : List TypeDef := modules.flatMap Module.types

/-- Plain search for a type: the first one with the full name, or else the first one that no compiler
generated and that has the same simple name. -/
def searchType? (modules : List Module) (name : String) : Option TypeDef :=
  ((typesOf modules).find? fun t => t.fullName == name).or
    ((typesOf modules).find? fun t => !t.isGenerated && t.simpleName == simpleName name)

/-- The type at a place, if the place is there. -/
def IsTypeAt (modules : List Module) (place : Place) (t : TypeDef) : Prop :=
  ∃ m, modules[place.1]? = some m ∧ m.types[place.2]? = some t

theorem isTypeAt_of_mem_placedTypes {modules : List Module} {place : Place} {t : TypeDef}
    (h : (place, t) ∈ placedTypes modules) : IsTypeAt modules place t := by
  obtain ⟨⟨m, i⟩, hm, hplaced⟩ := List.mem_flatMap.mp h
  obtain ⟨⟨t', j⟩, ht, heq⟩ := List.mem_map.mp hplaced
  obtain ⟨rfl, rfl⟩ := Prod.mk.inj heq
  have hmodule : modules[i]? = some m := List.mem_zipIdx_iff_getElem?.mp hm
  have htype : m.types[j]? = some t' := List.mem_zipIdx_iff_getElem?.mp ht
  exact ⟨m, hmodule, htype⟩

theorem placedTypes_types (modules : List Module) : (placedTypes modules).map Prod.snd = typesOf modules := by
  have hmodule (m : Module) (i : Nat) :
      (m.types.zipIdx.map fun x => ((i, x.2), x.1)).map Prod.snd = m.types := by
    rw [List.map_map]
    exact List.zipIdx_map_fst 0 m.types
  calc
    (placedTypes modules).map Prod.snd = modules.zipIdx.flatMap fun x => x.1.types := by
      unfold placedTypes
      rw [List.map_flatMap]
      exact List.flatMap_congr fun x _ => hmodule x.1 x.2
    _ = (modules.zipIdx.map Prod.fst).flatMap Module.types := (List.flatMap_map ..).symm
    _ = typesOf modules := by rw [List.zipIdx_map_fst, typesOf]

namespace NameTables

private theorem enter_byFullName (tables : NameTables) (place : Place) (t : TypeDef) (name : String) :
    (tables.enter place t).byFullName[name]? =
      (tables.byFullName[name]?).or (if t.fullName == name then some place else none) := by
  have henter : (tables.enter place t).byFullName = tables.byFullName.insertIfNew t.fullName place := rfl
  rw [henter, Std.HashMap.getElem?_insertIfNew]
  by_cases hname : t.fullName = name
  · subst hname
    by_cases hknown : t.fullName ∈ tables.byFullName
    · simp [hknown]
    · simp [hknown]
  · simp [hname]

private theorem enter_bySimpleName (tables : NameTables) (place : Place) (t : TypeDef) (name : String) :
    (tables.enter place t).bySimpleName[name]? =
      (tables.bySimpleName[name]?).or
        (if !t.isGenerated && t.simpleName == name then some place else none) := by
  by_cases hgenerated : t.isGenerated = true
  · simp [enter, hgenerated]
  · have henter : (tables.enter place t).bySimpleName = tables.bySimpleName.insertIfNew t.simpleName place := by
      simp [enter, hgenerated]
    rw [henter, Std.HashMap.getElem?_insertIfNew]
    by_cases hname : t.simpleName = name
    · subst hname
      by_cases hknown : t.simpleName ∈ tables.bySimpleName
      · simp [hknown]
      · simp [hknown, hgenerated]
    · simp [hname]

/-- A table to which every type adds its place only where nothing is holds the place of the first type. -/
theorem foldl_enter (entry : NameTables → Option Place) (p : TypeDef → Bool)
    (hstep : ∀ tables place t, entry (tables.enter place t) = (entry tables).or (if p t then some place else none))
    (placed : List (Place × TypeDef)) (tables : NameTables) :
    entry (placed.foldl (fun tables (place, t) => tables.enter place t) tables) =
      (entry tables).or ((placed.find? fun x => p x.2).map Prod.fst) := by
  induction placed generalizing tables with
  | nil => simp
  | cons first placed ih =>
    rw [List.foldl_cons, ih, hstep, Option.or_assoc, List.find?_cons]
    by_cases hp : p first.2 = true
    · simp [hp]
    · simp [hp]

end NameTables

namespace Index

/-- A full name is entered for the first type that has it. -/
theorem byFullName_ofModules (modules : List Module) (name : String) :
    (ofModules modules).tables.byFullName[name]? =
      ((placedTypes modules).find? fun x => x.2.fullName == name).map Prod.fst := by
  have hfold := NameTables.foldl_enter (fun tables => tables.byFullName[name]?) (fun t => t.fullName == name)
    (fun tables place t => tables.enter_byFullName place t name) (placedTypes modules) {}
  simpa [ofModules] using hfold

/-- A simple name is entered for the first type that has it and is not generated. -/
theorem bySimpleName_ofModules (modules : List Module) (name : String) :
    (ofModules modules).tables.bySimpleName[name]? =
      ((placedTypes modules).find? fun x => !x.2.isGenerated && x.2.simpleName == name).map Prod.fst := by
  have hfold := NameTables.foldl_enter (fun tables => tables.bySimpleName[name]?)
    (fun t => !t.isGenerated && t.simpleName == name)
    (fun tables place t => tables.enter_bySimpleName place t name) (placedTypes modules) {}
  simpa [ofModules] using hfold

theorem typeAt?_eq_some_iff {modules : List Module} {place : Place} {t : TypeDef} :
    (ofModules modules).typeAt? place = some t ↔ IsTypeAt modules place t :=
  Option.bind_eq_some_iff

/-- The place that is found among placed types leads to the type that is found among all types. -/
theorem typeAt?_find? (modules : List Module) (p : TypeDef → Bool) :
    (((placedTypes modules).find? fun x => p x.2).map Prod.fst).bind (ofModules modules).typeAt? =
      (typesOf modules).find? p := by
  rw [← placedTypes_types, List.find?_map]
  cases hfound : (placedTypes modules).find? fun x => p x.2 with
  | none =>
    have hnone : (placedTypes modules).find? (p ∘ Prod.snd) = none := hfound
    rw [hnone]
    rfl
  | some x =>
    have hsome : (placedTypes modules).find? (p ∘ Prod.snd) = some x := hfound
    have hplace := isTypeAt_of_mem_placedTypes (List.mem_of_find?_eq_some hfound)
    rw [hsome, Option.map_some, Option.map_some, Option.bind_some, typeAt?_eq_some_iff.mpr hplace]

private theorem find?_ofModules (modules : List Module) (name : String) :
    (ofModules modules).find? name = searchType? modules name := by
  unfold find? searchType?
  rw [byFullName_ofModules, bySimpleName_ofModules,
    ← typeAt?_find? modules fun t => t.fullName == name,
    ← typeAt?_find? modules fun t => !t.isGenerated && t.simpleName == simpleName name]
  cases hfull : (placedTypes modules).find? fun x => x.2.fullName == name with
  | none => simp
  | some x =>
    have hplace := isTypeAt_of_mem_placedTypes (List.mem_of_find?_eq_some hfull)
    simp [typeAt?_eq_some_iff.mpr hplace]

private theorem mem_byFullName_ofModules (modules : List Module) (name : String) :
    name ∈ (ofModules modules).tables.byFullName ↔ name ∈ (typesOf modules).map TypeDef.fullName := by
  rw [Std.HashMap.mem_iff_isSome_getElem?, byFullName_ofModules, Option.isSome_map, List.find?_isSome,
    ← placedTypes_types]
  simp

private theorem typeCount_ofModules (modules : List Module) :
    (ofModules modules).typeCount = ((typesOf modules).map TypeDef.fullName).eraseDups.length := by
  have hperm : (ofModules modules).tables.byFullName.keys.Perm
      ((typesOf modules).map TypeDef.fullName).eraseDups := by
    rw [List.perm_ext_iff_of_nodup Std.HashMap.nodup_keys (nodup_eraseDups _)]
    intro name
    rw [Std.HashMap.mem_keys, mem_byFullName_ofModules, List.mem_eraseDups]
  rw [typeCount, ← Std.HashMap.length_keys, hperm.length_eq]

end Index

private theorem searchType?_name {modules : List Module} {name : String} {t : TypeDef}
    (h : searchType? modules name = some t) : t.fullName = name ∨ t.simpleName = simpleName name := by
  rcases Option.or_eq_some_iff.mp h with hfull | ⟨-, hsimple⟩
  · left
    simpa using List.find?_some hfull
  · right
    have hfound := List.find?_some hsimple
    simp only [Bool.and_eq_true, beq_iff_eq] at hfound
    exact hfound.2

/-- The index of modules answers as plain search through their types does: a full name counts before a
simple one, and the first type of a name before later ones. Every place it keeps is there. -/
theorem resolve?_eq_searchType? (modules : List Module) :
    (∀ name, (Index.ofModules modules).graph.resolve? name = (searchType? modules name).map TypeDef.shape) ∧
    (∀ name place, (Index.ofModules modules).tables.byFullName[name]? = some place →
      ∃ t, IsTypeAt modules place t ∧ t.fullName = name) ∧
    (∀ name place, (Index.ofModules modules).tables.bySimpleName[name]? = some place →
      ∃ t, IsTypeAt modules place t ∧ t.simpleName = name ∧ t.isGenerated = false) ∧
    (Index.ofModules modules).typeCount = ((typesOf modules).map TypeDef.fullName).eraseDups.length ∧
    ∀ name shape, (Index.ofModules modules).graph.resolve? name = some shape →
      shape.name = name ∨ simpleName shape.name = simpleName name := by
  have hresolve (name : String) :
      (Index.ofModules modules).graph.resolve? name = (searchType? modules name).map TypeDef.shape :=
    congrArg (Option.map TypeDef.shape) (Index.find?_ofModules modules name)
  refine ⟨hresolve, ?_, ?_, Index.typeCount_ofModules modules, ?_⟩
  · intro name place h
    rw [Index.byFullName_ofModules] at h
    obtain ⟨x, hx, rfl⟩ := Option.map_eq_some_iff.mp h
    have hname := List.find?_some hx
    exact ⟨x.2, isTypeAt_of_mem_placedTypes (List.mem_of_find?_eq_some hx), beq_iff_eq.mp hname⟩
  · intro name place h
    rw [Index.bySimpleName_ofModules] at h
    obtain ⟨x, hx, rfl⟩ := Option.map_eq_some_iff.mp h
    have hname := List.find?_some hx
    simp only [Bool.and_eq_true, Bool.not_eq_true', beq_iff_eq] at hname
    exact ⟨x.2, isTypeAt_of_mem_placedTypes (List.mem_of_find?_eq_some hx), hname.2, hname.1⟩
  · intro name shape h
    rw [hresolve] at h
    obtain ⟨t, ht, rfl⟩ := Option.map_eq_some_iff.mp h
    exact searchType?_name ht

/-- Two modules in which a generated type, types of other namespaces and a repeated type share a simple
name. -/
def orderModules : List Module :=
  [{ name := "Shop", types := [{ fullName := "Shop.Order/<Place>d__1" }, { fullName := "Shop.Order" }] },
    { name := "Bank", types := [{ fullName := "Bank.Order`1" }, { fullName := "Shop.Order", interfaces := ["IOrder"] }] }]

theorem orderModules_resolved :
    (Index.ofModules orderModules).graph.resolve? "Bank.Order`1" = some ⟨"Bank.Order`1", [], none⟩ ∧
      (Index.ofModules orderModules).graph.resolve? "Mail.Order" = some ⟨"Shop.Order", [], none⟩ ∧
      (Index.ofModules orderModules).typeCount = 3 ∧ simpleName "Shop.Order" = simpleName "Mail.Order" := by
  obtain ⟨hresolve, -, -, hcount, hname⟩ := resolve?_eq_searchType? orderModules
  have hmail : (Index.ofModules orderModules).graph.resolve? "Mail.Order" = some ⟨"Shop.Order", [], none⟩ := by
    rw [hresolve]
    decide +kernel
  refine ⟨?_, hmail, ?_, ?_⟩
  · rw [hresolve]
    decide +kernel
  · rw [hcount]
    decide +kernel
  · have hcases := hname _ _ hmail
    exact hcases.resolve_left (by decide)

end EventAtlas.Module
