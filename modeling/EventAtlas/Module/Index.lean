import EventAtlas.Module.TypeGraph
import Std.Data.HashMap

namespace EventAtlas.Module

/-- The place of a type: the number of its module and its number there. -/
abbrev Place := Nat × Nat

/-- Places of types by full name and by simple name. -/
structure NameTables where
  byFullName : Std.HashMap String Place := {}
  bySimpleName : Std.HashMap String Place := {}

/-- Enters a type unless its names are taken. A generated type has no simple name of its own. -/
def NameTables.enter (tables : NameTables) (place : Place) (t : TypeDef) : NameTables where
  byFullName := tables.byFullName.insertIfNew t.fullName place
  bySimpleName :=
    if t.isGenerated then tables.bySimpleName
    else tables.bySimpleName.insertIfNew t.simpleName place

/-- All types with their places, in order. -/
def placedTypes (modules : List Module) : List (Place × TypeDef) :=
  modules.zipIdx.flatMap fun (m, i) => m.types.zipIdx.map fun (t, j) => ((i, j), t)

/-- The modules of a repository with an index of their types. -/
structure Index where
  modules : List Module
  tables : NameTables

namespace Index

/-- The index in which the first type of a name counts. -/
def ofModules (modules : List Module) : Index where
  modules
  tables := (placedTypes modules).foldl (fun tables (place, t) => tables.enter place t) {}

def typeAt? (index : Index) (place : Place) : Option TypeDef :=
  index.modules[place.1]?.bind fun m => m.types[place.2]?

/-- The type with a full name, or else with the same simple name. -/
def find? (index : Index) (name : String) : Option TypeDef :=
  ((index.tables.byFullName[name]?).or index.tables.bySimpleName[simpleName name]?).bind index.typeAt?

/-- The number of types that are known by full name. -/
def typeCount (index : Index) : Nat := index.tables.byFullName.size

theorem typeAt?_mem {index : Index} {place : Place} {t : TypeDef} (h : index.typeAt? place = some t) :
    ∃ m ∈ index.modules, t ∈ m.types := by
  obtain ⟨m, hm, ht⟩ := Option.bind_eq_some_iff.mp h
  exact ⟨m, List.mem_of_getElem? hm, List.mem_of_getElem? ht⟩

/-- The types of the modules as a graph. -/
def graph (index : Index) : TypeGraph where
  resolve? name := (index.find? name).map TypeDef.shape
  mentioned := index.modules.flatMap fun m => m.types.flatMap fun t => t.shape.supertypes
  supertypes_mentioned {name shape} h s hs := by
    obtain ⟨t, ht, rfl⟩ := Option.map_eq_some_iff.mp h
    obtain ⟨place, _, hp⟩ := Option.bind_eq_some_iff.mp ht
    obtain ⟨m, hm, hmem⟩ := typeAt?_mem hp
    exact List.mem_flatMap.mpr ⟨m, hm, List.mem_flatMap.mpr ⟨t, hmem, hs⟩⟩

end Index

end EventAtlas.Module
