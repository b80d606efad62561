import EventAtlas.Module.Basic

namespace EventAtlas.Module

/-- What is declared of a type: its name, its interfaces and its base. -/
structure TypeShape where
  name : String
  interfaces : List String := []
  baseType : Option String := none
  deriving DecidableEq, Repr

def TypeShape.supertypes (s : TypeShape) : List String := s.interfaces ++ s.baseType.toList

def TypeDef.shape (t : TypeDef) : TypeShape := ⟨t.fullName, t.interfaces, t.baseType⟩

/-- Types by name, as far as they are known, with all the names that their declarations mention. -/
structure TypeGraph where
  resolve? : String → Option TypeShape
  mentioned : List String
  supertypes_mentioned : ∀ {name shape}, resolve? name = some shape →
    ∀ s ∈ shape.supertypes, s ∈ mentioned

namespace TypeGraph

/-- The declared supertypes of a name, none if it is not known. -/
def supertypes (g : TypeGraph) (name : String) : List String :=
  match g.resolve? name with
  | some shape => shape.supertypes
  | none => []

/-- Whether a name is one of the targets by its simple name, or, not being known, holds one of them in
it. -/
def hits (g : TypeGraph) (targets : List String) (name : String) : Bool :=
  targets.any fun target => target ≠ "" && (target == simpleName name ||
    ((g.resolve? name).isNone && Text.occursIn target.toList (simpleName name).toList))

/-- The names other than the given one. -/
def without (name : String) (names : List String) : List String := names.filter (· ≠ name)

theorem length_without_lt {name : String} {names : List String} (h : name ∈ names) :
    (without name names).length < names.length :=
  List.length_filter_lt_length_iff_exists.mpr ⟨name, h, by simp⟩

/-- Whether the search from the queue hits a target. The names in `fresh` have not been visited. -/
def search (g : TypeGraph) (targets fresh : List String) : List String → Bool
  | [] => false
  | name :: queue =>
    if name ∈ fresh then
      g.hits targets name ||
        search g targets (without name fresh) (queue ++ g.supertypes name)
    else search g targets fresh queue
termination_by queue => (fresh.length, queue.length)
decreasing_by
  · exact Prod.Lex.left _ _ (length_without_lt ‹_›)
  · exact Prod.Lex.right _ (by simp)

/-- Whether a type is one of the targets, implements one or derives from one, through any number of
known types. -/
def reachesAny (g : TypeGraph) (name : String) (targets : List String) : Bool :=
  g.search targets (name :: g.mentioned) [name]

/-- The shape under a name, or else under its simple name. -/
def lookupShape (shapes : List (String × TypeShape)) (name : String) : Option TypeShape :=
  (shapes.lookup name).or (shapes.lookup (simpleName name))

theorem mem_of_lookup {shapes : List (String × TypeShape)} {name : String} {shape : TypeShape}
    (h : shapes.lookup name = some shape) : ∃ key, (key, shape) ∈ shapes := by
  obtain ⟨before, after, rfl, _⟩ := List.lookup_eq_some_iff.mp h
  exact ⟨name, by simp⟩

/-- The graph of shapes given by name. -/
def ofShapes (shapes : List (String × TypeShape)) : TypeGraph where
  resolve? := lookupShape shapes
  mentioned := shapes.flatMap (·.2.supertypes)
  supertypes_mentioned {name shape} h s hs := by
    have : ∃ key, (key, shape) ∈ shapes := by
      rcases Option.or_eq_some_iff.mp h with h | ⟨_, h⟩ <;> exact mem_of_lookup h
    obtain ⟨key, hk⟩ := this
    exact List.mem_flatMap.mpr ⟨_, hk, hs⟩

end TypeGraph

end EventAtlas.Module
