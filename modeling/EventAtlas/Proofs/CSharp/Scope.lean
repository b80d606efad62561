import EventAtlas.Proofs.CSharp.Methods
import EventAtlas.Source.Document

namespace EventAtlas.CSharp

open Text

/-- The name that the last of the lines that tell one tells. -/
def LastTold (Tells : List Char → List Char → Prop) (lines : List (List Char)) : Option String → Prop
  | none => ∀ line ∈ lines, ∀ name, ¬Tells line name
  | some name => ∃ earlier line later, lines = earlier ++ line :: later ∧ Tells line name.toList ∧
      ∀ other ∈ later, ∀ name', ¬Tells other name'

namespace LastTold

variable {Tells : List Char → List Char → Prop} {lines : List (List Char)} {line : List Char}

theorem nil : LastTold Tells [] none := by
  intro line hline
  cases hline

theorem write {name : String} (h : Tells line name.toList) : LastTold Tells (lines ++ [line]) (some name) :=
  ⟨lines, line, [], rfl, h, fun _ hother => by cases hother⟩

theorem skip {found : Option String} (h : ∀ name, ¬Tells line name) (hlines : LastTold Tells lines found) :
    LastTold Tells (lines ++ [line]) found := by
  cases found with
  | none =>
    intro other hother
    rcases List.mem_append.mp hother with hmem | hlast
    · exact hlines other hmem
    · rwa [List.mem_singleton.mp hlast]
  | some name =>
    obtain ⟨earlier, found, later, rfl, htells, hlater⟩ := hlines
    refine ⟨earlier, found, later ++ [line], by simp, htells, ?_⟩
    intro other hother
    rcases List.mem_append.mp hother with hmem | hlast
    · exact hlater other hmem
    · rwa [List.mem_singleton.mp hlast]

theorem exists_tells {name : String} (h : LastTold Tells lines (some name)) : ∃ line, Tells line name.toList := by
  obtain ⟨-, line, -, -, htells, -⟩ := h
  exact ⟨line, htells⟩

end LastTold

/-- A line that declares a type and opens no namespace. -/
def IsTypeLine (line type : List Char) : Prop := DeclaresType line type ∧ ∀ name, ¬OpensNamespace line name

/-- A line that starts a method, declares no type and opens no namespace. -/
def IsMethodLine (line method : List Char) : Prop :=
  StartsMethod line method ∧ (∀ type, ¬DeclaresType line type) ∧ ∀ name, ¬OpensNamespace line name

namespace Scope

/-- The scope holds what the lines so far told last: the namespace, the type and the method. -/
structure Tracks (scope : Scope) (lines : List (List Char)) : Prop where
  namespaceName : LastTold OpensNamespace lines scope.namespaceName
  typeName : LastTold IsTypeLine lines scope.typeName
  methodName : LastTold IsMethodLine lines scope.methodName

/-- What the names in a scope are made of. -/
structure WellSpelled (scope : Scope) : Prop where
  namespaceName : ∀ name ∈ scope.namespaceName, name ≠ "" ∧ ∀ c ∈ name.toList, isWord c = true ∨ c = '.'
  typeName : ∀ type ∈ scope.typeName, IsPlainName type
  methodName : ∀ method ∈ scope.methodName, IsPlainName method

/-- A line puts a new name in one of the three places, or it tells nothing. -/
theorem advance_cases (scope : Scope) (line : List Char) :
    (∃ name : String, OpensNamespace line name.toList ∧
        scope.advance line = { scope with namespaceName := some name }) ∨
      (∃ type : String, IsTypeLine line type.toList ∧ scope.advance line = { scope with typeName := some type }) ∨
      (∃ method : String, IsMethodLine line method.toList ∧
        scope.advance line = { scope with methodName := some method }) ∨
      ((∀ name, ¬OpensNamespace line name) ∧ (∀ type, ¬IsTypeLine line type) ∧ (∀ method, ¬IsMethodLine line method) ∧
        scope.advance line = scope) := by
  unfold advance
  split
  · rename_i name hname
    refine .inl ⟨String.ofList name, ?_, rfl⟩
    rw [String.toList_ofList]
    exact namespaceClause_eq_some_iff.mp hname
  · rename_i hnone
    have hnamespace : ∀ name, ¬OpensNamespace line name := by
      intro name hopens
      rw [namespaceClause_eq_some_iff.mpr hopens] at hnone
      cases hnone
    right
    split
    · rename_i type htype
      exact .inl ⟨type, ⟨declaredType_eq_some_iff.mp htype, hnamespace⟩, rfl⟩
    · rename_i hnone
      have htype : ∀ type, ¬DeclaresType line type := by
        intro type hdeclares
        rw [← String.toList_ofList (l := type)] at hdeclares
        rw [declaredType_eq_some_iff.mpr hdeclares] at hnone
        cases hnone
      right
      split
      · rename_i method hmethod
        refine .inl ⟨String.ofList method, ?_, rfl⟩
        rw [String.toList_ofList]
        exact ⟨methodClause_eq_some_iff.mp hmethod, htype, hnamespace⟩
      · rename_i hnone
        refine .inr ⟨hnamespace, fun type h => htype type h.1, ?_, rfl⟩
        intro method hmethod
        rw [methodClause_eq_some_iff.mpr hmethod.1] at hnone
        cases hnone

/-- A scope that holds what was told last does so after the next line. -/
theorem Tracks.advance {scope : Scope} {lines : List (List Char)} (h : scope.Tracks lines) (line : List Char) :
    (scope.advance line).Tracks (lines ++ [line]) := by
  rcases scope.advance_cases line with ⟨name, hopens, hnext⟩ | ⟨type, htype, hnext⟩ | ⟨method, hmethod, hnext⟩ |
    ⟨hnamespace, htype, hmethod, hnext⟩
  · have hother : ¬∀ name, ¬OpensNamespace line name := fun hnone => hnone _ hopens
    rw [hnext]
    exact ⟨.write hopens, h.typeName.skip fun _ htype => hother htype.2,
      h.methodName.skip fun _ hmethod => hother hmethod.2.2⟩
  · rw [hnext]
    exact ⟨h.namespaceName.skip htype.2, .write htype, h.methodName.skip fun _ hmethod => hmethod.2.1 _ htype.1⟩
  · rw [hnext]
    exact ⟨h.namespaceName.skip hmethod.2.2, h.typeName.skip fun _ htype => hmethod.2.1 _ htype.1, .write hmethod⟩
  · rw [hnext]
    exact ⟨h.namespaceName.skip hnamespace, h.typeName.skip htype, h.methodName.skip hmethod⟩

theorem tracks_nil : Tracks {} [] := ⟨.nil, .nil, .nil⟩

theorem after_cons (scope : Scope) (line : List Char) (rest : List (List Char)) :
    scope.after (line :: rest) = scope.advance line :: (scope.advance line).after rest := rfl

/-- What holds of the scope after the lines that were seen goes on to hold after each line that follows. -/
theorem Tracks.after {scope : Scope} {seen : List (List Char)} (h : scope.Tracks seen) {lines : List (List Char)}
    {k : Nat} {reached : Scope} (hreached : (scope.after lines)[k]? = some reached) :
    reached.Tracks (seen ++ lines.take (k + 1)) := by
  induction lines generalizing scope seen k with
  | nil => cases hreached
  | cons line rest ih =>
    rw [after_cons] at hreached
    cases k with
    | zero =>
      obtain rfl : scope.advance line = reached := by simpa using hreached
      simpa using h.advance line
    | succ k =>
      rw [List.getElem?_cons_succ] at hreached
      have hrest := ih (h.advance line) hreached
      rwa [List.append_assoc, List.singleton_append, ← List.take_succ_cons] at hrest

/-- The scopes that go with the lines of a unit are those that its lines lead through. -/
theorem map_scope_scopedFrom (place : Nat) (scope : Scope) (lines : List (List Char)) :
    (Source.scopedFrom place scope lines).map Source.ScopedLine.scope = scope.after lines := by
  induction lines generalizing place scope with
  | nil => rfl
  | cons line rest ih =>
    rw [after_cons, ← ih (place + 1)]
    rfl

private theorem length_after (scope : Scope) (lines : List (List Char)) :
    (scope.after lines).length = lines.length := by
  induction lines generalizing scope with
  | nil => rfl
  | cons line rest ih => rw [after_cons, List.length_cons, ih, List.length_cons]

/-- The names in a scope are spelled as the patterns read them. -/
theorem Tracks.wellSpelled {scope : Scope} {lines : List (List Char)} (h : scope.Tracks lines) :
    scope.WellSpelled where
  namespaceName name hname := by
    have htold := h.namespaceName
    rw [hname] at htold
    obtain ⟨line, start, next, stop, -, -, -, hne, hall, -⟩ := htold.exists_tells
    refine ⟨fun hempty => hne (by simp [hempty]), ?_⟩
    intro c hc
    simpa [isNamespaceChar] using hall c hc
  typeName type htype := by
    have htold := h.typeName
    rw [htype] at htold
    obtain ⟨line, hdeclared, -⟩ := htold.exists_tells
    exact hdeclared.spelled
  methodName method hmethod := by
    have htold := h.methodName
    rw [hmethod] at htold
    obtain ⟨line, ⟨start, -, ⟨c', hname, -⟩, -⟩, -⟩ := htold.exists_tells
    exact hname.spelled

/-- The scopes that go with the lines of a unit are those after each line in turn. After each line the scope holds the
namespace, the type and the method that the lines so far told last. A line counts as a namespace before it counts as a
type, and as a type before it counts as a method, so it changes one of the three at most. -/
theorem after_tracks (lines : List (List Char)) :
    (Source.scopedLines lines).map Source.ScopedLine.scope = Scope.after {} lines ∧
      (Scope.after {} lines).length = lines.length ∧
      (∀ (k : Nat) (scope : Scope), (Scope.after {} lines)[k]? = some scope →
        scope.Tracks (lines.take (k + 1)) ∧ scope.WellSpelled) ∧
      ∀ (scope : Scope) (line : List Char),
        (scope.advance line).typeName = scope.typeName ∧ (scope.advance line).methodName = scope.methodName ∨
        (scope.advance line).namespaceName = scope.namespaceName ∧
          (scope.advance line).methodName = scope.methodName ∨
        (scope.advance line).namespaceName = scope.namespaceName ∧
          (scope.advance line).typeName = scope.typeName := by
  refine ⟨map_scope_scopedFrom 0 {} lines, length_after {} lines, ?_, ?_⟩
  · intro k scope hscope
    have htracks := tracks_nil.after hscope
    exact ⟨htracks, htracks.wellSpelled⟩
  · intro scope line
    rcases scope.advance_cases line with ⟨_, -, hnext⟩ | ⟨_, -, hnext⟩ | ⟨_, -, hnext⟩ | ⟨-, -, -, hnext⟩
    · exact .inl (by simp [hnext])
    · exact .inr (.inl (by simp [hnext]))
    · exact .inr (.inr (by simp [hnext]))
    · exact .inl (by simp [hnext])

/-- A namespace line that holds a type declaration, a type line that is also the head of a method, and a method whose
head can be read in two ways. -/
def overlappingLines : List (List Char) :=
  ["namespace Shop.Web; class Cart".toList, "  public record Line(int N);".toList,
    "  static Pair<Line Place<Cart> ()".toList]

theorem overlappingLines_tracked :
    Tracks { namespaceName := some "Shop.Web", typeName := some "Line", methodName := some "Place" }
      overlappingLines := by
  have hscope : (Scope.after {} overlappingLines)[2]? =
      some { namespaceName := some "Shop.Web", typeName := some "Line", methodName := some "Place" } := by
    decide +kernel
  exact ((after_tracks overlappingLines).2.2.1 2 _ hscope).1

end Scope

end EventAtlas.CSharp
