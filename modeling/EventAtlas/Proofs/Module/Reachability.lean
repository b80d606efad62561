import EventAtlas.Module.TypeGraph
import EventAtlas.Proofs.Text.Search
import Mathlib.Logic.Relation

namespace EventAtlas.Module.TypeGraph

open Relation

/-- A step from a known type to an interface or the base that its shape declares. -/
def Declares (g : TypeGraph) (m n : String) : Prop :=
  ∃ shape, g.resolve? m = some shape ∧ (n ∈ shape.interfaces ∨ shape.baseType = some n)

/-- Zero or more steps. -/
def Reaches (g : TypeGraph) : String → String → Prop := ReflTransGen g.Declares

/-- Whether a name stands for a target: by its simple name, or, not being known, by a part of it. -/
def Meets (g : TypeGraph) (target name : String) : Prop :=
  simpleName name = target ∨
    (g.resolve? name = none ∧ target.toList <:+: (simpleName name).toList)

/-- Two graphs that know the same names and declare the same steps, in whatever order and number. -/
def SameDeclarations (g h : TypeGraph) : Prop :=
  ∀ m, (g.resolve? m = none ↔ h.resolve? m = none) ∧ ∀ n, g.Declares m n ↔ h.Declares m n

theorem declares_iff (g : TypeGraph) (m n : String) : g.Declares m n ↔ n ∈ g.supertypes m := by
  unfold Declares supertypes
  cases h : g.resolve? m with
  | none => simp
  | some shape => simp [TypeShape.supertypes]

private theorem mem_mentioned (g : TypeGraph) {m n : String} (h : g.Declares m n) : n ∈ g.mentioned := by
  obtain ⟨shape, hshape, hn⟩ := h
  refine g.supertypes_mentioned hshape n ?_
  rcases hn with hn | hn <;> simp [TypeShape.supertypes, hn]

theorem hits_iff (g : TypeGraph) (targets : List String) (name : String) :
    g.hits targets name = true ↔ ∃ t ∈ targets, t ≠ "" ∧ g.Meets t name := by
  simp only [hits, Meets, List.any_eq_true, Bool.and_eq_true, Bool.or_eq_true, decide_eq_true_eq,
    beq_iff_eq, Option.isNone_iff_eq_none, Text.occursIn_iff, @eq_comm _ (simpleName name)]

/-- A step to a name that has not been visited. -/
def FreshStep (g : TypeGraph) (fresh : List String) (m n : String) : Prop :=
  g.Declares m n ∧ n ∈ fresh

theorem FreshStep.of_without {g : TypeGraph} {fresh : List String} {name m n : String}
    (h : g.FreshStep (without name fresh) m n) : g.FreshStep fresh m n :=
  ⟨h.1, List.mem_of_mem_filter h.2⟩

/-- The names that fresh steps reach from a queue. -/
def FreshlyReached (g : TypeGraph) (fresh queue : List String) (m : String) : Prop :=
  ∃ n ∈ queue, n ∈ fresh ∧ ReflTransGen (g.FreshStep fresh) n m

private theorem freshlyReached_cons_of_not_mem (g : TypeGraph) {fresh queue : List String} {name : String}
    (hname : name ∉ fresh) (m : String) :
    g.FreshlyReached fresh (name :: queue) m ↔ g.FreshlyReached fresh queue m := by
  constructor
  · rintro ⟨n, hn, hfresh, hpath⟩
    rcases List.mem_cons.mp hn with rfl | hn
    · exact absurd hfresh hname
    · exact ⟨n, hn, hfresh, hpath⟩
  · rintro ⟨n, hn, hfresh, hpath⟩
    exact ⟨n, List.mem_cons_of_mem _ hn, hfresh, hpath⟩

/-- A visit trades the name at the head of the queue for its supertypes. What the name led to before is
reached from them without passing through it again. -/
theorem freshlyReached_cons_of_mem (g : TypeGraph) {fresh queue : List String} {name : String}
    (hname : name ∈ fresh) (m : String) :
    g.FreshlyReached fresh (name :: queue) m ↔
      m = name ∨ g.FreshlyReached (without name fresh) (queue ++ g.supertypes name) m := by
  constructor
  · rintro ⟨n, hn, hfresh, hpath⟩
    -- Along the path: behind its last visit to `name` it starts at a supertype and avoids `name`.
    induction hpath with
    | refl =>
      by_cases he : n = name
      · exact .inl he
      · have hq : n ∈ queue := (List.mem_cons.mp hn).resolve_left he
        exact .inr ⟨n, List.mem_append_left _ hq, by simp [without, hfresh, he], .refl⟩
    | @tail b c _ hstep ih =>
      by_cases he : c = name
      · exact .inl he
      · have hc : c ∈ without name fresh := by simp [without, hstep.2, he]
        rcases ih with rfl | ⟨n', hn', hfresh', hpath'⟩
        · have hs : c ∈ g.supertypes b := (g.declares_iff b c).mp hstep.1
          exact .inr ⟨c, List.mem_append_right _ hs, hc, .refl⟩
        · exact .inr ⟨n', hn', hfresh', hpath'.tail ⟨hstep.1, hc⟩⟩
  · rintro (rfl | ⟨n, hn, hfresh, hpath⟩)
    · exact ⟨m, List.mem_cons_self, hname, .refl⟩
    · have hpath' : ReflTransGen (g.FreshStep fresh) n m :=
        ReflTransGen.mono (fun _ _ h => FreshStep.of_without h) _ _ hpath
      have hfresh' : n ∈ fresh := List.mem_of_mem_filter hfresh
      rcases List.mem_append.mp hn with hn | hn
      · exact ⟨n, List.mem_cons_of_mem _ hn, hfresh', hpath'⟩
      · have hstep : g.FreshStep fresh name n := ⟨(g.declares_iff name n).mpr hn, hfresh'⟩
        exact ⟨name, List.mem_cons_self, hname, hpath'.head hstep⟩

/-- The search finds a target exactly if fresh steps from the queue do. -/
theorem search_iff (g : TypeGraph) (targets fresh queue : List String) :
    g.search targets fresh queue = true ↔
      ∃ m, g.FreshlyReached fresh queue m ∧ g.hits targets m = true := by
  induction fresh, queue using search.induct g with
  | case1 fresh => simp [search, FreshlyReached]
  | case2 fresh name queue hname ih =>
    rw [search, if_pos hname, Bool.or_eq_true, ih]
    simp only [g.freshlyReached_cons_of_mem hname, or_and_right, exists_or, exists_eq_left]
  | case3 fresh name queue hname ih =>
    rw [search, if_neg hname, ih]
    simp only [g.freshlyReached_cons_of_not_mem hname]

/-- At the start every step is fresh. -/
theorem freshlyReached_start (g : TypeGraph) (name m : String) :
    g.FreshlyReached (name :: g.mentioned) [name] m ↔ g.Reaches name m := by
  have hstep : g.FreshStep (name :: g.mentioned) = g.Declares := by
    funext a b
    apply propext
    constructor
    · exact fun h => h.1
    · exact fun h => ⟨h, List.mem_cons_of_mem _ (g.mem_mentioned h)⟩
  simp [FreshlyReached, Reaches, hstep]

/-- The search meets a target exactly if a path of declared supertypes leads to it. -/
theorem reachesAny_iff (g : TypeGraph) (name : String) (targets : List String) :
    g.reachesAny name targets = true ↔
      ∃ t ∈ targets, t ≠ "" ∧ ∃ m, g.Reaches name m ∧ g.Meets t m := by
  rw [reachesAny, search_iff]
  simp only [g.freshlyReached_start, hits_iff]
  constructor
  · rintro ⟨m, hm, t, ht, hne, hmeets⟩
    exact ⟨t, ht, hne, m, hm, hmeets⟩
  · rintro ⟨t, ht, hne, m, hm, hmeets⟩
    exact ⟨m, hm, t, ht, hne, hmeets⟩

theorem SameDeclarations.reaches {g h : TypeGraph} (same : g.SameDeclarations h) {m n : String}
    (hpath : g.Reaches m n) : h.Reaches m n :=
  ReflTransGen.mono (fun a b => ((same a).2 b).mp) _ _ hpath

theorem SameDeclarations.meets {g h : TypeGraph} (same : g.SameDeclarations h) {target name : String}
    (hmeets : g.Meets target name) : h.Meets target name :=
  hmeets.imp_right fun ⟨hnone, hpart⟩ => ⟨(same name).1.mp hnone, hpart⟩

theorem SameDeclarations.symm {g h : TypeGraph} (same : g.SameDeclarations h) : h.SameDeclarations g :=
  fun m => ⟨(same m).1.symm, fun n => ((same m).2 n).symm⟩

/-- More targets and the same declarations keep a hit. -/
theorem reachesAny_mono {g h : TypeGraph} (same : g.SameDeclarations h) {targets more : List String}
    (hsub : targets ⊆ more) {name : String} (hg : g.reachesAny name targets = true) :
    h.reachesAny name more = true := by
  obtain ⟨t, ht, hne, m, hpath, hmeets⟩ := (g.reachesAny_iff name targets).mp hg
  exact (h.reachesAny_iff name more).mpr ⟨t, hsub ht, hne, m, same.reaches hpath, same.meets hmeets⟩

/-- The search on any graph, with cycles and unknown names as they come, answers whether some name that
can be reached meets a target. So neither the order nor the number of declarations and targets matters. -/
theorem reachesAny_iff_reaches (g : TypeGraph) (name : String) (targets : List String) :
    (g.reachesAny name targets = true ↔
      ∃ t ∈ targets, t ≠ "" ∧ ∃ m, g.Reaches name m ∧ g.Meets t m) ∧
    ∀ (h : TypeGraph) (targets' : List String), g.SameDeclarations h →
      (∀ t, t ∈ targets ↔ t ∈ targets') → h.reachesAny name targets' = g.reachesAny name targets := by
  refine ⟨g.reachesAny_iff name targets, ?_⟩
  intro h targets' same htargets
  rw [Bool.eq_iff_iff]
  constructor
  · exact reachesAny_mono same.symm fun t => (htargets t).mpr
  · exact reachesAny_mono same fun t => (htargets t).mp

/-- Two types that declare each other, and a name that is not known. -/
def cycle : TypeGraph :=
  ofShapes [("Order", { name := "Order", interfaces := ["ILeft", "Lib.IBusProxy"] }),
    ("ILeft", { name := "ILeft", baseType := some "Order" })]

/-- The same types with their declarations in another order and repeated. -/
def shuffledCycle : TypeGraph :=
  ofShapes [("ILeft", { name := "ILeft", interfaces := ["Order", "Order"] }),
    ("Order", { name := "Order", interfaces := ["Lib.IBusProxy", "ILeft"], baseType := some "ILeft" })]

theorem cycle_sameDeclarations : cycle.SameDeclarations shuffledCycle := by
  have hkeys (n : String) : n = "Order" ∨ n = "ILeft" ∨
      ((n == "Order") = false ∧ (n == "ILeft") = false) := by
    simp only [beq_eq_false_iff_ne]
    tauto
  intro m
  simp only [declares_iff, supertypes, cycle, shuffledCycle, ofShapes, lookupShape]
  rcases hkeys m with rfl | rfl | ⟨ho, hl⟩
  · simp [List.lookup_cons, List.lookup_nil, TypeShape.supertypes, or_comm]
  · simp [List.lookup_cons, List.lookup_nil, TypeShape.supertypes]
  · simp only [List.lookup_cons, List.lookup_nil, ho, hl, Option.none_or]
    rcases hkeys (simpleName m) with h | h | ⟨ho', hl'⟩
    · simp [h, TypeShape.supertypes, or_comm]
    · simp [h, TypeShape.supertypes]
    · simp [ho', hl']

private theorem cycle_reaches : cycle.Reaches "ILeft" "Lib.IBusProxy" := by
  have hfirst : cycle.Declares "ILeft" "Order" := (declares_iff _ _ _).mpr (by decide)
  have hsecond : cycle.Declares "Order" "Lib.IBusProxy" := (declares_iff _ _ _).mpr (by decide)
  exact .tail (.single hfirst) hsecond

theorem shuffledCycle_reachesAny :
    cycle.SameDeclarations shuffledCycle ∧
      shuffledCycle.reachesAny "ILeft" ["IBus", "", "IQueue", "IBus"] = true := by
  have hmeets : cycle.Meets "IBus" "Lib.IBusProxy" := .inr ⟨by decide, by decide⟩
  have hspec := reachesAny_iff_reaches cycle "ILeft" ["", "IQueue", "IBus"]
  have hcycle := hspec.1.mpr ⟨"IBus", by simp, by simp, "Lib.IBusProxy", cycle_reaches, hmeets⟩
  refine ⟨cycle_sameDeclarations, ?_⟩
  rw [hspec.2 shuffledCycle _ cycle_sameDeclarations (by simp)]
  exact hcycle

end EventAtlas.Module.TypeGraph
