import EventAtlas.Module.Publications
import EventAtlas.Proofs.Text.Search

namespace EventAtlas.Module

open Text

/-- One generated segment behind the name of its owner. -/
def GeneratedFor (owner name : List Char) : Prop :=
  owner ≠ [] ∧ ∃ mark rest, isNestingMark mark = true ∧ ('<' :: rest).any isNestingMark = false ∧
    name = owner ++ mark :: '<' :: rest

theorem GeneratedFor.length_lt {owner name : List Char} (h : GeneratedFor owner name) :
    owner.length < name.length := by
  obtain ⟨-, mark, rest, -, -, rfl⟩ := h
  rw [List.length_append, List.length_cons]
  omega

theorem stripGenerated_succ {owner name : List Char} (h : GeneratedFor owner name) (count : Nat) :
    stripGenerated (count + 1) name = stripGenerated count owner := by
  obtain ⟨howner, mark, rest, hmark, hflat, rfl⟩ := h
  have hsplit := splitLast?_append owner mark ('<' :: rest) hmark hflat
  cases owner with
  | nil => exact absurd rfl howner
  | cons c owner =>
    rw [stripGenerated, hsplit]
    rfl

theorem stripGenerated_of_plain {name : List Char} (h : ∀ owner, ¬GeneratedFor owner name) (count : Nat) :
    stripGenerated count name = name := by
  cases count with
  | zero => rfl
  | succ count =>
    rw [stripGenerated]
    split
    · rename_i c owner rest hsplit
      obtain ⟨mark, hmark, hflat, hname⟩ := eq_append_of_splitLast? hsplit
      exact absurd ⟨List.cons_ne_nil _ _, mark, rest, hmark, hflat, hname⟩ (h (c :: owner))
    · rfl

/-- As many steps as the name has characters strip all there is to strip. -/
theorem stripGenerated_eq_sourceTypeName {name : List Char} {count : Nat} (hcount : name.length ≤ count) :
    stripGenerated count name = sourceTypeName name := by
  induction hlength : name.length using Nat.strong_induction_on generalizing name count with
  | _ length ih =>
    by_cases hgenerated : ∃ owner, GeneratedFor owner name
    · obtain ⟨owner, howner⟩ := hgenerated
      have hshorter := howner.length_lt
      obtain ⟨more, rfl⟩ : ∃ more, count = more + 1 := ⟨count - 1, by omega⟩
      obtain ⟨bound, hbound⟩ : ∃ bound, name.length = bound + 1 := ⟨name.length - 1, by omega⟩
      rw [sourceTypeName, hbound, stripGenerated_succ howner, stripGenerated_succ howner,
        ih _ (hlength ▸ hshorter) (by omega) rfl, ih _ (hlength ▸ hshorter) (by omega) rfl]
    · have hplain := not_exists.mp hgenerated
      rw [sourceTypeName, stripGenerated_of_plain hplain, stripGenerated_of_plain hplain]

theorem sourceTypeName_of_generatedFor {owner name : List Char} (h : GeneratedFor owner name) :
    sourceTypeName name = sourceTypeName owner := by
  have hshorter := h.length_lt
  obtain ⟨bound, hbound⟩ : ∃ bound, name.length = bound + 1 := ⟨name.length - 1, by omega⟩
  rw [sourceTypeName, hbound, stripGenerated_succ h]
  exact stripGenerated_eq_sourceTypeName (by omega)

theorem sourceTypeName_of_plain {name : List Char} (h : ∀ owner, ¬GeneratedFor owner name) :
    sourceTypeName name = name :=
  stripGenerated_of_plain h _

/-- Nothing generated is left at the end of a source name, which is no longer than the name. -/
theorem sourceTypeName_settled (name : List Char) :
    (∀ owner, ¬GeneratedFor owner (sourceTypeName name)) ∧ (sourceTypeName name).length ≤ name.length := by
  induction hlength : name.length using Nat.strong_induction_on generalizing name with
  | _ length ih =>
    by_cases hgenerated : ∃ owner, GeneratedFor owner name
    · obtain ⟨owner, howner⟩ := hgenerated
      have hshorter := howner.length_lt
      obtain ⟨hplain, hle⟩ := ih _ (hlength ▸ hshorter) owner rfl
      rw [sourceTypeName_of_generatedFor howner]
      exact ⟨hplain, by omega⟩
    · have hplain := not_exists.mp hgenerated
      rw [sourceTypeName_of_plain hplain]
      exact ⟨hplain, by omega⟩

/-- The name of a type with segments behind it, each behind its mark. -/
def nested (owner : List Char) (segments : List (Char × List Char)) : List Char :=
  owner ++ segments.flatMap fun segment => segment.1 :: segment.2

/-- A segment that a compiler generates: it starts with an angle bracket and has no segments itself. -/
structure IsGeneratedSegment (segment : Char × List Char) : Prop where
  mark : segment.1 ∈ ['/', '+']
  opens : segment.2.head? = some '<'
  flat : ∀ c ∈ segment.2, c ∉ ['/', '+']

theorem isNestingMark_iff {c : Char} : isNestingMark c = true ↔ c ∈ ['/', '+'] := by
  simp [isNestingMark]

theorem any_isNestingMark_eq_false_iff {text : List Char} :
    text.any isNestingMark = false ↔ ∀ c ∈ text, c ∉ ['/', '+'] := by
  simp only [List.any_eq_false, isNestingMark_iff]

theorem IsGeneratedSegment.generatedFor {segment : Char × List Char} (h : IsGeneratedSegment segment)
    {owner : List Char} (howner : owner ≠ []) : GeneratedFor owner (owner ++ segment.1 :: segment.2) := by
  obtain ⟨mark, text⟩ := segment
  obtain ⟨rest, rfl⟩ := List.head?_eq_some_iff.mp h.opens
  exact ⟨howner, mark, rest, isNestingMark_iff.mpr h.mark, any_isNestingMark_eq_false_iff.mpr h.flat, rfl⟩

/-- Segments that are added do not change the source name. -/
theorem sourceTypeName_nested {owner : List Char} (howner : owner ≠ []) {segments : List (Char × List Char)}
    (hsegments : ∀ segment ∈ segments, IsGeneratedSegment segment) :
    sourceTypeName (nested owner segments) = sourceTypeName owner := by
  induction segments generalizing owner with
  | nil => simp [nested]
  | cons segment segments ih =>
    obtain ⟨hfirst, hrest⟩ := List.forall_mem_cons.mp hsegments
    have hnested : nested owner (segment :: segments) = nested (owner ++ segment.1 :: segment.2) segments := by
      simp [nested]
    rw [hnested, ih (by simp) hrest]
    exact sourceTypeName_of_generatedFor (hfirst.generatedFor howner)

private theorem length_lt_nested (owner : List Char) {segments : List (Char × List Char)} (hsome : segments ≠ []) :
    owner.length < (nested owner segments).length := by
  obtain ⟨segment, more, rfl⟩ := List.exists_cons_of_ne_nil hsome
  simp only [nested, List.length_append, List.flatMap_cons, List.length_cons]
  omega

/-- The last segment of a type's source name without arity and type arguments. It may be empty. -/
def bareName (name : List Char) : List Char :=
  lastSegment (fun c => c == '.' || isNestingMark c) (dropArguments (upTo (· == '\x60') (sourceTypeName name)))

theorem simpleChars_eq (name : List Char) :
    simpleChars name = if bareName name = [] then name else bareName name := rfl

private theorem bareName_congr {name other : List Char} (h : sourceTypeName name = sourceTypeName other) :
    bareName name = bareName other := by
  rw [bareName, h]
  rfl

theorem simpleChars_eq_iff {name other : List Char} (h : sourceTypeName name = sourceTypeName other)
    (hne : name ≠ other) : simpleChars name = simpleChars other ↔ bareName other ≠ [] := by
  rw [simpleChars_eq, simpleChars_eq, bareName_congr h]
  split_ifs with hbare
  · simp [hbare, hne]
  · simp [hbare]

/-- The class that a publication reports, and in a job the class that runs it. -/
def ReportsClass (p : Publication) (name : String) : Prop :=
  p.className = name ∧ (p.inBackgroundJob = true → p.jobClass = some name)

section Publications

variable (s : Indicators) (g : TypeGraph) (origin : Origin)

/-- The publications in the methods of one type of a module. -/
def typePublications (m : Module) (t : TypeDef) : List Publication :=
  if !t.isInterface && !t.isAbstract then t.methods.flatMap (methodPublications s g origin (runsInJob s m t) t)
  else []

private theorem publications_eq_flatMap (m : Module) :
    publications s g origin m = m.types.flatMap (typePublications s g origin m) := by
  unfold publications
  induction m.types with
  | nil => rfl
  | cons t types ih =>
    rw [List.filter_cons, List.flatMap_cons, ← ih]
    unfold typePublications
    split_ifs <;> rfl

/-- A type reports the class of another name: each publication of the type tells that class, and what a method of it
publishes is what the method would publish in a type of that name, up to the name of the method. -/
structure PublishesAs (t : TypeDef) (name : String) : Prop where
  reports : ∀ m, ∀ p ∈ typePublications s g origin m t, ReportsClass p (simpleName name)
  renamed : ∀ inJob method, methodPublications s g origin inJob t method =
    (methodPublications s g origin inJob { t with fullName := name } method).map
      fun p => { p with methodName := t.sourceMethodName method }

variable {s g origin}

private theorem reportsClass_of_mem {m : Module} {t : TypeDef} {p : Publication}
    (h : p ∈ typePublications s g origin m t) : ReportsClass p t.simpleName := by
  unfold typePublications at h
  split_ifs at h
  · simp only [methodPublications, List.mem_flatMap, List.mem_filterMap] at h
    obtain ⟨method, -, call, -, hcall⟩ := h
    split_ifs at hcall
    obtain rfl := Option.some.inj hcall
    unfold publicationAt
    cases runsInJob s m t with
    | false => exact ⟨rfl, fun hjob => absurd hjob Bool.false_ne_true⟩
    | true => exact ⟨rfl, fun _ => rfl⟩
  · simp at h

/-- The name of a type shows in its publications through the simple name and the names of methods only. -/
theorem publishesAs_of_simpleName {t : TypeDef} {name : String} (h : t.simpleName = simpleName name) :
    PublishesAs s g origin t name := by
  constructor
  · intro m p hp
    rw [← h]
    exact reportsClass_of_mem hp
  · intro inJob method
    have hrenamed : TypeDef.simpleName { t with fullName := name } = t.simpleName := h.symm
    unfold methodPublications
    rw [List.map_filterMap]
    apply List.filterMap_congr
    intro call _
    dsimp only
    split_ifs
    · cases inJob with
      | false => simp [publicationAt, hrenamed]
      | true => simp [publicationAt, Publication.inJob, hrenamed]
    · rfl

end Publications

/-- Segments that a compiler generated do not show in a report. They leave the source name of a type as it is, and a
second look at a source name finds nothing more to strip. The simple name stays too, unless that of the type itself
has nothing left in it and stands for the whole name. What a module publishes is what its types publish, and the
publications of a generated type report the class that they would report if it were the type itself. -/
theorem generated_reports_owner :
    (∀ name, sourceTypeName (sourceTypeName name) = sourceTypeName name) ∧
      (∀ s g origin m, publications s g origin m = m.types.flatMap (typePublications s g origin m)) ∧
      ∀ (owner : String) (segments : List (Char × List Char)), owner ≠ "" → segments ≠ [] →
        (∀ segment ∈ segments, IsGeneratedSegment segment) →
        ∀ t : TypeDef, t.fullName.toList = nested owner.toList segments →
          sourceTypeName t.fullName.toList = sourceTypeName owner.toList ∧ t.isGenerated = true ∧
            (t.simpleName = simpleName owner ↔ bareName owner.toList ≠ []) ∧
            (bareName owner.toList ≠ [] → ∀ s g origin, PublishesAs s g origin t owner) := by
  refine ⟨fun name => sourceTypeName_of_plain (sourceTypeName_settled name).1, publications_eq_flatMap, ?_⟩
  intro owner segments howner hsome hsegments t hname
  have hchars : owner.toList ≠ [] := fun h => howner (String.toList_inj.mp h)
  have hlonger := length_lt_nested owner.toList hsome
  have hsource : sourceTypeName t.fullName.toList = sourceTypeName owner.toList := by
    rw [hname]
    exact sourceTypeName_nested hchars hsegments
  have hne : t.fullName.toList ≠ owner.toList := by
    intro heq
    rw [← hname, heq] at hlonger
    exact Nat.lt_irrefl _ hlonger
  have hgenerated : t.isGenerated = true := by
    rw [TypeDef.isGenerated, bne_iff_ne, hsource]
    intro heq
    have hle := (sourceTypeName_settled owner.toList).2
    rw [heq, hname] at hle
    omega
  have hsimple : t.simpleName = simpleName owner ↔ bareName owner.toList ≠ [] := by
    rw [← simpleChars_eq_iff hsource hne]
    exact String.ofList_inj
  exact ⟨hsource, hgenerated, hsimple, fun hbare _ _ _ => publishesAs_of_simpleName (hsimple.mpr hbare)⟩

theorem nestedClosure_reports_owner :
    (∀ segment ∈ [('/', "<>c".toList), ('+', "<<Run>b__0>d".toList)], IsGeneratedSegment segment) ∧
      sourceTypeName "Shop.Cart`1/<>c+<<Run>b__0>d".toList = "Shop.Cart`1".toList ∧
      TypeDef.simpleName { fullName := "Shop.Cart`1/<>c+<<Run>b__0>d" } = "Cart" := by
  have hsegments : ∀ segment ∈ [('/', "<>c".toList), ('+', "<<Run>b__0>d".toList)], IsGeneratedSegment segment := by
    intro segment hmem
    rcases List.mem_pair.mp hmem with rfl | rfl
    · exact ⟨by decide, rfl, by simp⟩
    · exact ⟨by decide, rfl, by simp⟩
  obtain ⟨hsource, -, hsimple, -⟩ := generated_reports_owner.2.2 "Shop.Cart`1" _ (by decide) (by simp) hsegments
    { fullName := "Shop.Cart`1/<>c+<<Run>b__0>d" } (by decide)
  exact ⟨hsegments, hsource.trans (by decide), (hsimple.mpr (by decide)).trans (by decide)⟩

/-- The name that layers make of a member. Each puts the name so far in angle brackets and a suffix behind it. -/
def wrapped (member : List Char) (suffixes : List (List Char)) : List Char :=
  suffixes.foldl (fun name suffix => '<' :: name ++ '>' :: suffix) member

/-- A text without brackets and nesting marks. -/
def IsUnbracketed (text : List Char) : Prop := ∀ c ∈ text, c ∉ ['<', '>', '/', '+']

theorem wrapped_concat (member : List Char) (suffixes : List (List Char)) (suffix : List Char) :
    wrapped member (suffixes ++ [suffix]) = '<' :: wrapped member suffixes ++ '>' :: suffix := by
  simp [wrapped]

/-- All opening brackets come first, and the member ends at the first closing one. -/
theorem exists_wrapped_eq (member : List Char) {suffixes : List (List Char)} (hsome : suffixes ≠ []) :
    ∃ rest, wrapped member suffixes =
      '<' :: (List.replicate (suffixes.length - 1) '<' ++ member ++ '>' :: rest) := by
  induction suffixes using List.reverseRecOn with
  | nil => exact absurd rfl hsome
  | append_singleton suffixes suffix ih =>
    rw [wrapped_concat, List.length_append, List.length_singleton, Nat.add_sub_cancel]
    cases suffixes with
    | nil => exact ⟨suffix, by simp [wrapped]⟩
    | cons first more =>
      obtain ⟨rest, hrest⟩ := ih (List.cons_ne_nil _ _)
      refine ⟨rest ++ '>' :: suffix, ?_⟩
      rw [hrest, List.length_cons, Nat.add_sub_cancel, List.replicate_succ]
      simp

section Members

variable {member : List Char} (hplain : IsUnbracketed member) {suffixes : List (List Char)}

include hplain

private theorem not_mem_wrapped (hsuffixes : ∀ suffix ∈ suffixes, IsUnbracketed suffix) :
    ∀ c ∈ wrapped member suffixes, c ∉ ['/', '+'] := by
  have hflat {text : List Char} (h : IsUnbracketed text) : ∀ c ∈ text, c ∉ ['/', '+'] := by
    intro c hc hmark
    exact h c hc (List.mem_append_right ['<', '>'] hmark)
  induction suffixes using List.reverseRecOn with
  | nil => exact hflat hplain
  | append_singleton suffixes suffix ih =>
    rw [List.forall_mem_append] at hsuffixes
    rw [wrapped_concat, List.forall_mem_append, List.forall_mem_cons, List.forall_mem_cons]
    exact ⟨⟨by decide, ih hsuffixes.1⟩, by decide, hflat (hsuffixes.2 suffix List.mem_cons_self)⟩

/-- Of the layers only the outermost is taken off. -/
theorem generatedMember?_wrapped (hmember : member ≠ []) (hsome : suffixes ≠ []) :
    generatedMember? (wrapped member suffixes) =
      some (List.replicate (suffixes.length - 1) '<' ++ member) := by
  obtain ⟨rest, hrest⟩ := exists_wrapped_eq member hsome
  have hinside : ∀ c ∈ List.replicate (suffixes.length - 1) '<' ++ member, (!(c == '>')) = true := by
    intro c hc
    rcases List.mem_append.mp hc with hopen | hc
    · rw [(List.mem_replicate.mp hopen).2]
      rfl
    · have hne : c ≠ '>' := by
        rintro rfl
        exact hplain '>' hc (by decide)
      simp [hne]
  have hcut : upTo (· == '>') (List.replicate (suffixes.length - 1) '<' ++ member ++ '>' :: rest) =
      List.replicate (suffixes.length - 1) '<' ++ member := by
    rw [upTo, List.takeWhile_append_of_pos hinside, List.takeWhile_cons_of_neg (by simp), List.append_nil]
  rw [hrest, generatedMember?, hcut]
  simp [hmember]

end Members

/-- The part of a name behind its last nesting mark, which is the whole name if it has none. -/
def HasLastSegment (name segment : List Char) : Prop :=
  name = segment ∨ ∃ owner mark, mark ∈ ['/', '+'] ∧ name = owner ++ mark :: segment

private theorem lastSegment_eq {name segment : List Char} (h : HasLastSegment name segment)
    (hflat : ∀ c ∈ segment, c ∉ ['/', '+']) : lastSegment isNestingMark name = segment := by
  have hnone := any_isNestingMark_eq_false_iff.mpr hflat
  rcases h with rfl | ⟨owner, mark, hmark, rfl⟩
  · rw [lastSegment, splitLast?_eq_none_iff.mpr hnone]
  · rw [lastSegment, splitLast?_append owner mark segment (isNestingMark_iff.mpr hmark) hnone]

/-- Where a method has a name of many layers, or where its own name speaks of no member and the last segment of its
type has such a name, it is reported under the member's name with an opening bracket left for each layer but one. This
is the member's name only for a single layer. -/
theorem sourceMethodName_wrapped {member : List Char} (hmember : member ≠ []) (hplain : IsUnbracketed member)
    {suffixes : List (List Char)} (hsome : suffixes ≠ []) (hsuffixes : ∀ suffix ∈ suffixes, IsUnbracketed suffix) :
    ∃ found, found = List.replicate (suffixes.length - 1) '<' ++ member ∧
      (found = member ↔ suffixes.length = 1) ∧ generatedMember? (wrapped member suffixes) = some found ∧
      (∀ (t : TypeDef) (method : Method), method.name.toList = wrapped member suffixes →
        t.sourceMethodName method = String.ofList found) ∧
      ∀ (t : TypeDef) (method : Method), generatedMember? method.name.toList = none →
        HasLastSegment t.fullName.toList (wrapped member suffixes) →
          t.sourceMethodName method = String.ofList found := by
  have hfound := generatedMember?_wrapped hplain hmember hsome
  refine ⟨_, rfl, ?_, hfound, ?_, ?_⟩
  · have hlength := List.length_pos_iff.mpr hsome
    rw [List.append_left_eq_self, List.replicate_eq_nil_iff]
    omega
  · intro t method hname
    rw [TypeDef.sourceMethodName, hname, hfound]
  · intro t method hnone hlast
    rw [TypeDef.sourceMethodName, hnone, lastSegment_eq hlast (not_mem_wrapped hplain hsuffixes), hfound]

theorem not_generatedMember?_unwraps :
    ¬∀ (member : List Char) (suffixes : List (List Char)), member ≠ [] → IsUnbracketed member → suffixes ≠ [] →
      (∀ suffix ∈ suffixes, IsUnbracketed suffix) → generatedMember? (wrapped member suffixes) = some member := by
  intro h
  have hplain {text : List Char} (htext : text ∈ ["Run".toList, "b__0".toList, "d".toList]) : IsUnbracketed text := by
    simp only [List.mem_cons, List.not_mem_nil, or_false] at htext
    rcases htext with rfl | rfl | rfl <;> simp [IsUnbracketed]
  have hrun := h "Run".toList ["b__0".toList, "d".toList] (by decide) (hplain (by simp)) (by simp)
    fun suffix hsuffix => hplain (List.mem_cons_of_mem _ hsuffix)
  exact absurd hrun (by decide)

theorem asyncMethod_sourceMethodName :
    IsUnbracketed "Run".toList ∧ IsUnbracketed "d__3".toList ∧
      HasLastSegment "Shop.Cart/<Run>d__3".toList "<Run>d__3".toList ∧
      TypeDef.sourceMethodName { fullName := "Shop.Cart/<Run>d__3" } { name := "MoveNext" } = "Run" := by
  have hrun : IsUnbracketed "Run".toList := by simp [IsUnbracketed]
  have hsuffix : IsUnbracketed "d__3".toList := by simp [IsUnbracketed]
  have hlast : HasLastSegment "Shop.Cart/<Run>d__3".toList "<Run>d__3".toList :=
    .inr ⟨"Shop.Cart".toList, '/', by decide, by decide⟩
  obtain ⟨found, -, hone, -, -, hmethod⟩ := sourceMethodName_wrapped (by decide) hrun (List.cons_ne_nil "d__3".toList [])
    (by simpa using hsuffix)
  have hfound := hmethod { fullName := "Shop.Cart/<Run>d__3" } { name := "MoveNext" } (by decide) hlast
  rw [hone.mpr rfl] at hfound
  exact ⟨hrun, hsuffix, hlast, hfound⟩

end EventAtlas.Module
