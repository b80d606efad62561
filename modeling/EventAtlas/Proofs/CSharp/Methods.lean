import EventAtlas.Proofs.CSharp.Declarations

namespace EventAtlas.CSharp

open Recognizer Text

/-- A modifier that comes at a cursor, and the white space behind it. -/
def ModifierAt (c next : Cursor) : Prop :=
  ∃ word, (∃ modifier ∈ methodModifiers, word = modifier.toList) ∧ Spaced c word next

/-- A return type that comes at a cursor, and the white space behind it. -/
def ReturnTypeAt (c next : Cursor) : Prop :=
  ∃ type, (type ≠ [] ∧ ∀ x ∈ type, isTypeChar x = true) ∧ Spaced c type next

/-- The places where the name of a method can start: behind any number of modifiers, and a return type or none. -/
inductive NamePlace : Cursor → Cursor → Prop where
  | here (c : Cursor) : NamePlace c c
  | behindType {c next : Cursor} : ReturnTypeAt c next → NamePlace c next
  | behindModifier {c next start : Cursor} : ModifierAt c next → NamePlace next start → NamePlace c start

/-- Type arguments in angle brackets, or none. -/
def IsTypeArguments (text : List Char) : Prop :=
  text = [] ∨ ∃ inner, text = '<' :: (inner ++ ['>']) ∧ ∀ x ∈ inner, x ∉ ['>', '(', ')']

/-- A parameter list opens, perhaps behind type arguments. -/
def OpensParameters (text : List Char) : Prop :=
  ∃ gap arguments gap' rest, text = gap ++ (arguments ++ (gap' ++ '(' :: rest)) ∧ (∀ x ∈ gap, isBlank x = true) ∧
    IsTypeArguments arguments ∧ ∀ x ∈ gap', isBlank x = true

/-- A name comes at a cursor, and a parameter list opens behind it. -/
def NamesMethod (c : Cursor) (method : List Char) : Prop :=
  ∃ c', WholeName c method c' ∧ OpensParameters c'.rest

/-- The name of a method at the last of the places where one is found. -/
def IsLastName (Place : Cursor → Prop) : Option (List Char) → Prop
  | none => ∀ start method, Place start → ¬NamesMethod start method
  | some method => ∃ start, Place start ∧ NamesMethod start method ∧
      ∀ other method', Place other → NamesMethod other method' → start.rest.length ≤ other.rest.length

private theorem typeArguments_spells : Spells typeArguments IsTypeArguments := by
  have hinner (x : Char) : (x != '>' && x != '(' && x != ')') = true ↔ x ∉ ['>', '(', ')'] := by
    simp [and_assoc]
  have hread := ((Spells.char '<').bind ((Spells.run fun x => x != '>' && x != '(' && x != ')').bind
    (.char '>'))).optional
  refine hread.congr fun text => ?_
  simp only [IsTypeArguments, hinner]
  constructor
  · rintro (⟨_, _, rfl, ⟨inner, _, hall, rfl, rfl⟩, rfl⟩ | rfl)
    · exact .inr ⟨inner, rfl, hall⟩
    · exact .inl rfl
  · rintro (rfl | ⟨inner, rfl, hall⟩)
    · exact .inr rfl
    · exact .inl ⟨_, _, rfl, ⟨inner, _, hall, rfl, rfl⟩, rfl⟩

/-- The parameters can be read exactly where they open. -/
theorem exists_mem_parameters {method : List Char} {c : Cursor} :
    (∃ c', (method, c') ∈ parameters method c) ↔ OpensParameters c.rest := by
  unfold parameters blanks
  simp only [mem_bind, mem_run_iff, typeArguments_spells _ _ _, mem_char_iff]
  constructor
  · intro h
    obtain ⟨_, _, c₁, ⟨gap, hgap, hblank⟩, _, c₂, ⟨arguments, harguments, hread⟩, _, c₃, ⟨gap', hgap', hblank'⟩, _,
      c₄, hopen, -⟩ := h
    refine ⟨gap, arguments, gap', c₄.rest, ?_, hblank, harguments, hblank'⟩
    rw [hgap.rest, hread.rest, hgap'.rest, hopen.rest, List.singleton_append]
  · intro h
    obtain ⟨gap, arguments, gap', rest, hrest, hblank, harguments, hblank'⟩ := h
    have hwhole : c.After (gap ++ (arguments ++ (gap' ++ ['(']))) ⟨_, rest⟩ := ⟨by simp [hrest], rfl⟩
    obtain ⟨c₁, hgap, hwhole⟩ := Cursor.after_append.mp hwhole
    obtain ⟨c₂, hread, hwhole⟩ := Cursor.after_append.mp hwhole
    obtain ⟨c₃, hgap', hopen⟩ := Cursor.after_append.mp hwhole
    exact ⟨_, (), c₁, ⟨gap, hgap, hblank⟩, (), c₂, ⟨arguments, harguments, hread⟩, (), c₃, ⟨gap', hgap', hblank'⟩, (),
      _, hopen, List.mem_singleton.mpr rfl⟩

theorem parameters_yields (method : List Char) : (parameters method).Yields (· = method) :=
  .skip fun _ => .skip fun _ => .skip fun _ => .skip fun _ => .pure rfl

private theorem parameters_refuses (method : List Char) : Refuses isWord (parameters method) := by
  have hblank (x : Char) (hx : isWord x = true) : isBlank x = false := isBlank_of_isWord hx
  refine .run_bind hblank (.optional_bind ?_ (.run_bind hblank ?_))
  · exact (Refuses.char (by decide)).bind _
  · exact (Refuses.char (by decide)).bind _

/-- The name of a method is read where it comes, and nothing else can be. -/
theorem head?_signature {c : Cursor} {method : List Char} :
    (∃ c', (signature c).head? = some (method, c')) ↔ NamesMethod c method := by
  have hread (c' : Cursor) : (signature c).head? = some (method, c') ↔
      ∃ s mid, WholeName c s mid ∧ (parameters s mid).head? = some (method, c') :=
    head?_name_bind parameters_refuses
  simp only [hread]
  constructor
  · intro h
    obtain ⟨c', s, mid, hname, hhead⟩ := h
    have hmem := List.mem_of_head? hhead
    obtain rfl : method = s := parameters_yields s mid method c' hmem
    exact ⟨mid, hname, exists_mem_parameters.mp ⟨c', hmem⟩⟩
  · intro h
    obtain ⟨mid, hname, hopens⟩ := h
    obtain ⟨c', hmem⟩ := exists_mem_parameters.mpr hopens
    obtain ⟨way, ways, hways⟩ := List.exists_cons_of_ne_nil (List.ne_nil_of_mem hmem)
    have hfirst : way.1 = method := parameters_yields method mid way.1 way.2 (hways ▸ List.mem_cons_self)
    refine ⟨way.2, method, mid, hname, ?_⟩
    rw [hways, ← hfirst, List.head?_cons]

private theorem isBlank_of_isTypeChar {x : Char} (h : isTypeChar x = true) : isBlank x = false := by
  rw [isTypeChar, Bool.or_eq_true] at h
  rcases h with hword | hmark
  · exact isBlank_of_isWord hword
  · have hmarks : (['.', '<', '>', '[', ']', ',', '?'].all (!isBlank ·)) = true := by decide
    simpa using List.all_eq_true.mp hmarks x (List.contains_iff_mem.mp hmark)

theorem methodModifiers_readsWords :
    ReadsWords (oneOf methodModifiers) (∃ modifier ∈ methodModifiers, · = modifier.toList) :=
  oneOf_readsWords methodModifiers (by decide)

theorem typeChars_readsWords : ReadsWords (run1 isTypeChar) fun type => type ≠ [] ∧ ∀ x ∈ type, isTypeChar x = true :=
  run1_readsWords fun _ => isBlank_of_isTypeChar

/-- The place behind a modifier does not depend on the modifier. -/
theorem ModifierAt.eq_nextWord {c next : Cursor} (h : ModifierAt c next) : next = nextWord c := by
  obtain ⟨word, hkind, hspaced⟩ := h
  exact hspaced.eq_nextWord (methodModifiers_readsWords.unbroken word hkind)

theorem ReturnTypeAt.eq_nextWord {c next : Cursor} (h : ReturnTypeAt c next) : next = nextWord c := by
  obtain ⟨type, htype, hspaced⟩ := h
  exact hspaced.eq_nextWord (typeChars_readsWords.unbroken type htype)

private theorem modifier_shorter {c : Cursor} {way : Unit × Cursor} (h : way ∈ modifier c) :
    way.2.rest.length < c.rest.length := by
  obtain ⟨_, mid, hword, hgap⟩ := mem_bind.mp h
  obtain ⟨word, -, hread⟩ := (methodModifiers_readsWords.spells _ _ _).mp hword
  obtain ⟨gap, ⟨hne, -⟩, hgap⟩ := (Spells.run1 _ _ _ _).mp hgap
  have hpos := List.length_pos_iff.mpr hne
  rw [hread.rest, hgap.rest, List.length_append, List.length_append]
  omega

/-- Behind the first modifier comes another one, or a return type and the name, or the name. -/
theorem heading_eq (c : Cursor) : heading c =
    (modifier >>= fun _ => heading) c ++ ((returnType >>= fun _ => signature) c ++ signature c) := by
  have hmany : many modifier c = (modifier >>= fun _ => many modifier) c ++ [((), c)] :=
    many_eq (fun _ _ => modifier_shorter) c
  have hheading (c : Cursor) : heading c =
      (many modifier c).flatMap fun way => (Recognizer.optional returnType >>= fun _ => signature) way.2 := rfl
  have hoptional : (Recognizer.optional returnType >>= fun _ => signature) c =
      (returnType c ++ [((), c)]).flatMap fun way => signature way.2 := rfl
  have hassoc : ((modifier >>= fun _ => many modifier) c).flatMap (fun way =>
      (Recognizer.optional returnType >>= fun _ => signature) way.2) = (modifier >>= fun _ => heading) c :=
    List.flatMap_assoc
  rw [hheading, hmany, List.flatMap_append, List.flatMap_singleton, hassoc, hoptional, List.flatMap_append,
    List.flatMap_singleton]
  rfl

theorem signature_refuses : Refuses isBlank signature := name_refuses.bind _

theorem modifier_refuses : Refuses isBlank modifier := methodModifiers_readsWords.refuses.bind _

private theorem heading_refuses : Refuses isBlank heading := by
  intro c hc
  have hmodifier : (modifier >>= fun _ => heading) c = [] := modifier_refuses.bind _ c hc
  have htype : (returnType >>= fun _ => signature) c = [] := (typeChars_readsWords.refuses.bind _).bind _ c hc
  rw [heading_eq, hmodifier, htype, signature_refuses c hc]
  rfl

/-- A modifier is read in one way only. -/
theorem head?_modifier_bind {c : Cursor} {way : List Char × Cursor} :
    ((modifier >>= fun _ => heading) c).head? = some way ↔
      ∃ next, ModifierAt c next ∧ (heading next).head? = some way :=
  methodModifiers_readsWords.head?_spaced_bind heading_refuses

/-- A return type is read in one way only. -/
theorem head?_returnType_bind {c : Cursor} {way : List Char × Cursor} :
    ((returnType >>= fun _ => signature) c).head? = some way ↔
      ∃ next, ReturnTypeAt c next ∧ (signature next).head? = some way :=
  typeChars_readsWords.head?_spaced_bind signature_refuses

theorem ModifierAt.length_lt {c next : Cursor} (h : ModifierAt c next) : next.rest.length < c.rest.length := by
  obtain ⟨word, -, hspaced⟩ := h
  exact hspaced.length_lt

theorem NamePlace.exists_after {c start : Cursor} (h : NamePlace c start) : ∃ read, c.After read start := by
  induction h with
  | here c => exact ⟨[], Cursor.after_nil.mpr rfl⟩
  | behindType htype =>
    obtain ⟨type, -, hspaced⟩ := htype
    obtain ⟨x, read, hread⟩ := hspaced.exists_after
    exact ⟨_, hread⟩
  | behindModifier hmodifier _ ih =>
    obtain ⟨word, -, hspaced⟩ := hmodifier
    obtain ⟨x, read, hread⟩ := hspaced.exists_after
    obtain ⟨more, hmore⟩ := ih
    exact ⟨_, hread.trans hmore⟩

theorem NamePlace.length_le {c start : Cursor} (h : NamePlace c start) : start.rest.length ≤ c.rest.length := by
  obtain ⟨read, hread⟩ := h.exists_after
  rw [hread.rest, List.length_append]
  omega

/-- Where no name is found behind another modifier, one behind a return type is preferred to one right here. -/
theorem isLastName_typed {c : Cursor}
    (hbehind : ∀ next start method, ModifierAt c next → NamePlace next start → ¬NamesMethod start method) :
    IsLastName (NamePlace c) (((returnType >>= fun _ => signature) c ++ signature c).head?.map Prod.fst) := by
  rw [List.head?_append]
  cases htype : ((returnType >>= fun _ => signature) c).head? with
  | some way =>
    obtain ⟨next, hnext, hhead⟩ := head?_returnType_bind.mp htype
    refine ⟨next, .behindType hnext, head?_signature.mp ⟨way.2, hhead⟩, ?_⟩
    intro other method hother hnames
    cases hother with
    | here => exact (NamePlace.behindType hnext).length_le
    | behindType hnext' => rw [hnext.eq_nextWord, hnext'.eq_nextWord]
    | behindModifier hmodifier hother => exact absurd hnames (hbehind _ _ _ hmodifier hother)
  | none =>
    have htyped {next : Cursor} {method : List Char} (hnext : ReturnTypeAt c next) : ¬NamesMethod next method := by
      intro hnames
      obtain ⟨c', hhead⟩ := head?_signature.mpr hnames
      rw [head?_returnType_bind.mpr ⟨next, hnext, hhead⟩] at htype
      cases htype
    cases hname : (signature c).head? with
    | some way =>
      refine ⟨c, .here c, head?_signature.mp ⟨way.2, hname⟩, ?_⟩
      intro other method hother hnames
      cases hother with
      | here => exact Nat.le_refl _
      | behindType hnext => exact absurd hnames (htyped hnext)
      | behindModifier hmodifier hother => exact absurd hnames (hbehind _ _ _ hmodifier hother)
    | none =>
      intro start method hplace hnames
      cases hplace with
      | here =>
        obtain ⟨c', hhead⟩ := head?_signature.mpr hnames
        rw [hname] at hhead
        cases hhead
      | behindType hnext => exact htyped hnext hnames
      | behindModifier hmodifier hplace => exact hbehind _ _ _ hmodifier hplace hnames

/-- Of all the places where a name is found the preferred one is the last. Where another modifier can be read, a
return type ends at the same place, so nothing that is tried later lies further on. -/
theorem isLastName_heading (c : Cursor) : IsLastName (NamePlace c) ((heading c).head?.map Prod.fst) := by
  induction hn : c.rest.length using Nat.strong_induction_on generalizing c with
  | _ n ih =>
    have hlast {next : Cursor} (hnext : ModifierAt c next) :
        IsLastName (NamePlace next) ((heading next).head?.map Prod.fst) := ih _ (hn ▸ hnext.length_lt) next rfl
    rw [heading_eq, List.head?_append]
    cases hmodifier : ((modifier >>= fun _ => heading) c).head? with
    | some way =>
      obtain ⟨next, hnext, hhead⟩ := head?_modifier_bind.mp hmodifier
      have hnextLast := hlast hnext
      rw [hhead] at hnextLast
      obtain ⟨start, hplace, hnames, hfirst⟩ := hnextLast
      refine ⟨start, .behindModifier hnext hplace, hnames, ?_⟩
      intro other method hother hnames'
      cases hother with
      | here => exact (NamePlace.behindModifier hnext hplace).length_le
      | behindType htype =>
        rw [htype.eq_nextWord, ← hnext.eq_nextWord] at hnames' ⊢
        exact hfirst _ _ (.here _) hnames'
      | behindModifier hnext' hother =>
        rw [hnext'.eq_nextWord, ← hnext.eq_nextWord] at hother
        exact hfirst _ _ hother hnames'
    | none =>
      apply isLastName_typed
      intro next start method hnext hplace
      have hnextLast := hlast hnext
      cases hhead : (heading next).head? with
      | none =>
        rw [hhead] at hnextLast
        exact hnextLast start method hplace
      | some way =>
        rw [head?_modifier_bind.mpr ⟨next, hnext, hhead⟩] at hmodifier
        cases hmodifier

/-- The places on a line where the name of a method can start: behind its indentation and at least one modifier. -/
def MethodPlace (line : List Char) (start : Cursor) : Prop :=
  ∃ first next, Indented ⟨none, line⟩ first ∧ ModifierAt first next ∧ NamePlace next start

/-- A line starts a method of this name. Where the head of a method can be read in several ways, the name is the one
that comes last on the line. -/
def StartsMethod (line method : List Char) : Prop := IsLastName (MethodPlace line) (some method)

theorem ModifierAt.head_not_blank {c next : Cursor} (h : ModifierAt c next) : c.rest.head?.any isBlank = false := by
  obtain ⟨word, hkind, mid, gap, hread, -⟩ := h
  exact methodModifiers_readsWords.head_not_blank hkind hread

private theorem isLastName_methodClause (line : List Char) :
    IsLastName (MethodPlace line) (methodClause.atStart? line) := by
  have hrest : Refuses isBlank (modifier >>= fun _ => heading) := modifier_refuses.bind _
  change IsLastName (MethodPlace line) (((blanks >>= fun _ => modifier >>= fun _ => heading) ⟨none, line⟩).head?.map
    Prod.fst)
  cases hclause : ((blanks >>= fun _ => modifier >>= fun _ => heading) ⟨none, line⟩).head? with
  | some way =>
    obtain ⟨first, hindent, hhead⟩ := (head?_blanks_bind hrest).mp hclause
    obtain ⟨next, hnext, hhead⟩ := head?_modifier_bind.mp hhead
    have hlast := isLastName_heading next
    rw [hhead] at hlast
    obtain ⟨start, hplace, hnames, hfirst⟩ := hlast
    refine ⟨start, ⟨first, next, hindent, hnext, hplace⟩, hnames, ?_⟩
    intro other method hplace' hnames'
    obtain ⟨first', next', hindent', hnext', hother⟩ := hplace'
    have hsame : first' = first :=
      (hindent'.eq_skipping hnext'.head_not_blank).trans (hindent.eq_skipping hnext.head_not_blank).symm
    subst hsame
    obtain rfl : next' = next := hnext'.eq_nextWord.trans hnext.eq_nextWord.symm
    exact hfirst other method hother hnames'
  | none =>
    intro start method hmethod
    obtain ⟨first, next, hindent, hnext, hplace⟩ := hmethod
    have hlast := isLastName_heading next
    cases hhead : (heading next).head? with
    | none =>
      rw [hhead] at hlast
      exact hlast start method hplace
    | some way =>
      have hsome := (head?_blanks_bind hrest).mpr ⟨first, hindent, head?_modifier_bind.mpr ⟨next, hnext, hhead⟩⟩
      rw [hclause] at hsome
      cases hsome

theorem MethodPlace.exists_after {line : List Char} {start : Cursor} (h : MethodPlace line start) :
    ∃ read, Cursor.After ⟨none, line⟩ read start := by
  obtain ⟨first, next, ⟨indent, hindent, -⟩, hnext, hplace⟩ := h
  obtain ⟨read, hread⟩ := (NamePlace.behindModifier hnext hplace).exists_after
  exact ⟨_, hindent.trans hread⟩

private theorem startsMethod_unique {line method method' : List Char} (h : StartsMethod line method)
    (h' : StartsMethod line method') : method = method' := by
  obtain ⟨start, hplace, hnames, hlast⟩ := h
  obtain ⟨start', hplace', hnames', hlast'⟩ := h'
  obtain ⟨read, hread⟩ := hplace.exists_after
  obtain ⟨read', hread'⟩ := hplace'.exists_after
  obtain rfl := hread.eq_of_length hread' (Nat.le_antisymm (hlast _ _ hplace' hnames') (hlast' _ _ hplace hnames))
  obtain ⟨stop, hname, -⟩ := hnames
  obtain ⟨stop', hname', -⟩ := hnames'
  exact (hname.unique hname').1

/-- The pattern for methods finds the method that a line starts. -/
theorem methodClause_eq_some_iff {line method : List Char} :
    methodClause.atStart? line = some method ↔ StartsMethod line method := by
  have hlast := isLastName_methodClause line
  constructor
  · intro h
    rwa [h] at hlast
  · intro h
    cases hclause : methodClause.atStart? line with
    | none =>
      rw [hclause] at hlast
      obtain ⟨start, hplace, hnames, -⟩ := h
      exact absurd hnames (hlast start method hplace)
    | some other =>
      rw [hclause] at hlast
      rw [startsMethod_unique hlast h]

end EventAtlas.CSharp
