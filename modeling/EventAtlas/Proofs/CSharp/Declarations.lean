import EventAtlas.Proofs.CSharp.DottedName

namespace EventAtlas.CSharp

open Recognizer Text

theorem atStart?_eq_some_iff {α : Type} {r : Recognizer α} {line : List Char} {a : α} :
    atStart? r line = some a ↔ ∃ c', (r ⟨none, line⟩).head? = some (a, c') := by
  simp [atStart?]

theorem name_refuses : Refuses isBlank name := by
  apply Refuses.text
  apply Refuses.bind
  apply Refuses.one
  intro x hx
  by_contra hname
  have hword := isWord_of_isNameStart (by simpa using hname)
  rw [isWord_of_isBlank hx] at hword
  exact Bool.noConfusion hword

/-- A line opens a namespace: the keyword comes first on it, and the name is all the word characters and dots that
come next. -/
def OpensNamespace (line name : List Char) : Prop :=
  ∃ start next stop, Indented ⟨none, line⟩ start ∧ Spaced start "namespace".toList next ∧ next.After name stop ∧
    name ≠ [] ∧ (∀ x ∈ name, isNamespaceChar x = true) ∧ stop.rest.head?.any isNamespaceChar = false

/-- The pattern for namespaces finds what a line opens. -/
theorem namespaceClause_eq_some_iff {line name : List Char} :
    namespaceClause.atStart? line = some name ↔ OpensNamespace line name := by
  have hkeyword : ReadsWords (literal "namespace") (· = "namespace".toList) :=
    literal_readsWords (by decide) (by decide)
  have hname : Refuses isBlank (text (run1 isNamespaceChar)) :=
    (run1_readsWords fun _ => isBlank_of_isNamespaceChar).refuses.text
  have hrest : Refuses isBlank (literal "namespace" >>= fun _ => blanks1 >>= fun _ => text (run1 isNamespaceChar)) :=
    hkeyword.refuses.bind _
  rw [atStart?_eq_some_iff]
  constructor
  · intro h
    obtain ⟨stop, hhead⟩ := h
    obtain ⟨start, hindent, hhead⟩ := (head?_blanks_bind hrest).mp hhead
    obtain ⟨_, next, rfl, hspaced, hhead⟩ := (hkeyword.head?_bind hname).mp hhead
    exact ⟨start, next, stop, hindent, hspaced, head?_text_run1.mp hhead⟩
  · intro h
    obtain ⟨start, next, stop, hindent, hspaced, hread⟩ := h
    refine ⟨stop, (head?_blanks_bind hrest).mpr ⟨start, hindent, ?_⟩⟩
    exact (hkeyword.head?_bind hname).mpr ⟨_, next, rfl, hspaced, head?_text_run1.mpr hread⟩

/-- The declaration of a type that comes at a cursor: one of the keywords as a word of its own, and the name. -/
structure TypeDeclaration (c : Cursor) (type : List Char) (c' : Cursor) : Prop where
  startsWord : c.before.any isWord = false
  named : ∃ keyword ∈ typeKeywords, ∃ next, Spaced c keyword.toList next ∧ WholeName next type c'

/-- A line declares a type, in the leftmost declaration that it holds. -/
def DeclaresType (line type : List Char) : Prop :=
  ∃ n c', TypeDeclaration (Cursor.ahead ⟨none, line⟩ n) type c' ∧
    ∀ m < n, ∀ other c'', ¬TypeDeclaration (Cursor.ahead ⟨none, line⟩ m) other c''

theorem keyword_isWord {c next : Cursor} {keyword : String} (hmem : keyword ∈ typeKeywords)
    (h : Spaced c keyword.toList next) : c.rest.head?.any isWord = true := by
  have hletter : ∀ keyword ∈ typeKeywords, keyword.toList.head?.any isWord = true := by decide
  obtain ⟨mid, gap, hread, -⟩ := h
  have hword := hletter keyword hmem
  rw [hread.rest, List.head?_append]
  cases hhead : keyword.toList.head? with
  | none => simp [hhead] at hword
  | some x => simpa [hhead] using hword

private theorem typeClause_prefers : Prefers typeClause TypeDeclaration where
  head c type c' := by
    have hkeyword := oneOf_readsWords typeKeywords (by decide)
    change ((wordBoundary >>= fun _ => oneOf typeKeywords >>= fun _ => blanks1 >>= fun _ => name) c).head? = _ ↔ _
    rw [wordBoundary_sure.head?_bind]
    constructor
    · intro h
      obtain ⟨_, mid, hboundary, hhead⟩ := h
      obtain ⟨hword, rfl⟩ := mem_wordBoundary.mp hboundary
      obtain ⟨_, next, ⟨keyword, hmem, rfl⟩, hspaced, hhead⟩ := (hkeyword.head?_bind name_refuses).mp hhead
      rw [keyword_isWord hmem hspaced] at hword
      exact ⟨by simpa using hword, keyword, hmem, next, hspaced, head?_name.mp hhead⟩
    · intro h
      obtain ⟨keyword, hmem, next, hspaced, hname⟩ := h.named
      refine ⟨(), c, mem_wordBoundary.mpr ⟨?_, rfl⟩, ?_⟩
      · rw [h.startsWord, keyword_isWord hmem hspaced]
        exact Bool.false_ne_true
      · exact (hkeyword.head?_bind name_refuses).mpr ⟨_, next, ⟨keyword, hmem, rfl⟩, hspaced, head?_name.mpr hname⟩
  advances c type c' h := by
    obtain ⟨keyword, -, next, hspaced, hname⟩ := h.named
    obtain ⟨x, read, hread⟩ := hspaced.exists_after
    exact ⟨x, _, hread.trans hname.after⟩

/-- The type found on a line is the one that its leftmost declaration names. -/
theorem declaredType_eq_some_iff {line : List Char} {type : String} :
    declaredType line = some type ↔ DeclaresType line type.toList := by
  unfold declaredType DeclaresType
  rw [Option.map_eq_some_iff, ← typeClause_prefers.find?_eq_some_iff]
  constructor
  · intro h
    obtain ⟨chars, hfound, rfl⟩ := h
    rwa [String.toList_ofList]
  · intro hfound
    exact ⟨_, hfound, String.ofList_toList⟩

theorem DeclaresType.spelled {line type : List Char} (h : DeclaresType line type) : SpelledBy isNameStart type := by
  obtain ⟨n, c', hdeclared, -⟩ := h
  obtain ⟨keyword, -, next, -, hname⟩ := hdeclared.named
  exact hname.spelled

theorem declaredType_isPlainName {line : List Char} {type : String} (h : declaredType line = some type) :
    IsPlainName type :=
  (declaredType_eq_some_iff.mp h).spelled

end EventAtlas.CSharp
