import EventAtlas.CSharp.Name
import EventAtlas.Proofs.Recognizer.Scanning
import EventAtlas.Proofs.Text.Letters
import Mathlib.Data.List.TakeWhile

namespace EventAtlas.CSharp

open Recognizer Text

/-- A word boundary lies between a character of a word and one that is none. -/
theorem mem_wordBoundary {c c' : Cursor} {u : Unit} :
    (u, c') ∈ wordBoundary c ↔ c.before.any isWord ≠ c.rest.head?.any isWord ∧ c' = c := by
  unfold wordBoundary
  by_cases hword : c.before.any isWord = c.rest.head?.any isWord
  · simp [hword]
  · simp [hword]

theorem wordBoundary_sure : Sure wordBoundary := by
  intro c
  unfold wordBoundary
  split_ifs
  · simp
  · simp

/-- White space takes all it can before something that does not start with white space. -/
theorem head?_blanks1_bind {α : Type} {f : Unit → Recognizer α} (hf : Refuses isBlank (f ())) {c : Cursor}
    {way : α × Cursor} :
    ((blanks1 >>= f) c).head? = some way ↔ ∃ blanks start, c.After blanks start ∧ blanks ≠ [] ∧
      (∀ x ∈ blanks, isBlank x = true) ∧ (f () start).head? = some way := by
  have hassoc : (blanks1 >>= f) c = (one isBlank >>= fun _ => run isBlank >>= f) c := List.flatMap_assoc
  rw [hassoc, (Sure.one _).head?_bind]
  simp only [run_bind_of_refuses hf, mem_one]
  constructor
  · intro h
    obtain ⟨_, mid, ⟨x, hx, hrest, hbefore⟩, hway⟩ := h
    have hmid : c.After (x :: mid.rest.takeWhile isBlank) (mid.skipping isBlank) := by
      refine Cursor.after_cons.mpr ⟨mid.rest, hrest, ?_⟩
      rw [← hbefore]
      exact mid.after_skipping isBlank
    refine ⟨_, _, hmid, List.cons_ne_nil _ _, ?_, hway⟩
    exact List.forall_mem_cons.mpr ⟨hx, fun y hy => List.mem_takeWhile_imp hy⟩
  · intro h
    obtain ⟨blanks, start, hafter, hne, hblank, hway⟩ := h
    obtain ⟨x, blanks, rfl⟩ := List.exists_cons_of_ne_nil hne
    obtain ⟨hx, hblanks⟩ := List.forall_mem_cons.mp hblank
    obtain ⟨rest, hrest, hafter⟩ := Cursor.after_cons.mp hafter
    have hend := hf.head_of_ne_nil (List.ne_nil_of_mem (List.mem_of_head? hway))
    refine ⟨(), ⟨some x, rest⟩, ⟨x, hx, hrest, rfl⟩, ?_⟩
    rw [← (hafter.eq_skipping hblanks hend).2]
    exact hway

/-- The cursor behind white space that comes at a cursor. -/
def Indented (c start : Cursor) : Prop := ∃ indent, c.After indent start ∧ ∀ x ∈ indent, isBlank x = true

theorem Indented.eq_skipping {c start : Cursor} (h : Indented c start) (hend : start.rest.head?.any isBlank = false) :
    start = c.skipping isBlank := by
  obtain ⟨indent, hread, hblank⟩ := h
  exact (hread.eq_skipping hblank hend).2

/-- White space is skipped whole before something that does not start with any. -/
theorem head?_blanks_bind {α : Type} {r : Recognizer α} (hr : Refuses isBlank r) {c : Cursor} {way : α × Cursor} :
    ((blanks >>= fun _ => r) c).head? = some way ↔ ∃ start, Indented c start ∧ (r start).head? = some way := by
  have hrun : (blanks >>= fun _ => r) c = r (c.skipping isBlank) := run_bind_of_refuses hr c
  rw [hrun]
  constructor
  · intro h
    exact ⟨_, ⟨_, c.after_skipping isBlank, fun x hx => List.mem_takeWhile_imp hx⟩, h⟩
  · intro h
    obtain ⟨start, hindent, hhead⟩ := h
    have hend := hr.head_of_ne_nil (List.ne_nil_of_mem (List.mem_of_head? hhead))
    rwa [← hindent.eq_skipping hend]

/-- A word that comes at a cursor, and all the white space behind it. -/
def Spaced (c : Cursor) (word : List Char) (next : Cursor) : Prop :=
  ∃ mid gap, c.After word mid ∧ mid.After gap next ∧ gap ≠ [] ∧ (∀ x ∈ gap, isBlank x = true) ∧
    next.rest.head?.any isBlank = false

/-- `r` reads the words of a kind, which have characters and no white space among them. -/
structure ReadsWords (r : Recognizer Unit) (IsOfKind : List Char → Prop) : Prop where
  spells : Spells r IsOfKind
  ne_nil : ∀ word, IsOfKind word → word ≠ []
  unbroken : ∀ word, IsOfKind word → ∀ x ∈ word, isBlank x = false

/-- The cursor behind the characters up to the next white space, and behind that. -/
def nextWord (c : Cursor) : Cursor := (c.skipping (!isBlank ·)).skipping isBlank

/-- A word without white space ends where the first white space comes. -/
theorem eq_skipping_of_unbroken {c mid : Cursor} {word : List Char} (h : c.After word mid)
    (hword : ∀ x ∈ word, isBlank x = false) (hmid : mid.rest.head?.any isBlank = true) :
    mid = c.skipping (!isBlank ·) := by
  have hread : ∀ x ∈ word, (!isBlank x) = true := by
    intro x hx
    rw [hword x hx]
    rfl
  have hend : mid.rest.head?.any (!isBlank ·) = false := by
    cases hhead : mid.rest.head? with
    | none => rfl
    | some x => simpa [hhead] using hmid
  exact (h.eq_skipping hread hend).2

/-- Where the white space behind a word ends does not depend on the word. -/
theorem Spaced.eq_nextWord {c next : Cursor} {word : List Char} (h : Spaced c word next)
    (hword : ∀ x ∈ word, isBlank x = false) : next = nextWord c := by
  obtain ⟨mid, gap, hread, hgap, hne, hblank, hend⟩ := h
  obtain ⟨x, gap, rfl⟩ := List.exists_cons_of_ne_nil hne
  have hmid : mid.rest.head?.any isBlank = true := by simp [hgap.rest, hblank x List.mem_cons_self]
  rw [nextWord, ← eq_skipping_of_unbroken hread hword hmid]
  exact (hgap.eq_skipping hblank hend).2

theorem Spaced.exists_after {c next : Cursor} {word : List Char} (h : Spaced c word next) :
    ∃ x read, c.After (x :: read) next := by
  obtain ⟨mid, gap, hread, hgap, hne, -⟩ := h
  obtain ⟨x, read, hcons⟩ := List.exists_cons_of_ne_nil (List.append_ne_nil_of_right_ne_nil word hne)
  exact ⟨x, read, hcons ▸ hread.trans hgap⟩

theorem Spaced.length_lt {c next : Cursor} {word : List Char} (h : Spaced c word next) :
    next.rest.length < c.rest.length := by
  obtain ⟨x, read, hread⟩ := h.exists_after
  rw [hread.rest, List.length_append, List.length_cons]
  omega

namespace ReadsWords

variable {r : Recognizer Unit} {IsOfKind : List Char → Prop} (h : ReadsWords r IsOfKind)

include h

theorem head_not_blank {word : List Char} (hkind : IsOfKind word) {c mid : Cursor} (hread : c.After word mid) :
    c.rest.head?.any isBlank = false := by
  obtain ⟨x, word, rfl⟩ := List.exists_cons_of_ne_nil (h.ne_nil word hkind)
  simpa [hread.rest] using h.unbroken _ hkind x List.mem_cons_self

theorem refuses : Refuses isBlank r := by
  intro c hc
  rw [List.eq_nil_iff_forall_not_mem]
  intro way hmem
  obtain ⟨word, hkind, hread⟩ := (h.spells c way.1 way.2).mp hmem
  rw [h.head_not_blank hkind hread] at hc
  cases hc

/-- A word and the white space behind it are read in one way, if something else follows. -/
theorem head?_bind {α : Type} {next : Recognizer α} (hnext : Refuses isBlank next) {c : Cursor}
    {way : α × Cursor} :
    ((r >>= fun _ => blanks1 >>= fun _ => next) c).head? = some way ↔
      ∃ word start, IsOfKind word ∧ Spaced c word start ∧ (next start).head? = some way := by
  have hstop {u : Unit} {mid : Cursor} (hmem : (u, mid) ∈ r c)
      (hleads : (blanks1 >>= fun _ => next) mid ≠ []) : mid = c.skipping (!isBlank ·) := by
    obtain ⟨word, hkind, hread⟩ := (h.spells c u mid).mp hmem
    obtain ⟨first, more, hfirst⟩ := List.exists_cons_of_ne_nil hleads
    have hhead : ((blanks1 >>= fun _ => next) mid).head? = some first := by rw [hfirst, List.head?_cons]
    obtain ⟨gap, start, hgap, hne, hblank, -⟩ := (head?_blanks1_bind hnext).mp hhead
    obtain ⟨x, gap, rfl⟩ := List.exists_cons_of_ne_nil hne
    apply eq_skipping_of_unbroken hread (h.unbroken word hkind)
    simp [hgap.rest, hblank x List.mem_cons_self]
  rw [head?_bind_of_unique]
  · constructor
    · intro hway
      obtain ⟨u, mid, hmem, hhead⟩ := hway
      obtain ⟨word, hkind, hread⟩ := (h.spells c u mid).mp hmem
      obtain ⟨gap, start, hgap, hne, hblank, hhead⟩ := (head?_blanks1_bind hnext).mp hhead
      have hend := hnext.head_of_ne_nil (List.ne_nil_of_mem (List.mem_of_head? hhead))
      exact ⟨word, start, hkind, ⟨mid, gap, hread, hgap, hne, hblank, hend⟩, hhead⟩
    · intro hway
      obtain ⟨word, start, hkind, ⟨mid, gap, hread, hgap, hne, hblank, -⟩, hhead⟩ := hway
      exact ⟨(), mid, (h.spells c () mid).mpr ⟨word, hkind, hread⟩,
        (head?_blanks1_bind hnext).mpr ⟨gap, start, hgap, hne, hblank, hhead⟩⟩
  · intro u mid u' mid' hmem hmem' hleads hleads'
    rw [hstop hmem hleads, hstop hmem' hleads']

theorem head?_spaced_bind {α : Type} {next : Recognizer α} (hnext : Refuses isBlank next) {c : Cursor}
    {way : α × Cursor} :
    (((r >>= fun _ => blanks1) >>= fun _ => next) c).head? = some way ↔
      ∃ start, (∃ word, IsOfKind word ∧ Spaced c word start) ∧ (next start).head? = some way := by
  have hassoc : ((r >>= fun _ => blanks1) >>= fun _ => next) c = (r >>= fun _ => blanks1 >>= fun _ => next) c :=
    List.flatMap_assoc
  rw [hassoc, h.head?_bind hnext, exists_comm]
  simp only [← exists_and_right, and_assoc]

end ReadsWords

theorem literal_readsWords {text : String} (hne : text.toList ≠ [])
    (hunbroken : (text.toList.all (!isBlank ·)) = true) : ReadsWords (literal text) (· = text.toList) where
  spells := .literal text
  ne_nil word hword := hword ▸ hne
  unbroken word hword x hx := by
    subst hword
    simpa using List.all_eq_true.mp hunbroken x hx

theorem oneOf_readsWords (texts : List String)
    (h : (texts.all fun text => !text.toList.isEmpty && text.toList.all (!isBlank ·)) = true) :
    ReadsWords (oneOf texts) (∃ text ∈ texts, · = text.toList) := by
  have htext {text : String} (hmem : text ∈ texts) :
      text.toList ≠ [] ∧ ∀ x ∈ text.toList, isBlank x = false := by
    simpa using List.all_eq_true.mp h text hmem
  refine ⟨.oneOf texts, ?_, ?_⟩
  · intro word hword
    obtain ⟨text, hmem, rfl⟩ := hword
    exact (htext hmem).1
  · intro word hword
    obtain ⟨text, hmem, rfl⟩ := hword
    exact (htext hmem).2

theorem run1_readsWords {p : Char → Bool} (h : ∀ x, p x = true → isBlank x = false) :
    ReadsWords (run1 p) fun word => word ≠ [] ∧ ∀ x ∈ word, p x = true where
  spells := .run1 p
  ne_nil _ hword := hword.1
  unbroken _ hword x hx := h x (hword.2 x hx)

end EventAtlas.CSharp
