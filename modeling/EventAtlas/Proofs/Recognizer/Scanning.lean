import EventAtlas.Proofs.Recognizer.Choice
import Mathlib.Data.List.TakeWhile

namespace EventAtlas

/-- `c'` is the cursor behind the text `read`, which comes at `c`. -/
structure Cursor.After (c : Cursor) (read : List Char) (c' : Cursor) : Prop where
  rest : c.rest = read ++ c'.rest
  before : c'.before = read.getLast?.or c.before

/-- The cursor behind the characters with `p` that come next. -/
def Cursor.skipping (c : Cursor) (p : Char → Bool) : Cursor :=
  ⟨(c.rest.takeWhile p).getLast?.or c.before, c.rest.dropWhile p⟩

theorem getLast?_cons_or (x : Char) (read : List Char) (before : Option Char) :
    (x :: read).getLast?.or before = read.getLast?.or (some x) := by
  rw [List.getLast?_cons]
  cases read.getLast? with
  | none => rfl
  | some y => rfl

namespace Cursor

theorem after_nil {c c' : Cursor} : c.After [] c' ↔ c' = c := by
  constructor
  · intro h
    exact congrArg₂ Cursor.mk h.before h.rest.symm
  · intro h
    subst h
    exact ⟨rfl, rfl⟩

theorem after_cons {c c' : Cursor} {x : Char} {read : List Char} :
    c.After (x :: read) c' ↔ ∃ rest, c.rest = x :: rest ∧ Cursor.After ⟨some x, rest⟩ read c' := by
  constructor
  · intro h
    exact ⟨read ++ c'.rest, h.rest, rfl, h.before.trans (getLast?_cons_or x read c.before)⟩
  · intro h
    obtain ⟨rest, hrest, hafter⟩ := h
    refine ⟨?_, hafter.before.trans (getLast?_cons_or x read c.before).symm⟩
    rw [hrest, List.cons_append]
    exact congrArg (x :: ·) hafter.rest

theorem After.trans {c mid c' : Cursor} {first second : List Char} (h : c.After first mid)
    (h' : mid.After second c') : c.After (first ++ second) c' where
  rest := by rw [h.rest, h'.rest, List.append_assoc]
  before := by rw [h'.before, h.before, List.getLast?_append, Option.or_assoc]

theorem After.unique {c c₁ c₂ : Cursor} {read : List Char} (h₁ : c.After read c₁) (h₂ : c.After read c₂) :
    c₁ = c₂ := by
  have hrest : c₁.rest = c₂.rest := List.append_cancel_left (h₁.rest.symm.trans h₂.rest)
  exact congrArg₂ Cursor.mk (h₁.before.trans h₂.before.symm) hrest

theorem After.eq_of_length {c c₁ c₂ : Cursor} {read₁ read₂ : List Char} (h₁ : c.After read₁ c₁)
    (h₂ : c.After read₂ c₂) (hlength : c₁.rest.length = c₂.rest.length) : c₁ = c₂ := by
  obtain ⟨rfl, -⟩ := List.append_inj' (h₁.rest.symm.trans h₂.rest) hlength
  exact h₁.unique h₂

/-- What is read behind a first part, where both are read from one place. -/
theorem After.of_append {c mid c' : Cursor} {first second : List Char} (h : c.After (first ++ second) c')
    (hfirst : c.After first mid) : mid.After second c' where
  rest := by
    have hwhole := h.rest
    rw [hfirst.rest, List.append_assoc] at hwhole
    exact List.append_cancel_left hwhole
  before := by rw [h.before, hfirst.before, List.getLast?_append, Option.or_assoc]

/-- Two texts in a row are read one behind the other. -/
theorem after_append {c c' : Cursor} {first second : List Char} :
    c.After (first ++ second) c' ↔ ∃ mid, c.After first mid ∧ mid.After second c' := by
  constructor
  · intro h
    have hfirst : c.After first ⟨first.getLast?.or c.before, second ++ c'.rest⟩ :=
      ⟨h.rest.trans (List.append_assoc _ _ _), rfl⟩
    exact ⟨_, hfirst, h.of_append hfirst⟩
  · intro h
    obtain ⟨mid, hfirst, hsecond⟩ := h
    exact hfirst.trans hsecond

/-- What is skipped is read. -/
theorem after_skipping (c : Cursor) (p : Char → Bool) : c.After (c.rest.takeWhile p) (c.skipping p) :=
  ⟨List.takeWhile_append_dropWhile.symm, rfl⟩

/-- A run of characters with `p` that ends before another character is all that is skipped. -/
theorem After.eq_skipping {c c' : Cursor} {read : List Char} {p : Char → Bool} (h : c.After read c')
    (hread : ∀ x ∈ read, p x = true) (hend : c'.rest.head?.any p = false) :
    read = c.rest.takeWhile p ∧ c' = c.skipping p := by
  obtain ⟨hdrop, htake⟩ := Recognizer.dropWhile_of_head (s := c'.rest) (p := p) (by simp [hend])
  have hwhole : c.rest.takeWhile p = read := by
    rw [h.rest, List.takeWhile_append_of_pos hread, htake, List.append_nil]
  have hleft : c.rest.dropWhile p = c'.rest := by
    rw [h.rest, List.dropWhile_append_of_pos hread, hdrop]
  refine ⟨hwhole.symm, ?_⟩
  rw [skipping, hwhole, hleft, ← h.before]

theorem skipping_of_cons {c : Cursor} {p : Char → Bool} {x : Char} {rest : List Char} (hx : p x = true)
    (h : c.rest = x :: rest) : c.skipping p = Cursor.skipping ⟨some x, rest⟩ p := by
  simp only [skipping, h, List.takeWhile_cons_of_pos hx, List.dropWhile_cons_of_pos hx, getLast?_cons_or]

theorem skipping_head (c : Cursor) (p : Char → Bool) : (c.skipping p).rest.head?.any p = false := by
  have h := List.head?_dropWhile_not p c.rest
  change (c.rest.dropWhile p).head?.any p = false
  cases hhead : (c.rest.dropWhile p).head? with
  | none => rfl
  | some x => simpa [hhead] using h

theorem After.take_eq {c c' : Cursor} {read : List Char} (h : c.After read c') :
    c.rest.take (c.rest.length - c'.rest.length) = read := by
  rw [h.rest, List.length_append, Nat.add_sub_cancel, List.take_left]

/-- The cursor behind the next `n` characters. -/
def ahead (c : Cursor) (n : Nat) : Cursor := ⟨(c.rest.take n).getLast?.or c.before, c.rest.drop n⟩

theorem ahead_succ (before : Option Char) (x : Char) (rest : List Char) (n : Nat) :
    Cursor.ahead ⟨before, x :: rest⟩ (n + 1) = Cursor.ahead ⟨some x, rest⟩ n := by
  rw [ahead, ahead, List.take_succ_cons, List.drop_succ_cons, getLast?_cons_or]

private theorem rest_ahead_end (before : Option Char) (n : Nat) : (Cursor.ahead ⟨before, []⟩ n).rest = [] := by
  simp [ahead]

end Cursor

namespace Recognizer

variable {α β : Type}

/-- The readings of a text from left to right, none overlapping another: a place where nothing can be read is
left behind, and behind a reading the next one is looked for. -/
inductive Scan (Reads : Cursor → α → Cursor → Prop) : Cursor → List α → Prop where
  | nil (before : Option Char) : Scan Reads ⟨before, []⟩ []
  | skip {before : Option Char} {x : Char} {rest : List Char} {items : List α} :
      (∀ a c', ¬Reads ⟨before, x :: rest⟩ a c') → Scan Reads ⟨some x, rest⟩ items →
      Scan Reads ⟨before, x :: rest⟩ items
  | hit {c c' : Cursor} {a : α} {items : List α} :
      Reads c a c' → Scan Reads c' items → Scan Reads c (a :: items)

/-- The preferred way of `r` at a cursor is what `Reads` tells, and every reading takes some text. -/
structure Prefers (r : Recognizer α) (Reads : Cursor → α → Cursor → Prop) : Prop where
  head : ∀ c a c', (r c).head? = some (a, c') ↔ Reads c a c'
  advances : ∀ c a c', Reads c a c' → ∃ x read, c.After (x :: read) c'

private theorem findFrom_skip (r : Recognizer α) (read rest : List Char) (before : Option Char) :
    findFrom r read.length before (read ++ rest) = findFrom r 0 (read.getLast?.or before) rest := by
  induction read generalizing before with
  | nil => rfl
  | cons x read ih =>
    rw [List.length_cons, List.cons_append, findFrom, ih, getLast?_cons_or]

namespace Prefers

variable {r : Recognizer α} {Reads : Cursor → α → Cursor → Prop} (h : Prefers r Reads)

include h

theorem head?_eq_none {c : Cursor} (hnone : ∀ a c', ¬Reads c a c') : (r c).head? = none := by
  cases hhead : (r c).head? with
  | none => rfl
  | some way => exact absurd ((h.head c way.1 way.2).mp hhead) (hnone way.1 way.2)

theorem findFrom_hit {c c' : Cursor} {a : α} (hread : Reads c a c') :
    findFrom r 0 c.before c.rest = a :: findFrom r 0 c'.before c'.rest := by
  obtain ⟨x, read, hafter⟩ := h.advances c a c' hread
  have hrest : c.rest = x :: (read ++ c'.rest) := hafter.rest
  have hway : (r ⟨c.before, x :: (read ++ c'.rest)⟩).head? = some (a, c') := by
    rw [← hrest]
    exact (h.head c a c').mpr hread
  have hlength : (read ++ c'.rest).length - c'.rest.length = read.length := by simp
  rw [hrest, findFrom, hway]
  dsimp only
  rw [hlength, findFrom_skip, ← getLast?_cons_or, ← hafter.before]

theorem findFrom_miss {before : Option Char} {x : Char} {rest : List Char}
    (hnone : ∀ a c', ¬Reads ⟨before, x :: rest⟩ a c') :
    findFrom r 0 before (x :: rest) = findFrom r 0 (some x) rest := by
  rw [findFrom, h.head?_eq_none hnone]

theorem not_reads_end {c : Cursor} (hc : c.rest = []) (a : α) (c' : Cursor) : ¬Reads c a c' := by
  intro hread
  obtain ⟨x, read, hafter⟩ := h.advances _ a c' hread
  exact List.cons_ne_nil _ _ (hafter.rest.symm.trans hc)

theorem findFrom_end (before : Option Char) : findFrom r 0 before [] = [] := by
  rw [findFrom, h.head?_eq_none (h.not_reads_end rfl)]
  rfl

/-- The readings that are found are those of a scan. -/
theorem scan_findFrom (c : Cursor) : Scan Reads c (findFrom r 0 c.before c.rest) := by
  induction hn : c.rest.length using Nat.strong_induction_on generalizing c with
  | _ n ih =>
    by_cases hsome : ∃ a c', Reads c a c'
    · obtain ⟨a, c', hread⟩ := hsome
      obtain ⟨x, read, hafter⟩ := h.advances c a c' hread
      have hlength : c.rest.length = (x :: read).length + c'.rest.length := by
        rw [hafter.rest, List.length_append]
      have hshorter : c'.rest.length < n := by
        rw [List.length_cons] at hlength
        omega
      rw [h.findFrom_hit hread]
      exact .hit hread (ih _ hshorter c' rfl)
    · have hnone : ∀ a c', ¬Reads c a c' := by
        intro a c' hread
        exact hsome ⟨a, c', hread⟩
      obtain ⟨before, rest⟩ := c
      cases rest with
      | nil =>
        rw [h.findFrom_end]
        exact .nil before
      | cons x rest =>
        have hshorter : rest.length < n := by
          rw [← hn]
          simp
        rw [h.findFrom_miss hnone]
        exact .skip hnone (ih _ hshorter ⟨some x, rest⟩ rfl)

private theorem eq_of_scan {c : Cursor} {items : List α} (hscan : Scan Reads c items) :
    findFrom r 0 c.before c.rest = items := by
  induction hscan with
  | nil before => exact h.findFrom_end before
  | skip hnone _ ih => rw [h.findFrom_miss hnone, ih]
  | hit hread _ ih => rw [h.findFrom_hit hread, ih]

/-- All readings in a line are those that a scan from its start meets. -/
theorem findAll_eq_iff (line : List Char) (items : List α) :
    findAll r line = items ↔ Scan Reads ⟨none, line⟩ items := by
  constructor
  · intro heq
    subst heq
    exact h.scan_findFrom ⟨none, line⟩
  · exact h.eq_of_scan

/-- The first reading of a scan is the one that starts leftmost. -/
theorem head?_scan {c : Cursor} {items : List α} (hscan : Scan Reads c items) {a : α} :
    items.head? = some a ↔ ∃ n c', Reads (c.ahead n) a c' ∧ ∀ m < n, ∀ b c'', ¬Reads (c.ahead m) b c'' := by
  induction hscan with
  | nil before =>
    constructor
    · intro hnone
      cases hnone
    · intro hsome
      obtain ⟨n, c', hread, -⟩ := hsome
      exact absurd hread (h.not_reads_end (Cursor.rest_ahead_end before n) a c')
  | @skip before x rest items hnone _ ih =>
    rw [ih]
    constructor
    · intro hsome
      obtain ⟨n, c', hread, hfirst⟩ := hsome
      refine ⟨n + 1, c', by rwa [Cursor.ahead_succ], ?_⟩
      intro m hm b c''
      cases m with
      | zero => exact hnone b c''
      | succ m =>
        rw [Cursor.ahead_succ]
        exact hfirst m (by omega) b c''
    · intro hsome
      obtain ⟨n, c', hread, hfirst⟩ := hsome
      cases n with
      | zero => exact absurd hread (hnone a c')
      | succ n =>
        refine ⟨n, c', by rwa [← Cursor.ahead_succ], ?_⟩
        intro m hm b c''
        rw [← Cursor.ahead_succ]
        exact hfirst (m + 1) (by omega) b c''
  | @hit c c' b items hread _ _ =>
    rw [List.head?_cons, Option.some_inj]
    constructor
    · intro heq
      subst heq
      exact ⟨0, c', hread, fun m hm => absurd hm (Nat.not_lt_zero m)⟩
    · intro hsome
      obtain ⟨n, stop, hread', hfirst⟩ := hsome
      cases n with
      | zero =>
        have hsame := ((h.head c b c').mpr hread).symm.trans ((h.head c a stop).mpr hread')
        exact (Prod.mk.inj (Option.some.inj hsame)).1
      | succ n => exact absurd hread (hfirst 0 (Nat.succ_pos n) b c')

/-- The reading that is found first is the leftmost one. -/
theorem find?_eq_some_iff {line : List Char} {a : α} :
    find? r line = some a ↔ ∃ n c', Reads (Cursor.ahead ⟨none, line⟩ n) a c' ∧
      ∀ m < n, ∀ b c'', ¬Reads (Cursor.ahead ⟨none, line⟩ m) b c'' :=
  h.head?_scan (h.scan_findFrom ⟨none, line⟩)

end Prefers

/-- Where only one way of the first part leads on, the second part decides. -/
theorem head?_bind_of_unique {r : Recognizer α} {f : α → Recognizer β} {c : Cursor}
    (h : ∀ a mid b mid', (a, mid) ∈ r c → (b, mid') ∈ r c → f a mid ≠ [] → f b mid' ≠ [] → (a, mid) = (b, mid'))
    {way : β × Cursor} :
    ((r >>= f) c).head? = some way ↔ ∃ a mid, (a, mid) ∈ r c ∧ (f a mid).head? = some way := by
  change ((r c).flatMap fun first => f first.1 first.2).head? = some way ↔ _
  rw [List.head?_flatMap]
  constructor
  · intro hway
    obtain ⟨first, hfirst, hhead⟩ := List.exists_of_findSome?_eq_some hway
    exact ⟨first.1, first.2, hfirst, hhead⟩
  · intro hway
    obtain ⟨a, mid, hmem, hhead⟩ := hway
    have hleads {b : α} {mid' : Cursor} (hsome : (f b mid').head? ≠ none) : f b mid' ≠ [] :=
      fun hnil => hsome (by rw [hnil]; rfl)
    rw [findSome?_eq_of_unique hmem, hhead]
    intro b hb hsome
    exact h b.1 b.2 a mid hb hmem (hleads hsome) (hleads (by simp [hhead]))

/-- `r` reads in at most one way. -/
def Sure (r : Recognizer α) : Prop := ∀ c, (r c).length ≤ 1

namespace Sure

theorem eq_nil_or_singleton {r : Recognizer α} (h : Sure r) (c : Cursor) : r c = [] ∨ ∃ way, r c = [way] := by
  have hlength := h c
  cases hways : r c with
  | nil => exact .inl rfl
  | cons first rest =>
    right
    rw [hways, List.length_cons] at hlength
    have hrest : rest = [] := List.eq_nil_of_length_eq_zero (by omega)
    exact ⟨first, by rw [hrest]⟩

theorem head?_eq_some_iff {r : Recognizer α} (h : Sure r) {c : Cursor} {way : α × Cursor} :
    (r c).head? = some way ↔ way ∈ r c := by
  rcases h.eq_nil_or_singleton c with hnil | ⟨first, hfirst⟩
  · simp [hnil]
  · simp [hfirst, eq_comm]

/-- Where there is no choice in the first part, the second part decides. -/
theorem head?_bind {r : Recognizer α} (h : Sure r) {f : α → Recognizer β} {c : Cursor} {way : β × Cursor} :
    ((r >>= f) c).head? = some way ↔ ∃ a mid, (a, mid) ∈ r c ∧ (f a mid).head? = some way := by
  apply head?_bind_of_unique
  intro a mid b mid' ha hb _ _
  exact Option.some.inj ((h.head?_eq_some_iff.mpr ha).symm.trans (h.head?_eq_some_iff.mpr hb))

theorem pure (a : α) : Sure (Pure.pure a) := fun _ => Nat.le_refl 1

theorem one (p : Char → Bool) : Sure (one p) := by
  intro c
  unfold Recognizer.one
  cases c.rest with
  | nil => simp
  | cons x rest =>
    dsimp only
    split_ifs
    · simp
    · simp

theorem bind {r : Recognizer α} (h : Sure r) {f : α → Recognizer β} (hf : ∀ a, Sure (f a)) :
    Sure (r >>= f) := by
  intro c
  change ((r c).flatMap fun first => f first.1 first.2).length ≤ 1
  rcases h.eq_nil_or_singleton c with hnil | ⟨first, hfirst⟩
  · simp [hnil]
  · rw [hfirst, List.flatMap_singleton]
    exact hf first.1 first.2

theorem literalBy (same : Char → Char → Bool) (text : List Char) : Sure (literalBy same text) := by
  induction text with
  | nil => exact Sure.pure ()
  | cons x text ih => exact (Sure.one _).bind fun _ => ih

end Sure

/-- A given text is read where it comes. -/
theorem mem_literalBy_iff {text : List Char} {u : Unit} {c c' : Cursor} :
    (u, c') ∈ literalBy (· == ·) text c ↔ c.After text c' := by
  induction text generalizing c with
  | nil =>
    rw [Cursor.after_nil]
    simp [literalBy, pure]
  | cons x text ih =>
    rw [Cursor.after_cons, literalBy, mem_bind]
    constructor
    · intro h
      obtain ⟨_, mid, hfirst, hrest⟩ := h
      obtain ⟨y, hy, hread, hbefore⟩ := mem_one.mp hfirst
      obtain rfl : x = y := beq_iff_eq.mp hy
      refine ⟨mid.rest, hread, ?_⟩
      rw [← hbefore]
      exact ih.mp hrest
    · intro h
      obtain ⟨rest, hread, hafter⟩ := h
      exact ⟨(), ⟨some x, rest⟩, mem_one.mpr ⟨x, beq_self_eq_true x, hread, rfl⟩, ih.mpr hafter⟩

theorem mem_char_iff {x : Char} {u : Unit} {c c' : Cursor} : (u, c') ∈ char x c ↔ c.After [x] c' := by
  unfold char
  rw [mem_one, Cursor.after_cons]
  constructor
  · intro h
    obtain ⟨y, hy, hrest, hbefore⟩ := h
    obtain rfl : y = x := beq_iff_eq.mp hy
    exact ⟨c'.rest, hrest, Cursor.after_nil.mpr (congrArg₂ Cursor.mk hbefore rfl)⟩
  · intro h
    obtain ⟨rest, hrest, hafter⟩ := h
    obtain rfl := Cursor.after_nil.mp hafter
    exact ⟨x, beq_self_eq_true x, hrest, rfl⟩

theorem head?_char_bind {x : Char} {f : Unit → Recognizer β} {c : Cursor} {way : β × Cursor} :
    ((char x >>= f) c).head? = some way ↔ ∃ mid, c.After [x] mid ∧ (f () mid).head? = some way := by
  have hsure : Sure (char x) := Sure.one _
  rw [hsure.head?_bind]
  constructor
  · rintro ⟨_, mid, hmem, hhead⟩
    exact ⟨mid, mem_char_iff.mp hmem, hhead⟩
  · rintro ⟨mid, hread, hhead⟩
    exact ⟨(), mid, mem_char_iff.mpr hread, hhead⟩

theorem head?_literalBy_bind {text : List Char} {f : Unit → Recognizer β} {c : Cursor} {way : β × Cursor} :
    ((literalBy (· == ·) text >>= f) c).head? = some way ↔ ∃ mid, c.After text mid ∧ (f () mid).head? = some way := by
  rw [(Sure.literalBy _ _).head?_bind]
  constructor
  · intro h
    obtain ⟨_, mid, hmem, hhead⟩ := h
    exact ⟨mid, mem_literalBy_iff.mp hmem, hhead⟩
  · intro h
    obtain ⟨mid, hread, hhead⟩ := h
    exact ⟨(), mid, mem_literalBy_iff.mpr hread, hhead⟩

private theorem literalBy_bind_eq_nil_iff {text : List Char} {f : Unit → Recognizer β} {c : Cursor} :
    (literalBy (· == ·) text >>= f) c = [] ↔ ∀ mid, c.After text mid → f () mid = [] := by
  simp only [← List.head?_eq_none_iff, Option.eq_none_iff_forall_ne_some]
  constructor
  · intro h mid hread way hway
    exact h way (head?_literalBy_bind.mpr ⟨mid, hread, hway⟩)
  · intro h way hway
    obtain ⟨mid, hread, hhead⟩ := head?_literalBy_bind.mp hway
    exact h mid hread way hhead

/-- The texts that a set of tokens stands for, the preferred one first. -/
def tokenChoices (tokens : List String) : List (List Char) :=
  if tokenTexts tokens = [] then [[]] else tokenTexts tokens

private theorem token_bind_eq (tokens : List String) (f : Unit → Recognizer β) (c : Cursor) :
    (token tokens >>= f) c = (tokenChoices tokens).flatMap fun text => (literalBy (· == ·) text >>= f) c := by
  unfold token tokenBy tokenChoices
  split_ifs with hempty hnil hnil
  · simp [literalBy]
  · exact absurd (List.isEmpty_iff.mp hempty) hnil
  · exact absurd (List.isEmpty_iff.mpr hnil) hempty
  · exact List.flatMap_assoc

/-- Of the tokens that lead on the first one is read. -/
theorem head?_token_bind {tokens : List String} {f : Unit → Recognizer β} {c : Cursor} {way : β × Cursor} :
    ((token tokens >>= f) c).head? = some way ↔ ∃ earlier text later mid,
      tokenChoices tokens = earlier ++ text :: later ∧ c.After text mid ∧ (f () mid).head? = some way ∧
        ∀ other ∈ earlier, ∀ mid', c.After other mid' → f () mid' = [] := by
  rw [token_bind_eq, List.head?_flatMap, List.findSome?_eq_some_iff]
  simp only [head?_literalBy_bind, List.head?_eq_none_iff, literalBy_bind_eq_nil_iff]
  constructor
  · intro h
    obtain ⟨earlier, text, later, htexts, ⟨mid, hread, hhead⟩, hearlier⟩ := h
    exact ⟨earlier, text, later, mid, htexts, hread, hhead, hearlier⟩
  · intro h
    obtain ⟨earlier, text, later, mid, htexts, hread, hhead, hearlier⟩ := h
    exact ⟨earlier, text, later, htexts, ⟨mid, hread, hhead⟩, hearlier⟩

/-- A run can end behind any number of its characters. -/
theorem mem_run_iff {p : Char → Bool} {u : Unit} {c c' : Cursor} :
    (u, c') ∈ run p c ↔ ∃ read, c.After read c' ∧ ∀ x ∈ read, p x = true := by
  rw [mem_run]
  constructor
  · intro h
    obtain ⟨read, hrest, hall, hbefore⟩ := h
    exact ⟨read, ⟨hrest, hbefore⟩, hall⟩
  · intro h
    obtain ⟨read, hafter, hall⟩ := h
    exact ⟨read, hafter.rest, hall, hafter.before⟩

/-- `r` reads the texts of a kind, wherever they come. -/
def Spells (r : Recognizer Unit) (IsOfKind : List Char → Prop) : Prop :=
  ∀ c u c', (u, c') ∈ r c ↔ ∃ read, IsOfKind read ∧ c.After read c'

/-- A run can stop at the end of the characters with `p`, and earlier only before such a character. -/
theorem stops_eq_append (p : Char → Bool) (before : Option Char) (s : List Char) :
    ∃ earlier, stops p before s = earlier ++ [Cursor.skipping ⟨before, s⟩ p] ∧
      ∀ c ∈ earlier, c.rest.head?.any p = true := by
  induction s generalizing before with
  | nil => exact ⟨[], rfl, by simp⟩
  | cons x s ih =>
    rw [stops]
    by_cases hx : p x = true
    · obtain ⟨earlier, hstops, hearlier⟩ := ih (some x)
      refine ⟨⟨before, x :: s⟩ :: earlier, ?_, ?_⟩
      · have hskip := Cursor.skipping_of_cons (c := ⟨before, x :: s⟩) hx rfl
        rw [if_pos hx, hstops, hskip, List.cons_append]
      · intro c hc
        rcases List.mem_cons.mp hc with rfl | hc
        · simpa using hx
        · exact hearlier c hc
    · refine ⟨[], ?_, by simp⟩
      simp [hx, Cursor.skipping]

theorem run_eq_cons (p : Char → Bool) (c : Cursor) :
    ∃ shorter, run p c = ((), c.skipping p) :: shorter ∧ ∀ way ∈ shorter, way.2.rest.head?.any p = true := by
  obtain ⟨earlier, hstops, hearlier⟩ := stops_eq_append p c.before c.rest
  refine ⟨earlier.reverse.map fun c' => ((), c'), ?_, ?_⟩
  · unfold run
    rw [hstops]
    simp
  · intro way hway
    obtain ⟨c', hc', rfl⟩ := List.mem_map.mp hway
    exact hearlier c' (List.mem_reverse.mp hc')

private theorem head?_run (p : Char → Bool) (c : Cursor) : (run p c).head? = some ((), c.skipping p) := by
  obtain ⟨shorter, hrun, -⟩ := run_eq_cons p c
  rw [hrun, List.head?_cons]

/-- A text of characters with `p`, the first one also with `q`, is all the characters with `p` that come. -/
theorem head?_text_one_run {q p : Char → Bool} (h : ∀ x, q x = true → p x = true) {c c' : Cursor} {s : List Char} :
    (text (one q >>= fun _ => run p) c).head? = some (s, c') ↔
      c.rest.head?.any q = true ∧ s = c.rest.takeWhile p ∧ c' = c.skipping p := by
  have htext : (text (one q >>= fun _ => run p) c).head? = ((one q >>= fun _ => run p) c).head?.map fun way =>
      (c.rest.take (c.rest.length - way.2.rest.length), way.2) := List.head?_map
  have hread (way : Unit × Cursor) : ((one q >>= fun _ => run p) c).head? = some way ↔
      c.rest.head?.any q = true ∧ way = ((), c.skipping p) := by
    rw [(Sure.one _).head?_bind]
    simp only [head?_run, mem_one]
    constructor
    · intro hway
      obtain ⟨_, mid, ⟨x, hx, hrest, hbefore⟩, hway⟩ := hway
      have hmid : c.skipping p = mid.skipping p := by
        rw [Cursor.skipping_of_cons (h x hx) hrest, ← hbefore]
      refine ⟨by simp [hrest, hx], ?_⟩
      rw [hmid]
      exact (Option.some.inj hway).symm
    · intro hway
      obtain ⟨hstart, rfl⟩ := hway
      cases hrest : c.rest with
      | nil => simp [hrest] at hstart
      | cons x rest =>
        have hx : q x = true := by simpa [hrest] using hstart
        refine ⟨(), ⟨some x, rest⟩, ⟨x, hx, rfl, rfl⟩, ?_⟩
        rw [Cursor.skipping_of_cons (h x hx) hrest]
  rw [htext, Option.map_eq_some_iff]
  constructor
  · intro hway
    obtain ⟨way, hway, heq⟩ := hway
    obtain ⟨hstart, rfl⟩ := (hread way).mp hway
    obtain ⟨rfl, rfl⟩ := Prod.mk.inj heq
    exact ⟨hstart, (c.after_skipping p).take_eq, rfl⟩
  · intro hway
    obtain ⟨hstart, rfl, rfl⟩ := hway
    exact ⟨((), c.skipping p), (hread _).mpr ⟨hstart, rfl⟩, by rw [(c.after_skipping p).take_eq]⟩

theorem head?_text_run1 {p : Char → Bool} {c c' : Cursor} {s : List Char} :
    (text (run1 p) c).head? = some (s, c') ↔
      c.After s c' ∧ s ≠ [] ∧ (∀ x ∈ s, p x = true) ∧ c'.rest.head?.any p = false := by
  have hread : (text (run1 p) c).head? = some (s, c') ↔
      c.rest.head?.any p = true ∧ s = c.rest.takeWhile p ∧ c' = c.skipping p := head?_text_one_run fun _ => id
  rw [hread]
  constructor
  · intro h
    obtain ⟨hstart, rfl, rfl⟩ := h
    refine ⟨c.after_skipping p, ?_, fun x hx => List.mem_takeWhile_imp hx, c.skipping_head p⟩
    cases hrest : c.rest with
    | nil => simp [hrest] at hstart
    | cons x rest =>
      have hx : p x = true := by simpa [hrest] using hstart
      rw [List.takeWhile_cons_of_pos hx]
      exact List.cons_ne_nil _ _
  · intro h
    obtain ⟨hafter, hne, hall, hend⟩ := h
    refine ⟨?_, hafter.eq_skipping hall hend⟩
    obtain ⟨x, read, rfl⟩ := List.exists_cons_of_ne_nil hne
    simp [hafter.rest, hall x List.mem_cons_self]

/-- A run takes all it can if what follows cannot start before one of its characters. -/
theorem run_bind_of_refuses {p : Char → Bool} {f : Unit → Recognizer β} (hf : Refuses p (f ())) (c : Cursor) :
    (run p >>= f) c = f () (c.skipping p) := by
  obtain ⟨shorter, hrun, hshorter⟩ := run_eq_cons p c
  change (run p c).flatMap (fun way => f way.1 way.2) = _
  rw [hrun, List.flatMap_cons, List.flatMap_eq_nil_iff.mpr, List.append_nil]
  intro way hway
  exact hf way.2 (hshorter way hway)

/-- More readings than there are characters left make no difference. -/
theorem repeatUpTo_eq (r : Recognizer Unit) {n m : Nat} {c : Cursor} (hn : c.rest.length ≤ n)
    (hm : c.rest.length ≤ m) : repeatUpTo r n c = repeatUpTo r m c := by
  -- A way that is followed leaves less text, so neither bound is met before the text ends.
  have hstuck {c : Cursor} (hc : c.rest.length = 0) (m : Nat) : repeatUpTo r m c = [((), c)] := by
    cases m with
    | zero => rfl
    | succ m => simp [repeatUpTo, hc]
  induction n generalizing m c with
  | zero =>
    have hc : c.rest.length = 0 := by omega
    rw [hstuck hc, hstuck hc]
  | succ n ih =>
    cases m with
    | zero =>
      have hc : c.rest.length = 0 := by omega
      rw [hstuck hc, hstuck hc]
    | succ m =>
      have hways : (fun way : Unit × Cursor =>
          if way.2.rest.length < c.rest.length then repeatUpTo r n way.2 else []) =
          fun way => if way.2.rest.length < c.rest.length then repeatUpTo r m way.2 else [] := by
        funext way
        split_ifs with hshorter
        · exact ih (by omega) (by omega)
        · rfl
      exact congrArg (fun go => (r c).flatMap go ++ [((), c)]) hways

/-- Repetition reads once more and goes on from there, or stops. -/
theorem many_eq {r : Recognizer Unit} (hshorter : ∀ c way, way ∈ r c → way.2.rest.length < c.rest.length)
    (c : Cursor) : many r c = (r >>= fun _ => many r) c ++ [((), c)] := by
  have hunfold : many r c = (r c).flatMap (fun way =>
      if way.2.rest.length < c.rest.length then repeatUpTo r c.rest.length way.2 else []) ++ [((), c)] := by
    have hmore : many r c = repeatUpTo r (c.rest.length + 1) c := repeatUpTo_eq r (by omega) (by omega)
    rw [hmore, repeatUpTo]
  have hways : (r c).flatMap (fun way =>
      if way.2.rest.length < c.rest.length then repeatUpTo r c.rest.length way.2 else []) =
      (r c).flatMap fun way => many r way.2 := by
    apply List.flatMap_congr
    intro way hway
    have hlt := hshorter c way hway
    rw [if_pos hlt]
    exact repeatUpTo_eq r (by omega) (by omega)
  rw [hunfold, hways]
  rfl

namespace Spells

variable {r s : Recognizer Unit} {P Q : List Char → Prop}

theorem congr (hr : Spells r P) (h : ∀ read, P read ↔ Q read) : Spells r Q := by
  intro c u c'
  rw [hr c u c']
  exact exists_congr fun read => and_congr_left fun _ => h read

theorem run (p : Char → Bool) : Spells (run p) fun read => ∀ x ∈ read, p x = true := by
  intro c u c'
  rw [mem_run_iff]
  exact exists_congr fun read => and_comm

theorem char (x : Char) : Spells (char x) (· = [x]) := by
  intro c u c'
  rw [mem_char_iff, exists_eq_left]

theorem literal (text : String) : Spells (literal text) (· = text.toList) := by
  intro c u c'
  rw [exists_eq_left]
  exact mem_literalBy_iff

theorem oneOf (texts : List String) : Spells (oneOf texts) (∃ text ∈ texts, · = text.toList) := by
  intro c u c'
  unfold Recognizer.oneOf oneOfBy
  simp only [List.mem_flatMap, List.mem_map, mem_literalBy_iff]
  simp only [@eq_comm _ (String.toList _)]

theorem run1 (p : Char → Bool) : Spells (run1 p) fun read => read ≠ [] ∧ ∀ x ∈ read, p x = true := by
  intro c u c'
  unfold Recognizer.run1
  simp only [mem_bind, mem_one, mem_run_iff]
  constructor
  · intro h
    obtain ⟨_, mid, ⟨x, hx, hrest, hbefore⟩, read, hread, hall⟩ := h
    refine ⟨x :: read, ⟨List.cons_ne_nil _ _, List.forall_mem_cons.mpr ⟨hx, hall⟩⟩, ?_⟩
    rw [Cursor.after_cons]
    exact ⟨mid.rest, hrest, hbefore ▸ hread⟩
  · intro h
    obtain ⟨read, ⟨hne, hall⟩, hread⟩ := h
    obtain ⟨x, read, rfl⟩ := List.exists_cons_of_ne_nil hne
    obtain ⟨hx, hall⟩ := List.forall_mem_cons.mp hall
    obtain ⟨rest, hrest, hread⟩ := Cursor.after_cons.mp hread
    exact ⟨(), ⟨some x, rest⟩, ⟨x, hx, hrest, rfl⟩, read, hread, hall⟩

theorem bind (hr : Spells r P) (hs : Spells s Q) :
    Spells (r >>= fun _ => s) fun read => ∃ first second, P first ∧ Q second ∧ read = first ++ second := by
  intro c u c'
  rw [mem_bind]
  constructor
  · rintro ⟨_, mid, hfirst, hsecond⟩
    obtain ⟨first, hP, hread⟩ := (hr c _ mid).mp hfirst
    obtain ⟨second, hQ, hread'⟩ := (hs mid _ c').mp hsecond
    exact ⟨_, ⟨first, second, hP, hQ, rfl⟩, hread.trans hread'⟩
  · rintro ⟨_, ⟨first, second, hP, hQ, rfl⟩, hread⟩
    obtain ⟨mid, hfirst, hsecond⟩ := Cursor.after_append.mp hread
    exact ⟨(), mid, (hr c _ mid).mpr ⟨first, hP, hfirst⟩, (hs mid _ c').mpr ⟨second, hQ, hsecond⟩⟩

theorem optional (hr : Spells r P) : Spells (optional r) fun read => P read ∨ read = [] := by
  intro c u c'
  change (u, c') ∈ r c ++ [((), c)] ↔ _
  rw [List.mem_append, hr c u c', List.mem_singleton, Prod.mk.injEq, ← Cursor.after_nil]
  simp only [or_and_right, exists_or, exists_eq_left, true_and]

/-- Readings in a row, where none of them is empty. -/
theorem many (hr : Spells r P) (hne : ∀ read, P read → read ≠ []) :
    Spells (many r) fun read => ∃ parts : List (List Char), (∀ part ∈ parts, P part) ∧ read = parts.flatten := by
  have hshorter (c : Cursor) (way : Unit × Cursor) (hway : way ∈ r c) : way.2.rest.length < c.rest.length := by
    obtain ⟨read, hP, hread⟩ := (hr c way.1 way.2).mp hway
    have hpos := List.length_pos_iff.mpr (hne read hP)
    rw [hread.rest, List.length_append]
    omega
  intro c u c'
  induction hn : c.rest.length using Nat.strong_induction_on generalizing c with
  | _ n ih =>
    rw [many_eq hshorter, List.mem_append, mem_bind, List.mem_singleton, Prod.mk.injEq]
    constructor
    · rintro (⟨_, mid, hfirst, hmore⟩ | ⟨-, rfl⟩)
      · obtain ⟨read, hP, hread⟩ := (hr c _ mid).mp hfirst
        obtain ⟨_, ⟨parts, hparts, rfl⟩, hrest⟩ := (ih _ (hn ▸ hshorter c _ hfirst) mid rfl).mp hmore
        exact ⟨_, ⟨read :: parts, List.forall_mem_cons.mpr ⟨hP, hparts⟩, rfl⟩, hread.trans hrest⟩
      · exact ⟨[], ⟨[], by simp, rfl⟩, Cursor.after_nil.mpr rfl⟩
    · rintro ⟨_, ⟨parts, hparts, rfl⟩, hread⟩
      cases parts with
      | nil => exact .inr ⟨rfl, Cursor.after_nil.mp hread⟩
      | cons part parts =>
        obtain ⟨hP, hparts⟩ := List.forall_mem_cons.mp hparts
        obtain ⟨mid, hfirst, hrest⟩ := Cursor.after_append.mp hread
        have hway : ((), mid) ∈ r c := (hr c _ mid).mpr ⟨part, hP, hfirst⟩
        refine .inl ⟨(), mid, hway, ?_⟩
        exact (ih _ (hn ▸ hshorter c _ hway) mid rfl).mpr ⟨_, ⟨parts, hparts, rfl⟩, hrest⟩

/-- Something can be read from the start of a line exactly if the line starts with a text of the kind. -/
theorem isSome_atStart?_iff (hr : Spells r P) {line : List Char} :
    (atStart? r line).isSome = true ↔ ∃ read rest, P read ∧ line = read ++ rest := by
  rw [atStart?, Option.isSome_map, List.isSome_head?]
  constructor
  · intro h
    obtain ⟨way, hway⟩ := List.exists_mem_of_ne_nil _ h
    obtain ⟨read, hP, hread⟩ := (hr _ way.1 way.2).mp hway
    exact ⟨read, way.2.rest, hP, hread.rest⟩
  · rintro ⟨read, rest, hP, rfl⟩
    have hway : ((), ⟨read.getLast?.or none, rest⟩) ∈ r ⟨none, read ++ rest⟩ :=
      (hr _ _ _).mpr ⟨read, hP, rfl, rfl⟩
    exact List.ne_nil_of_mem hway

end Spells

/-- What `r` leaves to read is the end of what it found. -/
def Consumes (r : Recognizer α) : Prop := ∀ c a c', (a, c') ∈ r c → c'.rest <:+ c.rest

namespace Consumes

theorem pure (a : α) : Consumes (Pure.pure a) := by
  intro c b c' h
  obtain ⟨-, rfl⟩ := Prod.mk.inj (List.mem_singleton.mp h)
  exact List.suffix_refl _

theorem bind {r : Recognizer α} {f : α → Recognizer β} (hr : Consumes r) (hf : ∀ a, Consumes (f a)) :
    Consumes (r >>= f) := by
  intro c b c' h
  obtain ⟨a, mid, ha, hb⟩ := mem_bind.mp h
  exact (hf a mid b c' hb).trans (hr c a mid ha)

theorem one (p : Char → Bool) : Consumes (one p) := by
  intro c u c' h
  obtain ⟨x, -, hrest, -⟩ := mem_one.mp h
  rw [hrest]
  exact List.suffix_cons x _

theorem run (p : Char → Bool) : Consumes (run p) := by
  intro c u c' h
  obtain ⟨read, hrest, -⟩ := mem_run.mp h
  exact ⟨read, hrest.symm⟩

theorem shortRun (p : Char → Bool) : Consumes (shortRun p) := by
  intro c u c' h
  obtain ⟨stop, hstop, heq⟩ := List.mem_map.mp h
  obtain ⟨read, hrest, -⟩ := mem_stops.mp hstop
  obtain ⟨-, rfl⟩ := Prod.mk.inj heq
  exact ⟨read, hrest.symm⟩

theorem optional {r : Recognizer Unit} (h : Consumes r) : Consumes (optional r) := by
  intro c u c' hway
  rcases List.mem_append.mp hway with hread | hnone
  · exact h c u c' hread
  · exact Consumes.pure () c u c' hnone

theorem repeatUpTo {r : Recognizer Unit} (h : Consumes r) (n : Nat) : Consumes (repeatUpTo r n) := by
  induction n with
  | zero => exact Consumes.pure ()
  | succ n ih =>
    intro c u c' hway
    rcases List.mem_append.mp hway with hmore | hnone
    · obtain ⟨⟨_, mid⟩, hmid, hway⟩ := List.mem_flatMap.mp hmore
      split_ifs at hway
      · exact (ih mid u c' hway).trans (h c _ mid hmid)
      · cases hway
    · exact Consumes.pure () c u c' hnone

theorem many {r : Recognizer Unit} (h : Consumes r) : Consumes (many r) :=
  fun c => h.repeatUpTo c.rest.length c

theorem tokenBy (same : Char → Char → Bool) (tokens : List String) : Consumes (tokenBy same tokens) := by
  intro c u c' h
  rcases mem_tokenBy.mp h with ⟨-, heq⟩ | ⟨text, -, hread⟩
  · obtain ⟨-, rfl⟩ := Prod.mk.inj heq
    exact List.suffix_refl _
  · obtain ⟨read, hrest, -⟩ := mem_literalBy hread
    exact ⟨read, hrest.symm⟩

/-- The text that is read and what is left make up what was found. -/
theorem rest_of_mem_text {r : Recognizer Unit} (h : Consumes r) {s : List Char} {c c' : Cursor}
    (hway : (s, c') ∈ Recognizer.text r c) : c.rest = s ++ c'.rest := by
  obtain ⟨hread, rfl⟩ := mem_text.mp hway
  obtain ⟨read, hrest⟩ := h c () c' hread
  rw [← hrest, List.length_append, Nat.add_sub_cancel, List.take_left]

end Consumes

end Recognizer

end EventAtlas
