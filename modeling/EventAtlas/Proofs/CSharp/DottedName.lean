import EventAtlas.Proofs.CSharp.Name
import EventAtlas.Proofs.CSharp.Words

namespace EventAtlas.CSharp

open Recognizer Text

/-- A name that comes at a cursor and ends where its word does. -/
structure WholeName (c : Cursor) (name : List Char) (c' : Cursor) : Prop where
  after : c.After name c'
  spelled : SpelledBy isNameStart name
  ends : c'.rest.head?.any isWord = false

/-- The last part of a dotted name that comes at a cursor: the name goes on behind each dot that another name
follows. -/
inductive DottedName : Cursor → List Char → Cursor → Prop where
  | last {c c' : Cursor} {name : List Char} :
      WholeName c name c' → (∀ x rest, c'.rest = '.' :: x :: rest → isNameStart x = false) →
      DottedName c name c'
  | behindDot {c mid next c' : Cursor} {segment name : List Char} :
      WholeName c segment mid → mid.After ['.'] next → DottedName next name c' → DottedName c name c'

theorem DottedName.exists_after {c c' : Cursor} {s : List Char} (h : DottedName c s c') : ∃ read, c.After read c' := by
  induction h with
  | last hname _ => exact ⟨_, hname.after⟩
  | behindDot hname hdot _ ih =>
    obtain ⟨read, hread⟩ := ih
    exact ⟨_, (hname.after.trans hdot).trans hread⟩

/-- A whole name is all the word characters that come, and it starts as a name does. -/
theorem wholeName_iff {c c' : Cursor} {name : List Char} :
    WholeName c name c' ↔
      c.rest.head?.any isNameStart = true ∧ name = c.rest.takeWhile isWord ∧ c' = c.skipping isWord := by
  constructor
  · intro h
    obtain ⟨first, rest, rfl, hfirst, hrest⟩ := h.spelled
    have hword : ∀ x ∈ first :: rest, isWord x = true :=
      List.forall_mem_cons.mpr ⟨isWord_of_isNameStart hfirst, hrest⟩
    refine ⟨?_, h.after.eq_skipping hword h.ends⟩
    simp [h.after.rest, hfirst]
  · intro h
    obtain ⟨hstart, rfl, rfl⟩ := h
    refine ⟨c.after_skipping isWord, ?_, c.skipping_head isWord⟩
    cases hrest : c.rest with
    | nil => simp [hrest] at hstart
    | cons x rest =>
      have hx : isNameStart x = true := by simpa [hrest] using hstart
      refine ⟨x, rest.takeWhile isWord, List.takeWhile_cons_of_pos (isWord_of_isNameStart hx), hx, ?_⟩
      intro y hy
      exact List.mem_takeWhile_imp hy

theorem WholeName.unique {c mid mid' : Cursor} {s s' : List Char} (h : WholeName c s mid) (h' : WholeName c s' mid') :
    s = s' ∧ mid = mid' := by
  obtain ⟨-, rfl, rfl⟩ := wholeName_iff.mp h
  obtain ⟨-, rfl, rfl⟩ := wholeName_iff.mp h'
  exact ⟨rfl, rfl⟩

/-- The preferred way to read a name is the whole of it. -/
theorem head?_name {c c' : Cursor} {s : List Char} : (name c).head? = some (s, c') ↔ WholeName c s c' := by
  rw [wholeName_iff]
  exact head?_text_one_run fun _ => isWord_of_isNameStart

private theorem wholeName_of_mem {c mid : Cursor} {s : List Char} (h : (s, mid) ∈ name c)
    (hend : mid.rest.head?.any isWord = false) : WholeName c s mid := by
  obtain ⟨hread, rfl⟩ := mem_text.mp h
  obtain ⟨_, start, hfirst, hrun⟩ := mem_bind.mp hread
  obtain ⟨first, hstart, hrest, hbefore⟩ := mem_one.mp hfirst
  obtain ⟨more, hmore, hword⟩ := mem_run_iff.mp hrun
  have hafter : c.After (first :: more) mid := Cursor.after_cons.mpr ⟨start.rest, hrest, hbefore ▸ hmore⟩
  rw [hafter.take_eq]
  exact ⟨hafter, ⟨first, more, rfl, hstart, hword⟩, hend⟩

/-- A name takes its whole word if what follows cannot start inside a word. -/
theorem head?_name_bind {α : Type} {f : List Char → Recognizer α} (hf : ∀ s, Refuses isWord (f s)) {c : Cursor}
    {way : α × Cursor} :
    ((name >>= f) c).head? = some way ↔ ∃ s mid, WholeName c s mid ∧ (f s mid).head? = some way := by
  have hwhole {s : List Char} {mid : Cursor} (hmem : (s, mid) ∈ name c) (hleads : f s mid ≠ []) :
      WholeName c s mid := wholeName_of_mem hmem ((hf s).head_of_ne_nil hleads)
  rw [head?_bind_of_unique]
  · constructor
    · intro h
      obtain ⟨s, mid, hmem, hhead⟩ := h
      exact ⟨s, mid, hwhole hmem (List.ne_nil_of_mem (List.mem_of_head? hhead)), hhead⟩
    · intro h
      obtain ⟨s, mid, hname, hhead⟩ := h
      exact ⟨s, mid, List.mem_of_head? (head?_name.mpr hname), hhead⟩
  · intro s mid s' mid' hmem hmem' hleads hleads'
    obtain ⟨rfl, rfl⟩ := (hwhole hmem hleads).unique (hwhole hmem' hleads')
    rfl

theorem mem_segment {c next : Cursor} {u : Unit} :
    (u, next) ∈ segment c ↔ ∃ s mid, WholeName c s mid ∧ mid.After ['.'] next := by
  unfold segment
  simp only [mem_bind, mem_one, mem_run_iff, mem_char_iff]
  constructor
  · intro h
    obtain ⟨_, start, ⟨x, hx, hrest, hbefore⟩, _, mid, ⟨read, hread, hword⟩, hdot⟩ := h
    have hwhole : c.After (x :: read) mid := by
      refine Cursor.after_cons.mpr ⟨start.rest, hrest, ?_⟩
      rwa [← hbefore]
    have hmark : isWord '.' = false := by decide
    exact ⟨x :: read, mid, ⟨hwhole, ⟨x, read, rfl, hx, hword⟩, by simp [hdot.rest, hmark]⟩, hdot⟩
  · intro h
    obtain ⟨s, mid, hname, hdot⟩ := h
    obtain ⟨first, rest, rfl, hfirst, hrest⟩ := hname.spelled
    obtain ⟨rest', hc, hafter⟩ := Cursor.after_cons.mp hname.after
    exact ⟨(), ⟨some first, rest'⟩, ⟨first, hfirst, hc, rfl⟩, (), mid, ⟨rest, hafter, hrest⟩, hdot⟩

/-- A name before a dot is read in one way only. -/
theorem segment_sure : Sure segment := by
  have hdot : Refuses isWord (char '.') := .char (by decide)
  apply (Sure.one _).bind
  intro _ c
  rw [run_bind_of_refuses hdot]
  exact Sure.one _ _

private theorem shorter_behind_dot {c mid next : Cursor} {s : List Char} (hname : WholeName c s mid)
    (hdot : mid.After ['.'] next) : next.rest.length < c.rest.length := by
  rw [hname.after.rest, hdot.rest, List.length_append, List.length_append, List.length_singleton]
  omega

private theorem segment_shorter {c : Cursor} {way : Unit × Cursor} (h : way ∈ segment c) :
    way.2.rest.length < c.rest.length := by
  obtain ⟨s, mid, hname, hdot⟩ := mem_segment.mp h
  exact shorter_behind_dot hname hdot

/-- A dotted name goes on behind its first segment, or it is a single name. -/
theorem dotted_eq (c : Cursor) : dotted c = (segment >>= fun _ => dotted) c ++ name c := by
  have hmany : qualifier c = (segment >>= fun _ => qualifier) c ++ [((), c)] :=
    many_eq (fun _ _ => segment_shorter) c
  have hdotted (c : Cursor) : dotted c = (qualifier c).flatMap fun way => name way.2 := rfl
  rw [hdotted, hmany, List.flatMap_append, List.flatMap_singleton]
  congr 1
  exact List.flatMap_assoc

theorem head?_segment_bind {α : Type} {r : Recognizer α} {c : Cursor} {way : α × Cursor} :
    ((segment >>= fun _ => r) c).head? = some way ↔
      ∃ first mid next, WholeName c first mid ∧ mid.After ['.'] next ∧ (r next).head? = some way := by
  rw [segment_sure.head?_bind]
  simp only [mem_segment]
  constructor
  · intro h
    obtain ⟨_, next, ⟨first, mid, hname, hdot⟩, hhead⟩ := h
    exact ⟨first, mid, next, hname, hdot, hhead⟩
  · intro h
    obtain ⟨first, mid, next, hname, hdot, hhead⟩ := h
    exact ⟨(), next, ⟨first, mid, hname, hdot⟩, hhead⟩

/-- A dotted name can be read exactly where a name can start. -/
theorem exists_dotted_iff (c : Cursor) :
    (∃ s c', (dotted c).head? = some (s, c')) ↔ c.rest.head?.any isNameStart = true := by
  simp only [dotted_eq c, List.head?_append, Option.or_eq_some_iff, head?_name]
  constructor
  · intro h
    obtain ⟨s, c', hmore | ⟨-, hname⟩⟩ := h
    · obtain ⟨_, _, _, hname, -, -⟩ := head?_segment_bind.mp hmore
      exact (wholeName_iff.mp hname).1
    · exact (wholeName_iff.mp hname).1
  · intro hstart
    cases hmore : ((segment >>= fun _ => dotted) c).head? with
    | none => exact ⟨_, _, .inr ⟨rfl, wholeName_iff.mpr ⟨hstart, rfl, rfl⟩⟩⟩
    | some way => exact ⟨way.1, way.2, .inl rfl⟩

/-- What is preferred of a dotted name is its last part. -/
theorem head?_dotted {c c' : Cursor} {s : List Char} : (dotted c).head? = some (s, c') ↔ DottedName c s c' := by
  induction hn : c.rest.length using Nat.strong_induction_on generalizing c with
  | _ n ih =>
    rw [dotted_eq, List.head?_append, Option.or_eq_some_iff, head?_name]
    have hshorter {first : List Char} {mid next : Cursor} (hname : WholeName c first mid)
        (hdot : mid.After ['.'] next) : next.rest.length < n :=
      hn ▸ shorter_behind_dot hname hdot
    constructor
    · intro h
      rcases h with hmore | ⟨hnone, hname⟩
      · obtain ⟨first, mid, next, hname, hdot, hhead⟩ := head?_segment_bind.mp hmore
        exact .behindDot hname hdot ((ih _ (hshorter hname hdot) rfl).mp hhead)
      · refine .last hname ?_
        intro x rest hrest
        by_contra hx
        have hdot : c'.After ['.'] ⟨some '.', x :: rest⟩ := ⟨hrest, rfl⟩
        obtain ⟨t, stop, hhead⟩ := (exists_dotted_iff ⟨some '.', x :: rest⟩).mpr (by simpa using hx)
        have hsome := head?_segment_bind.mpr ⟨s, c', _, hname, hdot, hhead⟩
        rw [hnone] at hsome
        cases hsome
    · intro h
      cases h with
      | last hname hend =>
        right
        refine ⟨?_, hname⟩
        rw [Option.eq_none_iff_forall_ne_some]
        intro way hway
        obtain ⟨first, mid, next, hfirst, hdot, hhead⟩ := head?_segment_bind.mp hway
        have hmid : mid = c' := (hfirst.unique hname).2
        have hstart := (exists_dotted_iff next).mp ⟨_, _, hhead⟩
        cases hnext : next.rest with
        | nil => simp [hnext] at hstart
        | cons x rest =>
          have hx : isNameStart x = true := by simpa [hnext] using hstart
          have hopen := hend x rest (by rw [← hmid, hdot.rest, hnext]; rfl)
          rw [hx] at hopen
          exact Bool.noConfusion hopen
      | behindDot hname hdot hrest =>
        left
        exact head?_segment_bind.mpr ⟨_, _, _, hname, hdot, (ih _ (hshorter hname hdot) rfl).mpr hrest⟩

theorem dotted_refuses_blanks : Refuses isBlank dotted := by
  intro c hc
  by_contra hne
  obtain ⟨way, ways, hways⟩ := List.exists_cons_of_ne_nil hne
  have hstart := (exists_dotted_iff c).mp ⟨way.1, way.2, by rw [hways, List.head?_cons]⟩
  cases hrest : c.rest with
  | nil => simp [hrest] at hc
  | cons x rest =>
    have hblank : isBlank x = true := by simpa [hrest] using hc
    have hname : isNameStart x = true := by simpa [hrest] using hstart
    have hword := isWord_of_isNameStart hname
    rw [isWord_of_isBlank hblank] at hword
    exact Bool.noConfusion hword

theorem isBlank_of_isNamespaceChar {x : Char} (h : isNamespaceChar x = true) : isBlank x = false := by
  rw [isNamespaceChar, Bool.or_eq_true, beq_iff_eq] at h
  rcases h with hword | rfl
  · exact isBlank_of_isWord hword
  · decide

private theorem dotted_bind_eq {α : Type} (f : List Char → Recognizer α) (c : Cursor) :
    (dotted >>= f) c = (segment >>= fun _ => dotted >>= f) c ++ (name >>= f) c := by
  change (dotted c).flatMap _ = _
  rw [dotted_eq, List.flatMap_append]
  congr 1
  exact List.flatMap_assoc

private theorem not_dot_of_refuses {α : Type} {r : Recognizer α} (h : Refuses isNamespaceChar r) {c next : Cursor}
    {way : α × Cursor} (hhead : (r c).head? = some way) : ¬ c.After ['.'] next := by
  intro hdot
  have hend := h.head_of_ne_nil (List.ne_nil_of_mem (List.mem_of_head? hhead))
  simp [hdot.rest, isNamespaceChar] at hend

/-- A dotted name is read whole if what follows cannot start inside it. -/
theorem head?_dotted_bind {α : Type} {f : List Char → Recognizer α} (hf : ∀ s, Refuses isNamespaceChar (f s))
    {c : Cursor} {way : α × Cursor} :
    ((dotted >>= f) c).head? = some way ↔ ∃ s mid, DottedName c s mid ∧ (f s mid).head? = some way := by
  have hword (s : List Char) : Refuses isWord (f s) := (hf s).mono fun x hx => by simp [isNamespaceChar, hx]
  induction hn : c.rest.length using Nat.strong_induction_on generalizing c with
  | _ n ih =>
    have hshorter {first : List Char} {mid next : Cursor} (hname : WholeName c first mid)
        (hdot : mid.After ['.'] next) : next.rest.length < n :=
      hn ▸ shorter_behind_dot hname hdot
    rw [dotted_bind_eq, List.head?_append, Option.or_eq_some_iff, head?_segment_bind, head?_name_bind hword]
    constructor
    · intro h
      rcases h with ⟨first, mid, next, hname, hdot, hmore⟩ | ⟨-, s, mid, hname, hhead⟩
      · obtain ⟨s, stop, hrest, hhead⟩ := (ih _ (hshorter hname hdot) rfl).mp hmore
        exact ⟨s, stop, .behindDot hname hdot hrest, hhead⟩
      · refine ⟨s, mid, .last hname ?_, hhead⟩
        intro x rest hrest
        have hdot : mid.After ['.'] ⟨some '.', x :: rest⟩ := ⟨hrest, rfl⟩
        exact absurd hdot (not_dot_of_refuses (hf s) hhead)
    · intro h
      obtain ⟨s, stop, hdotted, hhead⟩ := h
      cases hdotted with
      | behindDot hname hdot hrest =>
        exact .inl ⟨_, _, _, hname, hdot, (ih _ (hshorter hname hdot) rfl).mpr ⟨s, stop, hrest, hhead⟩⟩
      | last hname hend =>
        refine .inr ⟨?_, s, stop, hname, hhead⟩
        rw [Option.eq_none_iff_forall_ne_some]
        intro other hother
        obtain ⟨first, mid, next, hfirst, hdot, -⟩ := head?_segment_bind.mp hother
        rw [(hfirst.unique hname).2] at hdot
        exact not_dot_of_refuses (hf s) hhead hdot

/-- A type argument that comes at a cursor: a dotted name alone in angle brackets. -/
def ArgumentAt (c : Cursor) (type : List Char) (c' : Cursor) : Prop :=
  ∃ opening inner start stop closing, Indented c opening ∧ opening.After ['<'] inner ∧ Indented inner start ∧
    DottedName start type stop ∧ Indented stop closing ∧ closing.After ['>'] c'

theorem ArgumentAt.exists_after {c c' : Cursor} {type : List Char} (h : ArgumentAt c type c') :
    ∃ x read, c.After (x :: read) c' := by
  obtain ⟨opening, inner, start, stop, closing, ⟨indent, hindent, -⟩, hopen, ⟨gap, hgap, -⟩, hname, ⟨gap', hgap', -⟩,
    hclose⟩ := h
  obtain ⟨read, hread⟩ := hname.exists_after
  have hwhole := hindent.trans (hopen.trans (hgap.trans (hread.trans (hgap'.trans hclose))))
  obtain ⟨x, more, hcons⟩ := List.exists_cons_of_ne_nil
    (List.append_ne_nil_of_right_ne_nil indent (List.append_ne_nil_of_left_ne_nil (List.cons_ne_nil '<' []) _))
  exact ⟨x, more, hcons ▸ hwhole⟩

/-- A type argument is read where it comes, and in one way only. -/
theorem head?_typeArgument {c c' : Cursor} {type : List Char} :
    (typeArgument c).head? = some (type, c') ↔ ArgumentAt c type c' := by
  have hclosing (type : List Char) : Refuses isBlank (char '>' >>= fun _ => (pure type : Recognizer _)) :=
    (Refuses.char (by decide)).bind _
  have hbehind (type : List Char) :
      Refuses isNamespaceChar (blanks >>= fun _ => char '>' >>= fun _ => (pure type : Recognizer _)) :=
    .run_bind (fun _ => isBlank_of_isNamespaceChar) ((Refuses.char (by decide)).bind _)
  unfold typeArgument ArgumentAt
  rw [head?_blanks_bind ((Refuses.char (by decide)).bind _)]
  simp only [head?_char_bind, head?_blanks_bind (dotted_refuses_blanks.bind _), head?_dotted_bind hbehind,
    head?_blanks_bind (hclosing _)]
  constructor
  · rintro ⟨opening, hopening, inner, hopen, start, hstart, s, stop, hname, closing, hclosing, c'', hclose, hhead⟩
    obtain ⟨rfl, rfl⟩ := Prod.mk.inj (Option.some.inj hhead)
    exact ⟨opening, inner, start, stop, closing, hopening, hopen, hstart, hname, hclosing, hclose⟩
  · rintro ⟨opening, inner, start, stop, closing, hopening, hopen, hstart, hname, hclosing, hclose⟩
    exact ⟨opening, hopening, inner, hopen, start, hstart, type, stop, hname, closing, hclosing, c', hclose, rfl⟩

end EventAtlas.CSharp
