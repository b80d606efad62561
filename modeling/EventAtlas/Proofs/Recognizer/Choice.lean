import EventAtlas.Proofs.Recognizer
import EventAtlas.Proofs.Text.Search

namespace EventAtlas

variable {α β γ : Type}

theorem findSome?_eq_bind_find? (g : α → Option β) (items : List α) :
    items.findSome? g = (items.find? fun a => (g a).isSome).bind g := by
  induction items with
  | nil => rfl
  | cons a items ih =>
    rw [List.findSome?_cons, List.find?_cons]
    cases h : g a with
    | none => exact ih
    | some b => exact h.symm

/-- Where only one item has a value, the order of the items does not show. -/
theorem findSome?_eq_of_unique {items : List α} {g : α → Option β} {a : α} (ha : a ∈ items)
    (hunique : ∀ b ∈ items, g b ≠ none → b = a) : items.findSome? g = g a := by
  cases hfound : items.findSome? g with
  | none => exact (List.findSome?_eq_none_iff.mp hfound a ha).symm
  | some b =>
    obtain ⟨a', ha', hvalue⟩ := List.exists_of_findSome?_eq_some hfound
    obtain rfl := hunique a' ha' (by simp [hvalue])
    exact hvalue.symm

private theorem find?_flatMap_eq_of_unique {items others : List α} (hmem : ∀ a, a ∈ items ↔ a ∈ others)
    {f : α → List β} (hunique : ∀ a ∈ items, ∀ b ∈ items, f a ≠ [] → f b ≠ [] → a = b) (p : β → Bool) :
    (items.flatMap f).find? p = (others.flatMap f).find? p := by
  have hne {a : α} (h : (f a).find? p ≠ none) : f a ≠ [] := by
    intro hnil
    simp [hnil] at h
  rw [List.find?_flatMap, List.find?_flatMap]
  by_cases hsome : ∃ a ∈ items, (f a).find? p ≠ none
  · obtain ⟨a, ha, hvalue⟩ := hsome
    have hitems := findSome?_eq_of_unique (g := fun a => (f a).find? p) ha fun b hb hb' =>
      hunique b hb a ha (hne hb') (hne hvalue)
    have hothers := findSome?_eq_of_unique (g := fun a => (f a).find? p) ((hmem a).mp ha) fun b hb hb' =>
      hunique b ((hmem b).mpr hb) a ha (hne hb') (hne hvalue)
    rw [hitems, hothers]
  · have hnone : ∀ a ∈ items, (f a).find? p = none := by
      intro a ha
      by_contra hvalue
      exact hsome ⟨a, ha, hvalue⟩
    rw [List.findSome?_eq_none_iff.mpr hnone,
      List.findSome?_eq_none_iff.mpr fun a ha => hnone a ((hmem a).mpr ha)]

private theorem find?_eq_of_all_eq {items others : List α} {a : α} (hitems : ∀ b ∈ items, b = a)
    (hothers : ∀ b ∈ others, b = a) (h : items = [] ↔ others = []) (p : α → Bool) :
    items.find? p = others.find? p := by
  rw [← List.length_eq_zero_iff, ← List.length_eq_zero_iff] at h
  rw [List.eq_replicate_of_mem hitems, List.eq_replicate_of_mem hothers, List.find?_replicate,
    List.find?_replicate]
  simp only [h]

namespace Recognizer

/-- Among the ways of `r` and those of `r'` the first with any given property of its key has the same key. -/
def Alike (key : α × Cursor → γ) (r r' : Recognizer α) : Prop :=
  ∀ c p, ((r c).map key).find? p = ((r' c).map key).find? p

namespace Alike

variable {key : β × Cursor → γ} {r r' : Recognizer α}

theorem trans {key : α × Cursor → γ} {r'' : Recognizer α} (h : Alike key r r') (h' : Alike key r' r'') :
    Alike key r r'' :=
  fun c p => (h c p).trans (h' c p)

theorem bind_find? (key : β × Cursor → γ) (r : Recognizer α) (f : α → Recognizer β) (c : Cursor)
    (p : γ → Bool) :
    (((r >>= f) c).map key).find? p =
      (r c).findSome? fun way => ((f way.1 way.2).map key).find? p := by
  change (((r c).flatMap fun way => f way.1 way.2).map key).find? p = _
  rw [List.map_flatMap, List.find?_flatMap]

/-- What is read behind a choice can be exchanged. -/
theorem bind_right {f f' : α → Recognizer β} (h : ∀ a, Alike key (f a) (f' a)) :
    Alike key (r >>= f) (r >>= f') := by
  intro c p
  rw [bind_find?, bind_find?]
  congr 1
  funext way
  exact h way.1 way.2 p

/-- What makes the same choice of ways can be exchanged before any other part. -/
theorem bind_left {f : α → Recognizer β} (h : Alike id r r') : Alike key (r >>= f) (r' >>= f) := by
  intro c p
  have hways (q : α × Cursor → Bool) : (r c).find? q = (r' c).find? q := by simpa using h c q
  rw [bind_find?, bind_find?, findSome?_eq_bind_find?, findSome?_eq_bind_find?, hways]

/-- Where all ways give one value, it is enough that the ways are the same in some order. -/
theorem of_mem_iff (hmem : ∀ c way, way ∈ r c ↔ way ∈ r' c) {a : α} (hvalue : r.Yields (· = a)) :
    Alike Prod.fst r r' := by
  intro c p
  have hnil : (r c).map Prod.fst = [] ↔ (r' c).map Prod.fst = [] := by
    rw [List.map_eq_nil_iff, List.map_eq_nil_iff, List.eq_nil_iff_forall_not_mem,
      List.eq_nil_iff_forall_not_mem]
    simp only [hmem]
  apply find?_eq_of_all_eq (a := a) _ _ hnil
  · intro b hb
    obtain ⟨way, hway, rfl⟩ := List.mem_map.mp hb
    exact hvalue c way.1 way.2 hway
  · intro b hb
    obtain ⟨way, hway, rfl⟩ := List.mem_map.mp hb
    exact hvalue c way.1 way.2 ((hmem c way).mpr hway)

theorem head?_eq {key : α × Cursor → γ} (h : Alike key r r') (c : Cursor) :
    (r c).head?.map key = (r' c).head?.map key := by
  have hfirst (ways : List (α × Cursor)) : ways.head?.map key = (ways.map key).find? fun _ => true := by
    cases ways <;> rfl
  rw [hfirst, hfirst, h c]

/-- Recognisers that choose the same way at every place find the same in a line. -/
theorem findFrom_eq (h : Alike id r r') (skip : Nat) (before : Option Char) (line : List Char) :
    findFrom r skip before line = findFrom r' skip before line := by
  have hhead (c : Cursor) : (r c).head? = (r' c).head? := by simpa using h.head?_eq c
  induction line generalizing skip before with
  | nil => rw [findFrom, findFrom, hhead]
  | cons x rest ih =>
    cases skip with
    | succ skip => rw [findFrom, findFrom, ih]
    | zero =>
      rw [findFrom, findFrom, hhead]
      cases (r' ⟨before, x :: rest⟩).head? with
      | none => exact ih _ _
      | some way => exact congrArg _ (ih _ _)

theorem findAll_eq (h : Alike id r r') (line : List Char) : findAll r line = findAll r' line :=
  h.findFrom_eq 0 none line

/-- The first reading needs only the values to be chosen alike. -/
theorem find?_eq (h : Alike Prod.fst r r') (line : List Char) : find? r line = find? r' line := by
  have hfirst (before : Option Char) (line : List Char) :
      (findFrom r 0 before line).head? = (findFrom r' 0 before line).head? := by
    induction line generalizing before with
    | nil => rw [findFrom, findFrom, h.head?_eq]
    | cons x rest ih =>
      have hhead := h.head?_eq ⟨before, x :: rest⟩
      rw [findFrom, findFrom]
      cases hway : (r ⟨before, x :: rest⟩).head? with
      | none =>
        cases hway' : (r' ⟨before, x :: rest⟩).head? with
        | none => exact ih _
        | some way' => simp [hway, hway'] at hhead
      | some way =>
        cases hway' : (r' ⟨before, x :: rest⟩).head? with
        | none => simp [hway, hway'] at hhead
        | some way' => simpa [hway, hway'] using hhead
  exact hfirst none line

end Alike

/-- `r` reads nothing where a character with `p` comes next. -/
def Refuses (p : Char → Bool) (r : Recognizer α) : Prop := ∀ c, c.rest.head?.any p = true → r c = []

namespace Refuses

variable {p : Char → Bool}

theorem head_of_ne_nil {r : Recognizer α} (h : Refuses p r) {c : Cursor} (hreads : r c ≠ []) :
    c.rest.head?.any p = false := by
  by_contra hnext
  exact hreads (h c (by simpa using hnext))

theorem mono {q : Char → Bool} {r : Recognizer α} (h : Refuses p r) (hpq : ∀ x, q x = true → p x = true) :
    Refuses q r := by
  intro c hc
  obtain ⟨x, hx, hq⟩ := (Option.any_eq_true _ _).mp hc
  exact h c ((Option.any_eq_true _ _).mpr ⟨x, hx, hpq x hq⟩)

theorem one {q : Char → Bool} (h : ∀ x, p x = true → q x = false) : Refuses p (one q) := by
  intro c hc
  unfold Recognizer.one
  cases hrest : c.rest with
  | nil => rfl
  | cons x rest =>
    have hx : p x = true := by simpa [hrest] using hc
    simp [h x hx]

theorem char {mark : Char} (h : p mark = false) : Refuses p (Recognizer.char mark) := by
  apply Refuses.one
  intro x hx
  rw [beq_eq_false_iff_ne]
  intro heq
  rw [heq, h] at hx
  exact Bool.noConfusion hx

theorem bind {r : Recognizer α} (h : Refuses p r) (f : α → Recognizer β) : Refuses p (r >>= f) := by
  intro c hc
  change (r c).flatMap _ = []
  rw [h c hc, List.flatMap_nil]

theorem text {r : Recognizer Unit} (h : Refuses p r) : Refuses p (Recognizer.text r) := by
  intro c hc
  rw [Recognizer.text, h c hc, List.map_nil]

/-- A run that cannot start leaves the place to what comes behind it. -/
theorem run_bind {q : Char → Bool} (h : ∀ x, p x = true → q x = false) {f : Unit → Recognizer β}
    (hf : Refuses p (f ())) : Refuses p (run q >>= f) := by
  intro c hc
  rw [List.eq_nil_iff_forall_not_mem]
  rintro ⟨b, c'⟩ hb
  obtain ⟨u, mid, hrun, hb⟩ := mem_bind.mp hb
  obtain ⟨read, hread, hall, -⟩ := mem_run.mp hrun
  have hmid : mid.rest.head?.any p = true := by
    cases read with
    | nil => rwa [hread] at hc
    | cons x read =>
      have hx : p x = true := by simpa [hread] using hc
      have hq := hall x List.mem_cons_self
      simp [h x hx] at hq
  rw [hf mid hmid] at hb
  simp at hb

theorem optional_bind {r : Recognizer Unit} (h : Refuses p r) {f : Unit → Recognizer β}
    (hf : Refuses p (f ())) : Refuses p (Recognizer.optional r >>= f) := by
  intro c hc
  change (r c ++ [((), c)]).flatMap _ = []
  rw [h c hc, List.nil_append, List.flatMap_singleton, hf c hc]

theorem here_bind {f : Cursor → Recognizer β} (hf : ∀ place, Refuses p (f place)) :
    Refuses p (here >>= f) := by
  intro c hc
  change [(c, c)].flatMap _ = []
  rw [List.flatMap_singleton, hf c c hc]

end Refuses

/-- The same tokens, in any order and number, where empty ones do not count. -/
def SameTokens (tokens others : List String) : Prop := ∀ token, token ≠ "" → (token ∈ tokens ↔ token ∈ others)

instance (tokens others : List String) : Decidable (SameTokens tokens others) :=
  decidable_of_iff ((tokens.all fun token => token == "" || others.contains token) ∧
      others.all fun token => token == "" || tokens.contains token) (by
    simp only [List.all_eq_true, Bool.or_eq_true, beq_iff_eq, List.contains_iff_mem, SameTokens]
    constructor
    · rintro ⟨htokens, hothers⟩ token hne
      exact ⟨fun h => (htokens token h).resolve_left hne, fun h => (hothers token h).resolve_left hne⟩
    · intro h
      exact ⟨fun token htoken => or_iff_not_imp_left.mpr fun hne => (h token hne).mp htoken,
        fun token htoken => or_iff_not_imp_left.mpr fun hne => (h token hne).mpr htoken⟩)

/-- A given text is read as characters that stand for its own. -/
theorem mem_literalBy {same : Char → Char → Bool} {text : List Char} {u : Unit} {c c' : Cursor}
    (h : (u, c') ∈ literalBy same text c) :
    ∃ read, c.rest = read ++ c'.rest ∧ (∀ y ∈ read, ∃ x ∈ text, same x y = true) ∧
      c'.before = read.getLast?.or c.before := by
  induction text generalizing c with
  | nil =>
    obtain ⟨-, rfl⟩ : u = () ∧ c' = c := by simpa [literalBy, pure] using h
    exact ⟨[], rfl, by simp, rfl⟩
  | cons x text ih =>
    obtain ⟨_, mid, hfirst, htext⟩ := mem_bind.mp h
    obtain ⟨y, hsame, hrest, hbefore⟩ := mem_one.mp hfirst
    obtain ⟨read, hread, hall, hlast⟩ := ih htext
    refine ⟨y :: read, by rw [hrest, hread, List.cons_append], ?_, ?_⟩
    · intro z hz
      rcases List.mem_cons.mp hz with rfl | hz
      · exact ⟨x, List.mem_cons_self, hsame⟩
      · obtain ⟨x', hx', hsame'⟩ := hall z hz
        exact ⟨x', List.mem_cons_of_mem _ hx', hsame'⟩
    · rw [hlast, hbefore, List.getLast?_cons]
      cases read.getLast? <;> rfl

theorem mem_tokenTexts {tokens : List String} {text : List Char} :
    text ∈ tokenTexts tokens ↔ ∃ token ∈ tokens, token ≠ "" ∧ token.toList = text := by
  simp only [tokenTexts, List.mem_filter, List.mem_map, Bool.not_eq_true', List.isEmpty_eq_false_iff]
  constructor
  · rintro ⟨⟨token, htoken, rfl⟩, hne⟩
    exact ⟨token, htoken, fun hempty => hne (by simp [hempty]), rfl⟩
  · rintro ⟨token, htoken, hne, rfl⟩
    exact ⟨⟨token, htoken, rfl⟩, fun hempty => hne (String.toList_inj.mp hempty)⟩

theorem SameTokens.mem_tokenTexts {tokens others : List String} (h : SameTokens tokens others)
    {text : List Char} : text ∈ tokenTexts tokens ↔ text ∈ tokenTexts others := by
  rw [Recognizer.mem_tokenTexts, Recognizer.mem_tokenTexts]
  constructor
  · rintro ⟨token, htoken, hne, htext⟩
    exact ⟨token, (h token hne).mp htoken, hne, htext⟩
  · rintro ⟨token, htoken, hne, htext⟩
    exact ⟨token, (h token hne).mpr htoken, hne, htext⟩

theorem mem_tokenBy {same : Char → Char → Bool} {tokens : List String} {c : Cursor} {way : Unit × Cursor} :
    way ∈ tokenBy same tokens c ↔ (tokenTexts tokens = [] ∧ way = ((), c)) ∨
      ∃ text ∈ tokenTexts tokens, way ∈ literalBy same text c := by
  unfold tokenBy
  split_ifs with hempty
  · rw [List.isEmpty_iff] at hempty
    simp [hempty, pure]
  · rw [List.isEmpty_iff] at hempty
    simp [hempty, oneOfBy]

/-- The ways to read a token are those of the set. -/
theorem SameTokens.mem_tokenBy {tokens others : List String} (h : SameTokens tokens others)
    (same : Char → Char → Bool) (c : Cursor) (way : Unit × Cursor) :
    way ∈ tokenBy same tokens c ↔ way ∈ tokenBy same others c := by
  have hnil : tokenTexts tokens = [] ↔ tokenTexts others = [] := by
    simp only [List.eq_nil_iff_forall_not_mem, h.mem_tokenTexts]
  rw [Recognizer.mem_tokenBy, Recognizer.mem_tokenBy, hnil]
  simp only [h.mem_tokenTexts]

theorem dropWhile_of_head {p : Char → Bool} {s : List Char} (h : ¬s.head?.any p = true) :
    s.dropWhile p = s ∧ s.takeWhile p = [] := by
  cases s with
  | nil => exact ⟨rfl, rfl⟩
  | cons x rest =>
    have hx : ¬p x = true := by simpa using h
    exact ⟨List.dropWhile_cons_of_neg hx, List.takeWhile_cons_of_neg hx⟩

/-- A token of characters with `p` ends where the run of such characters does, if something that cannot
start before one of them follows. -/
theorem stop_of_mem_literalBy {same : Char → Char → Bool} {p : Char → Bool} {text : List Char}
    (hchars : ∀ x ∈ text, ∀ y, same x y = true → p y = true) {f : Unit → Recognizer β}
    (hf : Refuses p (f ())) {u : Unit} {c c' : Cursor} (h : (u, c') ∈ literalBy same text c)
    (hnext : f u c' ≠ []) :
    c' = ⟨(c.rest.takeWhile p).getLast?.or c.before, c.rest.dropWhile p⟩ := by
  obtain ⟨read, hrest, hall, hbefore⟩ := mem_literalBy h
  have hread : ∀ y ∈ read, p y = true := by
    intro y hy
    obtain ⟨x, hx, hsame⟩ := hall y hy
    exact hchars x hx y hsame
  obtain ⟨hdrop, htake⟩ := dropWhile_of_head fun hhead => hnext (hf c' hhead)
  rw [hrest, List.dropWhile_append_of_pos hread, List.takeWhile_append_of_pos hread, hdrop, htake,
    List.append_nil, ← hbefore]

/-- If the characters of tokens have `p` and what follows cannot start before such a character, the order of
the tokens does not show. -/
theorem SameTokens.alike {tokens others : List String} (h : SameTokens tokens others)
    {same : Char → Char → Bool} {p : Char → Bool}
    (hchars : ∀ token ∈ tokens, ∀ x ∈ token.toList, ∀ y, same x y = true → p y = true)
    {f : Unit → Recognizer β} (hf : Refuses p (f ())) :
    Alike id (tokenBy same tokens >>= f) (tokenBy same others >>= f) := by
  intro c q
  simp only [List.map_id]
  refine find?_flatMap_eq_of_unique (h.mem_tokenBy same c) ?_ q
  -- Both ways read the whole run of characters with `p`, or there is no token at all.
  rintro ⟨u, c₁⟩ h₁ ⟨u', c₂⟩ h₂ hne₁ hne₂
  have hstop {c' : Cursor} {u : Unit} {text : List Char} (htext : text ∈ tokenTexts tokens)
      (hread : (u, c') ∈ literalBy same text c) (hnext : f u c' ≠ []) :
      c' = ⟨(c.rest.takeWhile p).getLast?.or c.before, c.rest.dropWhile p⟩ := by
    obtain ⟨token, htoken, -, rfl⟩ := Recognizer.mem_tokenTexts.mp htext
    exact stop_of_mem_literalBy (hchars token htoken) hf hread hnext
  rcases Recognizer.mem_tokenBy.mp h₁ with ⟨hempty, heq₁⟩ | ⟨text₁, htext₁, hread₁⟩
  · rcases Recognizer.mem_tokenBy.mp h₂ with ⟨-, heq₂⟩ | ⟨text₂, htext₂, -⟩
    · rw [heq₁, heq₂]
    · simp [hempty] at htext₂
  · rcases Recognizer.mem_tokenBy.mp h₂ with ⟨hempty, -⟩ | ⟨text₂, htext₂, hread₂⟩
    · simp [hempty] at htext₁
    · rw [hstop htext₁ hread₁ hne₁, hstop htext₂ hread₂ hne₂]

end Recognizer

end EventAtlas
