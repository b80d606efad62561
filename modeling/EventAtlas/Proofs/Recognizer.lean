import EventAtlas.Recognizer
import Mathlib.Data.List.Infix

namespace EventAtlas.Recognizer

variable {α β : Type}

/-- A way of two parts is a way of the first and one of the second behind it. -/
theorem mem_bind {r : Recognizer α} {f : α → Recognizer β} {c c' : Cursor} {b : β} :
    (b, c') ∈ (r >>= f) c ↔ ∃ a mid, (a, mid) ∈ r c ∧ (b, c') ∈ f a mid := by
  change (b, c') ∈ (r c).flatMap (fun way => f way.1 way.2) ↔ _
  rw [List.mem_flatMap, Prod.exists]

theorem mem_one {p : Char → Bool} {u : Unit} {c c' : Cursor} :
    (u, c') ∈ one p c ↔ ∃ x, p x = true ∧ c.rest = x :: c'.rest ∧ c'.before = some x := by
  unfold one
  cases hrest : c.rest with
  | nil => simp
  | cons x rest =>
    dsimp only
    split_ifs with hx
    · rw [List.mem_singleton, Prod.mk.injEq]
      constructor
      · rintro ⟨-, rfl⟩
        exact ⟨x, hx, rfl, rfl⟩
      · rintro ⟨y, -, hy, hbefore⟩
        obtain ⟨rfl, rfl⟩ := List.cons.inj hy
        exact ⟨rfl, congrArg₂ Cursor.mk hbefore rfl⟩
    · simp only [List.not_mem_nil, false_iff]
      rintro ⟨y, hp, hy, -⟩
      obtain ⟨rfl, -⟩ := List.cons.inj hy
      exact hx hp

theorem rest_of_mem_literalBy {text : List Char} {u : Unit} {c c' : Cursor}
    (h : (u, c') ∈ literalBy (· == ·) text c) : c.rest = text ++ c'.rest := by
  induction text generalizing c with
  | nil =>
    obtain ⟨-, rfl⟩ : u = () ∧ c' = c := by simpa [literalBy, pure] using h
    rfl
  | cons x text ih =>
    obtain ⟨_, mid, hfirst, hrest⟩ := mem_bind.mp h
    obtain ⟨y, hy, hread, -⟩ := mem_one.mp hfirst
    rw [hread, ih hrest, beq_iff_eq.mp hy, List.cons_append]

theorem rest_of_mem_literal {text : String} {u : Unit} {c c' : Cursor} (h : (u, c') ∈ literal text c) :
    c.rest = text.toList ++ c'.rest :=
  rest_of_mem_literalBy h

theorem rest_of_mem_oneOf {texts : List String} {u : Unit} {c c' : Cursor} (h : (u, c') ∈ oneOf texts c) :
    ∃ text ∈ texts, c.rest = text.toList ++ c'.rest := by
  obtain ⟨chars, hchars, hread⟩ := List.mem_flatMap.mp h
  obtain ⟨text, htext, rfl⟩ := List.mem_map.mp hchars
  exact ⟨text, htext, rest_of_mem_literalBy hread⟩

private theorem exists_start_of_mem_findFrom {r : Recognizer α} {a : α} {skip : Nat} {before : Option Char}
    {line : List Char} (h : a ∈ findFrom r skip before line) :
    ∃ c c', c.rest <:+ line ∧ (a, c') ∈ r c := by
  have hstart {c : Cursor} {way : α × Cursor} (hway : (r c).head? = some way) : (way.1, way.2) ∈ r c :=
    List.mem_of_head? hway
  fun_induction findFrom r skip before line with
  | case1 skip before =>
    obtain ⟨way, hway, rfl⟩ := Option.map_eq_some_iff.mp (Option.mem_toList.mp h)
    exact ⟨_, way.2, List.suffix_refl _, hstart hway⟩
  | case2 skip before x rest ih =>
    obtain ⟨c, c', hc, hread⟩ := ih h
    exact ⟨c, c', hc.trans (List.suffix_cons x rest), hread⟩
  | case3 before x rest hnone ih =>
    obtain ⟨c, c', hc, hread⟩ := ih h
    exact ⟨c, c', hc.trans (List.suffix_cons x rest), hread⟩
  | case4 before x rest b stop hway ih =>
    rcases List.mem_cons.mp h with rfl | h
    · exact ⟨_, stop, List.suffix_refl _, hstart hway⟩
    · obtain ⟨c, c', hc, hread⟩ := ih h
      exact ⟨c, c', hc.trans (List.suffix_cons x rest), hread⟩

/-- A reading in a line starts somewhere in the line. -/
theorem exists_start_of_mem_findAll {r : Recognizer α} {a : α} {line : List Char} (h : a ∈ findAll r line) :
    ∃ c c', c.rest <:+ line ∧ (a, c') ∈ r c :=
  exists_start_of_mem_findFrom h

theorem mem_stops {p : Char → Bool} {before : Option Char} {s : List Char} {c : Cursor} :
    c ∈ stops p before s ↔
      ∃ read, s = read ++ c.rest ∧ (∀ x ∈ read, p x = true) ∧ c.before = read.getLast?.or before := by
  induction s generalizing before with
  | nil =>
    rw [stops, List.mem_singleton]
    constructor
    · rintro rfl
      exact ⟨[], rfl, by simp, rfl⟩
    · rintro ⟨read, hread, -, hbefore⟩
      obtain ⟨rfl, hrest⟩ := List.append_eq_nil_iff.mp hread.symm
      exact congrArg₂ Cursor.mk hbefore hrest
  | cons x s ih =>
    have hlast (read : List Char) : (x :: read).getLast?.or before = read.getLast?.or (some x) := by
      rw [List.getLast?_cons]
      cases read.getLast? <;> rfl
    rw [stops, List.mem_cons]
    constructor
    · rintro (rfl | hlater)
      · exact ⟨[], rfl, by simp, rfl⟩
      · split_ifs at hlater with hx
        · obtain ⟨read, rfl, hread, hbefore⟩ := ih.mp hlater
          exact ⟨x :: read, rfl, List.forall_mem_cons.mpr ⟨hx, hread⟩, hbefore.trans (hlast read).symm⟩
        · simp at hlater
    · rintro ⟨read, hread, hall, hbefore⟩
      cases read with
      | nil => exact .inl (congrArg₂ Cursor.mk hbefore hread.symm)
      | cons y read =>
        obtain ⟨rfl, rfl⟩ := List.cons.inj hread
        obtain ⟨hx, hall⟩ := List.forall_mem_cons.mp hall
        rw [if_pos hx]
        exact .inr (ih.mpr ⟨read, rfl, hall, hbefore.trans (hlast read)⟩)

/-- A run can end behind any number of its characters. -/
theorem mem_run {p : Char → Bool} {u : Unit} {c c' : Cursor} :
    (u, c') ∈ run p c ↔
      ∃ read, c.rest = read ++ c'.rest ∧ (∀ x ∈ read, p x = true) ∧ c'.before = read.getLast?.or c.before := by
  rw [← mem_stops]
  simp [run]

theorem mem_text {r : Recognizer Unit} {s : List Char} {c c' : Cursor} :
    (s, c') ∈ text r c ↔ ((), c') ∈ r c ∧ s = c.rest.take (c.rest.length - c'.rest.length) := by
  simp only [text, List.mem_map, Prod.mk.injEq, Prod.exists]
  constructor
  · rintro ⟨_, stop, hread, rfl, rfl⟩
    exact ⟨hread, rfl⟩
  · rintro ⟨hread, rfl⟩
    exact ⟨(), c', hread, rfl, rfl⟩

/-- Every value that `r` gives satisfies `P`. -/
def Yields (r : Recognizer α) (P : α → Prop) : Prop := ∀ c a c', (a, c') ∈ r c → P a

namespace Yields

variable {P : α → Prop} {Q : β → Prop}

theorem pure {a : α} (h : P a) : Yields (Pure.pure a) P := by
  intro c b c' hb
  obtain ⟨rfl, -⟩ := Prod.mk.inj (List.mem_singleton.mp hb)
  exact h

/-- What is read first tells what is given in the end. -/
theorem bind {r : Recognizer α} {f : α → Recognizer β} (hr : r.Yields P) (hf : ∀ a, P a → (f a).Yields Q) :
    (r >>= f).Yields Q := by
  intro c b c' hb
  obtain ⟨a, mid, ha, hb⟩ := mem_bind.mp hb
  exact hf a (hr c a mid ha) mid b c' hb

theorem skip {r : Recognizer α} {f : α → Recognizer β} (hf : ∀ a, (f a).Yields Q) : (r >>= f).Yields Q := by
  intro c b c' hb
  obtain ⟨a, mid, -, hb⟩ := mem_bind.mp hb
  exact hf a mid b c' hb

variable {r : Recognizer α} (h : r.Yields P)

include h

/-- What holds of all that is read holds of all that is found. -/
theorem of_mem_findAll {a : α} {line : List Char} (ha : a ∈ findAll r line) : P a := by
  obtain ⟨c, c', -, hread⟩ := exists_start_of_mem_findAll ha
  exact h c a c' hread

theorem of_find? {a : α} {line : List Char} (ha : find? r line = some a) : P a :=
  h.of_mem_findAll (List.mem_of_head? ha)

end Yields

end EventAtlas.Recognizer
