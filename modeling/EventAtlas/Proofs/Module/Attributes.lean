import EventAtlas.Module.Publications
import EventAtlas.Proofs.Text.Search
import Mathlib.Data.List.DropRight
import Mathlib.Data.List.Forall2

namespace EventAtlas.Module

open Text

/-- The name of an attribute and nothing else: no decoration at its ends, no arguments, not the usual ending. -/
structure BareAttribute where
  name : List Char
  ne_nil : name ≠ []
  uncalled : '(' ∉ name
  head_bare : isDecoration (name.head ne_nil) = false
  last_bare : isDecoration (name.getLast ne_nil) = false
  unended : ¬"Attribute".toList <:+ name

/-- What an attribute's name may be written with: decoration on both sides, the usual ending, and arguments in
parentheses. -/
structure Decoration where
  left : List Char := []
  right : List Char := []
  ended : Bool := false
  arguments : Option (List Char) := none
  left_all : left.all isDecoration = true := by decide
  right_all : right.all isDecoration = true := by decide

namespace Decoration

/-- The usual ending, if there is one. -/
def ending (d : Decoration) : List Char := if d.ended then "Attribute".toList else []

/-- The arguments in their parentheses, if there are any. -/
def call (d : Decoration) : List Char := d.arguments.elim [] fun a => '(' :: (a ++ [')'])

/-- An attribute's name with all that is written around it. -/
def write (d : Decoration) (n : BareAttribute) : String :=
  String.ofList (d.left ++ (n.name ++ d.ending) ++ (d.call ++ d.right))

end Decoration

/-- Trimming at the end does not reach past a character that stays. -/
theorem trimEndWhile_append {drop : Char → Bool} {s : List Char} (hne : s ≠ [])
    (hlast : ∀ c ∈ s.getLast?, drop c = false) (t : List Char) :
    trimEndWhile drop (s ++ t) = s ++ trimEndWhile drop t := by
  have hkept : ¬drop (s.getLast hne) = true := by
    rw [hlast _ (List.getLast?_eq_some_getLast hne)]
    exact Bool.false_ne_true
  induction t using List.reverseRecOn with
  | nil =>
    rw [List.append_nil]
    exact (List.rdropWhile_eq_self_iff.mpr fun _ => hkept).trans (List.append_nil s).symm
  | append_singleton t c ih =>
    rw [← List.append_assoc]
    by_cases hc : drop c = true
    · calc trimEndWhile drop (s ++ t ++ [c])
          = trimEndWhile drop (s ++ t) := List.rdropWhile_concat_pos drop (s ++ t) c hc
        _ = s ++ trimEndWhile drop t := ih
        _ = s ++ trimEndWhile drop (t ++ [c]) := by
          exact congrArg (s ++ ·) (List.rdropWhile_concat_pos drop t c hc).symm
    · calc trimEndWhile drop (s ++ t ++ [c])
          = s ++ t ++ [c] := List.rdropWhile_concat_neg drop (s ++ t) c hc
        _ = s ++ (t ++ [c]) := List.append_assoc s t [c]
        _ = s ++ trimEndWhile drop (t ++ [c]) := by
          exact congrArg (s ++ ·) (List.rdropWhile_concat_neg drop t c hc).symm

private theorem dropWhile_decoration {left s : List Char} (hleft : left.all isDecoration = true)
    (hhead : ∀ c ∈ s.head?, isDecoration c = false) : (left ++ s).dropWhile isDecoration = s := by
  rw [List.dropWhile_append_of_pos (List.all_eq_true.mp hleft)]
  cases s with
  | nil => rfl
  | cons c s => exact List.dropWhile_cons_of_neg (by simp [hhead c rfl])

/-- A text is cut before the first parenthesis, also where only the front of a call is left behind it. -/
theorem upTo_parenthesis {called rest : List Char} (hcalled : '(' ∉ called) (hrest : ∀ c ∈ rest.head?, c = '(') :
    upTo (· == '(') (called ++ rest) = called := by
  have hstop : rest.takeWhile (fun c => !(c == '(')) = [] := by
    cases rest with
    | nil => rfl
    | cons c rest => simp [hrest c rfl]
  have hkept : ∀ c ∈ called, (!(c == '(')) = true := by
    intro c hc
    have hne : c ≠ '(' := fun heq => hcalled (heq ▸ hc)
    simpa using hne
  rw [upTo, List.takeWhile_append_of_pos hkept, hstop, List.append_nil]

private theorem dropEnding?_append (s ending : List Char) : dropEnding? ending (s ++ ending) = some s := by
  have hends : ending.isSuffixOf (s ++ ending) = true :=
    List.isSuffixOf_iff_suffix.mpr (List.suffix_append s ending)
  rw [dropEnding?, if_pos hends, List.length_append, Nat.add_sub_cancel, List.take_left]

namespace Decoration

variable (d : Decoration) (n : BareAttribute)

theorem called_ne_nil : n.name ++ d.ending ≠ [] := List.append_ne_nil_of_left_ne_nil n.ne_nil _

private theorem called_head {c : Char} (h : c ∈ (n.name ++ d.ending).head?) : isDecoration c = false := by
  rw [List.head?_append_of_ne_nil _ n.ne_nil, List.head?_eq_some_head n.ne_nil] at h
  obtain rfl := Option.some.inj h
  exact n.head_bare

private theorem called_last {c : Char} (h : c ∈ (n.name ++ d.ending).getLast?) : isDecoration c = false := by
  cases hended : d.ended with
  | false =>
    rw [ending, hended, if_neg Bool.false_ne_true, List.append_nil, List.getLast?_eq_some_getLast n.ne_nil] at h
    obtain rfl := Option.some.inj h
    exact n.last_bare
  | true =>
    have hlast : (n.name ++ d.ending).getLast? = some 'e' := by
      rw [ending, hended]
      exact List.getLast?_append_of_ne_nil _ (by decide)
    obtain rfl : 'e' = c := Option.some.inj (hlast.symm.trans h)
    decide

private theorem called_unopened : '(' ∉ n.name ++ d.ending := by
  have hending : '(' ∉ d.ending := by
    cases hended : d.ended with
    | false => simp [ending, hended]
    | true =>
      rw [ending, hended]
      decide
  exact fun h => (List.mem_append.mp h).elim n.uncalled hending

/-- All that trimming can leave behind the name and its ending is the front of a call. -/
theorem head_of_trimmed {c : Char} (h : c ∈ (trimEndWhile isDecoration (d.call ++ d.right)).head?) : c = '(' := by
  cases hcall : d.arguments with
  | none =>
    have hall : trimEndWhile isDecoration (d.call ++ d.right) = [] := by
      rw [call, hcall]
      exact List.rdropWhile_eq_nil_iff.mpr (List.all_eq_true.mp d.right_all)
    rw [hall] at h
    cases h
  | some a =>
    have hopens : (d.call ++ d.right).head? = some '(' := by
      rw [call, hcall]
      rfl
    obtain ⟨cut, hcut⟩ : trimEndWhile isDecoration (d.call ++ d.right) <+: d.call ++ d.right :=
      List.rdropWhile_prefix isDecoration _
    have hfront : (d.call ++ d.right).head? = some c := by
      rw [← hcut, List.head?_append, h, Option.some_or]
    exact Option.some.inj (hfront.symm.trans hopens)

private theorem dropEnding?_called :
    (dropEnding? "Attribute".toList (n.name ++ d.ending)).getD (n.name ++ d.ending) = n.name := by
  cases hended : d.ended with
  | false =>
    have hnone : dropEnding? "Attribute".toList n.name = none :=
      if_neg fun hends => n.unended (List.isSuffixOf_iff_suffix.mp hends)
    rw [ending, hended, if_neg Bool.false_ne_true, List.append_nil, hnone, Option.getD_none]
  | true => rw [ending, hended, if_pos rfl, dropEnding?_append, Option.getD_some]

/-- The name is read back from all that is written around it. -/
theorem attributeName_write : attributeName (d.write n).toList = n.name := by
  have hleft : (d.left ++ (n.name ++ d.ending) ++ (d.call ++ d.right)).dropWhile isDecoration =
      n.name ++ d.ending ++ (d.call ++ d.right) := by
    rw [List.append_assoc]
    apply dropWhile_decoration d.left_all
    intro c hc
    rw [List.head?_append_of_ne_nil _ (d.called_ne_nil n)] at hc
    exact d.called_head n hc
  have hright := trimEndWhile_append (d.called_ne_nil n) (fun _ => d.called_last n) (d.call ++ d.right)
  have hcall := upTo_parenthesis (d.called_unopened n) fun _ => d.head_of_trimmed
  have hcalled : upTo (· == '(') (trimEndWhile isDecoration ((d.write n).toList.dropWhile isDecoration)) =
      n.name ++ d.ending := by
    rw [write, String.toList_ofList, hleft, hright, hcall]
  calc attributeName (d.write n).toList
      = (dropEnding? "Attribute".toList (n.name ++ d.ending)).getD (n.name ++ d.ending) :=
        congrArg (fun called => (dropEnding? "Attribute".toList called).getD called) hcalled
    _ = n.name := d.dropEnding?_called n

end Decoration

/-- An attribute as it is, or its name with other decoration. -/
inductive SameAttribute : String → String → Prop where
  | kept (written : String) : SameAttribute written written
  | redecorated (n : BareAttribute) (d e : Decoration) : SameAttribute (d.write n) (e.write n)

/-- Two methods that differ in the decoration of their attributes only. -/
structure Method.Redecorated (m m' : Method) : Prop where
  attributes : List.Forall₂ SameAttribute m.attributes m'.attributes
  unchanged : m' = { m with attributes := m'.attributes }

/-- Two types that differ in the decoration of their attributes and of their methods' attributes only. -/
structure TypeDef.Redecorated (t t' : TypeDef) : Prop where
  attributes : List.Forall₂ SameAttribute t.attributes t'.attributes
  methods : List.Forall₂ Method.Redecorated t.methods t'.methods
  unchanged : t' = { t with attributes := t'.attributes, methods := t'.methods }

theorem any_eq_of_forall₂ {α : Type} {R : α → α → Prop} (p : α → Bool) (hp : ∀ {a b}, R a b → p a = p b)
    {items others : List α} (h : List.Forall₂ R items others) : items.any p = others.any p := by
  induction h with
  | nil => rfl
  | cons hhead _ ih => rw [List.any_cons, List.any_cons, hp hhead, ih]

section Classification

variable (s : Indicators)

theorem mentionsJob_iff (text : List Char) :
    s.mentionsJob text = true ↔
      ∃ marker ∈ s.backgroundJobMarkers, marker ≠ "" ∧ lower marker.toList <:+: lower text := by
  simp [Indicators.mentionsJob, occursIn_iff]

theorem isJobAttribute_write (d : Decoration) (n : BareAttribute) :
    isJobAttribute s (d.write n) = s.mentionsJob n.name := by
  rw [isJobAttribute, d.attributeName_write]

/-- A bare name is an attribute without decoration. -/
theorem write_plain (n : BareAttribute) : Decoration.write {} n = String.ofList n.name := by
  simp [Decoration.write, Decoration.ending, Decoration.call]

private theorem isJobAttribute_bare (n : BareAttribute) :
    isJobAttribute s (String.ofList n.name) = s.mentionsJob n.name := by
  rw [← write_plain, isJobAttribute_write]

private theorem isJobAttribute_eq_of_same {a b : String} (h : SameAttribute a b) :
    isJobAttribute s a = isJobAttribute s b := by
  cases h with
  | kept => rfl
  | redecorated n d e => rw [isJobAttribute_write, isJobAttribute_write]

theorem any_isJobAttribute_eq {attributes others : List String} (h : List.Forall₂ SameAttribute attributes others) :
    attributes.any (isJobAttribute s) = others.any (isJobAttribute s) :=
  any_eq_of_forall₂ (isJobAttribute s) (isJobAttribute_eq_of_same s) h

theorem TypeDef.Redecorated.isBackgroundJob_eq {t t' : TypeDef} (h : t.Redecorated t') :
    isBackgroundJob s t = isBackgroundJob s t' := by
  have hmethods : (t.methods.any fun m => m.attributes.any (isJobAttribute s)) =
      t'.methods.any fun m => m.attributes.any (isJobAttribute s) :=
    any_eq_of_forall₂ _ (fun hm => any_isJobAttribute_eq s hm.attributes) h.methods
  have hinterfaces : t'.interfaces = t.interfaces := by rw [h.unchanged]
  unfold isBackgroundJob
  rw [any_isJobAttribute_eq s h.attributes, hmethods, hinterfaces]

end Classification

/-- An attribute marks a background job exactly if its bare name holds a marker in any case, whatever is written
around the name. So a type stays a background job, or stays none, when its attributes or those of its methods are
decorated in another way. -/
theorem isJobAttribute_ignores_decoration (s : Indicators) :
    (∀ (n : BareAttribute) (d : Decoration),
      isJobAttribute s (d.write n) = isJobAttribute s (String.ofList n.name) ∧
        (isJobAttribute s (String.ofList n.name) = true ↔
          ∃ marker ∈ s.backgroundJobMarkers, marker ≠ "" ∧ lower marker.toList <:+: lower n.name)) ∧
      ∀ t t' : TypeDef, t.Redecorated t' → isBackgroundJob s t = isBackgroundJob s t' := by
  refine ⟨?_, fun t t' h => h.isBackgroundJob_eq s⟩
  intro n d
  rw [isJobAttribute_bare]
  exact ⟨isJobAttribute_write s d n, mentionsJob_iff s n.name⟩

/-- The attribute of a job that is tried again when it fails. -/
def retry : BareAttribute where
  name := "Hangfire.AutomaticRetry".toList
  ne_nil := by decide
  uncalled := by decide
  head_bare := by decide
  last_bare := by decide
  unended := by decide

/-- An attribute section whose argument is made of brackets and ends in them. -/
def bracketed : Decoration where
  left := "[ ".toList
  right := ")] ".toList
  ended := true
  arguments := some "(new[] (5)) @(".toList

/-- A type with a method that carries one attribute. -/
def jobWith (written : String) : TypeDef :=
  { fullName := "Shop.Mailer", attributes := ["[]"], methods := [{ name := "Run", attributes := [written] }] }

theorem retry_ignores_decoration :
    bracketed.write retry = "[ Hangfire.AutomaticRetryAttribute((new[] (5)) @())] " ∧
      isJobAttribute {} (bracketed.write retry) = isJobAttribute {} "Hangfire.AutomaticRetry" ∧
      (jobWith "Hangfire.AutomaticRetry").Redecorated (jobWith (bracketed.write retry)) ∧
      isBackgroundJob {} (jobWith "Hangfire.AutomaticRetry") =
        isBackgroundJob {} (jobWith (bracketed.write retry)) := by
  have hplain : Decoration.write {} retry = "Hangfire.AutomaticRetry" := by decide +kernel
  have hsame : SameAttribute "Hangfire.AutomaticRetry" (bracketed.write retry) :=
    hplain ▸ .redecorated retry {} bracketed
  have hjob : (jobWith "Hangfire.AutomaticRetry").Redecorated (jobWith (bracketed.write retry)) :=
    ⟨.cons (.kept "[]") .nil, .cons ⟨.cons hsame .nil, rfl⟩ .nil, rfl⟩
  obtain ⟨hattribute, htype⟩ := isJobAttribute_ignores_decoration {}
  exact ⟨by decide +kernel, (hattribute retry bracketed).1, hjob, htype _ _ hjob⟩

end EventAtlas.Module
