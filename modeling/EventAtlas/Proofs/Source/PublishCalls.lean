import EventAtlas.Proofs.CSharp.DottedName
import EventAtlas.Proofs.CSharp.Name
import EventAtlas.Proofs.Source.EventBody
import EventAtlas.Proofs.Source.Lookahead
import EventAtlas.Proofs.Source.Tokens
import Mathlib.Data.List.Nodup
import Mathlib.Data.List.Perm.Subperm

namespace EventAtlas

namespace CSharp

open Recognizer

private theorem wordBoundary_consumes : Consumes wordBoundary := by
  intro c u c' h
  unfold wordBoundary at h
  split_ifs at h
  · obtain ⟨-, rfl⟩ := Prod.mk.inj (List.mem_singleton.mp h)
    exact List.suffix_refl _
  · cases h

theorem rest_of_mem_name {s : List Char} {c c' : Cursor} (h : (s, c') ∈ name c) : c.rest = s ++ c'.rest :=
  ((Consumes.one _).bind fun _ => .run _).rest_of_mem_text h

private theorem name_consumes : Consumes name := by
  intro c s c' h
  exact ⟨s, (rest_of_mem_name h).symm⟩

private theorem dotted_consumes : Consumes dotted :=
  (((Consumes.one _).bind fun _ => (Consumes.run _).bind fun _ => .one _).many).bind fun _ => name_consumes

private theorem typeArguments_consumes : Consumes typeArguments :=
  ((Consumes.one _).bind fun _ => (Consumes.run _).bind fun _ => .one _).optional

end CSharp

namespace Source

open Recognizer CSharp Text

/-- The arguments that open here are a single name. -/
def TakesVariable (name opening : List Char) : Prop :=
  ∃ before after rest, opening = '(' :: (before ++ (name ++ (after ++ ')' :: rest))) ∧
    (∀ x ∈ before, isBlank x = true) ∧ (∀ x ∈ after, isBlank x = true) ∧ SpelledBy isNameStart name

/-- The arguments that open here start with the construction of an object. -/
def TakesConstruction (opening : List Char) : Prop :=
  ∃ before between rest, opening = '(' :: (before ++ ("new".toList ++ (between ++ rest))) ∧
    (∀ x ∈ before, isBlank x = true) ∧ between ≠ [] ∧ (∀ x ∈ between, isBlank x = true) ∧
    rest.head?.any isNameStart = true

variable {s : Indicators}

theorem mem_methodCall {opening : List Char} {c c' : Cursor} (h : (opening, c') ∈ methodCall s c) :
    opening <:+ c.rest ∧ ∃ before, (∀ x ∈ before, isBlank x = true) ∧ opening = '(' :: (before ++ c'.rest) := by
  unfold methodCall at h
  simp only [mem_bind] at h
  obtain ⟨_, c₁, hdot, _, c₂, hblanks, _, c₃, htoken, _, c₄, hgap, _, c₅, harguments, _, _, hspace, _, c₆, hhere,
    _, c₇, hopen, _, _, hbefore, hend⟩ := h
  obtain ⟨rfl, rfl⟩ := Prod.mk.inj (List.mem_singleton.mp hhere)
  obtain ⟨rfl, rfl⟩ := Prod.mk.inj (List.mem_singleton.mp hend)
  obtain ⟨before, hrest, hall, -⟩ := mem_run.mp hbefore
  have hsuffix : c₆.rest <:+ c.rest := calc
    c₆.rest <:+ c₅.rest := Consumes.run _ _ _ _ hspace
    _ <:+ c₄.rest := typeArguments_consumes _ _ _ harguments
    _ <:+ c₃.rest := Consumes.run _ _ _ _ hgap
    _ <:+ c₂.rest := Consumes.tokenBy _ _ _ _ _ htoken
    _ <:+ c₁.rest := Consumes.run _ _ _ _ hblanks
    _ <:+ c.rest := Consumes.one _ _ _ _ hdot
  refine ⟨hsuffix, before, hall, ?_⟩
  rw [(mem_char_iff.mp hopen).rest, hrest]
  rfl

/-- A call on a field has a single name for its arguments. -/
theorem mem_fieldCall {call : PublishCall} {c c' : Cursor} (h : (call, c') ∈ fieldCall s c) :
    call.opening <:+ c.rest ∧ c'.rest.length < call.opening.length ∧ TakesVariable call.name call.opening := by
  unfold fieldCall at h
  simp only [mem_bind] at h
  obtain ⟨_, c₁, hboundary, _, c₂, hunderscore, _, c₃, hword, _, c₄, htoken, _, c₅, hgap, opening, c₆, hmethod, argument,
    c₇, hname, _, c₈, hblanks, _, _, hclose, hend⟩ := h
  obtain ⟨rfl, rfl⟩ := Prod.mk.inj (List.mem_singleton.mp hend)
  obtain ⟨hopening, before, hbefore, rfl⟩ := mem_methodCall hmethod
  have hsuffix : '(' :: (before ++ c₆.rest) <:+ c.rest := calc
    '(' :: (before ++ c₆.rest) <:+ c₅.rest := hopening
    _ <:+ c₄.rest := Consumes.run _ _ _ _ hgap
    _ <:+ c₃.rest := Consumes.tokenBy _ _ _ _ _ htoken
    _ <:+ c₂.rest := Consumes.shortRun _ _ _ _ hword
    _ <:+ c₁.rest := (Consumes.one _).optional _ _ _ hunderscore
    _ <:+ c.rest := wordBoundary_consumes _ _ _ hboundary
  obtain ⟨after, hafter, hall, -⟩ := mem_run.mp hblanks
  have hrest : c₆.rest = argument ++ (after ++ ')' :: c'.rest) := by
    rw [rest_of_mem_name hname, hafter, (mem_char_iff.mp hclose).rest, List.singleton_append]
  have hshape : TakesVariable argument ('(' :: (before ++ c₆.rest)) :=
    ⟨before, after, c'.rest, by rw [hrest], hbefore, hall, nameBy_yields _ _ _ _ hname⟩
  refine ⟨hsuffix, ?_, hshape⟩
  simp only [hrest, List.length_cons, List.length_append]
  omega

/-- A call with a construction has the construction for its first argument. -/
theorem mem_inlineCall {call : PublishCall} {c c' : Cursor} (h : (call, c') ∈ inlineCall s c) :
    call.opening <:+ c.rest ∧ c'.rest.length < call.opening.length ∧ TakesConstruction call.opening := by
  unfold inlineCall at h
  simp only [mem_bind] at h
  obtain ⟨opening, c₁, hmethod, _, c₂, hnew, _, c₃, hgap, type, c₄, hdotted, _, c₅, hblanks, _, _, hopen, hend⟩ := h
  obtain ⟨rfl, rfl⟩ := Prod.mk.inj (List.mem_singleton.mp hend)
  obtain ⟨hopening, before, hbefore, rfl⟩ := mem_methodCall hmethod
  unfold blanks1 run1 at hgap
  obtain ⟨_, mid, hfirst, hmore⟩ := mem_bind.mp hgap
  obtain ⟨x, hx, hfirst, -⟩ := mem_one.mp hfirst
  obtain ⟨more, hmore, hall, -⟩ := mem_run.mp hmore
  have hrest : c₁.rest = "new".toList ++ (x :: more ++ c₃.rest) := by
    rw [rest_of_mem_literal hnew, hfirst, hmore, List.cons_append]
  have hstart : c₃.rest.head?.any isNameStart = true := by
    obtain ⟨first, hfirst⟩ : ∃ first, (dotted c₃).head? = some first := by
      rw [← Option.isSome_iff_exists, List.isSome_head?]
      exact List.ne_nil_of_mem hdotted
    exact (exists_dotted_iff c₃).mp ⟨first.1, first.2, hfirst⟩
  have hshape : TakesConstruction ('(' :: (before ++ c₁.rest)) := by
    refine ⟨before, x :: more, c₃.rest, by rw [hrest], hbefore, List.cons_ne_nil _ _, ?_, hstart⟩
    exact List.forall_mem_cons.mpr ⟨hx, hall⟩
  have hleft : c'.rest <:+ c₃.rest := calc
    c'.rest <:+ c₅.rest := Consumes.one _ _ _ _ hopen
    _ <:+ c₄.rest := Consumes.run _ _ _ _ hblanks
    _ <:+ c₃.rest := dotted_consumes _ _ _ hdotted
  have hlength := hleft.length_le
  refine ⟨hopening, ?_, hshape⟩
  simp only [hrest, List.length_cons, List.length_append]
  omega

/-- What comes behind the blanks at the start of a text, the word behind them and the blanks behind it. -/
def behindWord (text : List Char) : List Char := ((text.dropWhile isBlank).dropWhile isWord).dropWhile isBlank

theorem behindWord_eq {before word after rest : List Char} (hbefore : ∀ x ∈ before, isBlank x = true)
    (hne : word ≠ []) (hword : ∀ x ∈ word, isWord x = true) (hafter : ∀ x ∈ after, isBlank x = true)
    (hend : (after ++ rest).head?.any isWord = false) (hrest : rest.head?.any isBlank = false) :
    behindWord (before ++ (word ++ (after ++ rest))) = rest := by
  have hdrop {p : Char → Bool} {run : List Char} (hrun : ∀ x ∈ run, p x = true) {text : List Char}
      (htext : text.head?.any p = false) : (run ++ text).dropWhile p = text := by
    rw [List.dropWhile_append_of_pos hrun]
    exact (dropWhile_of_head (by simp [htext])).1
  have hstart : (word ++ (after ++ rest)).head?.any isBlank = false := by
    obtain ⟨x, more, rfl⟩ := List.exists_cons_of_ne_nil hne
    simpa using isBlank_of_isWord (hword x List.mem_cons_self)
  unfold behindWord
  rw [hdrop hbefore hstart, hdrop hword hend, hdrop hafter hrest]

/-- Arguments cannot be both. Behind a name that is the only argument comes the closing parenthesis, and behind
the word that a construction starts with comes another name. -/
theorem TakesVariable.not_takesConstruction {name opening : List Char} (h : TakesVariable name opening) :
    ¬TakesConstruction opening := by
  intro h'
  obtain ⟨before, after, rest, rfl, hbefore, hafter, first, more, rfl, hfirst, hmore⟩ := h
  obtain ⟨before', between, rest', heq, hbefore', hne, hbetween, hstart⟩ := h'
  have hvariable : behindWord (before ++ (first :: more ++ (after ++ ')' :: rest))) = ')' :: rest := by
    refine behindWord_eq hbefore (List.cons_ne_nil _ _) ?_ hafter ?_ rfl
    · exact List.forall_mem_cons.mpr ⟨isWord_of_isNameStart hfirst, hmore⟩
    · cases after with
      | nil => rfl
      | cons x after => simpa using isWord_of_isBlank (hafter x List.mem_cons_self)
  have hconstruction : behindWord (before' ++ ("new".toList ++ (between ++ rest'))) = rest' := by
    refine behindWord_eq hbefore' (by decide) (List.all_eq_true.mp (by decide)) hbetween ?_ ?_
    · obtain ⟨x, between, rfl⟩ := List.exists_cons_of_ne_nil hne
      simpa using isWord_of_isBlank (hbetween x List.mem_cons_self)
    · cases rest' with
      | nil => rfl
      | cons x rest' => simpa using isBlank_of_isWord (isWord_of_isNameStart (by simpa using hstart))
  rw [← (List.cons.inj heq).2, hvariable] at hconstruction
  rw [← hconstruction] at hstart
  have hclose : isNameStart ')' = false := by decide
  exact Bool.noConfusion (hclose.symm.trans hstart)

/-- A recogniser of calls that reads each of them from before the place where its arguments open to behind it. -/
def ReadsPastOpening (r : Recognizer PublishCall) : Prop :=
  ∀ c call c', (call, c') ∈ r c → call.opening <:+ c.rest ∧ c'.rest.length < call.opening.length

/-- The calls found from left to right open their arguments one behind the other. -/
theorem findFrom_openings {r : Recognizer PublishCall} (h : ReadsPastOpening r) (skip : Nat) (before : Option Char)
    (line : List Char) :
    (∀ call ∈ findFrom r skip before line, call.opening <:+ line.drop skip) ∧
      (findFrom r skip before line).Pairwise fun a b => b.opening.length < a.opening.length := by
  fun_induction findFrom r skip before line with
  | case1 skip before =>
    constructor
    · intro call hcall
      obtain ⟨way, hway, rfl⟩ := Option.map_eq_some_iff.mp (Option.mem_toList.mp hcall)
      rw [List.drop_nil]
      exact (h _ way.1 way.2 (List.mem_of_head? hway)).1
    · cases (r ⟨before, []⟩).head?.map Prod.fst with
      | none => exact .nil
      | some call => exact List.pairwise_singleton _ call
  | case2 skip before x rest ih => exact ih
  | case3 before x rest hnone ih =>
    obtain ⟨hsuffix, hfalling⟩ := ih
    refine ⟨?_, hfalling⟩
    intro call hcall
    exact (hsuffix call hcall).trans (List.suffix_cons x rest)
  | case4 before x rest call stop hway ih =>
    obtain ⟨hsuffix, hfalling⟩ := ih
    obtain ⟨hopening, hpast⟩ := h _ call stop (List.mem_of_head? hway)
    constructor
    · intro other hother
      rcases List.mem_cons.mp hother with rfl | hother
      · exact hopening
      · calc other.opening <:+ rest.drop (rest.length - stop.rest.length) := hsuffix other hother
          _ <:+ rest := List.drop_suffix _ rest
          _ <:+ x :: rest := List.suffix_cons x rest
    · refine List.pairwise_cons.mpr ⟨?_, hfalling⟩
      -- The next calls are looked for behind this one, and that is behind its parenthesis.
      intro other hother
      have hlength := (hsuffix other hother).length_le
      rw [List.length_drop] at hlength
      omega

section Counting

/-- A mark comes as often in a text as the text has ends that start with it. -/
theorem length_filter_tails (mark : Char) (text : List Char) :
    (text.tails.filter fun t => t.head? == some mark).length = text.count mark := by
  induction text with
  | nil => rfl
  | cons x text ih =>
    rw [List.tails_cons, List.filter_cons, List.count_cons]
    by_cases hx : x = mark
    · simp [hx, ih]
    · simp [hx, ih]

/-- Different ends of a text that all start with a mark are at most as many as the marks. -/
theorem length_le_count {mark : Char} {text : List Char} {ends : List (List Char)} (hnodup : ends.Nodup)
    (hends : ∀ t ∈ ends, t <:+ text ∧ t.head? = some mark) : ends.length ≤ text.count mark := by
  have hsubset : ends ⊆ text.tails.filter fun t => t.head? == some mark := by
    intro t ht
    obtain ⟨hsuffix, hhead⟩ := hends t ht
    exact List.mem_filter.mpr ⟨(List.mem_tails t text).mpr hsuffix, by simp [hhead]⟩
  rw [← length_filter_tails]
  exact (List.subperm_of_subset hnodup hsubset).length_le

end Counting

/-- The place on a line of the parenthesis that opens the arguments of a call. -/
def PublishCall.place (line : Line) (call : PublishCall) : Nat := line.length - call.opening.length

section Line

variable {r : Recognizer PublishCall} (h : ReadsPastOpening r) (line : Line)
include h

theorem opening_suffix {call : PublishCall} (hcall : call ∈ findAll r line) : call.opening <:+ line :=
  (findFrom_openings h 0 none line).1 call hcall

theorem drop_place {call : PublishCall} (hcall : call ∈ findAll r line) :
    line.drop (call.place line) = call.opening :=
  (List.suffix_iff_eq_drop.mp (opening_suffix h line hcall)).symm

theorem map_opening_nodup : ((findAll r line).map PublishCall.opening).Nodup := by
  refine List.pairwise_map.mpr ((findFrom_openings h 0 none line).2.imp ?_)
  intro a b hlength heq
  rw [heq] at hlength
  exact Nat.lt_irrefl _ hlength

theorem places_nodup : ((findAll r line).map (PublishCall.place line)).Nodup := by
  have hopenings : ((findAll r line).map (PublishCall.place line)).map (line.drop ·) =
      (findAll r line).map PublishCall.opening := by
    rw [List.map_map]
    exact List.map_congr_left fun call hcall => drop_place h line hcall
  have hnodup := map_opening_nodup h line
  rw [← hopenings] at hnodup
  exact List.Nodup.of_map _ hnodup

end Line

theorem fieldCall_readsPastOpening (s : Indicators) : ReadsPastOpening (fieldCall s) := by
  intro c call c' h
  obtain ⟨hsuffix, hpast, -⟩ := mem_fieldCall h
  exact ⟨hsuffix, hpast⟩

theorem inlineCall_readsPastOpening (s : Indicators) : ReadsPastOpening (inlineCall s) := by
  intro c call c' h
  obtain ⟨hsuffix, hpast, -⟩ := mem_inlineCall h
  exact ⟨hsuffix, hpast⟩

theorem takesVariable_of_mem {line : Line} {call : PublishCall} (h : call ∈ (fieldCall s).findAll line) :
    TakesVariable call.name call.opening := by
  obtain ⟨c, c', -, hread⟩ := exists_start_of_mem_findAll h
  exact (mem_fieldCall hread).2.2

theorem takesConstruction_of_mem {line : Line} {call : PublishCall} (h : call ∈ (inlineCall s).findAll line) :
    TakesConstruction call.opening := by
  obtain ⟨c, c', -, hread⟩ := exists_start_of_mem_findAll h
  exact (mem_inlineCall hread).2.2

/-- No parenthesis opens both a call with a variable and one with a construction. -/
theorem opening_ne {line : Line} {call call' : PublishCall} (h : call ∈ (fieldCall s).findAll line)
    (h' : call' ∈ (inlineCall s).findAll line) : call.opening ≠ call'.opening := by
  intro heq
  apply (takesVariable_of_mem h).not_takesConstruction
  rw [heq]
  exact takesConstruction_of_mem h'

/-- The ends of a line that start where a call opens its arguments. -/
def openings (s : Indicators) (line : Line) : List (List Char) :=
  ((fieldCall s).findAll line).map PublishCall.opening ++ ((inlineCall s).findAll line).map PublishCall.opening

private theorem openings_nodup (s : Indicators) (line : Line) : (openings s line).Nodup := by
  refine List.nodup_append.mpr ⟨map_opening_nodup (fieldCall_readsPastOpening s) line,
    map_opening_nodup (inlineCall_readsPastOpening s) line, ?_⟩
  intro a ha b hb
  obtain ⟨call, hcall, rfl⟩ := List.mem_map.mp ha
  obtain ⟨call', hcall', rfl⟩ := List.mem_map.mp hb
  exact opening_ne hcall hcall'

private theorem openings_start {line : Line} {t : List Char} (h : t ∈ openings s line) :
    t <:+ line ∧ t.head? = some '(' := by
  rcases List.mem_append.mp h with h | h
  · obtain ⟨call, hcall, rfl⟩ := List.mem_map.mp h
    obtain ⟨_, _, _, heq, -⟩ := takesVariable_of_mem hcall
    refine ⟨opening_suffix (fieldCall_readsPastOpening s) line hcall, ?_⟩
    rw [heq, List.head?_cons]
  · obtain ⟨call, hcall, rfl⟩ := List.mem_map.mp h
    obtain ⟨_, _, _, heq, -⟩ := takesConstruction_of_mem hcall
    refine ⟨opening_suffix (inlineCall_readsPastOpening s) line hcall, ?_⟩
    rw [heq, List.head?_cons]

/-- A line publishes at most one event for each parenthesis that opens on it. -/
theorem length_publishedAt_le (s : Indicators) (lines : List Line) (place : Nat) (line : Line) :
    (publishedAt s lines place line).length ≤ line.count '(' := by
  have hcount : (openings s line).length ≤ line.count '(' :=
    length_le_count (openings_nodup s line) fun _ => openings_start
  have hfilter := List.length_filter_le s.hasEventSuffix (((inlineCall s).findAll line).map PublishCall.name)
  simp only [openings, List.length_append, List.length_map] at hcount hfilter
  simp only [publishedAt, List.length_append, List.length_map]
  omega

/-- What is kept of items with different places is what one of them gives, if only one place is kept. -/
theorem length_filter_flatMap_le {α β : Type} {place : α → Nat} {items : List α} {f : α → List β} {keep : β → Bool}
    {n bound : Nat} (hnodup : (items.map place).Nodup) (hkeep : ∀ a ∈ items, ∀ b ∈ f a, keep b = decide (place a = n))
    (hbound : ∀ a ∈ items, place a = n → (f a).length ≤ bound) :
    ((items.flatMap f).filter keep).length ≤ bound := by
  induction items with
  | nil => exact Nat.zero_le bound
  | cons a items ih =>
    obtain ⟨hfresh, hnodup⟩ := List.nodup_cons.mp hnodup
    obtain ⟨hkeepFirst, hkeep⟩ := List.forall_mem_cons.mp hkeep
    obtain ⟨hfirst, hbound⟩ := List.forall_mem_cons.mp hbound
    rw [List.flatMap_cons, List.filter_append, List.length_append]
    by_cases hplace : place a = n
    · have hothers : (items.flatMap f).filter keep = [] := by
        rw [List.filter_eq_nil_iff]
        intro b hb hkept
        obtain ⟨other, hother, hb⟩ := List.mem_flatMap.mp hb
        have hsame : place other = n := by simpa [hkeep other hother b hb] using hkept
        exact hfresh (List.mem_map.mpr ⟨other, hother, hsame.trans hplace.symm⟩)
      have hlength := List.length_filter_le keep (f a)
      have := hfirst hplace
      rw [hothers, List.length_nil]
      omega
    · have hnone : (f a).filter keep = [] := by
        rw [List.filter_eq_nil_iff]
        intro b hb
        simp [hkeepFirst b hb, hplace]
      rw [hnone, List.length_nil, Nat.zero_add]
      exact ih hnodup hkeep hbound

private theorem length_publications_le {s : Indicators} {d : Document} {place : Nat} {line : Line}
    (hline : d.lines[place]? = some line) :
    ((publications s d).filter (·.position = place + 1)).length ≤ line.count '(' := by
  have hnodup : ((scopedLines d.lines).map ScopedLine.place).Nodup := by
    rw [scopedLines_places]
    exact List.nodup_range
  refine length_filter_flatMap_le (n := place) hnodup ?_ ?_
  · intro spot _ p hp
    obtain ⟨event, -, rfl⟩ := List.mem_map.mp hp
    rw [publicationAt_position]
    simp
  · intro spot hspot hplace
    have hspotLine := getElem?_of_mem_scopedLines hspot
    rw [hplace, hline] at hspotLine
    obtain rfl := Option.some.inj hspotLine
    rw [List.length_map]
    exact length_publishedAt_le s d.lines spot.place _

/-- No call is recorded twice. Each opens its arguments at a parenthesis of its own, whether it publishes a variable
or an object constructed in place, so a line has no more publications than opening parentheses. -/
theorem publishCalls_apart (s : Indicators) (line : Line) :
    (∀ call ∈ (fieldCall s).findAll line,
      line.drop (call.place line) = call.opening ∧ TakesVariable call.name call.opening) ∧
    (∀ call ∈ (inlineCall s).findAll line,
      line.drop (call.place line) = call.opening ∧ TakesConstruction call.opening) ∧
    (((fieldCall s).findAll line).map (PublishCall.place line)).Nodup ∧
    (((inlineCall s).findAll line).map (PublishCall.place line)).Nodup ∧
    (((fieldCall s).findAll line).map (PublishCall.place line)).Disjoint
      (((inlineCall s).findAll line).map (PublishCall.place line)) ∧
    ∀ (d : Document) (place : Nat), d.lines[place]? = some line →
      ((publications s d).filter (·.position = place + 1)).length ≤ line.count '(' := by
  have hvariables := fieldCall_readsPastOpening s
  have hconstructed := inlineCall_readsPastOpening s
  refine ⟨?_, ?_, places_nodup hvariables line, places_nodup hconstructed line, ?_, ?_⟩
  · intro call hcall
    exact ⟨drop_place hvariables line hcall, takesVariable_of_mem hcall⟩
  · intro call hcall
    exact ⟨drop_place hconstructed line hcall, takesConstruction_of_mem hcall⟩
  · intro place hplace hplace'
    obtain ⟨call, hcall, rfl⟩ := List.mem_map.mp hplace
    obtain ⟨call', hcall', hsame⟩ := List.mem_map.mp hplace'
    apply opening_ne hcall hcall'
    rw [← drop_place hvariables line hcall, ← drop_place hconstructed line hcall', hsame]
  · intro d place hline
    exact length_publications_le hline

deriving instance DecidableEq for PublishCall

/-- Two calls on one line, the first with a variable and the second with an object constructed in place. -/
def busyUnit : Document where
  origin := ⟨"shop", "Shop", ⟨"shop/Pay.cs"⟩⟩
  text := "_bus.Publish(new_); _bus.Send<Paid>( new Shop.PaidEvent());"

def busyLine : Line := busyUnit.text.toList

theorem busyUnit_apart :
    ((fieldCall {}).findAll busyLine).map (PublishCall.place busyLine) = [12] ∧
      ((inlineCall {}).findAll busyLine).map (PublishCall.place busyLine) = [35] ∧
      TakesVariable "new_".toList (busyLine.drop 12) ∧ TakesConstruction (busyLine.drop 35) ∧
      busyUnit.lines[0]? = some busyLine ∧
      (publications {} busyUnit).map (·.event) = ["Unknown(new_)", "PaidEvent"] ∧
      ((publications {} busyUnit).filter (·.position = 1)).length ≤ busyLine.count '(' := by
  have hvariable : ⟨busyLine.drop 12, "new_".toList⟩ ∈ (fieldCall {}).findAll busyLine := by decide +kernel
  have hconstructed : ⟨busyLine.drop 35, "PaidEvent".toList⟩ ∈ (inlineCall {}).findAll busyLine := by decide +kernel
  have hline : busyUnit.lines[0]? = some busyLine := by decide +kernel
  obtain ⟨hvariables, hconstructions, -, -, -, hcount⟩ := publishCalls_apart {} busyLine
  refine ⟨by decide +kernel, by decide +kernel, (hvariables _ hvariable).2, (hconstructions _ hconstructed).2, hline,
    by decide +kernel, hcount busyUnit 0 hline⟩

end Source

end EventAtlas
