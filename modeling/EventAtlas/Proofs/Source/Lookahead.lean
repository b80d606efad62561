import EventAtlas.Proofs.Lookback
import EventAtlas.Source.Consumptions
import EventAtlas.Source.Definitions
import EventAtlas.Source.Publications
import EventAtlas.Source.Subscriptions
import Mathlib.Data.List.Basic

namespace EventAtlas

variable {α β : Type}

theorem Text.linesFrom_append_break (line s t : List Char) :
    linesFrom line (s ++ '\n' :: t) = linesFrom line (s ++ ['\n']) ++ linesFrom [] t := by
  induction s generalizing line with
  | nil => simp [linesFrom]
  | cons c s ih =>
    rw [List.cons_append, List.cons_append, linesFrom, linesFrom]
    split_ifs
    · rw [ih, List.cons_append]
    · exact ih _

section Placed

variable {place : α → Nat} {items : List α} (hplaces : items.map place = List.range items.length) (m : Nat)

include hplaces

theorem place_lt_of_mem_take {a : α} (ha : a ∈ items.take m) : place a < m := by
  have hmem : place a ∈ (items.take m).map place := List.mem_map_of_mem ha
  rw [List.map_take, hplaces, List.take_range, List.mem_range] at hmem
  omega

private theorem le_place_of_mem_drop {a : α} (ha : a ∈ items.drop m) : m ≤ place a := by
  have hmem : place a ∈ (items.drop m).map place := List.mem_map_of_mem ha
  rw [List.map_drop, hplaces, List.range_eq_range', List.drop_range', List.mem_range'_1] at hmem
  omega

/-- What the items before a place give is what is kept of the whole, if it is told by the places. -/
theorem filter_flatMap_placed {f : α → List β} {keep : β → Bool}
    (hkeep : ∀ a, ∀ b ∈ f a, keep b = decide (place a < m)) :
    (items.flatMap f).filter keep = (items.take m).flatMap f := by
  have hbefore : ((items.take m).flatMap f).filter keep = (items.take m).flatMap f := by
    rw [List.filter_eq_self]
    intro b hb
    obtain ⟨a, ha, hb⟩ := List.mem_flatMap.mp hb
    have hplace := place_lt_of_mem_take hplaces m ha
    simp [hkeep a b hb, hplace]
  have hafter : ((items.drop m).flatMap f).filter keep = [] := by
    rw [List.filter_eq_nil_iff]
    intro b hb
    obtain ⟨a, ha, hb⟩ := List.mem_flatMap.mp hb
    have hplace := le_place_of_mem_drop hplaces m ha
    simp [hkeep a b hb, hplace]
  calc (items.flatMap f).filter keep
      = ((items.take m ++ items.drop m).flatMap f).filter keep := by rw [List.take_append_drop]
    _ = (items.take m).flatMap f := by
        rw [List.flatMap_append, List.filter_append, hbefore, hafter, List.append_nil]

private theorem filter_placed {keep : α → Bool} (hkeep : ∀ a, keep a = decide (place a < m)) :
    items.filter keep = items.take m := by
  have hflat : (items.flatMap ([·])).filter keep = (items.take m).flatMap ([·]) := by
    apply filter_flatMap_placed hplaces m
    intro a b hb
    obtain rfl := List.mem_singleton.mp hb
    exact hkeep b
  rwa [List.flatMap_singleton', List.flatMap_singleton'] at hflat

end Placed

/-- Two runs over placed items that agree before a place keep the same of what they give there. -/
theorem filter_flatMap_eq_of_take (place : α → Nat) {items others : List α} {m : Nat}
    (htake : items.take m = others.take m) (hitems : items.map place = List.range items.length)
    (hothers : others.map place = List.range others.length) {f g : α → List β}
    (hsame : ∀ a, place a < m → f a = g a) {keep : β → Bool}
    (hkeep : ∀ a, ∀ b ∈ f a, keep b = decide (place a < m))
    (hkeep' : ∀ a, ∀ b ∈ g a, keep b = decide (place a < m)) :
    (items.flatMap f).filter keep = (others.flatMap g).filter keep := by
  rw [filter_flatMap_placed hitems m hkeep, filter_flatMap_placed hothers m hkeep', ← htake]
  apply List.flatMap_congr
  intro a ha
  exact hsame a (place_lt_of_mem_take hitems m ha)

namespace Source

open CSharp

section Windows

variable {lines lines' : List Line} {n : Nat} (h : lines.take n = lines'.take n)

include h

theorem slice_eq_of_take (start : Nat) {stop : Nat} (hstop : stop ≤ n) :
    slice lines start stop = slice lines' start stop := by
  unfold slice
  rw [take_eq_of_le h hstop]

private theorem inRegistration_eq_of_take {i : Nat} (hi : i + 3 < n) (keywords : List String) :
    inRegistration lines i keywords = inRegistration lines' i keywords := by
  unfold inRegistration linesAround
  rw [slice_eq_of_take h _ hi]

theorem atDistance_eq_of_take {i d : Nat} (hi : i + d < n) (f : Line → Option α) :
    atDistance lines i f d = atDistance lines' i f d := by
  have habove : lines[i - d]? = lines'[i - d]? := getElem?_eq_of_take h (by omega)
  have hbelow : lines[i + d]? = lines'[i + d]? := getElem?_eq_of_take h hi
  unfold atDistance
  rw [habove, hbelow]

private theorem outward_eq_of_take {i d more : Nat} (hi : i + (d + more) < n) (f : Line → Option α) :
    outward lines i f d more = outward lines' i f d more := by
  induction more generalizing d with
  | zero =>
    rw [outward, outward]
    exact atDistance_eq_of_take h hi f
  | succ more ih =>
    rw [outward, outward, atDistance_eq_of_take h (by omega) f, ih (by omega)]

private theorem nearestAround?_eq_of_take {i radius : Nat} (hi : i + radius < n) (f : Line → Option α) :
    nearestAround? lines i radius f = nearestAround? lines' i radius f :=
  outward_eq_of_take h (by omega) f

end Windows

theorem scopedFrom_take (place : Nat) (scope : Scope) (lines : List Line) (n : Nat) :
    (scopedFrom place scope lines).take n = scopedFrom place scope (lines.take n) := by
  induction lines generalizing place scope n with
  | nil => simp [scopedFrom]
  | cons line rest ih =>
    cases n with
    | zero => rfl
    | succ n => rw [scopedFrom, List.take_succ_cons, List.take_succ_cons, scopedFrom, ih]

theorem scopedFrom_places (place : Nat) (scope : Scope) (lines : List Line) :
    (scopedFrom place scope lines).map ScopedLine.place = List.range' place lines.length := by
  induction lines generalizing place scope with
  | nil => rfl
  | cons line rest ih =>
    rw [scopedFrom, List.map_cons, ih, List.length_cons, List.range'_succ]

/-- The lines of a unit are placed one after the other. -/
theorem scopedLines_places (lines : List Line) :
    (scopedLines lines).map ScopedLine.place = List.range (scopedLines lines).length := by
  have hplaces := scopedFrom_places 0 {} lines
  have hlength := congrArg List.length hplaces
  rw [List.length_map, List.length_range'] at hlength
  rw [scopedLines, hlength, List.range_eq_range', hplaces]

/-- The lines above a place are scoped alike, whatever comes below. -/
theorem scopedLines_take_eq {lines lines' : List Line} {n m : Nat} (h : lines.take n = lines'.take n)
    (hm : m ≤ n) : (scopedLines lines).take m = (scopedLines lines').take m := by
  unfold scopedLines
  rw [scopedFrom_take, scopedFrom_take, take_eq_of_le h hm]

theorem zipIdx_places (lines : List Line) :
    lines.zipIdx.map Prod.snd = List.range lines.zipIdx.length := by
  rw [List.zipIdx_map_snd, List.length_zipIdx, List.range_eq_range']

theorem zipIdx_take_eq {lines lines' : List Line} {n m : Nat} (h : lines.take n = lines'.take n)
    (hm : m ≤ n) : lines.zipIdx.take m = lines'.zipIdx.take m := by
  apply List.ext_getElem?
  intro i
  rw [List.getElem?_take, List.getElem?_take]
  split_ifs with hi
  · rw [List.getElem?_zipIdx, List.getElem?_zipIdx, getElem?_eq_of_take h (Nat.lt_of_lt_of_le hi hm)]
  · rfl

/-- The events declared on the lines at some of the places. -/
def definitionsAt (s : Indicators) (d : Document) (places : Nat → Bool) : List EventDefinition :=
  ((scopedLines d.lines).filter fun spot => places spot.place).filterMap (definitionAt? s d.origin d.lines)

/-- The events at all places are those of the document. -/
theorem definitionsAt_all (s : Indicators) (d : Document) :
    definitionsAt s d (fun _ => true) = definitions s d := by
  unfold definitionsAt definitions
  rw [List.filter_true]

theorem publicationAt_position (origin : Origin) (inJob : Bool) (spot : ScopedLine) (event : String) :
    (publicationAt origin inJob spot event).position = spot.place + 1 := by
  unfold publicationAt
  split_ifs <;> rfl

theorem position_of_mem_consumptionsAt {s : Indicators} {details inJob : Bool} {origin : Origin}
    {lines : List Line} {place : Nat} {line : Line} {c : Consumption}
    (h : c ∈ consumptionsAt s details inJob origin lines place line) : c.position = place + 1 := by
  unfold consumptionsAt at h
  dsimp only at h
  split_ifs at h
  · simp at h
  all_goals
    obtain ⟨event, -, rfl⟩ := List.mem_map.mp h
    rfl

/-- Two documents that no reading can tell apart before line `n`: where they lie, whether they speak of
background jobs, and the lines down to there. -/
structure AgreeAbove (s : Indicators) (n : Nat) (d d' : Document) : Prop where
  origin : d.origin = d'.origin
  mentionsJob : d.mentionsJob s = d'.mentionsJob s
  lines : d.lines.take n = d'.lines.take n

namespace AgreeAbove

variable {s : Indicators} {n : Nat} {d d' : Document} (h : AgreeAbove s n d d')

include h

private theorem publishedAt_eq {place : Nat} (hplace : place < n) (line : Line) :
    publishedAt s d.lines place line = publishedAt s d'.lines place line := by
  have htrace (identifier : List Char) :
      traceVariable? s d.lines place identifier = traceVariable? s d'.lines place identifier := by
    unfold traceVariable?
    rw [nearestSome?_eq_of_take h.lines (Nat.le_of_lt hplace)]
  unfold publishedAt
  simp only [htrace]

theorem publications_eq :
    (publications s d).filter (·.position ≤ n) = (publications s d').filter (·.position ≤ n) := by
  unfold publications
  refine filter_flatMap_eq_of_take ScopedLine.place (scopedLines_take_eq h.lines (Nat.le_refl n)) (scopedLines_places _)
    (scopedLines_places _) ?_ ?_ ?_
  · intro spot hspot
    rw [h.publishedAt_eq hspot, h.origin, h.mentionsJob]
  all_goals
    intro spot p hp
    obtain ⟨event, -, rfl⟩ := List.mem_map.mp hp
    rw [publicationAt_position]
    rfl

theorem subscriptions_eq :
    (subscriptions s d).filter (·.position ≤ n) = (subscriptions s d').filter (·.position ≤ n) := by
  unfold subscriptions
  refine filter_flatMap_eq_of_take Prod.snd (zipIdx_take_eq h.lines (Nat.le_refl n))
    (zipIdx_places _) (zipIdx_places _) ?_ ?_ ?_
  · intro spot _
    rw [h.origin, h.mentionsJob]
  all_goals
    intro spot r hr
    obtain ⟨event, -, rfl⟩ := List.mem_map.mp hr
    rfl

private theorem consumptionsAt_eq (inJob : Bool) (origin : Origin) {place : Nat} (hplace : place + 5 < n)
    (line : Line) :
    consumptionsAt s false inJob origin d.lines place line =
      consumptionsAt s false inJob origin d'.lines place line := by
  have hregistration := inRegistration_eq_of_take h.lines (show place + 3 < n by omega)
    s.registrationKeywords
  have hclass := nearestAround?_eq_of_take h.lines hplace declaredType
  unfold consumptionsAt
  rw [hregistration, hclass]
  rfl

theorem consumptions_eq :
    (consumptions s false d).filter (·.position + 5 ≤ n) =
      (consumptions s false d').filter (·.position + 5 ≤ n) := by
  unfold consumptions
  rw [h.origin]
  split_ifs
  · rfl
  · refine filter_flatMap_eq_of_take Prod.snd (zipIdx_take_eq h.lines (Nat.sub_le n 5))
      (zipIdx_places _) (zipIdx_places _) ?_ ?_ ?_
    · intro spot hspot
      rw [h.mentionsJob]
      exact h.consumptionsAt_eq _ _ (by omega) _
    all_goals
      intro spot c hc
      rw [position_of_mem_consumptionsAt hc, decide_eq_decide]
      omega

private theorem definitionsAt_eq :
    definitionsAt s d (fun place => place + 50 ≤ n) = definitionsAt s d' (fun place => place + 50 ≤ n) := by
  have hfilter (lines : List Line) : ((scopedLines lines).filter fun spot => spot.place + 50 ≤ n) =
      (scopedLines lines).take (n - 49) := by
    apply filter_placed (scopedLines_places lines)
    intro spot
    rw [decide_eq_decide]
    omega
  unfold definitionsAt
  rw [hfilter, hfilter, scopedLines_take_eq h.lines (Nat.sub_le n 49)]
  apply List.filterMap_congr
  intro spot hspot
  have hplace := place_lt_of_mem_take (scopedLines_places _) _ hspot
  unfold definitionAt? eventBody
  rw [slice_eq_of_take h.lines _ (by omega), h.origin]

end AgreeAbove

/-- Texts that go on differently behind a line break have the same lines before it. -/
theorem agreeAbove_of_below {s : Indicators} {origin : Origin} {above below below' : String}
    (hjob : Document.mentionsJob ⟨origin, above ++ "\n" ++ below⟩ s =
      Document.mentionsJob ⟨origin, above ++ "\n" ++ below'⟩ s) :
    AgreeAbove s (Text.lines (above ++ "\n")).length ⟨origin, above ++ "\n" ++ below⟩
      ⟨origin, above ++ "\n" ++ below'⟩ := by
  refine ⟨rfl, hjob, ?_⟩
  have hlines (rest : String) : Document.lines ⟨origin, above ++ "\n" ++ rest⟩ =
      Text.lines (above ++ "\n") ++ Text.lines rest := by
    have hbreak := Text.linesFrom_append_break [] above.toList rest.toList
    simpa [Document.lines, Text.lines] using hbreak
  rw [hlines, hlines, List.take_left, List.take_left]

/-- What a document says down to a line fixes the publications and subscriptions down to it, the
consumptions down to five lines above it and the events declared at least fifty lines above its end. The events
at all places are those of the document. -/
theorem facts_fixed_above {s : Indicators} {n : Nat} {d d' : Document} (h : AgreeAbove s n d d') :
    (publications s d).filter (·.position ≤ n) = (publications s d').filter (·.position ≤ n) ∧
    (subscriptions s d).filter (·.position ≤ n) = (subscriptions s d').filter (·.position ≤ n) ∧
    (consumptions s false d).filter (·.position + 5 ≤ n) =
      (consumptions s false d').filter (·.position + 5 ≤ n) ∧
    definitionsAt s d (fun place => place + 50 ≤ n) = definitionsAt s d' (fun place => place + 50 ≤ n) ∧
    definitionsAt s d (fun _ => true) = definitions s d ∧ definitionsAt s d' (fun _ => true) = definitions s d' :=
  ⟨h.publications_eq, h.subscriptions_eq, h.consumptions_eq, h.definitionsAt_eq, definitionsAt_all s d,
    definitionsAt_all s d'⟩

/-- An event declared fifty lines above the text `below`. -/
def declaredAbove (below : String) : Document where
  origin := ⟨"shop", "Shop", ⟨"shop/Order.cs"⟩⟩
  text := "public class Paid : IntegrationEvent" ++ String.ofList (List.replicate 49 '\n') ++ "\n" ++ below

theorem declaredAbove_fixed :
    AgreeAbove {} 50 (declaredAbove "") (declaredAbove "\x7d") ∧
    (publications {} (declaredAbove "")).filter (·.position ≤ 50) =
      (publications {} (declaredAbove "\x7d")).filter (·.position ≤ 50) ∧
    (subscriptions {} (declaredAbove "")).filter (·.position ≤ 50) =
      (subscriptions {} (declaredAbove "\x7d")).filter (·.position ≤ 50) ∧
    (consumptions {} false (declaredAbove "")).filter (·.position + 5 ≤ 50) =
      (consumptions {} false (declaredAbove "\x7d")).filter (·.position + 5 ≤ 50) ∧
    definitionsAt {} (declaredAbove "") (fun place => place + 50 ≤ 50) =
      definitionsAt {} (declaredAbove "\x7d") (fun place => place + 50 ≤ 50) ∧
    definitionsAt {} (declaredAbove "") (fun _ => true) = definitions {} (declaredAbove "") ∧
    definitionsAt {} (declaredAbove "\x7d") (fun _ => true) = definitions {} (declaredAbove "\x7d") := by
  have hjob : (declaredAbove "").mentionsJob {} = (declaredAbove "\x7d").mentionsJob {} := by decide +kernel
  have hlength : (Text.lines ("public class Paid : IntegrationEvent" ++
      String.ofList (List.replicate 49 '\n') ++ "\n")).length = 50 := by decide +kernel
  have hagree : AgreeAbove {} 50 (declaredAbove "") (declaredAbove "\x7d") :=
    hlength ▸ agreeAbove_of_below hjob
  exact ⟨hagree, facts_fixed_above hagree⟩

end Source

end EventAtlas
