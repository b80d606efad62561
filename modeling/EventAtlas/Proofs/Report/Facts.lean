import EventAtlas.Proofs.Report.Sorting

namespace EventAtlas

theorem nodup_eraseDups {α : Type} [BEq α] [LawfulBEq α] (items : List α) : items.eraseDups.Nodup := by
  induction hn : items.length using Nat.strong_induction_on generalizing items with
  | _ n ih =>
    cases items with
    | nil => simp
    | cons a rest =>
      rw [List.eraseDups_cons, List.nodup_cons]
      constructor
      · simp [List.mem_eraseDups]
      · have hlength : (rest.filter fun b => !b == a).length < n := by
          rw [← hn, List.length_cons]
          exact Nat.lt_succ_of_le (List.length_filter_le _ _)
        exact ih _ hlength _ rfl

/-- The number of different items grows with what there is. -/
theorem length_eraseDups_le {α : Type} [BEq α] [LawfulBEq α] {items others : List α} (h : items ⊆ others) :
    items.eraseDups.length ≤ others.eraseDups.length := by
  refine (List.subperm_of_subset (nodup_eraseDups items) ?_).length_le
  intro a ha
  rw [List.mem_eraseDups] at ha ⊢
  exact h ha

/-- A new last item is kept exactly if it is not there yet. -/
theorem eraseDups_concat {α : Type} [BEq α] [LawfulBEq α] (items : List α) (a : α) [Decidable (a ∈ items)] :
    (items ++ [a]).eraseDups = if a ∈ items then items.eraseDups else items.eraseDups ++ [a] := by
  rw [List.eraseDups_append]
  by_cases ha : a ∈ items
  · simp [List.removeAll, ha]
  · simp [List.removeAll, ha, List.eraseDups_cons]

/-- Repetitions can be taken out before or after others are. -/
theorem filter_eraseDups {α : Type} [BEq α] [LawfulBEq α] (p : α → Bool) (items : List α) :
    items.eraseDups.filter p = (items.filter p).eraseDups := by
  classical
  induction items using List.reverseRecOn with
  | nil => rfl
  | append_singleton items a ih =>
    rw [eraseDups_concat, List.filter_append]
    by_cases hp : p a = true
    · rw [List.filter_cons_of_pos hp, List.filter_nil, eraseDups_concat]
      by_cases ha : a ∈ items
      · simp [ha, hp, ih]
      · simp [ha, hp, ih]
    · rw [List.filter_cons_of_neg hp, List.filter_nil, List.append_nil, ← ih]
      split_ifs
      · rfl
      · simp [hp]

theorem eraseDups_map {α β : Type} [BEq α] [LawfulBEq α] [BEq β] [LawfulBEq β] {f : α → β}
    (hf : Function.Injective f) (items : List α) : (items.map f).eraseDups = items.eraseDups.map f := by
  classical
  induction items using List.reverseRecOn with
  | nil => rfl
  | append_singleton items a ih =>
    rw [List.map_append, List.map_singleton, eraseDups_concat, eraseDups_concat, ih]
    have hmem : f a ∈ items.map f ↔ a ∈ items := List.mem_map_of_injective hf
    by_cases ha : a ∈ items
    · rw [if_pos ha, if_pos (hmem.mpr ha)]
    · rw [if_neg ha, if_neg (mt hmem.mp ha), List.map_append, List.map_singleton]

theorem eraseDups_of_nodup {α : Type} [BEq α] [LawfulBEq α] {items : List α} (h : items.Nodup) :
    items.eraseDups = items := by
  classical
  induction items using List.reverseRecOn with
  | nil => rfl
  | append_singleton items a ih =>
    obtain ⟨hitems, -, hapart⟩ := List.nodup_append.mp h
    have ha : a ∉ items := fun hmem => hapart a hmem a (List.mem_singleton.mpr rfl) rfl
    rw [eraseDups_concat, if_neg ha, ih hitems]

def Origin.strings (o : Origin) : List String := [o.repository, o.project, o.path.shown]

def EventDefinition.strings (e : EventDefinition) : List String :=
  [e.name, e.qualifiedName] ++ e.origin.strings ++ e.properties ++ e.payloadClass.toList ++ e.standardProperties

def Publication.strings (p : Publication) : List String :=
  [p.event, p.className, p.methodName] ++ p.origin.strings ++ p.context.toList ++ p.jobClass.toList

def Consumption.strings (c : Consumption) : List String :=
  [c.event, c.handlerClass, c.handlerMethod] ++ c.origin.strings ++ c.snippet.getD []

def Subscription.strings (s : Subscription) : List String :=
  [s.event] ++ s.origin.strings ++ s.context.toList

/-- All strings and paths that facts hold. -/
def Facts.strings (f : Facts) : List String :=
  f.events.flatMap EventDefinition.strings ++ f.publications.flatMap Publication.strings ++
    f.consumptions.flatMap Consumption.strings ++ f.subscriptions.flatMap Subscription.strings

namespace Facts

/-- A sort of facts, as a field that joining facts joins. -/
theorem concat_field {α : Type} (field : Facts → List α) (hnone : field {} = [])
    (hjoin : ∀ f g : Facts, field (f ++ g) = field f ++ field g) (parts : List Facts) :
    field (concat parts) = parts.flatMap field := by
  have hfold : ∀ start : Facts,
      field (parts.foldl (· ++ ·) start) = field start ++ parts.flatMap field := by
    induction parts with
    | nil => simp
    | cons part parts ih =>
      intro start
      rw [List.foldl_cons, ih, hjoin, List.flatMap_cons, List.append_assoc]
  rw [concat, hfold, hnone, List.nil_append]

theorem concat_events (parts : List Facts) : (concat parts).events = parts.flatMap Facts.events :=
  concat_field Facts.events rfl (fun _ _ => rfl) parts

theorem concat_publications (parts : List Facts) :
    (concat parts).publications = parts.flatMap Facts.publications :=
  concat_field Facts.publications rfl (fun _ _ => rfl) parts

theorem concat_consumptions (parts : List Facts) :
    (concat parts).consumptions = parts.flatMap Facts.consumptions :=
  concat_field Facts.consumptions rfl (fun _ _ => rfl) parts

theorem concat_subscriptions (parts : List Facts) :
    (concat parts).subscriptions = parts.flatMap Facts.subscriptions :=
  concat_field Facts.subscriptions rfl (fun _ _ => rfl) parts

/-- Where the facts were found. -/
def origins (f : Facts) : List Origin :=
  f.events.map EventDefinition.origin ++ f.publications.map Publication.origin ++
    f.consumptions.map Consumption.origin ++ f.subscriptions.map Subscription.origin

/-- Every fact counts for the service it was found in. -/
theorem services_eq_map (f : Facts) : f.services = f.origins.map Origin.service := by
  simp [services, origins, Function.comp_def]

/-- The facts are those of the parts, in some order. -/
structure IsUnionOf (f : Facts) (parts : List Facts) : Prop where
  events : f.events.Perm (parts.flatMap Facts.events)
  publications : f.publications.Perm (parts.flatMap Facts.publications)
  consumptions : f.consumptions.Perm (parts.flatMap Facts.consumptions)
  subscriptions : f.subscriptions.Perm (parts.flatMap Facts.subscriptions)

theorem append_isUnionOf (f g : Facts) : (f ++ g).IsUnionOf [f, g] := by
  constructor <;> rw [List.flatMap_cons, List.flatMap_singleton] <;> exact .refl _

/-- The whole holds what the parts hold. -/
theorem concat_isUnionOf (parts : List Facts) : (concat parts).IsUnionOf parts where
  events := .of_eq (concat_events parts)
  publications := .of_eq (concat_publications parts)
  consumptions := .of_eq (concat_consumptions parts)
  subscriptions := .of_eq (concat_subscriptions parts)

theorem IsUnionOf.sorted {f : Facts} {parts : List Facts} (h : f.IsUnionOf parts) :
    f.sorted.IsUnionOf parts where
  events := (sortBy_perm _ _).trans h.events
  publications := (sortBy_perm _ _).trans h.publications
  consumptions := (sortBy_perm _ _).trans h.consumptions
  subscriptions := (sortBy_perm _ _).trans h.subscriptions

/-- Each origin of a union comes from one of its parts. -/
theorem IsUnionOf.mem_origins {f : Facts} {parts : List Facts} (h : f.IsUnionOf parts) {origin : Origin}
    (horigin : origin ∈ f.origins) : ∃ part ∈ parts, origin ∈ part.origins := by
  simp only [origins, List.mem_append, List.mem_map, h.events.mem_iff, h.publications.mem_iff,
    h.consumptions.mem_iff, h.subscriptions.mem_iff, List.mem_flatMap] at horigin
  rcases horigin with ((⟨a, ⟨part, hpart, ha⟩, rfl⟩ | ⟨a, ⟨part, hpart, ha⟩, rfl⟩) |
    ⟨a, ⟨part, hpart, ha⟩, rfl⟩) | ⟨a, ⟨part, hpart, ha⟩, rfl⟩
  all_goals
    refine ⟨part, hpart, ?_⟩
    simp only [origins, List.mem_append]
  · exact .inl (.inl (.inl (List.mem_map.mpr ⟨a, ha, rfl⟩)))
  · exact .inl (.inl (.inr (List.mem_map.mpr ⟨a, ha, rfl⟩)))
  · exact .inl (.inr (List.mem_map.mpr ⟨a, ha, rfl⟩))
  · exact .inr (List.mem_map.mpr ⟨a, ha, rfl⟩)

end Facts

end EventAtlas
