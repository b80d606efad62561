import EventAtlas.Proofs.Report.Entries
import EventAtlas.Proofs.Report.Facts

namespace EventAtlas.FlowGraph

/-- What a flow graph should hold, without numbers and keys: things in the order they were mentioned, the ties
between them, and what is said about events. -/
structure Outline where
  entities : List Entity := []
  ties : List Tie := []
  description : String → List (String × String) := fun _ => []

namespace Outline

def mention (o : Outline) (x : Entity) : Outline :=
  { o with entities := if x ∈ o.entities then o.entities else o.entities ++ [x] }

def tie (o : Outline) (source : Entity) (kind : EdgeKind) (target : Entity) : Outline :=
  { o with ties := o.ties ++ [⟨source, kind, target⟩] }

def hasTie (o : Outline) (source target : Entity) : Bool :=
  o.ties.any fun t => t.source == source && t.target == target

def service (o : Outline) (s : String × String) : Outline :=
  let o := (o.mention (.repository s.1)).mention (.service s)
  if o.hasTie (.repository s.1) (.service s) then o else o.tie (.repository s.1) .contains (.service s)

def describe (o : Outline) (name : String) (properties : List (String × String)) : Outline :=
  { o with description := Function.update o.description name properties }

/-- The outline with an entry read into it. -/
def read (o : Outline) : Entry → Outline
  | .definition e =>
    (((o.service e.origin.service).mention (.event e.name)).describe e.name (definitionProperties e)).tie
      (.service e.origin.service) .defines (.event e.name)
  | .site number s =>
    ((((o.service s.origin.service).mention (.site number s)).mention (.event s.event)).tie
      (.service s.origin.service) .contains (.site number s)).tie
      (.site number s) s.edge (.event s.event)

def ofEntries (entries : List Entry) : Outline := entries.foldl read {}

theorem ofEntries_concat (entries : List Entry) (e : Entry) :
    ofEntries (entries ++ [e]) = (ofEntries entries).read e := by
  simp [ofEntries]

variable {o : Outline} {xs : List Entity}

/-- What is mentioned again is not entered again. -/
theorem mention_entities (h : o.entities = xs.eraseDups) (x : Entity) :
    (o.mention x).entities = (xs ++ [x]).eraseDups := by
  rw [eraseDups_concat]
  simp only [mention, h, List.mem_eraseDups]

private theorem service_entities (h : o.entities = xs.eraseDups) (s : String × String) :
    (o.service s).entities = (xs ++ [Entity.repository s.1, Entity.service s]).eraseDups := by
  have hmentioned := mention_entities (mention_entities h (.repository s.1)) (.service s)
  rw [List.append_assoc, List.singleton_append] at hmentioned
  rw [← hmentioned, service]
  split_ifs
  · rfl
  · rfl

private theorem read_entities (h : o.entities = xs.eraseDups) (e : Entry) :
    (o.read e).entities = (xs ++ e.entities).eraseDups := by
  have hservice := service_entities h e.service
  cases e with
  | definition e =>
    have hevent := mention_entities hservice (.event e.name)
    rwa [List.append_assoc] at hevent
  | site number s =>
    have hevent := mention_entities (mention_entities hservice (.site number s)) (.event s.event)
    rwa [List.append_assoc, List.append_assoc] at hevent

/-- The different things of the entries, in the order they came. -/
theorem ofEntries_entities (entries : List Entry) :
    (ofEntries entries).entities = (entries.flatMap Entry.entities).eraseDups := by
  induction entries using List.reverseRecOn with
  | nil => rfl
  | append_singleton entries e ih =>
    rw [ofEntries_concat, read_entities ih, List.flatMap_append, List.flatMap_singleton]

/-- The tie of a service to its repository. -/
def containing (s : String × String) : Tie := ⟨.repository s.1, .contains, .service s⟩

/-- One tie into every service of the entries, and the ties of the entries in their order. -/
structure TiesOf (entries : List Entry) (ties : List Tie) : Prop where
  services : ∀ s, ties.filter (·.target == .service s) =
    if s ∈ entries.map Entry.service then [containing s] else []
  others : ties.filter (!·.target.isService) = entries.flatMap Entry.ties

variable {entries : List Entry}

theorem hasTie_iff (h : TiesOf entries o.ties) (s : String × String) :
    o.hasTie (.repository s.1) (.service s) = true ↔ s ∈ entries.map Entry.service := by
  have hinto := h.services s
  constructor
  · intro hties
    obtain ⟨t, ht, hends⟩ := List.any_eq_true.mp hties
    have hmem : t ∈ o.ties.filter (·.target == .service s) :=
      List.mem_filter.mpr ⟨ht, (Bool.and_eq_true_iff.mp hends).2⟩
    by_contra hnew
    rw [hinto, if_neg hnew] at hmem
    simp at hmem
  · intro hs
    have hmem : containing s ∈ o.ties.filter (·.target == .service s) := by
      rw [hinto, if_pos hs]
      exact List.mem_singleton_self _
    exact List.any_eq_true.mpr ⟨_, List.mem_of_mem_filter hmem, by simp [containing]⟩

private theorem service_ties (h : TiesOf entries o.ties) (s : String × String) :
    (o.service s).ties = o.ties ++ if s ∈ entries.map Entry.service then [] else [containing s] := by
  have hknown := hasTie_iff (o := (o.mention (.repository s.1)).mention (.service s)) h s
  rw [service]
  by_cases hs : s ∈ entries.map Entry.service
  · rw [if_pos (hknown.mpr hs), if_pos hs, List.append_nil]
    rfl
  · rw [if_neg (mt hknown.mp hs), if_neg hs]
    rfl

private theorem read_ties (o : Outline) (e : Entry) : (o.read e).ties = (o.service e.service).ties ++ e.ties := by
  cases e with
  | definition e => rfl
  | site number s => simp [read, tie, mention, Entry.ties, Entry.service]

theorem TiesOf.read (h : TiesOf entries o.ties) (e : Entry) : TiesOf (entries ++ [e]) (o.read e).ties := by
  have hties : (o.read e).ties = o.ties ++
      (if e.service ∈ entries.map Entry.service then [] else [containing e.service]) ++ e.ties := by
    rw [read_ties, service_ties h]
  constructor
  · intro s
    have hown : e.ties.filter (·.target == .service s) = [] := by
      refine List.filter_eq_nil_iff.mpr fun t ht hs => ?_
      have hservice := Entry.not_isService_of_mem_ties ht
      rw [beq_iff_eq.mp hs] at hservice
      simp [Entity.isService] at hservice
    rw [hties, List.filter_append, List.filter_append, hown, List.append_nil, h.services s]
    by_cases hs : s = e.service
    · subst hs
      by_cases hknown : e.service ∈ entries.map Entry.service
      · simp [hknown]
      · simp [hknown, containing]
    · have hnew : (if e.service ∈ entries.map Entry.service then [] else [containing e.service]).filter
          (·.target == .service s) = [] := by
        split_ifs
        · rfl
        · simp [containing, Ne.symm hs]
      rw [hnew, List.append_nil]
      simp [hs]
  · have hown : e.ties.filter (!·.target.isService) = e.ties := by
      refine List.filter_eq_self.mpr fun t ht => ?_
      rw [Entry.not_isService_of_mem_ties ht, Bool.not_false]
    have hnew : (if e.service ∈ entries.map Entry.service then [] else [containing e.service]).filter
        (!·.target.isService) = [] := by
      split_ifs
      · rfl
      · rfl
    rw [hties, List.filter_append, List.filter_append, h.others, hown, hnew, List.append_nil,
      List.flatMap_append, List.flatMap_singleton]

theorem ofEntries_ties (entries : List Entry) : TiesOf entries (ofEntries entries).ties := by
  induction entries using List.reverseRecOn with
  | nil => exact ⟨fun _ => rfl, rfl⟩
  | append_singleton entries e ih =>
    rw [ofEntries_concat]
    exact ih.read e

theorem service_description (o : Outline) (s : String × String) : (o.service s).description = o.description := by
  rw [service]
  split_ifs
  · rfl
  · rfl

/-- The last definition of a name describes its event. -/
theorem ofEntries_description (entries : List Entry) :
    (ofEntries entries).description = lastProperties (entries.filterMap Entry.definition?) := by
  induction entries using List.reverseRecOn with
  | nil => rfl
  | append_singleton entries e ih =>
    rw [ofEntries_concat, List.filterMap_append]
    cases e with
    | definition e =>
      have hlast := lastProperties_concat (entries.filterMap Entry.definition?) e
      rw [← ih, ← service_description _ e.origin.service] at hlast
      exact hlast.symm
    | site number s =>
      rw [List.filterMap_cons_none rfl, List.filterMap_nil, List.append_nil, ← ih]
      exact service_description _ s.origin.service

theorem ofEntries_of_kind (entries : List Entry) {α : Type} [BEq α] [LawfulBEq α]
    {kind : NodeKind} (hkind : kind.isSite = false) (entity : α → Entity) (hentity : Function.Injective entity)
    (of : Entry → α)
    (hof : ∀ e : Entry, [Entity.repository e.service.1, .service e.service, .event e.event].filter
      (·.kind == kind) = [entity (of e)]) :
    (ofEntries entries).entities.filter (·.kind == kind) = (entries.map of).eraseDups.map entity := by
  have hall : (entries.flatMap Entry.entities).filter (·.kind == kind) = (entries.map of).map entity := by
    rw [List.filter_flatMap, List.map_map]
    induction entries with
    | nil => rfl
    | cons e rest ih =>
      rw [List.flatMap_cons, ih, Entry.filter_entities_kind e hkind, hof e]
      rfl
  rw [ofEntries_entities, filter_eraseDups, hall, eraseDups_map hentity]

theorem ofEntries_repositories (entries : List Entry) :
    (ofEntries entries).entities.filter (·.kind == .repository) =
      (entries.map (·.service.1)).eraseDups.map .repository :=
  ofEntries_of_kind entries rfl _ (fun _ _ => Entity.repository.inj) _ fun _ => rfl

theorem ofEntries_services (entries : List Entry) :
    (ofEntries entries).entities.filter (·.kind == .service) =
      (entries.map Entry.service).eraseDups.map .service :=
  ofEntries_of_kind entries rfl _ (fun _ _ => Entity.service.inj) _ fun _ => rfl

theorem ofEntries_events (entries : List Entry) :
    (ofEntries entries).entities.filter (·.kind == .event) =
      (entries.map Entry.event).eraseDups.map .event :=
  ofEntries_of_kind entries rfl _ (fun _ _ => Entity.event.inj) _ fun _ => rfl

theorem eq_containing_of_mem {t : Tie} (ht : t ∈ (ofEntries entries).ties) {s : String × String}
    (htarget : t.target = .service s) : t = containing s := by
  have hmem : t ∈ (ofEntries entries).ties.filter (·.target == .service s) :=
    List.mem_filter.mpr ⟨ht, beq_iff_eq.mpr htarget⟩
  rw [(ofEntries_ties entries).services s] at hmem
  split_ifs at hmem
  · exact List.mem_singleton.mp hmem
  · simp at hmem

/-- The definitions among the entries, in their order. -/
theorem ofEntries_definitions (entries : List Entry) :
    (ofEntries entries).ties.filter (·.kind == .defines) =
      (entries.filterMap Entry.definition?).map fun e =>
        ⟨.service e.origin.service, .defines, .event e.name⟩ := by
  have hown (e : Entry) : e.ties.filter (·.kind == .defines) = (e.definition?.map fun e =>
      (⟨.service e.origin.service, .defines, .event e.name⟩ : Tie)).toList := by
    cases e with
    | definition e => rfl
    | site number s => simp [Entry.ties, Entry.definition?, s.edge_ne]
  rw [List.map_filterMap, List.filterMap_eq_flatMap_toList, ← funext hown, ← List.filter_flatMap,
    ← (ofEntries_ties entries).others, List.filter_filter]
  refine List.filter_congr fun t ht => ?_
  cases htarget : t.target with
  | service s => simp [eq_containing_of_mem ht htarget, containing, Entity.isService]
  | repository _ | event _ | site _ _ => simp [Entity.isService]

section Sites

variable (hsites : (entries.filterMap Entry.site?).Nodup)

include hsites in
theorem ofEntries_sites : (ofEntries entries).entities.filter (·.kind.isSite) =
    (entries.filterMap Entry.site?).map fun s => .site s.1 s.2 := by
  have hall : (entries.flatMap Entry.entities).filter (·.kind.isSite) =
      (entries.filterMap Entry.site?).map fun s => Entity.site s.1 s.2 := by
    rw [List.filter_flatMap, List.map_filterMap, List.filterMap_eq_flatMap_toList]
    exact congrArg (entries.flatMap ·) (funext Entry.filter_entities_site)
  have hinjective : Function.Injective fun s : Nat × Site => Entity.site s.1 s.2 := by
    intro s t h
    exact Prod.ext (Entity.site.inj h).1 (Entity.site.inj h).2
  rw [ofEntries_entities, filter_eraseDups, hall, eraseDups_map hinjective, eraseDups_of_nodup hsites]

include hsites in
/-- Only the entry of a site has ties to the site. -/
theorem filter_ties_of_site {number : Nat} {s : Site} (hs : (number, s) ∈ entries.filterMap Entry.site?)
    {p : Tie → Bool} (hp : ∀ t, p t = true → t.source = .site number s ∨ t.target = .site number s) :
    (entries.flatMap Entry.ties).filter p = (Entry.site number s).ties.filter p := by
  obtain ⟨e, he, hsite⟩ := List.mem_filterMap.mp hs
  obtain rfl := Entry.eq_site_of_site? hsite
  obtain ⟨before, after, rfl⟩ := List.append_of_mem he
  have hnone : ∀ part : List Entry, (number, s) ∉ part.filterMap Entry.site? →
      (part.flatMap Entry.ties).filter p = [] := by
    intro part hpart
    refine List.filter_eq_nil_iff.mpr fun t ht htrue => ?_
    obtain ⟨e, he, ht⟩ := List.mem_flatMap.mp ht
    have hsite : e.site? = some (number, s) := Entry.site?_of_mem_ties ht (hp t htrue)
    exact hpart (List.mem_filterMap.mpr ⟨e, he, hsite⟩)
  rw [List.filterMap_append, List.filterMap_cons_some hsite, List.nodup_middle, List.nodup_cons,
    List.mem_append, not_or] at hsites
  rw [List.flatMap_append, List.flatMap_cons, List.filter_append, List.filter_append,
    hnone before hsites.1.1, hnone after hsites.1.2, List.nil_append, List.append_nil]

include hsites in
/-- A site is tied to its service and to nothing else. -/
theorem ofEntries_into_site {number : Nat} {s : Site} (hs : (number, s) ∈ entries.filterMap Entry.site?) :
    (ofEntries entries).ties.filter (·.target == .site number s) =
      [⟨.service s.origin.service, .contains, .site number s⟩] := by
  have hown : (Entry.site number s).ties.filter (·.target == .site number s) =
      [⟨.service s.origin.service, .contains, .site number s⟩] := by
    simp [Entry.ties]
  rw [← hown, ← filter_ties_of_site hsites hs fun t ht => .inr (beq_iff_eq.mp ht),
    ← (ofEntries_ties entries).others, List.filter_filter]
  refine List.filter_congr fun t _ => ?_
  by_cases ht : t.target = .site number s
  · simp [ht, Entity.isService]
  · simp [ht]

include hsites in
/-- Only the event of a site is tied to it. -/
theorem ofEntries_outOf_site {number : Nat} {s : Site} (hs : (number, s) ∈ entries.filterMap Entry.site?) :
    (ofEntries entries).ties.filter (·.source == .site number s) =
      [⟨.site number s, s.edge, .event s.event⟩] := by
  have hown : (Entry.site number s).ties.filter (·.source == .site number s) =
      [⟨.site number s, s.edge, .event s.event⟩] := by
    simp [Entry.ties]
  rw [← hown, ← filter_ties_of_site hsites hs fun t ht => .inl (beq_iff_eq.mp ht),
    ← (ofEntries_ties entries).others, List.filter_filter]
  refine List.filter_congr fun t ht => ?_
  by_cases hsource : t.source = .site number s
  · have hservice : t.target.isService = false := by
      cases htarget : t.target with
      | service other =>
        have hinto := eq_containing_of_mem ht htarget
        rw [hinto] at hsource
        simp [containing] at hsource
      | repository _ | event _ | site _ _ => rfl
    simp [hsource, hservice]
  · simp [hsource]

end Sites

end Outline

end EventAtlas.FlowGraph
