import EventAtlas.Export.Markdown
import EventAtlas.Proofs.Report.Correlation
import Mathlib.Data.List.Perm.Basic

namespace EventAtlas

/-- Groups by the keys of items, taken together, hold each item once. -/
theorem flatMap_filter_perm {α κ : Type} [DecidableEq κ] (key : α → κ) {keys : List κ} (hnodup : keys.Nodup)
    {items : List α} (hkeys : ∀ a ∈ items, key a ∈ keys) :
    (keys.flatMap fun k => items.filter fun a => key a == k).Perm items := by
  induction keys generalizing items with
  | nil =>
    obtain rfl : items = [] := List.eq_nil_iff_forall_not_mem.mpr fun a ha => by simpa using hkeys a ha
    simp
  | cons k keys ih =>
    obtain ⟨hk, hnodup⟩ := List.nodup_cons.mp hnodup
    have hothers : ∀ a ∈ items.filter fun a => !(key a == k), key a ∈ keys := by
      intro a ha
      obtain ⟨hmem, hne⟩ := List.mem_filter.mp ha
      rcases List.mem_cons.mp (hkeys a hmem) with heq | hlater
      · simp [heq] at hne
      · exact hlater
    have hgroups : (keys.flatMap fun k' => items.filter fun a => key a == k') =
        keys.flatMap fun k' => (items.filter fun a => !(key a == k)).filter fun a => key a == k' := by
      apply List.flatMap_congr
      intro k' hk'
      rw [List.filter_filter]
      apply List.filter_congr
      intro a _
      by_cases heq : key a = k'
      · have hne : k' ≠ k := fun h => hk (h ▸ hk')
        simp [heq, hne]
      · simp [heq]
    rw [List.flatMap_cons, hgroups]
    exact ((ih hnodup hothers).append_left _).trans (List.filter_append_perm _ _)

namespace Markdown

/-- What a repository publishes and consumes. -/
structure Activity where
  repository : String
  publications : List Publication
  consumptions : List Consumption

/-- One bullet for each item, and one that says so where there are none. -/
def listed {α : Type} (text : α → String) (items : List α) : String :=
  String.join (items.map fun a => "- " ++ text a ++ "\n") ++ if items.isEmpty then "- _nothing_\n" else ""

/-- The section on a repository. -/
def Activity.text (a : Activity) : String :=
  "### " ++ a.repository ++ "\n\nPublishes:\n" ++ listed publicationText a.publications ++ "\nConsumes:\n" ++
    listed consumptionText a.consumptions ++ "\n"

/-- The publications and consumptions by repository. Each repository that has one of them comes once, in the order of
their names, with its own in the order that they have among all. -/
structure IsActivityOf (f : Facts) (activities : List Activity) : Prop where
  rising : activities.Pairwise fun a b => a.repository < b.repository
  active : ∀ name, (∃ a ∈ activities, a.repository = name) ↔
    (∃ p ∈ f.publications, p.origin.repository = name) ∨ ∃ c ∈ f.consumptions, c.origin.repository = name
  publications : ∀ a ∈ activities, a.publications = f.publications.filter (·.origin.repository == a.repository)
  consumptions : ∀ a ∈ activities, a.consumptions = f.consumptions.filter (·.origin.repository == a.repository)

theorem join_bullets {α : Type} (text : α → String) (items : List α) :
    String.join (bullets (items.map text)) = listed text items := by
  unfold bullets listed
  rw [String.join_append, List.isEmpty_map, List.map_map]
  congr 1
  cases items.isEmpty with
  | true => rfl
  | false => rfl

section

variable (f : Facts)

def activityOf (repository : String) : Activity where
  repository
  publications := f.publications.filter (·.origin.repository == repository)
  consumptions := f.consumptions.filter (·.origin.repository == repository)

/-- A repository has a publication or a consumption. -/
def IsActive (name : String) : Prop :=
  (∃ p ∈ f.publications, p.origin.repository = name) ∨ ∃ c ∈ f.consumptions, c.origin.repository = name

def Activity.sites (a : Activity) : Sites where
  publishes := a.publications.map publicationText
  consumes := a.consumptions.map consumptionText

private theorem foldl_publishes (sites : Sites) (publications : List Publication) :
    publications.foldl (fun sites p => { sites with publishes := sites.publishes ++ [publicationText p] }) sites =
      { sites with publishes := sites.publishes ++ publications.map publicationText } := by
  induction publications generalizing sites with
  | nil => simp
  | cons p publications ih => simp [ih]

private theorem foldl_consumes (sites : Sites) (consumptions : List Consumption) :
    consumptions.foldl (fun sites c => { sites with consumes := sites.consumes ++ [consumptionText c] }) sites =
      { sites with consumes := sites.consumes ++ consumptions.map consumptionText } := by
  induction consumptions generalizing sites with
  | nil => simp
  | cons c consumptions ih => simp [ih]

/-- The second pass adds to the sites of a repository that the first one has found, or to none. -/
theorem sitesByRepository_eq_some_iff {name : String} {sites : Sites} :
    (sitesByRepository f)[name]? = some sites ↔ IsActive f name ∧ sites = (activityOf f name).sites := by
  have hactive : IsActive f name ↔ f.publications.any (·.origin.repository == name) = true ∨
      f.consumptions.any (·.origin.repository == name) = true := by
    simp [IsActive]
  rw [hactive, sitesByRepository, NameMap.getElem?_collect, NameMap.getElem?_collect, foldl_publishes,
    foldl_consumes, Std.TreeMap.getElem?_emptyc]
  have hnone {α : Type} {items : List α} {p : α → Bool} (h : items.any p = false) : items.filter p = [] := by
    simpa using h
  cases hpublishes : f.publications.any (·.origin.repository == name) with
  | true =>
    cases hconsumes : f.consumptions.any (·.origin.repository == name) with
    | true => simp [activityOf, Activity.sites, eq_comm]
    | false => simp [activityOf, Activity.sites, hnone hconsumes, eq_comm]
  | false =>
    cases hconsumes : f.consumptions.any (·.origin.repository == name) with
    | true => simp [activityOf, Activity.sites, hnone hpublishes, eq_comm]
    | false => simp

/-- The repositories that publish or consume. -/
def activeRepositories : List String := (sitesByRepository f).keys

theorem mem_activeRepositories {name : String} : name ∈ activeRepositories f ↔ IsActive f name := by
  rw [activeRepositories, Std.TreeMap.mem_keys, Std.TreeMap.mem_iff_isSome_getElem?, Option.isSome_iff_exists]
  simp only [sitesByRepository_eq_some_iff, exists_and_left, exists_eq, and_true]

private theorem sitesByRepository_toList :
    (sitesByRepository f).toList = (activeRepositories f).map fun name => (name, (activityOf f name).sites) := by
  have heach : ∀ e ∈ (sitesByRepository f).toList, e = (e.1, (activityOf f e.1).sites) := by
    intro e he
    obtain ⟨-, hsites⟩ := (sitesByRepository_eq_some_iff f).mp (Std.TreeMap.mem_toList_iff_getElem?_eq_some.mp he)
    exact Prod.ext rfl hsites
  rw [activeRepositories, ← Std.TreeMap.map_fst_toList_eq_keys, List.map_map]
  exact (List.map_id _).symm.trans (List.map_congr_left heach)

private theorem join_repositorySection (a : Activity) :
    String.join (repositorySection a.repository a.sites) = a.text := by
  unfold repositorySection Activity.text Activity.sites
  rw [String.join_append, String.join_append, String.join_append, String.join_append, join_bullets, join_bullets]
  simp [line, blank, String.append_assoc]

private theorem join_flatMap {α : Type} (lines : α → List String) (items : List α) :
    String.join (items.flatMap lines) = String.join (items.map fun a => String.join (lines a)) := by
  induction items with
  | nil => rfl
  | cons a items ih => rw [List.flatMap_cons, String.join_append, List.map_cons, String.join_cons, ih]

private theorem join_repositoriesSection :
    String.join (repositoriesSection f) =
      "## Repositories\n\n" ++ String.join (((activeRepositories f).map (activityOf f)).map Activity.text) := by
  have hparts : (fun name => String.join (repositorySection name (activityOf f name).sites)) =
      Activity.text ∘ activityOf f := funext fun name => join_repositorySection (activityOf f name)
  unfold repositoriesSection
  rw [sitesByRepository_toList, List.flatMap_map, String.join_cons, String.join_cons, join_flatMap, hparts,
    ← List.map_map, ← String.append_assoc]
  rfl

theorem nodup_of_rising {names : List String} (h : names.Pairwise (· < ·)) : names.Nodup := by
  refine h.imp ?_
  rintro name other hlt rfl
  exact String.lt_irrefl name hlt

theorem activeRepositories_rising : (activeRepositories f).Pairwise (· < ·) := NameMap.keys_rising _

private theorem isActivityOf_map : IsActivityOf f ((activeRepositories f).map (activityOf f)) where
  rising := List.pairwise_map.mpr (activeRepositories_rising f)
  active name := by
    change _ ↔ IsActive f name
    rw [← mem_activeRepositories]
    simp [activityOf]
  publications := by
    intro a ha
    obtain ⟨name, -, rfl⟩ := List.mem_map.mp ha
    rfl
  consumptions := by
    intro a ha
    obtain ⟨name, -, rfl⟩ := List.mem_map.mp ha
    rfl

variable {f}

/-- A grouping is determined by the facts. -/
theorem IsActivityOf.eq_map {activities : List Activity} (h : IsActivityOf f activities) :
    activities = (activeRepositories f).map (activityOf f) := by
  have hrising : (activities.map Activity.repository).Pairwise (· < ·) := List.pairwise_map.mpr h.rising
  have hperm : (activities.map Activity.repository).Perm (activeRepositories f) := by
    refine (List.perm_ext_iff_of_nodup (nodup_of_rising hrising)
      (nodup_of_rising (activeRepositories_rising f))).mpr ?_
    intro name
    rw [List.mem_map, h.active, mem_activeRepositories]
    rfl
  have hnames : activities.map Activity.repository = activeRepositories f :=
    hperm.eq_of_pairwise (fun _ _ _ _ hab hba => absurd hba (String.lt_asymm hab)) hrising
      (activeRepositories_rising f)
  have heach : ∀ a ∈ activities, a = activityOf f a.repository := by
    intro a ha
    have hpublications := h.publications a ha
    have hconsumptions := h.consumptions a ha
    obtain ⟨name, publications, consumptions⟩ := a
    dsimp only at hpublications hconsumptions
    rw [hpublications, hconsumptions]
    rfl
  rw [← hnames, List.map_map]
  exact (List.map_id activities).symm.trans (List.map_congr_left heach)

/-- Each item comes once among those of its own repository. -/
theorem grouped_perm {α : Type} (repository : α → String) {items : List α}
    (h : ∀ a ∈ items, repository a ∈ activeRepositories f) :
    ((activeRepositories f).flatMap fun name => (items.filter (repository · == name)).map fun a => (name, a)).Perm
      (items.map fun a => (repository a, a)) := by
  have hnames : ((activeRepositories f).flatMap fun name =>
      (items.filter (repository · == name)).map fun a => (name, a)) =
        ((activeRepositories f).flatMap fun name => items.filter (repository · == name)).map
          fun a => (repository a, a) := by
    rw [List.map_flatMap]
    apply List.flatMap_congr
    intro name _
    apply List.map_congr_left
    intro a ha
    have hname : repository a = name := by simpa using (List.mem_filter.mp ha).2
    rw [hname]
  rw [hnames]
  exact (flatMap_filter_perm repository (nodup_of_rising (activeRepositories_rising f)) h).map _

end

end Markdown

end EventAtlas
