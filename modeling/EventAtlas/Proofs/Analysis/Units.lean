import EventAtlas.Analysis.Units
import EventAtlas.Proofs.Analysis.Discovery
import EventAtlas.Proofs.Analysis.Schedule
import Mathlib.Data.List.Nodup

namespace EventAtlas

open Std
open EventAtlas.Path (IsEntryName)

namespace Facts

/-- Every fact was found at the origin. -/
def AllFrom (origin : Origin) (f : Facts) : Prop := ∀ found ∈ f.origins, found = origin

theorem AllFrom.append {origin : Origin} {f g : Facts} (hf : f.AllFrom origin) (hg : g.AllFrom origin) :
    (f ++ g).AllFrom origin := by
  intro found hfound
  obtain ⟨part, hpart, hmem⟩ := (append_isUnionOf f g).mem_origins hfound
  rcases List.mem_cons.mp hpart with rfl | hpart
  · exact hf found hmem
  · obtain rfl := List.mem_singleton.mp hpart
    exact hg found hmem

end Facts

namespace Source

private theorem facts_allFrom (s : Indicators) (o : Options) (d : Document) (pass : Pass) :
    (pass.facts s o d).AllFrom d.origin := by
  intro found hfound
  cases pass with
  | events =>
    simp only [Pass.facts, Facts.origins, List.map_nil, List.append_nil, definitions, List.mem_map,
      List.mem_filterMap, definitionAt?, Option.map_eq_some_iff] at hfound
    obtain ⟨e, ⟨spot, _, name, _, rfl⟩, rfl⟩ := hfound
    rfl
  | publishers =>
    simp only [Pass.facts, Facts.origins, List.map_nil, List.append_nil, List.nil_append, publications,
      List.mem_map, List.mem_flatMap] at hfound
    obtain ⟨p, ⟨spot, _, event, _, rfl⟩, rfl⟩ := hfound
    unfold publicationAt
    split_ifs <;> rfl
  | consumers =>
    simp only [Pass.facts, Facts.origins, List.map_nil, List.append_nil, List.nil_append, consumptions,
      List.mem_map] at hfound
    obtain ⟨c, hc, rfl⟩ := hfound
    split_ifs at hc
    · simp at hc
    · obtain ⟨line, _, hline⟩ := List.mem_flatMap.mp hc
      unfold consumptionsAt at hline
      dsimp only at hline
      split_ifs at hline
      · simp at hline
      all_goals
        obtain ⟨event, _, rfl⟩ := List.mem_map.mp hline
        rfl
  | subscriptions =>
    simp only [Pass.facts, Facts.origins, List.map_nil, List.nil_append, subscriptions, List.mem_map,
      List.mem_flatMap] at hfound
    obtain ⟨e, ⟨line, _, event, _, rfl⟩, rfl⟩ := hfound
    rfl

/-- All facts of a document are found where the document lies. -/
theorem extract_allFrom (s : Indicators) (o : Options) (d : Document) : (extract s o d).AllFrom d.origin := by
  have hfold : ∀ (all : List Pass) (start : Facts), start.AllFrom d.origin →
      (all.foldl (fun facts pass => facts ++ pass.facts s o d) start).AllFrom d.origin := by
    intro all
    induction all with
    | nil => exact fun _ hstart => hstart
    | cons pass all ih => exact fun start hstart => ih _ (hstart.append (facts_allFrom s o d pass))
  exact hfold _ _ (by simp [Facts.AllFrom, Facts.origins])

end Source

theorem Module.publications_allFrom (s : Indicators) (g : TypeGraph) (origin : Origin) (m : Module) :
    Facts.AllFrom origin { publications := publications s g origin m } := by
  intro found hfound
  simp only [Facts.origins, List.map_nil, List.append_nil, List.nil_append, publications,
    methodPublications, List.mem_map, List.mem_flatMap, List.mem_filterMap] at hfound
  obtain ⟨p, ⟨t, _, method, _, call, _, hcall⟩, rfl⟩ := hfound
  split_ifs at hcall
  obtain rfl := Option.some.inj hcall
  unfold publicationAt
  dsimp only
  split_ifs <;> rfl

namespace Discovery

variable {s : Indicators} {o : Options} {root : Path} {tree : FileTree}

/-- The names that lead to the units of a repository. -/
def unitPlaces (s : Indicators) (o : Options) (root : Path) (tree : FileTree) : List (List RawText) :=
  ((tree.files (!isSourceless ·)).filter fun e => isSource s o.excludeTests root e.1).map Prod.fst ++
    if o.bytecodePublishers then
      ((tree.files (!isForeign ·)).filter fun e => isModuleDump s o.excludeTests root e.1).map Prod.fst
    else []

private theorem mem_unitPlaces {names : List RawText} (h : names ∈ unitPlaces s o root tree) :
    (∃ enter bytes, (names, bytes) ∈ tree.files enter) ∧ isManifest (entryName root names) = false := by
  rcases List.mem_append.mp h with hsource | hmodule
  · obtain ⟨⟨names, bytes⟩, he, rfl⟩ := List.mem_map.mp hsource
    obtain ⟨hfile, hkind⟩ := List.mem_filter.mp he
    exact ⟨⟨_, bytes, hfile⟩, isSource_not_manifest hkind⟩
  · split_ifs at hmodule
    · obtain ⟨⟨names, bytes⟩, he, rfl⟩ := List.mem_map.mp hmodule
      obtain ⟨hfile, hkind⟩ := List.mem_filter.mp he
      exact ⟨⟨_, bytes, hfile⟩, isModuleDump_not_manifest hkind⟩
    · simp at hmodule

private theorem unitPlaces_nodup (s : Indicators) (o : Options) (root : Path) (htree : tree.WellFormed) :
    (unitPlaces s o root tree).Nodup := by
  have hfiles (enter : RawText → Bool) (kind : List RawText → Bool) :
      (((tree.files enter).filter fun e => kind e.1).map Prod.fst).Nodup :=
    (FileTree.files_nodup enter htree).sublist (List.filter_sublist.map Prod.fst)
  refine List.nodup_append.mpr ⟨hfiles _ _, ?_, ?_⟩
  · split_ifs
    · exact hfiles _ _
    · exact List.nodup_nil
  · rintro names hsource others hmodule rfl
    split_ifs at hmodule
    · obtain ⟨e, he, rfl⟩ := List.mem_map.mp hsource
      obtain ⟨e', he', heq⟩ := List.mem_map.mp hmodule
      have hkind := isModuleDump_not_source (List.mem_filter.mp he').2
      rw [heq, (List.mem_filter.mp he).2] at hkind
      exact Bool.noConfusion hkind
    · simp at hmodule

/-- The units have the paths of the files that they come from. -/
theorem origins_paths_perm (r : Repository) (tree : FileTree) (entries : List Entry) :
    ((origins r tree entries).map Origin.path).Perm (entries.map fun e => entryPath r.root e.1) := by
  have hsorted := (List.mergeSort_perm (entries.map fun e => (
    { repository := r.name
      project := projectOf r (projects tree) e.1
      path := entryPath r.root e.1 } : Origin)) fun a b => (compare a.path b.path).isLE).map Origin.path
  rw [List.map_map] at hsorted
  exact hsorted

theorem origins_filter (r : Repository) (tree : FileTree) (entries : List Entry) (keep : Entry → Bool)
    (kept : Path → Bool) (h : ∀ e ∈ entries, kept (entryPath r.root e.1) = keep e) :
    origins r tree (entries.filter keep) = (origins r tree entries).filter fun origin => kept origin.path := by
  have : TransCmp (compareOn Origin.path) := inferInstance
  refine Eq.trans ?_ (filter_sortBy (compareOn Origin.path) (fun origin => kept origin.path) _).symm
  rw [List.filter_map]
  refine congrArg (sortBy (compareOn Origin.path)) (congrArg (List.map _) ?_)
  apply List.filter_congr
  intro e he
  exact (h e he).symm

/-- The names that lead to the units of all repositories in a directory. -/
def places (s : Indicators) (o : Options) (root : Path) (tree : FileTree) : List (List RawText) :=
  (leads root tree).flatMap fun lead =>
    match tree.find? lead with
    | some below => (unitPlaces s o (entryPath root lead) below).map (lead ++ ·)
    | none => []

theorem mem_places (htree : tree.WellFormed) (hdirectory : tree.isDirectory = true) {place : List RawText}
    (h : place ∈ places s o root tree) :
    (∃ bytes, tree.find? place = some (.file bytes)) ∧
      ∃ before name, place = before ++ [name] ∧ isManifest name = false := by
  obtain ⟨lead, hlead, hplace⟩ := List.mem_flatMap.mp h
  obtain ⟨below, hbelow⟩ := directoryAt_lead htree hdirectory hlead
  simp only [hbelow] at hplace
  obtain ⟨names, hnames, rfl⟩ := List.mem_map.mp hplace
  obtain ⟨⟨enter, bytes, hfile⟩, hmanifest⟩ := mem_unitPlaces hnames
  constructor
  · refine ⟨bytes, ?_⟩
    rw [FileTree.find?_append, hbelow]
    exact FileTree.find?_of_mem_files (htree.find? hbelow).1 hfile
  · obtain ⟨before, name, rfl⟩ := List.eq_nil_or_concat' names |>.resolve_left
      (ne_nil_of_mem_files rfl hfile)
    refine ⟨lead ++ before, name, (List.append_assoc _ _ _).symm, ?_⟩
    simpa [entryName] using hmanifest

/-- No place has two units. -/
theorem places_nodup (s : Indicators) (o : Options) (root : Path) (htree : tree.WellFormed) :
    (places s o root tree).Nodup := by
  refine List.nodup_flatMap.mpr ⟨?_, ?_⟩
  · intro lead _
    cases hbelow : tree.find? lead with
    | none => exact List.nodup_nil
    | some below =>
      exact (unitPlaces_nodup s o _ (htree.find? hbelow).1).map fun _ _ => List.append_cancel_left
  · refine (leads_apart root htree).imp ?_
    intro a b hapart place ha hb
    cases hfound : tree.find? a with
    | none => simp [hfound] at ha
    | some below =>
      cases hfound' : tree.find? b with
      | none => simp [hfound'] at hb
      | some below' =>
        simp only [hfound, hfound', List.mem_map] at ha hb
        obtain ⟨names, _, hnames⟩ := ha
        obtain ⟨others, _, hothers⟩ := hb
        exact hapart names others (hnames.trans hothers.symm)

end Discovery

namespace Analysis

/-- A file that a run reads: a source file, or a compiled module. -/
structure FoundUnit where
  repository : Repository
  compiled : Bool
  origin : Origin
  deriving DecidableEq, Repr

section

variable (fs : FileSystem) (s : Indicators) (o : Options)

/-- The units of a repository, sources first. -/
def unitsOf (r : Repository) : List FoundUnit :=
  (Discovery.sourcesOf fs s o.excludeTests r).map (FoundUnit.mk r false) ++
    if o.bytecodePublishers then (Discovery.modulesOf fs s o.excludeTests r).map (FoundUnit.mk r true) else []

/-- The units of many repositories. -/
def discovered (repositories : List Repository) : List FoundUnit := repositories.flatMap (unitsOf fs s o)

/-- The modules of a repository that can be read. -/
def readableModules (r : Repository) : List Module :=
  (Discovery.modulesOf fs s o.excludeTests r).filterMap fun origin => (Module.read fs origin.path).toOption

/-- The facts of a unit by itself, or why there are none. A module is traced through the types of the
modules of its repository that can be read. -/
def FoundUnit.extraction (u : FoundUnit) : Except UnitError Facts :=
  if u.compiled then
    (Module.read fs u.origin.path).map fun m =>
      { publications := Module.publications s (Module.Index.ofModules (readableModules fs s o u.repository)).graph
          u.origin m }
  else sourceFacts fs s o u.origin

private theorem successes_map_read (r : Repository) :
    (successes (loadResults fs s o (Module.read fs) r)).map Prod.snd = readableModules fs s o r := by
  unfold successes loadResults readableModules
  rw [List.filterMap_map, List.map_filterMap]
  apply List.filterMap_congr
  intro origin _
  cases h : Module.read fs origin.path <;> simp [h, Except.toOption]

/-- A run extracts from each unit of a repository. -/
theorem units_eq_map (r : Repository) :
    (repositoryResults fs s o (Module.read fs) r).units s =
      (unitsOf fs s o r).map fun u => (u.origin, u.extraction fs s o) := by
  have hsources : sourceResults fs s o r =
      ((Discovery.sourcesOf fs s o.excludeTests r).map (FoundUnit.mk r false)).map
        fun u => (u.origin, u.extraction fs s o) := by
    rw [List.map_map]
    rfl
  have hmodules : moduleFacts s (loadResults fs s o (Module.read fs) r) =
      ((Discovery.modulesOf fs s o.excludeTests r).map (FoundUnit.mk r true)).map
        fun u => (u.origin, u.extraction fs s o) := by
    unfold moduleFacts
    rw [successes_map_read, loadResults, List.map_map, List.map_map]
    rfl
  unfold RepositoryResults.units repositoryResults unitsOf
  rw [List.map_append, ← hsources]
  congr 1
  cases o.bytecodePublishers with
  | false => simp [moduleFacts]
  | true => simpa using hmodules

end

section

variable {fs : FileSystem} {s : Indicators} {o : Options}

theorem FoundUnit.extraction_allFrom {u : FoundUnit} {f : Facts} (h : u.extraction fs s o = .ok f) :
    f.AllFrom u.origin := by
  unfold FoundUnit.extraction at h
  split_ifs at h
  · cases hread : Module.read fs u.origin.path with
    | error error => simp [hread, Except.map] at h
    | ok m =>
      rw [hread] at h
      obtain rfl := Except.ok.inj h
      exact Module.publications_allFrom s _ u.origin m
  · unfold sourceFacts at h
    split at h
    · simp at h
    · obtain rfl := Except.ok.inj h
      exact Source.extract_allFrom s o _

/-- A unit belongs to the repository it was found in, and modules are found only if they are asked for. -/
theorem mem_unitsOf {r : Repository} {u : FoundUnit} (h : u ∈ unitsOf fs s o r) :
    u.repository = r ∧ (u.compiled = true → o.bytecodePublishers = true) := by
  rcases List.mem_append.mp h with h | h
  · obtain ⟨origin, _, rfl⟩ := List.mem_map.mp h
    simp
  · split_ifs at h with hmodules
    · obtain ⟨origin, _, rfl⟩ := List.mem_map.mp h
      exact ⟨rfl, fun _ => hmodules⟩
    · simp at h

theorem mem_unitsOf_compiled {r : Repository} (hmodules : o.bytecodePublishers = true) {origin : Origin}
    (h : origin ∈ Discovery.modulesOf fs s o.excludeTests r) : ⟨r, true, origin⟩ ∈ unitsOf fs s o r := by
  refine List.mem_append_right _ ?_
  rw [if_pos hmodules]
  exact List.mem_map.mpr ⟨origin, h, rfl⟩

private theorem unitsOf_paths_perm {r : Repository} {tree : FileTree} (h : fs.find? r.root = some tree) :
    ((unitsOf fs s o r).map (·.origin.path)).Perm
      ((Discovery.unitPlaces s o r.root tree).map (Discovery.entryPath r.root)) := by
  unfold unitsOf Discovery.unitPlaces Discovery.sourcesOf Discovery.modulesOf
  rw [List.map_append, List.map_append, h]
  apply List.Perm.append
  · rw [List.map_map, List.map_map]
    exact Discovery.origins_paths_perm r tree _
  · split_ifs
    · rw [List.map_map, List.map_map]
      exact Discovery.origins_paths_perm r tree _
    · exact .nil

variable {root : Path} {lead : List RawText} {tree : FileTree}

/-- What lies at the root of a repository. -/
theorem locate_lead (hfs : fs.root.WellFormed) (hroot : fs.locate root = .ok (lead, tree))
    (hdirectory : tree.isDirectory = true) {names : List RawText} (h : names ∈ Discovery.leads root tree) :
    ∃ entries, tree.find? names = some (.directory entries) ∧
      fs.locate (Discovery.entryPath root names) = .ok (lead ++ names, .directory entries) := by
  obtain ⟨-, -, hfound, -⟩ := FileSystem.locate_eq_ok_iff.mp hroot
  have htree := (hfs.find? hfound).1
  obtain ⟨entries, hentries⟩ := Discovery.directoryAt_lead htree hdirectory h
  exact ⟨entries, hentries, Discovery.locate_entryPath hroot (htree.find? hentries).2 hentries⟩

theorem find?_of_locate {p : Path} {names : List RawText} {found : FileTree}
    (h : fs.locate p = .ok (names, found)) : fs.find? p = some found := by
  simp [FileSystem.find?, h]

/-- The units lie at the paths of their places. -/
theorem discovered_paths_perm (s : Indicators) (o : Options) (hfs : fs.root.WellFormed)
    (hroot : fs.locate root = .ok (lead, tree)) (hdirectory : tree.isDirectory = true) :
    ((discovered fs s o (Discovery.repositoriesIn root tree)).map (·.origin.path)).Perm
      ((Discovery.places s o root tree).map (Discovery.entryPath root)) := by
  unfold discovered Discovery.places
  rw [Discovery.repositoriesIn_eq_map, List.flatMap_map, List.map_flatMap, List.map_flatMap]
  apply List.Perm.flatMap_left
  intro names hnames
  obtain ⟨entries, hentries, hlocate⟩ := locate_lead hfs hroot hdirectory hnames
  have hunits := unitsOf_paths_perm (s := s) (o := o)
    (r := Repository.ofRoot (Discovery.entryPath root names)) (find?_of_locate hlocate)
  simp only [hentries, List.map_map]
  refine hunits.trans (.of_eq (List.map_congr_left fun more _ => ?_))
  exact Discovery.entryPath_append root names more

/-- Every unit lies at one of the places where units are looked for. -/
theorem exists_place (hfs : fs.root.WellFormed) (hroot : fs.locate root = .ok (lead, tree))
    (hdirectory : tree.isDirectory = true) {u : FoundUnit}
    (h : u ∈ discovered fs s o (Discovery.repositoriesIn root tree)) :
    ∃ place ∈ Discovery.places s o root tree, u.origin.path = Discovery.entryPath root place := by
  have hpath := (discovered_paths_perm s o hfs hroot hdirectory).mem_iff.mp (List.mem_map.mpr ⟨u, h, rfl⟩)
  obtain ⟨place, hplace, heq⟩ := List.mem_map.mp hpath
  exact ⟨place, hplace, heq.symm⟩

/-- The units of a run have different paths. -/
theorem discovered_pathsDiffer (s : Indicators) (o : Options) (hfs : fs.root.WellFormed)
    (hroot : fs.locate root = .ok (lead, tree)) (hdirectory : tree.isDirectory = true) :
    PathsDiffer ((discovered fs s o (Discovery.repositoriesIn root tree)).map (·.origin.path)) := by
  obtain ⟨-, -, hfound, -⟩ := FileSystem.locate_eq_ok_iff.mp hroot
  have htree := (hfs.find? hfound).1
  have hproper {place : List RawText} (h : place ∈ Discovery.places s o root tree) :
      ∀ name ∈ place, IsEntryName name := by
    obtain ⟨⟨bytes, hfile⟩, _⟩ := Discovery.mem_places htree hdirectory h
    exact (htree.find? hfile).2
  refine PathsDiffer.perm ?_ (discovered_paths_perm s o hfs hroot hdirectory).symm
  refine List.pairwise_map.mpr ((Discovery.places_nodup s o root htree).imp_of_mem ?_)
  intro place other hplace hother hne heq
  exact hne (Discovery.entryPath_components_inj root (hproper hplace) (hproper hother) heq)

end

end Analysis

end EventAtlas
