import EventAtlas.Proofs.Analysis.Isolation
import EventAtlas.Proofs.Report.Selection

namespace EventAtlas

open EventAtlas.Path (IsEntryName)

namespace Facts

theorem filter_of_origin {α : Type} {items : List α} {found : α → Origin} {origin : Origin}
    (h : ∀ a ∈ items, found a = origin) (keep : Origin → Bool) :
    (items.filter fun a => keep (found a)) = if keep origin then items else [] := by
  split_ifs with hkeep
  · rw [List.filter_eq_self]
    intro a ha
    rw [h a ha, hkeep]
  · rw [List.filter_eq_nil_iff]
    intro a ha
    rwa [h a ha]

/-- The facts of one unit are kept together or left out together. -/
theorem AllFrom.select_ofOrigin {origin : Origin} {f : Facts} (h : f.AllFrom origin)
    (keep : Origin → Bool) : f.select (.ofOrigin keep) = if keep origin then f else {} := by
  simp only [AllFrom, origins, List.forall_mem_append, List.forall_mem_map] at h
  obtain ⟨⟨⟨hevents, hpublications⟩, hconsumptions⟩, hsubscriptions⟩ := h
  simp only [select, Selection.ofOrigin, filter_of_origin hevents, filter_of_origin hpublications,
    filter_of_origin hconsumptions, filter_of_origin hsubscriptions]
  split_ifs <;> rfl

end Facts

/-- What a run keeps of the facts it found. -/
def Options.selection (o : Options) : Facts.Selection := if o.backgroundJobsOnly then .inJobs else {}

/-- Whether a path goes on from the root of a repository. -/
def Repository.holds (r : Repository) (p : Path) : Bool := r.root.components.isPrefixOf p.components

namespace Discovery

theorem name_ofRoot_join (root : Path) {name : RawText} (h : IsEntryName name) :
    (Repository.ofRoot (root.join name)).name = name.shown := by
  simp [Repository.ofRoot, Path.fileName?, root.components_join h]

private theorem holds_entryPath (r : Repository) {names : List RawText} (h : ∀ name ∈ names, IsEntryName name) :
    r.holds (entryPath r.root names) = true := by
  rw [Repository.holds, components_entryPath r.root h, List.isPrefixOf_iff_prefix]
  exact List.prefix_append _ _

/-- The names that lead to repositories are equally many, so that no repository lies in another one. -/
theorem length_leads (root : Path) (tree : FileTree) :
    ∃ depth, ∀ lead ∈ leads root tree, lead.length = depth := by
  unfold leads
  split_ifs
  · exact ⟨0, by simp⟩
  · refine ⟨1, ?_⟩
    intro lead hlead
    obtain ⟨e, -, rfl⟩ := List.mem_map.mp hlead
    rfl

theorem isEntryName_of_mem_lead {root : Path} {tree : FileTree} (htree : tree.WellFormed) {lead : List RawText}
    (h : lead ∈ leads root tree) : ∀ name ∈ lead, IsEntryName name := by
  unfold leads at h
  split_ifs at h
  · obtain rfl := List.mem_singleton.mp h
    simp
  · obtain ⟨e, he, rfl⟩ := List.mem_map.mp h
    have hmem := (mem_directories (List.mem_of_mem_filter he)).1
    cases htree with
    | file bytes => simp [FileTree.entries] at hmem
    | directory nodup proper below => simpa using proper e hmem

/-- A path lies in one repository only. -/
theorem eq_of_holds {root : Path} {tree : FileTree} (htree : tree.WellFormed) {r r' : Repository}
    (hr : r ∈ repositoriesIn root tree) (hr' : r' ∈ repositoriesIn root tree) {p : Path}
    (h : r.holds p = true) (h' : r'.holds p = true) : r = r' := by
  rw [repositoriesIn_eq_map] at hr hr'
  obtain ⟨lead, hlead, rfl⟩ := List.mem_map.mp hr
  obtain ⟨lead', hlead', rfl⟩ := List.mem_map.mp hr'
  obtain ⟨depth, hdepth⟩ := length_leads root tree
  have hproper := isEntryName_of_mem_lead htree hlead
  have hproper' := isEntryName_of_mem_lead htree hlead'
  have hlength : (entryPath root lead).components.length = (entryPath root lead').components.length := by
    simp [components_entryPath root hproper, components_entryPath root hproper', hdepth lead hlead,
      hdepth lead' hlead']
  have hcomponents : (entryPath root lead).components = (entryPath root lead').components := by
    rw [Repository.holds, List.isPrefixOf_iff_prefix] at h h'
    exact (List.prefix_of_prefix_length_le h h' hlength.le).eq_of_length hlength
  rw [entryPath_components_inj root hproper hproper' hcomponents]

theorem mem_origins {r : Repository} {tree : FileTree} {entries : List Entry} {origin : Origin}
    (h : origin ∈ origins r tree entries) :
    ∃ e ∈ entries, origin = ⟨r.name, projectOf r (projects tree) e.1, entryPath r.root e.1⟩ := by
  obtain ⟨e, he, rfl⟩ := List.mem_map.mp (List.mem_mergeSort.mp h)
  exact ⟨e, he, rfl⟩

end Discovery

namespace Analysis

open Discovery

section

variable {fs : FileSystem} {s : Indicators} {o : Options}

/-- An origin that a file of a repository has. -/
def IsOriginIn (fs : FileSystem) (r : Repository) (origin : Origin) : Prop :=
  origin.repository = r.name ∧ ∃ tree enter names bytes, fs.find? r.root = some tree ∧
    (names, bytes) ∈ tree.files enter ∧ origin.path = entryPath r.root names

theorem IsOriginIn.holds {r : Repository} {origin : Origin} (h : IsOriginIn fs r origin) {tree : FileTree}
    (hr : fs.find? r.root = some tree) (htree : tree.WellFormed) : r.holds origin.path = true := by
  obtain ⟨-, found, enter, names, bytes, hfound, hfile, hpath⟩ := h
  obtain rfl := Option.some.inj (hr.symm.trans hfound)
  rw [hpath]
  exact holds_entryPath r (htree.find? (FileTree.find?_of_mem_files htree hfile)).2

private theorem isOriginIn_of_mem_sourcesOf {excludeTests : Bool} {r : Repository} {origin : Origin}
    (h : origin ∈ sourcesOf fs s excludeTests r) : IsOriginIn fs r origin := by
  unfold sourcesOf at h
  split at h
  · obtain ⟨⟨names, bytes⟩, he, rfl⟩ := mem_origins h
    exact ⟨rfl, _, _, names, bytes, by assumption, List.mem_of_mem_filter he, rfl⟩
  · simp at h

theorem isOriginIn_of_mem_modulesOf {excludeTests : Bool} {r : Repository} {origin : Origin}
    (h : origin ∈ modulesOf fs s excludeTests r) : IsOriginIn fs r origin := by
  unfold modulesOf at h
  split at h
  · obtain ⟨⟨names, bytes⟩, he, rfl⟩ := mem_origins h
    exact ⟨rfl, _, _, names, bytes, by assumption, List.mem_of_mem_filter he, rfl⟩
  · simp at h

theorem isOriginIn_of_mem_unitsOf {r : Repository} {u : FoundUnit} (h : u ∈ unitsOf fs s o r) :
    IsOriginIn fs r u.origin := by
  rcases List.mem_append.mp h with h | h
  · obtain ⟨origin, horigin, rfl⟩ := List.mem_map.mp h
    exact isOriginIn_of_mem_sourcesOf horigin
  · split_ifs at h
    · obtain ⟨origin, horigin, rfl⟩ := List.mem_map.mp h
      exact isOriginIn_of_mem_modulesOf horigin
    · simp at h

theorem concat_readableFacts_cons (u : FoundUnit) (units : List FoundUnit) :
    Facts.concat (readableFacts fs s o (u :: units)) =
      (u.extraction fs s o).toOption.getD {} ++ Facts.concat (readableFacts fs s o units) := by
  unfold readableFacts
  rw [List.filterMap_cons]
  cases (u.extraction fs s o).toOption with
  | none => rfl
  | some f => exact Facts.concat_cons f _

/-- The facts found at some of the origins are those of the units there. -/
theorem concat_readableFacts_select (keep : Origin → Bool) (units : List FoundUnit) :
    (Facts.concat (readableFacts fs s o units)).select (.ofOrigin keep) =
      Facts.concat (readableFacts fs s o (units.filter fun u => keep u.origin)) := by
  induction units with
  | nil => rfl
  | cons u units ih =>
    have hunit : ((u.extraction fs s o).toOption.getD {}).AllFrom u.origin := by
      cases h : u.extraction fs s o with
      | error error => simp [Except.toOption, Facts.AllFrom, Facts.origins]
      | ok f => exact u.extraction_allFrom h
    rw [concat_readableFacts_cons, Facts.select_append, ih, hunit.select_ofOrigin, List.filter_cons]
    split_ifs
    · rw [concat_readableFacts_cons]
    · rfl

variable (fs s o)

/-- All facts that a run finds, in the order of a report. -/
def foundFacts (repositories : List Repository) : Facts :=
  (Facts.concat (readableFacts fs s o (discovered fs s o repositories))).sorted

/-- The number of projects that a run finds. -/
def serviceCount (repositories : List Repository) : Nat :=
  ((repositories.map (repositoryResults fs s o (Module.read fs))).flatMap (·.services)).eraseDups.length

theorem outcomeAt_toFacts (now : Timestamp) {repositories : List Repository}
    (hdiffer : PathsDiffer ((discovered fs s o repositories).map (·.origin.path))) :
    (outcomeAt fs s o now repositories).report.toFacts =
      (foundFacts fs s o repositories).select o.selection := by
  cases hjobs : o.backgroundJobsOnly with
  | false =>
    rw [outcomeAt_facts fs s o now hjobs hdiffer, Options.selection, hjobs]
    exact (Facts.select_all _).symm
  | true =>
    have hrun : (outcomeAt fs s o now repositories).report.toFacts =
        (outcomeAt fs s { o with backgroundJobsOnly := false } now repositories).report.toFacts.inBackgroundJobs := by
      simp only [outcomeAt, outcomeOf, hjobs, if_true]
      rfl
    rw [hrun, outcomeAt_facts fs s { o with backgroundJobsOnly := false } now rfl hdiffer,
      Facts.inBackgroundJobs_eq_select, Options.selection, hjobs]
    rfl

/-- What a run comes to, part by part. -/
theorem outcomeAt_eq (now : Timestamp) {repositories : List Repository}
    (hdiffer : PathsDiffer ((discovered fs s o repositories).map (·.origin.path))) :
    outcomeAt fs s o now repositories =
      { report :=
          { toFacts := (foundFacts fs s o repositories).select o.selection
            generatedAt := now
            repositoryCount := repositories.length
            projectCount := serviceCount fs s o repositories }
        failures := sortBy (compareOn UnitFailure.path) (failing fs s o (discovered fs s o repositories)) } := by
  have hreport : (outcomeAt fs s o now repositories).report =
      { toFacts := (outcomeAt fs s o now repositories).report.toFacts
        generatedAt := now
        repositoryCount := (outcomeAt fs s o now repositories).report.repositoryCount
        projectCount := serviceCount fs s o repositories } := by
    unfold outcomeAt outcomeOf
    split_ifs <;> rfl
  rw [outcomeAt_toFacts fs s o now hdiffer, outcomeAt_repositoryCount] at hreport
  rw [← hreport, ← outcomeAt_failures]

variable {fs s o}

section Congr

variable {fs' : FileSystem} {o' : Options} {units : List FoundUnit} {f g : Facts → Facts}
  (h : ∀ u ∈ units, (u.extraction fs s o).map f = (u.extraction fs' s o').map g)

include h

/-- Two runs that see the same in each unit find the same. -/
theorem readableFacts_map_congr : (readableFacts fs s o units).map f = (readableFacts fs' s o' units).map g := by
  have hoption (found : Except UnitError Facts) (k : Facts → Facts) :
      found.toOption.map k = (found.map k).toOption := by
    cases found <;> rfl
  unfold readableFacts
  rw [List.map_filterMap, List.map_filterMap]
  apply List.filterMap_congr
  intro u hu
  rw [hoption, hoption, h u hu]

theorem failing_congr : failing fs s o units = failing fs' s o' units := by
  unfold failing
  apply List.filterMap_congr
  intro u hu
  have hunit := h u hu
  unfold FoundUnit.failure?
  cases hfound : u.extraction fs s o with
  | ok found =>
    cases hfound' : u.extraction fs' s o' with
    | ok found' => rfl
    | error error' => simp [hfound, hfound', Except.map] at hunit
  | error error =>
    cases hfound' : u.extraction fs' s o' with
    | ok found' => simp [hfound, hfound', Except.map] at hunit
    | error error' =>
      obtain rfl : error = error' := by simpa [hfound, hfound', Except.map] using hunit
      rfl

end Congr

theorem readableFacts_congr {fs' : FileSystem} {o' : Options} {units : List FoundUnit}
    (h : ∀ u ∈ units, u.extraction fs s o = u.extraction fs' s o') :
    readableFacts fs s o units = readableFacts fs' s o' units := by
  have hmap := readableFacts_map_congr (f := id) (g := id) fun u hu => congrArg (Except.map id) (h u hu)
  rwa [List.map_id, List.map_id] at hmap

end

end Analysis

end EventAtlas
