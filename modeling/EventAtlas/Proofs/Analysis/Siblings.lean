import EventAtlas.Proofs.Analysis.Runs
import EventAtlas.Proofs.Analysis.UnitFiles
import EventAtlas.Proofs.Files.Growth

namespace EventAtlas

open EventAtlas.Path (IsEntryName)

/-- Trees in which the same names lead to the same things, in whatever order these are listed. -/
def FileTree.Alike (tree tree' : FileTree) : Prop := ∀ names, tree.nodeAt? names = tree'.nodeAt? names

theorem FileTree.nodeAt?_eq_file_iff {tree : FileTree} {names : List RawText} {bytes : ByteArray} :
    tree.nodeAt? names = some (.file bytes) ↔ tree.find? names = some (.file bytes) := by
  unfold nodeAt?
  cases tree.find? names with
  | none => simp
  | some found => cases found <;> simp [node]

/-- The order of a listing does not show in what the names lead to. -/
theorem FileTree.alike_of_perm {entries others : List (RawText × FileTree)}
    (hnodup : (others.map Prod.fst).Nodup) (h : entries.Perm others) :
    (directory entries).Alike (directory others) := by
  intro names
  cases names with
  | nil => rfl
  | cons name names => rw [nodeAt?, nodeAt?, find?_cons, find?_cons, lookup_eq_of_perm hnodup h]

namespace Discovery

section Alike

variable {tree tree' : FileTree} (h : tree.Alike tree')

include h

theorem find?_file_iff_of_alike {names : List RawText} {bytes : ByteArray} :
    tree.find? names = some (.file bytes) ↔ tree'.find? names = some (.file bytes) := by
  rw [← FileTree.nodeAt?_eq_file_iff, h names, FileTree.nodeAt?_eq_file_iff]

private theorem holdsProject_iff_of_alike {directory : List RawText} {project : String} :
    HoldsProject tree directory project ↔ HoldsProject tree' directory project := by
  simp only [HoldsProject, find?_file_iff_of_alike h]

private theorem oneProjectEach_of_alike (hone : OneProjectEach tree) : OneProjectEach tree' := by
  intro directory name other bytes bytes' hname hother
  exact hone directory name other bytes bytes' ((find?_file_iff_of_alike h).mpr hname)
    ((find?_file_iff_of_alike h).mpr hother)

variable (htree : tree.WellFormed) (htree' : tree'.WellFormed)

include htree htree'

private theorem mem_files_iff_of_alike (enter : RawText → Bool) (e : Entry) :
    e ∈ tree.files enter ↔ e ∈ tree'.files enter := by
  obtain ⟨names, bytes⟩ := e
  rw [FileTree.mem_files_iff htree, FileTree.mem_files_iff htree', find?_file_iff_of_alike h]

variable (hlisted : tree = tree' ∨ OneProjectEach tree)

include hlisted

/-- The order of a listing tells which project counts only where a directory holds several. -/
theorem lookup_projects_of_alike (directory : List RawText) :
    (projects tree).lookup directory = (projects tree').lookup directory := by
  rcases hlisted with rfl | hone
  · rfl
  · apply Option.ext
    intro project
    rw [lookup_projects_eq_some_iff htree hone,
      lookup_projects_eq_some_iff htree' (oneProjectEach_of_alike h hone), holdsProject_iff_of_alike h]

private theorem projectOf_of_alike (r : Repository) (names : List RawText) :
    projectOf r (projects tree) names = projectOf r (projects tree') names := by
  have habove (depth : Nat) :
      projectAbove (projects tree) names depth = projectAbove (projects tree') names depth := by
    have hlookup := lookup_projects_of_alike h htree htree' hlisted
    induction depth with
    | zero => exact hlookup []
    | succ depth ih => rw [projectAbove, projectAbove, hlookup, ih]
  unfold projectOf
  rw [habove]

/-- The units of a kind are the same ones in the same order. -/
theorem origins_of_alike (r : Repository) (enter : RawText → Bool) (kind : List RawText → Bool) :
    origins r tree ((tree.files enter).filter fun e => kind e.1) =
      origins r tree' ((tree'.files enter).filter fun e => kind e.1) := by
  refine eq_of_paths_rise Origin.path (origins_rise htree enter kind) (origins_rise htree' enter kind) ?_
  intro origin
  simp only [origins, List.mem_mergeSort, List.mem_map, List.mem_filter, mem_files_iff_of_alike h htree htree',
    projectOf_of_alike h htree htree' hlisted]

end Alike

end Discovery

namespace Analysis

open Discovery

variable {fs fs' : FileSystem} {s : Indicators} {o : Options}

/-- A property that tells the units of one repository from those of the others. -/
structure PicksOut (fs : FileSystem) (s : Indicators) (o : Options) (repositories : List Repository)
    (r : Repository) (keep : Origin → Bool) : Prop where
  own : ∀ u ∈ unitsOf fs s o r, keep u.origin = true
  others : ∀ other ∈ repositories, other ≠ r → ∀ u ∈ unitsOf fs s o other, keep u.origin = false

/-- What a property picks out of all units are the units of the repository. -/
theorem PicksOut.filter_discovered {repositories : List Repository} {r : Repository} {keep : Origin → Bool}
    (h : PicksOut fs s o repositories r keep) (hnodup : repositories.Nodup) (hr : r ∈ repositories) :
    ((discovered fs s o repositories).filter fun u => keep u.origin) = unitsOf fs s o r := by
  obtain ⟨before, after, rfl⟩ := List.append_of_mem hr
  rw [List.nodup_middle, List.nodup_cons] at hnodup
  have hnone {others : List Repository} (hothers : ∀ other ∈ others, other ∈ before ++ after) :
      ((discovered fs s o others).filter fun u => keep u.origin) = [] := by
    rw [discovered, List.filter_flatMap, List.flatMap_eq_nil_iff]
    intro other hother
    rw [List.filter_eq_nil_iff]
    intro u hu
    have hmem := hothers other hother
    rw [h.others other (List.perm_middle.mem_iff.mpr (List.mem_cons_of_mem r hmem))
      (fun heq => hnodup.1 (heq ▸ hmem)) u hu]
    exact Bool.false_ne_true
  have hsplit : discovered fs s o (before ++ r :: after) =
      discovered fs s o before ++ (unitsOf fs s o r ++ discovered fs s o after) := by
    simp [discovered]
  rw [hsplit, List.filter_append, List.filter_append, hnone fun _ => List.mem_append_left _,
    hnone fun _ => List.mem_append_right _, List.filter_eq_self.mpr h.own, List.nil_append, List.append_nil]

private theorem repositoriesIn_nodup (root : Path) {tree : FileTree} (htree : tree.WellFormed) :
    (repositoriesIn root tree).Nodup := by
  rw [repositoriesIn_eq_map]
  refine List.pairwise_map.mpr ((leads_apart root htree).imp_of_mem ?_)
  intro lead lead' hlead hlead' hapart heq
  have hpath : entryPath root lead = entryPath root lead' := congrArg Repository.root heq
  have hnames := entryPath_components_inj root (isEntryName_of_mem_lead htree hlead)
    (isEntryName_of_mem_lead htree hlead') (congrArg Path.components hpath)
  exact hapart [] [] (by rw [hnames])

section Alike

variable {r : Repository} {lead lead' : List RawText} {below below' : FileTree} (halike : below.Alike below')
  (hbelow : below.WellFormed) (hr : fs.locate r.root = .ok (lead, below))
  (hr' : fs'.locate r.root = .ok (lead', below'))

include halike hbelow hr hr'

theorem readText_eq_of_alike {origin : Origin} (h : IsOriginIn fs r origin) :
    fs.readText origin.path = fs'.readText origin.path := by
  obtain ⟨-, tree, enter, names, bytes, htree, hfile, hpath⟩ := h
  rw [find?_of_locate hr] at htree
  obtain rfl := Option.some.inj htree
  have hfind := FileTree.find?_of_mem_files hbelow hfile
  have hproper := (hbelow.find? hfind).2
  have hlocate := locate_entryPath hr hproper hfind
  have hlocate' := locate_entryPath hr' hproper ((find?_file_iff_of_alike halike).mp hfind)
  rw [FileSystem.readText, FileSystem.readText, hpath, hlocate, hlocate']

theorem read_eq_of_alike {origin : Origin} (h : IsOriginIn fs r origin) :
    Module.read fs origin.path = Module.read fs' origin.path := by
  rw [Module.read, Module.read, readText_eq_of_alike halike hbelow hr hr' h]

variable (hbelow' : below'.WellFormed) (hlisted : below = below' ∨ OneProjectEach below)

include hbelow' hlisted

omit hr hr' in
private theorem sources_eq_of_alike (excludeTests : Bool) :
    sources s excludeTests r below = sources s excludeTests r below' :=
  origins_of_alike halike hbelow hbelow' hlisted r _ (isSource s excludeTests r.root)

omit hr hr' in
private theorem modules_eq_of_alike (excludeTests : Bool) :
    modules s excludeTests r below = modules s excludeTests r below' :=
  origins_of_alike halike hbelow hbelow' hlisted r _ (isModuleDump s excludeTests r.root)

theorem modulesOf_eq_of_alike (excludeTests : Bool) :
    modulesOf fs s excludeTests r = modulesOf fs' s excludeTests r := by
  simp only [modulesOf, find?_of_locate hr, find?_of_locate hr',
    modules_eq_of_alike halike hbelow hbelow' hlisted]

private theorem unitsOf_eq_of_alike : unitsOf fs s o r = unitsOf fs' s o r := by
  have hsources : sourcesOf fs s o.excludeTests r = sourcesOf fs' s o.excludeTests r := by
    simp only [sourcesOf, find?_of_locate hr, find?_of_locate hr',
      sources_eq_of_alike halike hbelow hbelow' hlisted]
  rw [unitsOf, unitsOf, hsources, modulesOf_eq_of_alike halike hbelow hr hr' hbelow' hlisted]

private theorem readableModules_eq_of_alike : readableModules fs s o r = readableModules fs' s o r := by
  unfold readableModules
  rw [← modulesOf_eq_of_alike halike hbelow hr hr' hbelow' hlisted]
  apply List.filterMap_congr
  intro origin horigin
  rw [read_eq_of_alike halike hbelow hr hr' (isOriginIn_of_mem_modulesOf horigin)]

private theorem extraction_eq_of_alike {u : FoundUnit} (hu : u ∈ unitsOf fs s o r) :
    u.extraction fs s o = u.extraction fs' s o := by
  have horigin := isOriginIn_of_mem_unitsOf hu
  unfold FoundUnit.extraction
  split_ifs
  · rw [(mem_unitsOf hu).1, read_eq_of_alike halike hbelow hr hr' horigin,
      readableModules_eq_of_alike halike hbelow hr hr' hbelow' hlisted]
  · rw [sourceFacts, sourceFacts, readText_eq_of_alike halike hbelow hr hr' horigin]

/-- The facts of a repository are told by its files alone. -/
theorem readableFacts_eq_of_alike :
    readableFacts fs s o (unitsOf fs s o r) = readableFacts fs' s o (unitsOf fs' s o r) := by
  rw [← unitsOf_eq_of_alike halike hbelow hr hr' hbelow' hlisted]
  exact readableFacts_congr fun u hu => extraction_eq_of_alike halike hbelow hr hr' hbelow' hlisted hu

end Alike

/-- Below a directory lies the repository `name` with its files. -/
structure HoldsRepository (fs : FileSystem) (root : Path) (name : RawText) (below : FileTree) : Prop where
  wellFormed : fs.root.WellFormed
  found : ∃ lead entries, fs.locate root = .ok (lead, .directory entries) ∧ entries.lookup name = some below
  discovered : ∃ repositories, repositories? fs root = some repositories ∧
    Repository.ofRoot (root.join name) ∈ repositories

/-- No other repository below a directory is called as this one is. -/
def OnlyBearer (fs : FileSystem) (root : Path) (name : RawText) : Prop :=
  ∀ repositories, repositories? fs root = some repositories → ∀ r ∈ repositories,
    r.name = name.shown → r = Repository.ofRoot (root.join name)

namespace HoldsRepository

variable {root : Path} {name : RawText} {below : FileTree} (h : HoldsRepository fs root name below)

include h

theorem isEntryName : IsEntryName name := by
  obtain ⟨lead, entries, hroot, hlookup⟩ := h.found
  cases tree_wellFormed h.wellFormed hroot with
  | directory nodup proper wellFormed => exact proper _ (mem_of_lookup hlookup)

theorem below_wellFormed : below.WellFormed := by
  obtain ⟨lead, entries, hroot, hlookup⟩ := h.found
  cases tree_wellFormed h.wellFormed hroot with
  | directory nodup proper wellFormed => exact wellFormed _ (mem_of_lookup hlookup)

theorem locate : ∃ lead, fs.locate (root.join name) = .ok (lead, below) := by
  obtain ⟨lead, entries, hroot, hlookup⟩ := h.found
  exact ⟨_, FileSystem.locate_join hroot h.isEntryName hlookup⟩

/-- A name that is shown without replacements belongs to one directory only. -/
theorem onlyBearer (hname : '�' ∉ name.shown.toList) : OnlyBearer fs root name := by
  intro repositories hrepositories r hr hshown
  obtain ⟨found, hfound, hmem⟩ := h.discovered
  obtain rfl := Option.some.inj (hrepositories.symm.trans hfound)
  obtain ⟨lead, entries, hroot, rfl⟩ := repositories?_eq_some_iff.mp hrepositories
  have htree := tree_wellFormed h.wellFormed hroot
  rw [repositoriesIn_eq_map] at hr hmem
  unfold leads at hr hmem
  split_ifs at hr hmem
  · have hpath : root.join name = root := congrArg Repository.root (List.mem_singleton.mp hmem)
    have hlength := congrArg (fun p : Path => p.components.length) hpath
    simp [root.components_join h.isEntryName] at hlength
  · obtain ⟨other, hother, rfl⟩ := List.mem_map.mp hr
    obtain ⟨e, he, rfl⟩ := List.mem_map.mp hother
    have hentry : IsEntryName e.1 := (htree.of_mem (mem_directories (List.mem_of_mem_filter he)).1).1
    have hsame : e.1.shown = name.shown := (name_ofRoot_join root hentry).symm.trans hshown
    have heq : e.1 = name :=
      ((RawText.shown_eq_iff hname).mp hsame).trans ((RawText.shown_eq_iff hname).mp rfl).symm
    rw [← heq]
    rfl

/-- A run succeeds, and what it finds where only the units of the repository are are the facts of these. -/
theorem exists_outcome (hvalid : s.missing? = none) (o : Options) (now : Timestamp) :
    ∃ repositories outcome, repositories? fs root = some repositories ∧
      analyze now fs s o (Module.read fs) root = .ok outcome ∧
      ∀ keep, PicksOut fs s o repositories (.ofRoot (root.join name)) keep →
        outcome.report.toFacts.select (.ofOrigin keep) =
          (Facts.concat (readableFacts fs s o (unitsOf fs s o (.ofRoot (root.join name))))).sorted.select
            o.selection := by
  obtain ⟨repositories, hrepositories, hmem⟩ := h.discovered
  refine ⟨repositories, _, hrepositories, analyze_eq_ok_iff.mpr ⟨hvalid, _, hrepositories, rfl⟩, ?_⟩
  obtain ⟨lead, entries, hroot, rfl⟩ := repositories?_eq_some_iff.mp hrepositories
  have hdiffer := discovered_pathsDiffer s o h.wellFormed hroot rfl
  have hnodup := repositoriesIn_nodup root (tree_wellFormed h.wellFormed hroot)
  intro keep hkeep
  rw [outcomeAt_toFacts fs s o now hdiffer, Facts.select_comm, foundFacts, Facts.select_sorted,
    concat_readableFacts_select, hkeep.filter_discovered hnodup hmem]

/-- The units of a repository are those that lie in it. -/
theorem picksOut_holds {repositories : List Repository} (hrepositories : repositories? fs root = some repositories) :
    PicksOut fs s o repositories (.ofRoot (root.join name))
      fun origin => (Repository.ofRoot (root.join name)).holds origin.path := by
  obtain ⟨found, hfound, hmem⟩ := h.discovered
  obtain rfl := Option.some.inj (hrepositories.symm.trans hfound)
  obtain ⟨lead, entries, hroot, rfl⟩ := repositories?_eq_some_iff.mp hrepositories
  have htree := tree_wellFormed h.wellFormed hroot
  have hholds {r : Repository} (hr : r ∈ repositoriesIn root (.directory entries)) {u : FoundUnit}
      (hu : u ∈ unitsOf fs s o r) : r.holds u.origin.path = true := by
    obtain ⟨names, inner, -, hinner, hfind, -⟩ := find?_repository h.wellFormed hroot rfl hr []
    exact (isOriginIn_of_mem_unitsOf hu).holds hfind (htree.find? hinner).1
  refine ⟨fun u hu => hholds hmem hu, ?_⟩
  intro other hother hne u hu
  rw [Bool.eq_false_iff]
  intro hown
  exact hne (eq_of_holds htree hother hmem (hholds hother hu) hown)

/-- Where it is the only one with its name, the units of a repository are those of the name. -/
theorem picksOut_name (honly : OnlyBearer fs root name) {repositories : List Repository}
    (hrepositories : repositories? fs root = some repositories) :
    PicksOut fs s o repositories (.ofRoot (root.join name)) fun origin => origin.repository == name.shown := by
  constructor
  · intro u hu
    rw [(isOriginIn_of_mem_unitsOf hu).1, name_ofRoot_join root h.isEntryName, beq_self_eq_true]
  · intro other hother hne u hu
    rw [(isOriginIn_of_mem_unitsOf hu).1, beq_eq_false_iff_ne]
    intro hname
    exact hne (honly repositories hrepositories other hother hname)

end HoldsRepository

/-- Two reports list the same facts, in the same order, of the units with a property. -/
structure AgreeOn (keep : Origin → Bool) (report report' : Report) : Prop where
  events : report.events.filter (keep ·.origin) = report'.events.filter (keep ·.origin)
  publications : report.publications.filter (keep ·.origin) = report'.publications.filter (keep ·.origin)
  consumptions : report.consumptions.filter (keep ·.origin) = report'.consumptions.filter (keep ·.origin)
  subscriptions : report.subscriptions.filter (keep ·.origin) = report'.subscriptions.filter (keep ·.origin)

private theorem agreeOn_of_select_eq {keep : Origin → Bool} {report report' : Report}
    (h : report.toFacts.select (.ofOrigin keep) = report'.toFacts.select (.ofOrigin keep)) :
    AgreeOn keep report report' :=
  ⟨congrArg Facts.events h, congrArg Facts.publications h, congrArg Facts.consumptions h,
    congrArg Facts.subscriptions h⟩

/-- A repository with a manifest and a source file, listed in one order or the other. -/
def shopFiles (manifestFirst : Bool) : FileTree :=
  let manifest : RawText × FileTree := ("Shop.csproj", .file "".toUTF8)
  let source : RawText × FileTree := ("Cart.cs", .file "public class Paid : IntegrationEvent \x7b \x7d".toUTF8)
  .directory (if manifestFirst then [manifest, source] else [source, manifest])

/-- A repository whose only source file is no text. -/
def bankFiles : FileTree :=
  .directory [("Bank.csproj", .file "".toUTF8), ("Broken.cs", .file ⟨#[255]⟩)]

def shopBeside (manifestFirst : Bool) (siblings : List (RawText × FileTree)) : FileSystem where
  root := .directory [("work", .directory (("shop", shopFiles manifestFirst) :: siblings))]

theorem shopBeside_holdsRepository (manifestFirst : Bool) (siblings : List (RawText × FileTree))
    (h : (shopBeside manifestFirst siblings).root.WellFormed) :
    HoldsRepository (shopBeside manifestFirst siblings) ⟨"work"⟩ "shop" (shopFiles manifestFirst) where
  wellFormed := h
  found := ⟨["work"], _, rfl, rfl⟩
  discovered := by
    refine ⟨_, rfl, ?_⟩
    cases manifestFirst <;> exact ofRoot_mem_repositoriesIn List.mem_cons_self rfl (by decide) (by decide)

private theorem shopFiles_alike : (shopFiles true).Alike (shopFiles false) :=
  FileTree.alike_of_perm (by decide) (List.Perm.swap _ _ _)

end Analysis

end EventAtlas
