import EventAtlas.Proofs.Analysis.Repositories
import EventAtlas.Proofs.Analysis.Runs
import EventAtlas.Proofs.Files.Writing
import Mathlib.Data.List.Sort

namespace EventAtlas

open Std
open EventAtlas.Path (IsEntryName)
open FileTree (Grown counts countedFiles entryFiles)

namespace Discovery

/-- Names that no manifest, no source file and no module dump has. -/
structure Unread (idle : RawText → Bool) : Prop where
  manifest : ∀ name, idle name = true → isManifest name = false
  source : ∀ name, idle name = true → hasExtension "cs" name = false
  dump : ∀ name, idle name = true → Module.dumpEnding.toList.isSuffixOf name.shown.toList = false

/-- A file that does not count does not have a property. -/
def OnlyCounted (idle : RawText → Bool) (kind : Entry → Bool) : Prop :=
  ∀ before name bytes, idle name = true → kind (before ++ [name], bytes) = false

section

variable {idle : RawText → Bool} (hidle : Unread idle)

theorem filter_countedFiles {kind : Entry → Bool} (hkind : OnlyCounted idle kind) (enter : RawText → Bool)
    (entries : List (RawText × FileTree)) :
    (countedFiles idle enter entries).filter kind = (entryFiles enter entries).filter kind := by
  rw [countedFiles, List.filter_filter]
  apply List.filter_congr
  rintro ⟨names, bytes⟩ he
  obtain ⟨first, _, _, _, rest, hnames, _⟩ := FileTree.mem_entryFiles.mp he
  obtain ⟨before, name, rfl⟩ := List.eq_nil_or_concat' names |>.resolve_left (hnames ▸ List.cons_ne_nil _ _)
  cases hname : idle name with
  | false => simp [counts, hname]
  | true => simp [hkind before name bytes hname]

include hidle

private theorem manifest_onlyCounted (root : Path) :
    OnlyCounted idle fun e => isManifest (entryName root e.1) := by
  intro before name bytes hname
  simp [entryName_concat, hidle.manifest name hname]

private theorem isSource_onlyCounted (s : Indicators) (excludeTests : Bool) (root : Path) :
    OnlyCounted idle fun e => isSource s excludeTests root e.1 := by
  intro before name bytes hname
  simp [isSource, entryName_concat, hidle.source name hname]

private theorem isModuleDump_onlyCounted (s : Indicators) (excludeTests : Bool) (root : Path) :
    OnlyCounted idle fun e => isModuleDump s excludeTests root e.1 := by
  intro before name bytes hname
  simp [isModuleDump, entryName_concat, hidle.dump name hname]

theorem holdsManifest_eq_counted (root : Path) (entries : List (RawText × FileTree)) :
    holdsManifest root (.directory entries) = (countedFiles idle (!isSourceless ·) entries).any
      fun e => isManifest (entryName root e.1) := by
  have hfilter := filter_countedFiles (manifest_onlyCounted hidle root) (!isSourceless ·) entries
  have hmem (e : Entry) := congrArg (e ∈ ·) hfilter
  simp only [List.mem_filter] at hmem
  unfold holdsManifest
  rw [FileTree.files, Bool.eq_iff_iff, List.any_eq_true, List.any_eq_true]
  simp only [hmem]

end

section

variable {idle : RawText → Bool} (hidle : Unread idle) {entries entries' : List (RawText × FileTree)}
  (h : Grown idle (.directory entries) (.directory entries'))

include h

/-- What is looked for is found again in a tree that grew unnoticed. -/
theorem filter_files_of_grown {kind : Entry → Bool} (hkind : OnlyCounted idle kind) (enter : RawText → Bool) :
    ((FileTree.directory entries').files enter).filter kind =
      ((FileTree.directory entries).files enter).filter kind := by
  have hcounted : countedFiles idle enter entries' = countedFiles idle enter entries := h.files enter []
  rw [FileTree.files, FileTree.files, ← filter_countedFiles hkind, hcounted, filter_countedFiles hkind]

include hidle

theorem holdsManifest_of_grown (root : Path) :
    holdsManifest root (.directory entries') = holdsManifest root (.directory entries) := by
  have hcounted : countedFiles idle (!isSourceless ·) entries' = countedFiles idle (!isSourceless ·) entries :=
    h.files _ []
  rw [holdsManifest_eq_counted hidle, holdsManifest_eq_counted hidle, hcounted]

private theorem projects_of_grown : projects (.directory entries') = projects (.directory entries) := by
  have hproject (tree : FileTree) : projects tree =
      (((tree.files (!isSourceless ·)).filter fun e => (project? e.1).isSome).filterMap fun e =>
        project? e.1).reverse := by
    unfold projects
    rw [List.filterMap_filter]
    refine congrArg List.reverse (List.filterMap_congr ?_)
    rintro ⟨names, bytes⟩ -
    cases hproject : project? names <;> simp [hproject]
  rw [hproject, hproject, filter_files_of_grown h]
  intro before name bytes hname
  have hmanifest := hidle.manifest name hname
  rw [isManifest, Bool.or_eq_false_iff] at hmanifest
  simp [project?, hmanifest.2]

theorem origins_of_grown (r : Repository) {kind : Entry → Bool} (hkind : OnlyCounted idle kind)
    (enter : RawText → Bool) :
    origins r (.directory entries') (((FileTree.directory entries').files enter).filter kind) =
      origins r (.directory entries) (((FileTree.directory entries).files enter).filter kind) := by
  unfold origins
  rw [projects_of_grown hidle h, filter_files_of_grown h hkind]

end

section

variable {root : Path} {entries : List (RawText × FileTree)} (hentries : (FileTree.directory entries).WellFormed)

include hentries

theorem mem_repositoryEntries {name : RawText} :
    name ∈ (repositoryEntries root (.directory entries)).map Prod.fst ↔
      ∃ below, entries.lookup name = some (.directory below) ∧ isForeign name = false ∧
        holdsManifest (root.join name) (.directory below) = true := by
  cases hentries with
  | directory nodup proper wellFormed =>
    simp only [repositoryEntries, directories, List.mem_map, List.mem_filter, mem_sortBy, Bool.and_eq_true,
      Bool.not_eq_true']
    constructor
    · rintro ⟨⟨_, tree⟩, ⟨⟨hmem, hdirectory, hforeign⟩, hmanifest⟩, rfl⟩
      cases tree with
      | file bytes => simp [FileTree.isDirectory] at hdirectory
      | directory below => exact ⟨below, lookup_of_mem nodup hmem, hforeign, hmanifest⟩
    · rintro ⟨below, hlookup, hforeign, hmanifest⟩
      exact ⟨(name, .directory below), ⟨⟨mem_of_lookup hlookup, rfl, hforeign⟩, hmanifest⟩, rfl⟩

end

section

variable {idle : RawText → Bool} (hidle : Unread idle) (root : Path) {entries entries' : List (RawText × FileTree)}
  (hentries : (FileTree.directory entries).WellFormed) (hentries' : (FileTree.directory entries').WellFormed)
  (h : Grown idle (.directory entries) (.directory entries'))

include hidle hentries hentries' h

/-- A new directory holds no manifest that counts, and an old one holds what it held. -/
theorem mem_repositoryEntries_of_grown (name : RawText) :
    name ∈ (repositoryEntries root (.directory entries')).map Prod.fst ↔
      name ∈ (repositoryEntries root (.directory entries)).map Prod.fst := by
  have hbelow {below below' : List (RawText × FileTree)} (hbefore : entries.lookup name = some (.directory below))
      (hafter : entries'.lookup name = some (.directory below')) :
      holdsManifest (root.join name) (.directory below') = holdsManifest (root.join name) (.directory below) := by
    rw [← FileTree.find?_singleton] at hbefore hafter
    exact holdsManifest_of_grown hidle (h.below hbefore hafter) _
  rw [mem_repositoryEntries hentries', mem_repositoryEntries hentries]
  constructor
  · rintro ⟨below', hafter, hforeign, hmanifest⟩
    have hcounted : countedFiles idle (!isSourceless ·) ((FileTree.directory entries').entriesAt [name]) ≠ [] := by
      rw [FileTree.entriesAt, FileTree.find?_singleton, hafter]
      rintro hnone
      rw [holdsManifest_eq_counted hidle] at hmanifest
      simp only [Option.map_some, Option.getD_some, FileTree.entries] at hnone
      simp [hnone] at hmanifest
    obtain ⟨below, hbefore⟩ := h.directoryAt_of_counted hcounted
    rw [FileTree.find?_singleton] at hbefore
    exact ⟨below, hbefore, hforeign, (hbelow hbefore hafter).symm.trans hmanifest⟩
  · rintro ⟨below, hbefore, hforeign, hmanifest⟩
    obtain ⟨below', hafter⟩ := h.directoryAt ⟨below, (FileTree.find?_singleton _ _).trans hbefore⟩
    rw [FileTree.find?_singleton] at hafter
    exact ⟨below', hafter, hforeign, (hbelow hbefore hafter).trans hmanifest⟩

private theorem leads_of_grown : leads root (.directory entries') = leads root (.directory entries) := by
  have hnames : (repositoryEntries root (.directory entries')).map Prod.fst =
      (repositoryEntries root (.directory entries)).map Prod.fst := by
    exact eq_of_paths_rise root.join (List.pairwise_map.mpr (repositoryEntries_rise root hentries'))
      (List.pairwise_map.mpr (repositoryEntries_rise root hentries))
      (mem_repositoryEntries_of_grown hidle root hentries hentries' h)
  have hleads (all : List (RawText × FileTree)) : leads root (.directory all) =
      if ((repositoryEntries root (.directory all)).map Prod.fst).isEmpty && holdsManifest root (.directory all)
      then [[]] else ((repositoryEntries root (.directory all)).map Prod.fst).map fun name => [name] := by
    rw [leads, List.isEmpty_map, List.map_map]
    rfl
  rw [hleads, hleads, hnames, holdsManifest_of_grown hidle h]

end

end Discovery

namespace Analysis

open Discovery

section

variable {idle : RawText → Bool} (hidle : Unread idle) {fs fs' : FileSystem} (hfs : fs.root.WellFormed)
  (hfs' : fs'.root.WellFormed) (h : Grown idle fs.root fs'.root) (hcurrent : fs'.current = fs.current)
  {s : Indicators} {o : Options}

include h

theorem grown_below {p : Path} {names : List RawText} {entries entries' : List (RawText × FileTree)}
    (hp : fs.locate p = .ok (names, .directory entries)) (hp' : fs'.locate p = .ok (names, .directory entries')) :
    Grown idle (.directory entries) (.directory entries') :=
  h.below (FileSystem.locate_eq_ok_iff.mp hp).2.2.1 (FileSystem.locate_eq_ok_iff.mp hp').2.2.1

include hfs hfs'

/-- A file that counts has its old text. -/
theorem readText_of_grown {r : Repository} {names : List RawText} {entries entries' : List (RawText × FileTree)}
    (hr : fs.locate r.root = .ok (names, .directory entries))
    (hr' : fs'.locate r.root = .ok (names, .directory entries')) {kind : Entry → Bool}
    (hkind : OnlyCounted idle kind) {enter : RawText → Bool} {origin : Origin}
    (horigin : origin ∈ origins r (.directory entries) (((FileTree.directory entries).files enter).filter kind)) :
    fs'.readText origin.path = fs.readText origin.path := by
  obtain ⟨e, he, rfl⟩ := mem_origins horigin
  have hfound {fs : FileSystem} {all : List (RawText × FileTree)} (hfs : fs.root.WellFormed)
      (hr : fs.locate r.root = .ok (names, .directory all))
      (he : e ∈ ((FileTree.directory all).files enter).filter kind) :
      fs.locate (entryPath r.root e.1) = .ok (names ++ e.1, .file e.2) := by
    have htree := tree_wellFormed hfs hr
    have hfile := FileTree.find?_of_mem_files htree (List.mem_of_mem_filter he)
    exact locate_entryPath hr (htree.find? hfile).2 hfile
  have he' : e ∈ ((FileTree.directory entries').files enter).filter kind := by
    rwa [filter_files_of_grown (grown_below h hr hr') hkind]
  rw [FileSystem.readText, FileSystem.readText, hfound hfs hr he, hfound hfs' hr' he']

include hidle hcurrent

/-- Nothing about the units of a repository has changed. -/
theorem repositoryResults_of_grown {r : Repository} {names : List RawText} {entries : List (RawText × FileTree)}
    (hr : fs.locate r.root = .ok (names, .directory entries)) :
    repositoryResults fs' s o (Module.read fs') r = repositoryResults fs s o (Module.read fs) r := by
  obtain ⟨entries', hr'⟩ := FileSystem.locate_of_grown h hcurrent hr
  have hbelow := grown_below h hr hr'
  have hsources : sourceResults fs' s o r = sourceResults fs s o r := by
    have hkind := isSource_onlyCounted hidle s o.excludeTests r.root
    unfold sourceResults sourcesOf
    rw [find?_of_locate hr, find?_of_locate hr']
    dsimp only [sources]
    rw [origins_of_grown hidle hbelow r hkind]
    apply List.map_congr_left
    intro origin horigin
    rw [sourceFacts, sourceFacts, readText_of_grown hfs hfs' h hr hr' hkind horigin]
  have hmodules : loadResults fs' s o (Module.read fs') r = loadResults fs s o (Module.read fs) r := by
    have hkind := isModuleDump_onlyCounted hidle s o.excludeTests r.root
    unfold loadResults modulesOf
    rw [find?_of_locate hr, find?_of_locate hr']
    dsimp only [modules]
    rw [origins_of_grown hidle hbelow r hkind]
    apply List.map_congr_left
    intro origin horigin
    rw [Module.read, Module.read, readText_of_grown hfs hfs' h hr hr' hkind horigin]
  unfold repositoryResults
  rw [hsources, hmodules]

/-- A run over a tree that grew unnoticed has the same results. -/
theorem survey_of_grown {root : Path} {results : List RepositoryResults}
    (hsurvey : survey fs s o (Module.read fs) root = .ok results) :
    survey fs' s o (Module.read fs') root = .ok results := by
  unfold survey at hsurvey
  cases hfound : repositories? fs root with
  | none => simp [hfound] at hsurvey
  | some repositories =>
    obtain ⟨lead, entries, hroot, rfl⟩ := repositories?_eq_some_iff.mp hfound
    obtain ⟨entries', hroot'⟩ := FileSystem.locate_of_grown h hcurrent hroot
    have hleads := leads_of_grown hidle root (tree_wellFormed hfs hroot) (tree_wellFormed hfs' hroot')
      (grown_below h hroot hroot')
    have hfound' : repositories? fs' root = some (repositoriesIn root (.directory entries)) := by
      refine repositories?_eq_some_iff.mpr ⟨lead, entries', hroot', ?_⟩
      rw [repositoriesIn_eq_map, hleads, ← repositoriesIn_eq_map]
    rw [hfound] at hsurvey
    unfold survey
    rw [hfound', ← Except.ok.inj hsurvey]
    refine congrArg Except.ok (List.map_congr_left ?_)
    intro r hr
    rw [repositoriesIn_eq_map] at hr
    obtain ⟨names, hnames, rfl⟩ := List.mem_map.mp hr
    obtain ⟨below, -, hlocate⟩ := locate_lead hfs hroot rfl hnames
    exact repositoryResults_of_grown hidle hfs hfs' h hcurrent hlocate

end

/-- The time of a run shows in its report only. -/
theorem outcomeOf_later (now later : Timestamp) (s : Indicators) (o : Options)
    (results : List RepositoryResults) :
    outcomeOf later s o results =
      { outcomeOf now s o results with
        report := { (outcomeOf now s o results).report with generatedAt := later } } := by
  unfold outcomeOf
  split_ifs <;> rfl

end Analysis

end EventAtlas
