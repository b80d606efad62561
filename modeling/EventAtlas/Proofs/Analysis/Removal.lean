import EventAtlas.Proofs.Analysis.Units

namespace EventAtlas

open Std

namespace Discovery

private theorem origins_prune (r : Repository) {tree : FileTree} (hdirectory : tree.isDirectory = true)
    {keep : List RawText → Bool} (hkeep : KeepsManifests keep) (kept : Path → Bool) {enter : RawText → Bool}
    (hkept : ∀ e ∈ tree.files enter, kept (entryPath r.root e.1) = keep e.1) (kind : List RawText → Bool) :
    origins r (tree.prune keep) (((tree.prune keep).files enter).filter fun e => kind e.1) =
      (origins r tree ((tree.files enter).filter fun e => kind e.1)).filter fun origin =>
        kept origin.path := by
  have hentries : ((tree.prune keep).files enter).filter (fun e => kind e.1) =
      ((tree.files enter).filter fun e => kind e.1).filter fun e => keep e.1 := by
    rw [FileTree.files_prune enter keep tree hdirectory, List.filter_filter, List.filter_filter]
    simp only [Bool.and_comm]
  have horigins (entries : List Entry) : origins r (tree.prune keep) entries = origins r tree entries := by
    unfold origins
    rw [projects_prune hkeep hdirectory]
  rw [horigins, hentries]
  exact origins_filter r tree _ _ kept fun e he => hkept e (List.mem_of_mem_filter he)

end Discovery

namespace Analysis

open Discovery

section

variable {fs : FileSystem} {s : Indicators} {o : Options} {root : Path} {lead : List RawText}
  {tree : FileTree} {lost : List Path}

/-- Paths of units below a directory. -/
def AreUnits (s : Indicators) (o : Options) (root : Path) (tree : FileTree) (lost : List Path) : Prop :=
  ∀ p ∈ lost, ∃ place ∈ places s o root tree, p = entryPath root place

/-- Which files below a directory stay if some paths are taken away. -/
def stays (fs : FileSystem) (lost : List Path) (lead names : List RawText) : Bool :=
  !lost.any (fs.leadsTo (lead ++ names))

variable (hfs : fs.root.WellFormed) (hroot : fs.locate root = .ok (lead, tree))
  (hdirectory : tree.isDirectory = true) (hlost : AreUnits s o root tree lost)

include hfs hroot

theorem tree_wellFormed : tree.WellFormed :=
  (hfs.find? (FileSystem.locate_eq_ok_iff.mp hroot).2.2.1).1

theorem leadsTo_entryPath {place : List RawText} {found : FileTree} (h : tree.find? place = some found)
    (names : List RawText) : fs.leadsTo names (entryPath root place) = true ↔ lead ++ place = names := by
  have hproper := ((tree_wellFormed hfs hroot).find? h).2
  rw [FileSystem.leadsTo, locate_entryPath hroot hproper h]
  exact beq_iff_eq

include hdirectory hlost

theorem stays_eq {place : List RawText} {found : FileTree} (h : tree.find? place = some found) :
    stays fs lost lead place = decide (entryPath root place ∉ lost) := by
  have htree := tree_wellFormed hfs hroot
  rw [stays, Bool.eq_iff_iff, Bool.not_eq_true', List.any_eq_false, decide_eq_true_iff]
  constructor
  · intro hnone hmem
    exact hnone _ hmem ((leadsTo_entryPath hfs hroot h _).mpr rfl)
  · rintro hnot p hp hleads
    obtain ⟨other, hother, rfl⟩ := hlost p hp
    obtain ⟨⟨bytes, hfile⟩, _⟩ := mem_places htree hdirectory hother
    obtain rfl := List.append_cancel_left ((leadsTo_entryPath hfs hroot hfile _).mp hleads)
    exact hnot hp

theorem stays_keepsManifests : KeepsManifests (stays fs lost lead) := by
  intro names name hname
  rw [stays, Bool.not_eq_true', List.any_eq_false]
  intro p hp hleads
  obtain ⟨place, hplace, rfl⟩ := hlost p hp
  obtain ⟨⟨bytes, hfile⟩, before, last, rfl, hlast⟩ :=
    mem_places (tree_wellFormed hfs hroot) hdirectory hplace
  have heq := List.append_cancel_left ((leadsTo_entryPath hfs hroot hfile _).mp hleads)
  have hsame : last = name := by simpa using congrArg List.getLast? heq
  rw [hsame, hname] at hlast
  exact Bool.noConfusion hlast

omit hlost in
theorem locate_without (lost : List Path) :
    (fs.without lost).locate root = .ok (lead, tree.prune (stays fs lost lead)) := by
  cases tree with
  | file bytes => simp [FileTree.isDirectory] at hdirectory
  | directory entries => exact FileSystem.locate_prune hfs _ hroot

/-- The repositories are found again. -/
theorem repositories?_without : repositories? (fs.without lost) root = some (repositoriesIn root tree) := by
  have hprune := repositoriesIn_eq_map root (tree.prune (stays fs lost lead))
  rw [leads_prune root (stays_keepsManifests hfs hroot hdirectory hlost) hdirectory,
    ← repositoriesIn_eq_map] at hprune
  have hfind := find?_of_locate (locate_without hfs hroot hdirectory lost)
  cases tree with
  | file bytes => simp [FileTree.isDirectory] at hdirectory
  | directory entries =>
    rw [FileTree.prune] at hfind hprune
    simp only [repositories?, hfind, hprune]

/-- A unit that stays has its old text. -/
theorem readText_without {place : List RawText} {bytes : ByteArray}
    (h : tree.find? place = some (.file bytes)) (hkept : entryPath root place ∉ lost) :
    (fs.without lost).readText (entryPath root place) = fs.readText (entryPath root place) := by
  have htree := tree_wellFormed hfs hroot
  have hproper := (htree.find? h).2
  have hstays : stays fs lost lead place = true := by
    rw [stays_eq hfs hroot hdirectory hlost h]
    exact decide_eq_true hkept
  have hfind : (tree.prune (stays fs lost lead)).find? place = some (.file bytes) := by
    rw [FileTree.find?_prune htree, h]
    simp [hstays, FileTree.prune]
  have hbefore := locate_entryPath hroot hproper h
  have hafter := locate_entryPath (locate_without hfs hroot hdirectory lost) hproper hfind
  rw [FileSystem.readText, FileSystem.readText, hbefore, hafter]

/-- Of the files of a repository those stay that are not taken away. -/
theorem origins_without {names : List RawText} {entries : List (RawText × FileTree)}
    (hentries : tree.find? names = some (.directory entries)) (enter : RawText → Bool)
    (kind : List RawText → Bool) :
    let r := Repository.ofRoot (entryPath root names)
    let below := FileTree.directory entries
    let kept := below.prune (stays fs lost (lead ++ names))
    origins r kept ((kept.files enter).filter fun e => kind e.1) =
      (origins r below ((below.files enter).filter fun e => kind e.1)).filter fun origin =>
        origin.path ∉ lost := by
  intro r below kept
  have hbelow : stays fs lost (lead ++ names) = fun more => stays fs lost lead (names ++ more) := by
    funext more
    rw [stays, stays, List.append_assoc]
  have hkeep := (stays_keepsManifests hfs hroot hdirectory hlost).below names
  rw [← hbelow] at hkeep
  refine origins_prune r rfl hkeep (fun p => p ∉ lost) ?_ kind
  intro e he
  have hfile := FileTree.find?_of_mem_files ((tree_wellFormed hfs hroot).find? hentries).1 he
  have hplace : tree.find? (names ++ e.1) = some (.file e.2) := by
    rw [FileTree.find?_append, hentries]
    exact hfile
  rw [hbelow]
  dsimp only
  rw [stays_eq hfs hroot hdirectory hlost hplace, ← entryPath_append]
  rfl

section Repository

variable {r : Repository} (hr : r ∈ repositoriesIn root tree)

include hr

omit hlost in
theorem find?_repository (lost : List Path) :
    ∃ names entries, r = Repository.ofRoot (entryPath root names) ∧
      tree.find? names = some (.directory entries) ∧ fs.find? r.root = some (.directory entries) ∧
        (fs.without lost).find? r.root =
          some ((FileTree.directory entries).prune (stays fs lost (lead ++ names))) := by
  rw [repositoriesIn_eq_map] at hr
  obtain ⟨names, hnames, rfl⟩ := List.mem_map.mp hr
  obtain ⟨entries, hentries, hlocate⟩ := locate_lead hfs hroot hdirectory hnames
  refine ⟨names, entries, rfl, hentries, find?_of_locate hlocate, ?_⟩
  exact find?_of_locate (locate_without hfs hlocate rfl lost)

private theorem sourcesOf_without (excludeTests : Bool) :
    sourcesOf (fs.without lost) s excludeTests r =
      (sourcesOf fs s excludeTests r).filter fun origin => origin.path ∉ lost := by
  obtain ⟨names, entries, rfl, hentries, hbefore, hafter⟩ := find?_repository hfs hroot hdirectory hr lost
  simp only [sourcesOf, hbefore, hafter, sources]
  exact origins_without hfs hroot hdirectory hlost hentries _ _

theorem modulesOf_without (excludeTests : Bool) :
    modulesOf (fs.without lost) s excludeTests r =
      (modulesOf fs s excludeTests r).filter fun origin => origin.path ∉ lost := by
  obtain ⟨names, entries, rfl, hentries, hbefore, hafter⟩ := find?_repository hfs hroot hdirectory hr lost
  simp only [modulesOf, hbefore, hafter, modules]
  exact origins_without hfs hroot hdirectory hlost hentries _ _

/-- The units that are found again are those that were not taken away. -/
theorem unitsOf_without : unitsOf (fs.without lost) s o r =
    (unitsOf fs s o r).filter fun u => u.origin.path ∉ lost := by
  unfold unitsOf
  rw [sourcesOf_without hfs hroot hdirectory hlost hr, modulesOf_without hfs hroot hdirectory hlost hr,
    List.filter_append, List.filter_map]
  congr 1
  split_ifs
  · rw [List.filter_map]
    rfl
  · rfl

end Repository

/-- The units below a directory without some of them. -/
theorem discovered_without : discovered (fs.without lost) s o (repositoriesIn root tree) =
    (discovered fs s o (repositoriesIn root tree)).filter fun u => u.origin.path ∉ lost := by
  unfold discovered
  rw [List.filter_flatMap]
  apply List.flatMap_congr
  intro r hr
  exact unitsOf_without hfs hroot hdirectory hlost hr

theorem readText_unit_without {u : FoundUnit} (hu : u ∈ discovered fs s o (repositoriesIn root tree))
    (hkept : u.origin.path ∉ lost) :
    (fs.without lost).readText u.origin.path = fs.readText u.origin.path := by
  obtain ⟨place, hplace, hpath⟩ := exists_place hfs hroot hdirectory hu
  obtain ⟨⟨bytes, hfile⟩, _⟩ := mem_places (tree_wellFormed hfs hroot) hdirectory hplace
  rw [hpath] at hkept ⊢
  exact readText_without hfs hroot hdirectory hlost hfile hkept

theorem read_without {u : FoundUnit} (hu : u ∈ discovered fs s o (repositoriesIn root tree))
    (hkept : u.origin.path ∉ lost) :
    Module.read (fs.without lost) u.origin.path = Module.read fs u.origin.path := by
  rw [Module.read, Module.read, readText_unit_without hfs hroot hdirectory hlost hu hkept]

section Failing

variable (hfail : ∀ u ∈ discovered fs s o (repositoriesIn root tree), u.origin.path ∈ lost →
  (u.extraction fs s o).toOption = none)

include hfail

/-- Modules that cannot be read are not missed by the others. -/
theorem readableModules_without {r : Repository} (hr : r ∈ repositoriesIn root tree)
    (hmodules : o.bytecodePublishers = true) :
    readableModules (fs.without lost) s o r = readableModules fs s o r := by
  unfold readableModules
  rw [modulesOf_without hfs hroot hdirectory hlost hr, List.filterMap_filter]
  apply List.filterMap_congr
  intro origin horigin
  have hunit : FoundUnit.mk r true origin ∈ discovered fs s o (repositoriesIn root tree) :=
    List.mem_flatMap.mpr ⟨r, hr, mem_unitsOf_compiled hmodules horigin⟩
  by_cases hlost' : origin.path ∈ lost
  · have hnone := hfail _ hunit hlost'
    rw [FoundUnit.extraction, if_pos rfl] at hnone
    cases hread : Module.read fs origin.path with
    | error error => simp [hlost', Except.toOption]
    | ok m => simp [hread, Except.map, Except.toOption] at hnone
  · simp [hlost', read_without hfs hroot hdirectory hlost hunit hlost']

/-- The units that stay give what they gave. -/
theorem extraction_without {u : FoundUnit} (hu : u ∈ discovered fs s o (repositoriesIn root tree))
    (hkept : u.origin.path ∉ lost) : u.extraction (fs.without lost) s o = u.extraction fs s o := by
  obtain ⟨r, hr, hru⟩ := List.mem_flatMap.mp hu
  obtain ⟨hrepository, hmodules⟩ := mem_unitsOf hru
  unfold FoundUnit.extraction
  split_ifs with hcompiled
  · rw [read_without hfs hroot hdirectory hlost hu hkept, hrepository,
      readableModules_without hfs hroot hdirectory hlost hfail hr (hmodules hcompiled)]
  · rw [sourceFacts, sourceFacts, readText_unit_without hfs hroot hdirectory hlost hu hkept]

end Failing

end

end Analysis

end EventAtlas
