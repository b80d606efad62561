import EventAtlas.Analysis.Discovery
import EventAtlas.Proofs.Files.FileSystem
import EventAtlas.Proofs.Report.Sorting

namespace EventAtlas

open Std
open RawText (dot)
open EventAtlas.Path (IsEntryName)

/-- A name is split at its last dot, which is not its first character. -/
theorem splitExtension?_eq_some_iff {name before found : RawText} (hfound : found ≠ "") :
    splitExtension? name = some (before, found) ↔
      before ≠ "" ∧ dot ∉ found.bytes ∧ name = before ++ "." ++ found := by
  have hmarks : (found.bytes.any fun b => b == dot) = false ↔ dot ∉ found.bytes := by
    rw [List.any_eq_false]
    constructor
    · intro h hdot
      exact h dot hdot (beq_self_eq_true dot)
    · intro h b hb hmark
      exact h (beq_iff_eq.mp hmark ▸ hb)
  have hbytes : name = before ++ "." ++ found ↔ name.bytes = before.bytes ++ dot :: found.bytes := by
    rw [RawText.ext_iff, ← List.singleton_append, ← List.append_assoc]
    exact Iff.rfl
  constructor
  · intro h
    unfold splitExtension? at h
    split_ifs at h
    split at h
    · rename_i first rest last hsplit
      obtain ⟨rfl, rfl⟩ := Prod.mk.inj (Option.some.inj h)
      obtain ⟨mark, hmark, hafter, hname⟩ := Text.eq_append_of_splitLast? hsplit
      obtain rfl : mark = dot := beq_iff_eq.mp hmark
      exact ⟨nofun, hmarks.mp hafter, hbytes.mpr hname⟩
    · cases h
  · intro h
    obtain ⟨hbefore, hdot, hname⟩ := h
    have hname := hbytes.mp hname
    obtain ⟨first, rest, hfirst⟩ : ∃ first rest, before.bytes = first :: rest :=
      List.exists_cons_of_ne_nil fun h => hbefore (RawText.ext h)
    have hne : name ≠ ".." := by
      rintro rfl
      have hlength := congrArg List.length hname
      have hfound : 0 < found.bytes.length := List.length_pos_iff.mpr fun h => hfound (RawText.ext h)
      rw [hfirst, List.length_append, List.length_cons, List.length_cons] at hlength
      have hdots : (RawText.ofString "..").bytes.length = 2 := rfl
      omega
    have hsplit := Text.splitLast?_append (p := (· == dot)) before.bytes dot found.bytes rfl (hmarks.mpr hdot)
    unfold splitExtension?
    rw [if_neg hne, hname, hsplit, hfirst]
    simp only [Option.some.injEq, Prod.mk.injEq, and_true]
    exact RawText.ext hfirst.symm

/-- A name has one extension, up to the case of its letters. -/
theorem hasExtension_eq_false {extension other : String} {name : RawText}
    (h : hasExtension extension name = true)
    (hother : Text.sameAscii extension.toList other.toList = false) : hasExtension other name = false := by
  unfold hasExtension at h ⊢
  cases hsplit : splitExtension? name with
  | none => rfl
  | some cut =>
    rw [hsplit] at h
    obtain ⟨found, hfound, hsame⟩ := (Option.any_eq_true _ _).mp h
    simp only [hfound, Option.any_some]
    simp only [Text.sameAscii, beq_iff_eq, beq_eq_false_iff_ne] at hsame hother ⊢
    rw [hsame]
    exact hother

namespace Module

private theorem hasExtension_of_dumpEnding {name : RawText}
    (h : dumpEnding.toList.isSuffixOf name.shown.toList = true) : hasExtension "json" name = true := by
  obtain ⟨before, hbefore⟩ := List.isSuffixOf_iff_suffix.mp h
  obtain ⟨front, hfront⟩ := RawText.bytes_of_shown_ending (by decide) hbefore.symm
  have hname : name = ⟨front⟩ ++ ".module" ++ "." ++ "json" := by
    rw [RawText.ext_iff, hfront]
    simp only [RawText.bytes_append, List.append_assoc]
    rfl
  have hstart : (⟨front⟩ ++ ".module" : RawText) ≠ "" := by
    intro h
    have hbytes := congrArg RawText.bytes h
    simp [RawText.ofString] at hbytes
  unfold hasExtension
  rw [(splitExtension?_eq_some_iff (by decide)).mpr ⟨hstart, by decide, hname⟩]
  rfl

end Module

namespace Discovery

variable {s : Indicators} {excludeTests : Bool} {root : Path} {names : List RawText}

theorem isSource_not_manifest (h : isSource s excludeTests root names = true) :
    isManifest (entryName root names) = false := by
  rw [isSource, Bool.and_eq_true] at h
  rw [isManifest, hasExtension_eq_false h.1 (by decide), hasExtension_eq_false h.1 (by decide)]
  rfl

theorem isModuleDump_ending (h : isModuleDump s excludeTests root names = true) :
    hasExtension "json" (entryName root names) = true := by
  simp only [isModuleDump, Bool.and_eq_true] at h
  exact Module.hasExtension_of_dumpEnding h.1.1

theorem isModuleDump_not_manifest (h : isModuleDump s excludeTests root names = true) :
    isManifest (entryName root names) = false := by
  have hjson := isModuleDump_ending h
  rw [isManifest, hasExtension_eq_false hjson (by decide), hasExtension_eq_false hjson (by decide)]
  rfl

/-- No file is both a module dump and a source file. -/
theorem isModuleDump_not_source (h : isModuleDump s excludeTests root names = true) :
    isSource s excludeTests root names = false := by
  rw [isSource, hasExtension_eq_false (isModuleDump_ending h) (by decide)]
  rfl

theorem entryName_concat (root : Path) (names : List RawText) (name : RawText) :
    entryName root (names ++ [name]) = name := by
  simp [entryName]

theorem entryPath_append (root : Path) (names more : List RawText) :
    entryPath (entryPath root names) more = entryPath root (names ++ more) := by
  rw [entryPath, entryPath, entryPath, List.foldl_append]

/-- The path of an entry goes on with the names that lead to it. -/
theorem components_entryPath (root : Path) {names : List RawText} (h : ∀ name ∈ names, IsEntryName name) :
    (entryPath root names).components = root.components ++ names.map .name := by
  induction names generalizing root with
  | nil => simp [entryPath]
  | cons name names ih =>
    have hname := h name List.mem_cons_self
    have hrest := ih (root.join name) fun n hn => h n (List.mem_cons_of_mem _ hn)
    rw [entryPath, List.foldl_cons]
    rw [entryPath] at hrest
    rw [hrest, root.components_join hname, List.append_assoc]
    rfl

/-- Entries of different names have different paths. -/
theorem entryPath_components_inj (root : Path) {names others : List RawText}
    (h : ∀ name ∈ names, IsEntryName name) (h' : ∀ name ∈ others, IsEntryName name)
    (heq : (entryPath root names).components = (entryPath root others).components) : names = others := by
  rw [components_entryPath root h, components_entryPath root h'] at heq
  refine List.map_injective_iff.mpr ?_ (List.append_cancel_left heq)
  intro a b hab
  exact Path.Component.name.inj hab

/-- An entry lies where its names lead to from the root of its repository. -/
theorem locate_entryPath {fs : FileSystem} {root : Path} {lead names : List RawText} {tree found : FileTree}
    (hroot : fs.locate root = .ok (lead, tree)) (hproper : ∀ name ∈ names, IsEntryName name)
    (hfound : tree.find? names = some found) :
    fs.locate (entryPath root names) = .ok (lead ++ names, found) := by
  induction names generalizing root lead tree with
  | nil =>
    obtain rfl : tree = found := Option.some.inj hfound
    simpa [entryPath] using hroot
  | cons name names ih =>
    cases tree with
    | file bytes => simp [FileTree.find?, FileTree.entries] at hfound
    | directory entries =>
      rw [FileTree.find?_cons] at hfound
      obtain ⟨below, hlookup, hbelow⟩ := Option.bind_eq_some_iff.mp hfound
      have hjoin := FileSystem.locate_join hroot (hproper name List.mem_cons_self) hlookup
      have hrest := ih hjoin (fun n hn => hproper n (List.mem_cons_of_mem _ hn)) hbelow
      rw [List.append_assoc] at hrest
      exact hrest

/-- The subdirectories that may be repositories, in order of their paths. -/
def directories (root : Path) (tree : FileTree) : List (RawText × FileTree) :=
  sortBy (fun a b => compare (root.join a.1) (root.join b.1))
    (tree.entries.filter fun e => e.2.isDirectory && !isForeign e.1)

theorem mem_directories {root : Path} {tree : FileTree} {e : RawText × FileTree}
    (h : e ∈ directories root tree) : e ∈ tree.entries ∧ e.2.isDirectory = true := by
  rw [directories, mem_sortBy, List.mem_filter, Bool.and_eq_true] at h
  exact ⟨h.1, h.2.1⟩

private theorem candidates_eq_map (root : Path) (tree : FileTree) :
    candidates root tree = (directories root tree).map fun e => (root.join e.1, e.2) :=
  sortBy_map (fun e : RawText × FileTree => (root.join e.1, e.2)) (fun a b => compare a.1 b.1) _

/-- The subdirectories with a manifest, in order. -/
def repositoryEntries (root : Path) (tree : FileTree) : List (RawText × FileTree) :=
  (directories root tree).filter fun e => holdsManifest (root.join e.1) e.2

/-- The names that lead to the repositories in a directory. -/
def leads (root : Path) (tree : FileTree) : List (List RawText) :=
  if (repositoryEntries root tree).isEmpty && holdsManifest root tree then [[]]
  else (repositoryEntries root tree).map fun e => [e.1]

/-- The repositories below a path are those that the leads point to. -/
theorem repositoriesIn_eq_map (root : Path) (tree : FileTree) :
    repositoriesIn root tree = (leads root tree).map fun lead => Repository.ofRoot (entryPath root lead) := by
  have hfound : ((candidates root tree).filter fun c => holdsManifest c.1 c.2).map
      (fun c => Repository.ofRoot c.1) =
        (repositoryEntries root tree).map fun e => Repository.ofRoot (root.join e.1) := by
    rw [candidates_eq_map, List.filter_map, List.map_map]
    rfl
  change (if (((candidates root tree).filter fun c => holdsManifest c.1 c.2).map
      fun c => Repository.ofRoot c.1).isEmpty && holdsManifest root tree then [Repository.ofRoot root]
    else ((candidates root tree).filter fun c => holdsManifest c.1 c.2).map
      fun c => Repository.ofRoot c.1) = _
  rw [hfound, List.isEmpty_map, leads]
  split_ifs
  · rfl
  · rw [List.map_map]
    rfl

/-- A directory with a manifest that is not foreign is a repository. -/
theorem ofRoot_mem_repositoriesIn {root : Path} {tree : FileTree} {name : RawText} {below : FileTree}
    (hentry : (name, below) ∈ tree.entries) (hdirectory : below.isDirectory = true)
    (hforeign : isForeign name = false) (hmanifest : holdsManifest (root.join name) below = true) :
    Repository.ofRoot (root.join name) ∈ repositoriesIn root tree := by
  have hmem : (name, below) ∈ repositoryEntries root tree := by
    refine List.mem_filter.mpr ⟨(mem_sortBy _).mpr (List.mem_filter.mpr ⟨hentry, ?_⟩), hmanifest⟩
    simp [hdirectory, hforeign]
  have hnonempty : (repositoryEntries root tree).isEmpty = false :=
    List.isEmpty_eq_false_iff.mpr (List.ne_nil_of_mem hmem)
  rw [repositoriesIn_eq_map, leads, hnonempty]
  exact List.mem_map.mpr ⟨[name], List.mem_map.mpr ⟨_, hmem, rfl⟩, rfl⟩

/-- A lead points to a directory. -/
theorem directoryAt_lead {root : Path} {tree : FileTree} (htree : tree.WellFormed)
    (hdirectory : tree.isDirectory = true) {lead : List RawText} (h : lead ∈ leads root tree) :
    FileSystem.DirectoryAt tree lead := by
  cases htree with
  | file bytes => simp [FileTree.isDirectory] at hdirectory
  | @directory entries nodup proper below =>
    unfold leads at h
    split_ifs at h
    · obtain rfl : lead = [] := by simpa using h
      exact ⟨entries, rfl⟩
    · obtain ⟨⟨name, found⟩, he, rfl⟩ := List.mem_map.mp h
      obtain ⟨hmem, hfound⟩ := mem_directories (List.mem_of_mem_filter he)
      cases found with
      | file bytes => simp [FileTree.isDirectory] at hfound
      | directory inner =>
        refine ⟨inner, ?_⟩
        rw [FileTree.find?_cons, lookup_of_mem nodup hmem]
        rfl

theorem repositoryEntries_nodup (root : Path) {tree : FileTree} (htree : tree.WellFormed) :
    ((repositoryEntries root tree).map Prod.fst).Nodup := by
  have hentries : (tree.entries.map Prod.fst).Nodup := by
    cases htree with
    | file bytes => simp [FileTree.entries]
    | directory nodup proper below => exact nodup
  have hsorted : ((directories root tree).map Prod.fst).Nodup :=
    (((sortBy_perm _ _).map Prod.fst).nodup_iff).mpr
      (hentries.sublist (List.filter_sublist.map Prod.fst))
  exact hsorted.sublist (List.filter_sublist.map Prod.fst)

/-- No entry lies in two repositories. -/
theorem leads_apart (root : Path) {tree : FileTree} (htree : tree.WellFormed) :
    (leads root tree).Pairwise fun a b => ∀ names others, a ++ names ≠ b ++ others := by
  unfold leads
  split_ifs
  · simp
  · have hnodup := repositoryEntries_nodup root htree
    refine List.pairwise_map.mpr ((List.pairwise_map.mp hnodup).imp ?_)
    intro a b hne names others heq
    exact hne (List.cons.inj heq).1

def KeepsManifests (keep : List RawText → Bool) : Prop :=
  ∀ names name, isManifest name = true → keep (names ++ [name]) = true

theorem KeepsManifests.below {keep : List RawText → Bool} (h : KeepsManifests keep) (lead : List RawText) :
    KeepsManifests fun names => keep (lead ++ names) := by
  intro names name hname
  have hkept := h (lead ++ names) name hname
  rwa [List.append_assoc] at hkept

theorem ne_nil_of_mem_files {enter : RawText → Bool} {tree : FileTree} (hdirectory : tree.isDirectory = true)
    {names : List RawText} {bytes : ByteArray} (h : (names, bytes) ∈ tree.files enter) : names ≠ [] := by
  cases tree with
  | file bytes => simp [FileTree.isDirectory] at hdirectory
  | directory entries =>
    rw [FileTree.files] at h
    obtain ⟨_, _, _, _, _, rfl, _⟩ := FileTree.mem_entryFiles.mp h
    exact List.cons_ne_nil _ _

section Pruned

variable {keep : List RawText → Bool} (hkeep : KeepsManifests keep) {tree : FileTree}
  (hdirectory : tree.isDirectory = true)

include hkeep hdirectory

theorem holdsManifest_prune (root : Path) :
    holdsManifest root (tree.prune keep) = holdsManifest root tree := by
  unfold holdsManifest
  rw [FileTree.files_prune _ keep tree hdirectory, List.any_filter, Bool.eq_iff_iff, List.any_eq_true,
    List.any_eq_true]
  refine exists_congr fun e => and_congr_right fun he => ?_
  obtain ⟨names, bytes⟩ := e
  obtain ⟨before, name, rfl⟩ := List.eq_nil_or_concat' names |>.resolve_left
    (ne_nil_of_mem_files hdirectory he)
  have hname : entryName root (before ++ [name]) = name := by simp [entryName]
  simp only [hname, Bool.and_eq_true, and_iff_right_iff_imp]
  exact hkeep before name

/-- Taking away files that are no manifests leaves the projects as they are. -/
theorem projects_prune : projects (tree.prune keep) = projects tree := by
  unfold projects
  rw [FileTree.files_prune _ keep tree hdirectory, List.filterMap_filter]
  refine congrArg List.reverse (List.filterMap_congr ?_)
  rintro ⟨names, bytes⟩ -
  change (if keep names = true then project? names else none) = project? names
  rcases List.eq_nil_or_concat' names with rfl | ⟨before, name, rfl⟩
  · simp [project?]
  · have hkept := hkeep before name
    by_cases hcsproj : hasExtension "csproj" name = true
    · rw [if_pos (hkept (by simp [isManifest, hcsproj]))]
    · simp [project?, hcsproj]

end Pruned

private theorem directories_prune (root : Path) (keep : List RawText → Bool) {tree : FileTree} :
    directories root (tree.prune keep) =
      (directories root tree).map fun e => (e.1, e.2.prune fun names => keep (e.1 :: names)) := by
  cases tree with
  | file bytes => simp [directories, sortBy, FileTree.prune, FileTree.entries]
  | directory entries =>
    have hentries : ((FileTree.pruneEntries keep entries).filter fun e => e.2.isDirectory && !isForeign e.1) =
        (entries.filter fun e => e.2.isDirectory && !isForeign e.1).map fun e =>
          (e.1, e.2.prune fun names => keep (e.1 :: names)) := by
      rw [FileTree.pruneEntries_eq_map, List.filter_map, List.filter_filter]
      congr 1
      apply List.filter_congr
      rintro ⟨name, below⟩ -
      cases below <;> simp [FileTree.isDirectory, FileTree.prune]
    unfold directories
    rw [FileTree.prune, FileTree.entries, hentries]
    exact sortBy_map _ _ _

/-- Taking away files that are no manifests leaves the repositories as they are. -/
theorem leads_prune (root : Path) {keep : List RawText → Bool} (hkeep : KeepsManifests keep) {tree : FileTree}
    (hdirectory : tree.isDirectory = true) : leads root (tree.prune keep) = leads root tree := by
  have hentries : repositoryEntries root (tree.prune keep) = (repositoryEntries root tree).map fun e =>
      (e.1, e.2.prune fun names => keep (e.1 :: names)) := by
    unfold repositoryEntries
    rw [directories_prune, List.filter_map]
    congr 1
    apply List.filter_congr
    intro e he
    exact holdsManifest_prune (hkeep.below [e.1]) (mem_directories he).2 _
  unfold leads
  rw [hentries, holdsManifest_prune hkeep hdirectory, List.isEmpty_map, List.map_map]
  rfl

end Discovery

end EventAtlas
