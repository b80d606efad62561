import EventAtlas.Proofs.Analysis.Discovery
import Mathlib.Data.List.Sort

namespace EventAtlas

open Std
open RawText (dot)
open EventAtlas.Path (IsEntryName)

/-- A name that ends in an extension: it has a start, and behind its last dot comes the extension, in any
case of its letters. -/
def EndsIn (extension : String) (name : RawText) : Prop :=
  ∃ (before : RawText) (found : String), before ≠ "" ∧ '.' ∉ found.toList ∧ name = before ++ "." ++ found ∧
    Text.sameAscii found.toList extension.toList = true

theorem hasExtension_iff {extension : String} {name : RawText} (hextension : extension ≠ "") :
    hasExtension extension name = true ↔ EndsIn extension name := by
  have hne {found : String} (h : Text.sameAscii found.toList extension.toList = true) :
      RawText.ofString found ≠ "" := by
    intro heq
    apply hextension
    simpa [Text.sameAscii, RawText.ofString_injective heq] using h
  unfold hasExtension EndsIn
  constructor
  · intro h
    cases hsplit : splitExtension? name with
    | none => simp [hsplit] at h
    | some cut =>
      obtain ⟨before, last⟩ := cut
      rw [hsplit] at h
      obtain ⟨found, hfound, hsame⟩ := (Option.any_eq_true _ _).mp h
      obtain rfl := RawText.string?_eq_some_iff.mp hfound
      obtain ⟨hbefore, hdot, hname⟩ := (splitExtension?_eq_some_iff (hne hsame)).mp hsplit
      exact ⟨before, found, hbefore, mt RawText.dot_mem_ofString_iff.mpr hdot, hname, hsame⟩
  · intro h
    obtain ⟨before, found, hbefore, hdot, hname, hsame⟩ := h
    rw [(splitExtension?_eq_some_iff (hne hsame)).mpr
      ⟨hbefore, mt RawText.dot_mem_ofString_iff.mp hdot, hname⟩]
    exact (Option.any_eq_true _ _).mpr ⟨found, RawText.string?_eq_some_iff.mpr rfl, hsame⟩

namespace Discovery

/-- Lists with the same items are equal if in both the paths of the items rise. -/
theorem eq_of_paths_rise {α : Type} (path : α → Path) {items others : List α}
    (h : items.Pairwise fun a b => compare (path a) (path b) = .lt)
    (h' : others.Pairwise fun a b => compare (path a) (path b) = .lt) (hmem : ∀ a, a ∈ items ↔ a ∈ others) :
    items = others := by
  have : Std.Irrefl fun a b : α => compare (path a) (path b) = .lt := ⟨fun a ha => by simp at ha⟩
  have : Std.Antisymm fun a b : α => compare (path a) (path b) = .lt := by
    refine ⟨fun a b hab hba => ?_⟩
    have hswap : compare (path a) (path b) = (compare (path b) (path a)).swap := OrientedCmp.eq_swap
    rw [hswap, hba] at hab
    exact absurd hab (by decide)
  exact h.eq_of_mem_iff h' hmem

/-- The name of a solution or project file. -/
def IsManifestName (name : RawText) : Prop := EndsIn "sln" name ∨ EndsIn "csproj" name

theorem isManifest_iff {name : RawText} : isManifest name = true ↔ IsManifestName name := by
  rw [isManifest, Bool.or_eq_true, hasExtension_iff (by decide), hasExtension_iff (by decide)]
  exact Iff.rfl

/-- A directory that is passed in the search for a manifest. -/
def IsPassed (name : RawText) : Prop :=
  name.bytes.head? ≠ some dot ∧ name ∉ (["bin", "obj", "node_modules"] : List RawText)

theorem head?_shown_eq_dot_iff {name : RawText} :
    name.shown.toList.head? = some '.' ↔ name.bytes.head? = some dot := by
  rw [RawText.head?_shown_iff (by decide), List.head?_eq_some_iff]
  exact Iff.rfl

theorem isForeign_eq_false_iff {name : RawText} :
    isForeign name = false ↔ name.bytes.head? ≠ some dot ∧ name ≠ "node_modules" := by
  rw [isForeign, Bool.or_eq_false_iff, beq_eq_false_iff_ne, beq_eq_false_iff_ne, Ne, Ne,
    head?_shown_eq_dot_iff, RawText.shown_eq_iff (by decide)]

theorem isSourceless_eq_false_iff {name : RawText} : isSourceless name = false ↔ IsPassed name := by
  have hbin : name.shown = "bin" ↔ name = "bin" := RawText.shown_eq_iff (by decide)
  have hobj : name.shown = "obj" ↔ name = "obj" := RawText.shown_eq_iff (by decide)
  rw [isSourceless, Bool.or_eq_false_iff, Bool.or_eq_false_iff, isForeign_eq_false_iff, beq_eq_false_iff_ne,
    beq_eq_false_iff_ne]
  simp only [IsPassed, ne_eq, hbin, hobj, List.mem_cons, List.not_mem_nil, or_false, not_or]
  tauto

/-- Directories that are passed lead to a manifest. -/
def LeadsToManifest (tree : FileTree) : Prop :=
  ∃ passed name bytes, (∀ directory ∈ passed, IsPassed directory) ∧ IsManifestName name ∧
    tree.find? (passed ++ [name]) = some (.file bytes)

theorem holdsManifest_iff {root : Path} {tree : FileTree} (htree : tree.WellFormed)
    (hdirectory : tree.isDirectory = true) : holdsManifest root tree = true ↔ LeadsToManifest tree := by
  rw [holdsManifest, List.any_eq_true]
  constructor
  · intro h
    obtain ⟨⟨names, bytes⟩, hmem, hmanifest⟩ := h
    obtain ⟨passed, name, rfl⟩ := (List.eq_nil_or_concat' names).resolve_left
      (ne_nil_of_mem_files hdirectory hmem)
    obtain ⟨hfind, henter⟩ := (FileTree.mem_files_iff htree).mp hmem
    rw [List.dropLast_concat] at henter
    change isManifest (entryName root (passed ++ [name])) = true at hmanifest
    rw [entryName_concat, isManifest_iff] at hmanifest
    refine ⟨passed, name, bytes, ?_, hmanifest, hfind⟩
    intro directory hmem
    exact isSourceless_eq_false_iff.mp (by simpa using henter directory hmem)
  · intro h
    obtain ⟨passed, name, bytes, hpassed, hmanifest, hfind⟩ := h
    refine ⟨(passed ++ [name], bytes), (FileTree.mem_files_iff htree).mpr ⟨hfind, ?_⟩, ?_⟩
    · rw [List.dropLast_concat]
      intro directory hmem
      simpa using isSourceless_eq_false_iff.mpr (hpassed directory hmem)
    · change isManifest (entryName root (passed ++ [name])) = true
      rw [entryName_concat, isManifest_iff]
      exact hmanifest

/-- A manifest lies directly in a directory. -/
def HasManifest (entries : List (RawText × FileTree)) : Prop :=
  ∃ name bytes, (name, .file bytes) ∈ entries ∧ IsManifestName name

/-- A subdirectory that is a repository: a manifest lies in it or somewhere below it. -/
def IsRepositoryIn (entries : List (RawText × FileTree)) (name : RawText) : Prop :=
  name.bytes.head? ≠ some dot ∧ name ≠ "node_modules" ∧
    ∃ inner, (name, .directory inner) ∈ entries ∧ LeadsToManifest (.directory inner)

/-- A manifest in a tree lies at its top or below a directory that is passed. The latter is a repository. -/
theorem LeadsToManifest.cases {entries : List (RawText × FileTree)} (h : LeadsToManifest (.directory entries)) :
    HasManifest entries ∨ ∃ name, IsRepositoryIn entries name := by
  obtain ⟨passed, name, bytes, hpassed, hmanifest, hfind⟩ := h
  cases passed with
  | nil =>
    rw [List.nil_append, FileTree.find?_cons] at hfind
    obtain ⟨tree, hlookup, htree⟩ := Option.bind_eq_some_iff.mp hfind
    obtain rfl : tree = .file bytes := Option.some.inj htree
    exact .inl ⟨name, bytes, mem_of_lookup hlookup, hmanifest⟩
  | cons first passed =>
    obtain ⟨hfirst, hrest⟩ := List.forall_mem_cons.mp hpassed
    rw [List.cons_append, FileTree.find?_cons] at hfind
    obtain ⟨tree, hlookup, htree⟩ := Option.bind_eq_some_iff.mp hfind
    cases tree with
    | file content => cases passed <;> simp [FileTree.find?, FileTree.entries] at htree
    | directory inner =>
      have hpackages : first ≠ "node_modules" := by
        intro heq
        apply hfirst.2
        simp [heq]
      exact .inr ⟨first, hfirst.1, hpackages, inner, mem_of_lookup hlookup, passed, name, bytes, hrest,
        hmanifest, htree⟩

theorem HasManifest.leadsToManifest {entries : List (RawText × FileTree)}
    (hnodup : (entries.map Prod.fst).Nodup) (h : HasManifest entries) :
    LeadsToManifest (.directory entries) := by
  obtain ⟨name, bytes, hmem, hmanifest⟩ := h
  refine ⟨[], name, bytes, by simp, hmanifest, ?_⟩
  rw [List.nil_append, FileTree.find?_cons, lookup_of_mem hnodup hmem]
  rfl

section InDirectory

variable (root : Path) {entries : List (RawText × FileTree)} (h : (FileTree.directory entries).WellFormed)

include h

theorem exists_mem_repositoryEntries_iff {name : RawText} :
    (∃ below, (name, below) ∈ repositoryEntries root (.directory entries)) ↔ IsRepositoryIn entries name := by
  have hmem {below : FileTree} : (name, below) ∈ repositoryEntries root (.directory entries) ↔
      ((name, below) ∈ entries ∧ below.isDirectory = true ∧ isForeign name = false) ∧
        holdsManifest (root.join name) below = true := by
    simp [repositoryEntries, directories, FileTree.entries, List.mem_filter]
  unfold IsRepositoryIn
  constructor
  · intro hexists
    obtain ⟨below, hentry⟩ := hexists
    obtain ⟨⟨hentry, hdirectory, hforeign⟩, hmanifest⟩ := hmem.mp hentry
    obtain ⟨hhidden, hpackages⟩ := isForeign_eq_false_iff.mp hforeign
    cases below with
    | file bytes => cases hdirectory
    | directory inner =>
      exact ⟨hhidden, hpackages, inner, hentry, (holdsManifest_iff (h.of_mem hentry).2 rfl).mp hmanifest⟩
  · intro hrepository
    obtain ⟨hhidden, hpackages, inner, hentry, hmanifest⟩ := hrepository
    exact ⟨.directory inner, hmem.mpr ⟨⟨hentry, rfl, isForeign_eq_false_iff.mpr ⟨hhidden, hpackages⟩⟩,
      (holdsManifest_iff (h.of_mem hentry).2 rfl).mpr hmanifest⟩⟩

/-- The paths of the subdirectories that are repositories rise. -/
theorem repositoryEntries_rise : (repositoryEntries root (.directory entries)).Pairwise
    fun a b => compare (root.join a.1) (root.join b.1) = .lt := by
  have hproper {e : RawText × FileTree} (he : e ∈ repositoryEntries root (.directory entries)) :
      IsEntryName e.1 :=
    (h.of_mem (mem_directories (List.mem_of_mem_filter he)).1).1
  have hsorted : (repositoryEntries root (.directory entries)).Pairwise
      fun a b => (compare (root.join a.1) (root.join b.1)).isLE = true := by
    have hpaths : TransCmp fun a b : RawText × FileTree => compare (root.join a.1) (root.join b.1) :=
      inferInstanceAs (TransCmp (compareOn fun e : RawText × FileTree => root.join e.1))
    exact (sortBy_sorted _ _).filter _
  have hnames := List.pairwise_map.mp (repositoryEntries_nodup root h)
  refine List.Pairwise.imp_of_mem ?_ (hsorted.and hnames)
  intro a b ha hb hab
  obtain ⟨hle, hne⟩ := hab
  cases hcompare : compare (root.join a.1) (root.join b.1) with
  | lt => rfl
  | gt => simp [hcompare] at hle
  | eq =>
    have hcomponents := Path.compare_eq_iff.mp hcompare
    rw [root.components_join (hproper ha), root.components_join (hproper hb)] at hcomponents
    have hlast := List.append_cancel_left hcomponents
    exact absurd (Path.Component.name.inj (List.cons.inj hlast).1) hne

private theorem ofRoot_join {name : RawText} {below : FileTree} (hentry : (name, below) ∈ entries) :
    Repository.ofRoot (root.join name) = ⟨name.shown, root.join name⟩ := by
  have hcomponents := root.components_join (h.of_mem hentry).1
  simp [Repository.ofRoot, Path.fileName?, hcomponents]

/-- Where there is a subdirectory with a manifest, these are the repositories. -/
theorem repositoriesIn_of_exists (hsome : ∃ name, IsRepositoryIn entries name) :
    repositoriesIn root (.directory entries) =
      (repositoryEntries root (.directory entries)).map fun e => ⟨e.1.shown, root.join e.1⟩ := by
  obtain ⟨name, hname⟩ := hsome
  obtain ⟨below, hmem⟩ := (exists_mem_repositoryEntries_iff root h).mpr hname
  have hnonempty : (repositoryEntries root (.directory entries)).isEmpty = false :=
    List.isEmpty_eq_false_iff.mpr (List.ne_nil_of_mem hmem)
  rw [repositoriesIn_eq_map, leads, hnonempty, Bool.false_and, if_neg Bool.false_ne_true, List.map_map]
  apply List.map_congr_left
  intro e he
  exact ofRoot_join root h (mem_directories (List.mem_of_mem_filter he)).1

/-- Where there is none, a manifest that the search from the root can find lies at its top. -/
theorem repositoriesIn_of_none (hnone : ∀ name, ¬IsRepositoryIn entries name) :
    (HasManifest entries → repositoriesIn root (.directory entries) = [Repository.ofRoot root]) ∧
      (¬HasManifest entries → repositoriesIn root (.directory entries) = []) := by
  have hempty : repositoryEntries root (.directory entries) = [] := by
    rw [List.eq_nil_iff_forall_not_mem]
    intro e he
    exact hnone e.1 ((exists_mem_repositoryEntries_iff root h).mp ⟨e.2, he⟩)
  have hholds : holdsManifest root (.directory entries) = true ↔ HasManifest entries := by
    rw [holdsManifest_iff h rfl]
    constructor
    · intro hleads
      rcases hleads.cases with htop | ⟨name, hname⟩
      · exact htop
      · exact absurd hname (hnone name)
    · exact HasManifest.leadsToManifest h.nodup
  rw [repositoriesIn_eq_map, leads, hempty]
  constructor
  · intro htop
    simp [hholds.mpr htop, entryPath]
  · intro htop
    have hnot : holdsManifest root (.directory entries) = false := by
      rw [← Bool.not_eq_true, hholds]
      exact htop
    simp [hnot]

end InDirectory

theorem wellFormed_of_find? {fs : FileSystem} (hfs : fs.root.WellFormed) {p : Path} {tree : FileTree}
    (h : fs.find? p = some tree) : tree.WellFormed := by
  unfold FileSystem.find? at h
  cases hlocate : fs.locate p with
  | error fault => simp [hlocate] at h
  | ok found =>
    obtain ⟨names, other⟩ := found
    simp only [hlocate] at h
    obtain rfl := Option.some.inj h
    exact (hfs.find? (FileSystem.locate_eq_ok_iff.mp hlocate).2.2.1).1

/-- The repositories below a directory, in the order of their paths and none twice, are the subdirectories that
are neither hidden nor of foreign packages and from which directories that are passed lead to a manifest. If there
is no such subdirectory, the directory itself is the one repository if a manifest lies directly in it, and else
there is none. -/
theorem repositories?_exactly {fs : FileSystem} (hfs : fs.root.WellFormed) {root : Path}
    {entries : List (RawText × FileTree)} (hroot : fs.find? root = some (.directory entries)) :
    ∃ found, repositories? fs root = some found ∧
      (found.Pairwise fun a b => compare a.root b.root = .lt) ∧
      ((∃ name, IsRepositoryIn entries name) →
        ∀ r, r ∈ found ↔ ∃ name, IsRepositoryIn entries name ∧ r = ⟨name.shown, root.join name⟩) ∧
      ((∀ name, ¬IsRepositoryIn entries name) →
        (HasManifest entries → found = [Repository.ofRoot root]) ∧ (¬HasManifest entries → found = [])) := by
  have hentries := wellFormed_of_find? hfs hroot
  refine ⟨repositoriesIn root (.directory entries), by rw [repositories?, hroot], ?_, ?_,
    repositoriesIn_of_none root hentries⟩
  · by_cases hsome : ∃ name, IsRepositoryIn entries name
    · rw [repositoriesIn_of_exists root hentries hsome, List.pairwise_map]
      exact repositoryEntries_rise root hentries
    · obtain ⟨htop, hnothing⟩ := repositoriesIn_of_none root hentries (not_exists.mp hsome)
      by_cases hmanifest : HasManifest entries
      · rw [htop hmanifest]
        exact List.pairwise_singleton _ _
      · rw [hnothing hmanifest]
        exact List.Pairwise.nil
  · intro hsome r
    rw [repositoriesIn_of_exists root hentries hsome, List.mem_map]
    constructor
    · intro hr
      obtain ⟨e, he, rfl⟩ := hr
      exact ⟨e.1, (exists_mem_repositoryEntries_iff root hentries).mp ⟨e.2, he⟩, rfl⟩
    · intro hr
      obtain ⟨name, hname, rfl⟩ := hr
      obtain ⟨below, hmem⟩ := (exists_mem_repositoryEntries_iff root hentries).mpr hname
      exact ⟨(name, below), hmem, rfl⟩

/-- The directory of a shop: with a project below a subdirectory and one among build results at the top, and
with manifests that do not count. -/
def mixedEntries : List (RawText × FileTree) :=
  let manifest : FileTree := .file "".toUTF8
  [("zeta", .directory [("src", .directory [("Zeta.CsProj", manifest)])]), ("All.sln", manifest),
    ("bin", .directory [("Old.sln", manifest)]), (".git", .directory [("Hook.sln", manifest)]),
    ("docs", .directory [("obj", .directory [("Docs.csproj", manifest)])])]

def mixedShop : FileSystem where
  root := .directory [("shop", .directory mixedEntries)]

theorem mixedShop_repositories :
    mixedShop.root.WellFormed ∧ mixedShop.find? ⟨"shop"⟩ = some (.directory mixedEntries) ∧
      ∃ found, repositories? mixedShop ⟨"shop"⟩ = some found ∧
        (found.Pairwise fun a b => compare a.root b.root = .lt) ∧ ⟨"bin", ⟨"shop/bin"⟩⟩ ∈ found ∧
        ⟨"zeta", ⟨"shop/zeta"⟩⟩ ∈ found ∧ ⟨".git", ⟨"shop/.git"⟩⟩ ∉ found := by
  have hfs : mixedShop.root.WellFormed := by decide
  have hroot : mixedShop.find? ⟨"shop"⟩ = some (.directory mixedEntries) := rfl
  have hbin : IsRepositoryIn mixedEntries "bin" := by
    refine ⟨by decide, by decide, [("Old.sln", .file "".toUTF8)], by simp [mixedEntries], [], "Old.sln", _, by simp,
      .inl ⟨"Old", "sln", ?_⟩, rfl⟩
    decide
  have hzeta : IsRepositoryIn mixedEntries "zeta" := by
    refine ⟨by decide, by decide, [("src", .directory [("Zeta.CsProj", .file "".toUTF8)])], by simp [mixedEntries],
      ["src"], "Zeta.CsProj", _, ?_, .inr ⟨"Zeta", "CsProj", ?_⟩, rfl⟩
    · intro directory hmem
      obtain rfl := List.mem_singleton.mp hmem
      unfold IsPassed
      decide
    · decide
  obtain ⟨found, hfound, hrise, hmem, -⟩ := repositories?_exactly hfs hroot
  have hmem := hmem ⟨"bin", hbin⟩
  refine ⟨hfs, hroot, found, hfound, hrise, (hmem _).mpr ⟨"bin", hbin, rfl⟩, (hmem _).mpr ⟨"zeta", hzeta, rfl⟩, ?_⟩
  intro hgit
  obtain ⟨name, hname, heq⟩ := (hmem _).mp hgit
  obtain rfl : name = ".git" := (RawText.shown_eq_iff (by decide)).mp (congrArg Repository.name heq).symm
  exact hname.1 rfl

end Discovery

end EventAtlas
