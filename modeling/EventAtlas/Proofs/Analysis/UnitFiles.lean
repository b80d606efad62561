import EventAtlas.Proofs.Analysis.Repositories
import EventAtlas.Proofs.Analysis.Units

namespace EventAtlas

open Std
open RawText (dot)
open EventAtlas.Path (IsEntryName)

namespace Indicators

/-- A name of tests: in lower case it is a marker of tests, or ends in one behind a dot, a dash or an underscore. -/
def IsTestName (s : Indicators) (name : String) : Prop :=
  ∃ marker ∈ s.testProjectMarkers, marker ≠ "" ∧
    (Text.lower name.toList = Text.lower marker.toList ∨ ∃ before, ∃ separator ∈ ['.', '-', '_'],
      Text.lower name.toList = before ++ separator :: Text.lower marker.toList)

theorem isTestName_iff {s : Indicators} {name : String} : s.isTestName name = true ↔ s.IsTestName name := by
  simp only [isTestName, IsTestName, List.any_eq_true, Bool.and_eq_true, Bool.or_eq_true, decide_eq_true_eq,
    beq_iff_eq, List.isSuffixOf_iff_suffix, List.IsSuffix, eq_comm (a := Text.lower name.toList)]
  refine exists_congr fun marker => and_congr_right fun _ => and_congr_right fun _ => or_congr_right ?_
  rw [exists_comm]
  simp only [exists_and_left]

instance (s : Indicators) (name : String) : Decidable (s.IsTestName name) := decidable_of_iff _ isTestName_iff

end Indicators

namespace Module

theorem nameOfFile_append (name : String) : nameOfFile (name ++ dumpEnding) = name := by
  have hending : dumpEnding.toList.isSuffixOf (name.toList ++ dumpEnding.toList) = true :=
    List.isSuffixOf_iff_suffix.mpr (List.suffix_append _ _)
  simp [nameOfFile, Text.dropEnding?, hending]

theorem isSuffixOf_dumpEnding_iff {fileName : String} :
    dumpEnding.toList.isSuffixOf fileName.toList = true ↔ ∃ name, fileName = name ++ dumpEnding := by
  rw [List.isSuffixOf_iff_suffix]
  constructor
  · intro h
    obtain ⟨before, hbefore⟩ := h
    refine ⟨String.ofList before, String.toList_inj.mp ?_⟩
    rw [String.toList_append, String.toList_ofList, hbefore]
  · intro h
    obtain ⟨name, rfl⟩ := h
    rw [String.toList_append]
    exact List.suffix_append _ _

end Module

namespace Discovery

/-- A file describes a project: it has the project's name, and behind a dot the extension, in any case of its
letters. -/
def Describes (fileName : RawText) (project : String) : Prop :=
  ∃ (name : RawText) (extension : String), name ≠ "" ∧ fileName = name ++ "." ++ extension ∧
    Text.sameAscii extension.toList "csproj".toList = true ∧ project = name.shown

/-- A file describes a project if it has the extension of one, and the project is called as the file is without it. -/
theorem describes_iff {fileName : RawText} {project : String} :
    Describes fileName project ↔ hasExtension "csproj" fileName = true ∧ stem fileName = project := by
  have hsplit {name : RawText} {extension : String} (hname : name ≠ "") (hdot : '.' ∉ extension.toList)
      (hsame : Text.sameAscii extension.toList "csproj".toList = true)
      (hfile : fileName = name ++ "." ++ extension) : stem fileName = name.shown := by
    have hne : RawText.ofString extension ≠ "" := by
      intro h
      rw [RawText.ofString_injective h] at hsame
      exact absurd hsame (by decide)
    rw [stem, (splitExtension?_eq_some_iff hne).mpr ⟨hname, mt RawText.dot_mem_ofString_iff.mp hdot, hfile⟩]
  constructor
  · intro h
    obtain ⟨name, extension, hname, hfile, hsame, rfl⟩ := h
    have hdot : '.' ∉ extension.toList := by
      intro hmem
      have hlower : '.' ∈ extension.toList.map Char.toLower := List.mem_map.mpr ⟨'.', hmem, rfl⟩
      rw [Text.sameAscii, beq_iff_eq] at hsame
      rw [hsame] at hlower
      exact absurd hlower (by decide)
    exact ⟨(hasExtension_iff (by decide)).mpr ⟨name, extension, hname, hdot, hfile, hsame⟩,
      hsplit hname hdot hsame hfile⟩
  · intro h
    obtain ⟨hextension, rfl⟩ := h
    obtain ⟨name, extension, hname, hdot, hfile, hsame⟩ := (hasExtension_iff (by decide)).mp hextension
    exact ⟨name, extension, hname, hfile, hsame, hsplit hname hdot hsame hfile⟩

/-- A project is described in a directory outside those without sources. -/
def HoldsProject (tree : FileTree) (directory : List RawText) (project : String) : Prop :=
  (∀ name ∈ directory, IsPassed name) ∧
    ∃ fileName bytes, tree.find? (directory ++ [fileName]) = some (.file bytes) ∧ Describes fileName project

/-- No directory holds two files that describe projects. -/
def OneProjectEach (tree : FileTree) : Prop :=
  ∀ directory name other bytes bytes', tree.find? (directory ++ [name]) = some (.file bytes) →
    tree.find? (directory ++ [other]) = some (.file bytes') → EndsIn "csproj" name → EndsIn "csproj" other →
      name = other

theorem enter_iff_isPassed {names : List RawText} :
    (∀ name ∈ names, (!isSourceless name) = true) ↔ ∀ name ∈ names, IsPassed name := by
  simp only [Bool.not_eq_true', isSourceless_eq_false_iff]

/-- A file tells a project exactly if it describes one, which lies in the directory of the file. -/
theorem project?_eq_some_iff {names directory : List RawText} {project : String} :
    project? names = some (directory, project) ↔
      ∃ fileName, names = directory ++ [fileName] ∧ Describes fileName project := by
  simp only [describes_iff]
  rcases List.eq_nil_or_concat' names with rfl | ⟨before, name, rfl⟩
  · simp [project?]
  · simp only [project?, List.getLast?_concat, List.dropLast_concat]
    constructor
    · intro h
      split_ifs at h with hextension
      obtain ⟨rfl, rfl⟩ := Prod.mk.inj (Option.some.inj h)
      exact ⟨name, rfl, hextension, rfl⟩
    · rintro ⟨fileName, hnames, hextension, rfl⟩
      obtain ⟨rfl, hlast⟩ := List.append_inj' hnames rfl
      obtain rfl := (List.cons.inj hlast).1
      rw [if_pos hextension]

/-- The projects that are listed are those that directories hold, apart from the ones not looked into. -/
theorem mem_projects_iff {tree : FileTree} (htree : tree.WellFormed) {directory : List RawText} {project : String} :
    (directory, project) ∈ projects tree ↔ HoldsProject tree directory project := by
  unfold projects HoldsProject
  rw [List.mem_reverse, List.mem_filterMap]
  constructor
  · intro h
    obtain ⟨⟨names, bytes⟩, hmem, hproject⟩ := h
    obtain ⟨name, rfl, hdescribes⟩ := project?_eq_some_iff.mp hproject
    obtain ⟨hfind, henter⟩ := (FileTree.mem_files_iff htree).mp hmem
    rw [List.dropLast_concat] at henter
    exact ⟨enter_iff_isPassed.mp henter, name, bytes, hfind, hdescribes⟩
  · intro h
    obtain ⟨hpassed, name, bytes, hfind, hdescribes⟩ := h
    refine ⟨(directory ++ [name], bytes), (FileTree.mem_files_iff htree).mpr ⟨hfind, ?_⟩,
      project?_eq_some_iff.mpr ⟨name, rfl, hdescribes⟩⟩
    rw [List.dropLast_concat]
    exact enter_iff_isPassed.mpr hpassed

theorem HoldsProject.unique {tree : FileTree} (hone : OneProjectEach tree) {directory : List RawText}
    {project other : String} (h : HoldsProject tree directory project) (h' : HoldsProject tree directory other) :
    project = other := by
  obtain ⟨-, name, bytes, hfind, hdescribes⟩ := h
  obtain ⟨-, name', bytes', hfind', hdescribes'⟩ := h'
  obtain ⟨hextension, rfl⟩ := describes_iff.mp hdescribes
  obtain ⟨hextension', rfl⟩ := describes_iff.mp hdescribes'
  have hname := hone directory name name' bytes bytes' hfind hfind'
    ((hasExtension_iff (by decide)).mp hextension) ((hasExtension_iff (by decide)).mp hextension')
  rw [hname]

/-- Where no directory holds two projects, the one that is looked up is the one it holds. -/
theorem lookup_projects_eq_some_iff {tree : FileTree} (htree : tree.WellFormed) (hone : OneProjectEach tree)
    {directory : List RawText} {project : String} :
    (projects tree).lookup directory = some project ↔ HoldsProject tree directory project := by
  have hfound {found : String} (h : (projects tree).lookup directory = some found) :
      HoldsProject tree directory found := by
    obtain ⟨before, after, heq, -⟩ := List.lookup_eq_some_iff.mp h
    rw [← mem_projects_iff htree, heq]
    simp
  constructor
  · exact hfound
  · intro h
    have hsome : ((projects tree).lookup directory).isSome = true :=
      List.lookup_isSome_iff.mpr ⟨_, (mem_projects_iff htree).mpr h, beq_self_eq_true _⟩
    obtain ⟨found, hlookup⟩ := Option.isSome_iff_exists.mp hsome
    rw [hlookup, (hfound hlookup).unique hone h]

/-- Of the directories that lead to a place, the last one with a property. -/
structure IsDeepest (holds : List RawText → Prop) (place directory : List RawText) : Prop where
  above : directory <+: place
  found : holds directory
  deepest : ∀ other, other <+: place → holds other → other <+: directory

theorem prefix_take_succ_iff {names directory : List RawText} {depth : Nat} :
    directory <+: names.take (depth + 1) ↔
      directory = names.take (depth + 1) ∨ directory <+: names.take depth := by
  rw [List.prefix_take_iff, List.prefix_take_iff]
  constructor
  · intro h
    obtain ⟨hlead, hlength⟩ := h
    rcases Nat.lt_or_ge depth directory.length with hlt | hge
    · left
      have hexact : directory.length = depth + 1 := by omega
      rw [← hexact]
      exact List.prefix_iff_eq_take.mp hlead
    · exact .inr ⟨hlead, hge⟩
  · intro h
    rcases h with rfl | ⟨hlead, hlength⟩
    · exact ⟨List.take_prefix _ _, List.length_take_le _ _⟩
    · exact ⟨hlead, by omega⟩

theorem isDeepest_succ_iff {holds : List RawText → Prop} {names directory : List RawText} {depth : Nat}
    (hnot : ¬holds (names.take (depth + 1))) :
    IsDeepest holds (names.take (depth + 1)) directory ↔ IsDeepest holds (names.take depth) directory := by
  have hlead {other : List RawText} (hother : holds other) :
      other <+: names.take (depth + 1) ↔ other <+: names.take depth := by
    rw [prefix_take_succ_iff]
    refine or_iff_right ?_
    rintro rfl
    exact hnot hother
  constructor
  · intro h
    exact ⟨(hlead h.found).mp h.above, h.found, fun other habove hother =>
      h.deepest other ((hlead hother).mpr habove) hother⟩
  · intro h
    exact ⟨(hlead h.found).mpr h.above, h.found, fun other habove hother =>
      h.deepest other ((hlead hother).mp habove) hother⟩

section Above

variable {listed : List (List RawText × String)} {names : List RawText} {depth : Nat}

/-- The project above a place is that of the deepest directory that holds one. -/
theorem projectAbove_eq_some_iff {project : String} :
    projectAbove listed names depth = some project ↔
      ∃ directory, IsDeepest (fun d => (listed.lookup d).isSome = true) (names.take depth) directory ∧
        listed.lookup directory = some project := by
  induction depth with
  | zero =>
    rw [projectAbove, List.take_zero]
    constructor
    · intro h
      exact ⟨[], ⟨List.prefix_rfl, by simp [h], fun other hother _ => hother⟩, h⟩
    · intro h
      obtain ⟨directory, hdeepest, hlookup⟩ := h
      rwa [List.prefix_nil.mp hdeepest.above] at hlookup
  | succ depth ih =>
    rw [projectAbove]
    cases hhere : listed.lookup (names.take (depth + 1)) with
    | some here =>
      constructor
      · intro h
        obtain rfl : here = project := Option.some.inj h
        exact ⟨_, ⟨List.prefix_rfl, by simp [hhere], fun other hother _ => hother⟩, hhere⟩
      · intro h
        obtain ⟨directory, hdeepest, hlookup⟩ := h
        have hbelow := hdeepest.deepest _ List.prefix_rfl (by simp [hhere])
        rw [← hbelow.eq_of_length_le hdeepest.above.length_le, hhere] at hlookup
        exact hlookup
    | none =>
      dsimp only
      rw [ih]
      refine exists_congr fun directory => and_congr_left fun _ => ?_
      exact (isDeepest_succ_iff (by simp [hhere])).symm

theorem projectAbove_eq_none_iff :
    projectAbove listed names depth = none ↔
      ∀ directory, directory <+: names.take depth → listed.lookup directory = none := by
  induction depth with
  | zero => simp [projectAbove, List.prefix_nil]
  | succ depth ih =>
    rw [projectAbove]
    constructor
    · intro h directory habove
      cases hhere : listed.lookup (names.take (depth + 1)) with
      | some here => simp [hhere] at h
      | none =>
        rw [hhere] at h
        rcases prefix_take_succ_iff.mp habove with rfl | habove
        · exact hhere
        · exact ih.mp h directory habove
    · intro h
      rw [h _ List.prefix_rfl]
      exact ih.mpr fun directory habove => h directory (prefix_take_succ_iff.mpr (.inr habove))

end Above

/-- The project that a file belongs to: that of the deepest directory above it that holds one, and without such a
directory the repository. -/
def BelongsTo (repository : Repository) (tree : FileTree) (names : List RawText) (project : String) : Prop :=
  (∃ directory, IsDeepest (fun d => ∃ found, HoldsProject tree d found) names.dropLast directory ∧
      HoldsProject tree directory project) ∨
    (∀ directory, directory <+: names.dropLast → ∀ found, ¬HoldsProject tree directory found) ∧
      project = repository.name

/-- A file belongs to the project of the nearest directory above it that holds one. -/
theorem projectOf_eq_iff {tree : FileTree} (htree : tree.WellFormed) (hone : OneProjectEach tree)
    {repository : Repository} {names : List RawText} {bytes : ByteArray} (hfile : tree.find? names = some (.file bytes))
    {project : String} :
    projectOf repository (projects tree) names = project ↔ BelongsTo repository tree names project := by
  have hsome (d : List RawText) : ((projects tree).lookup d).isSome = true ↔ ∃ found, HoldsProject tree d found := by
    simp only [Option.isSome_iff_exists, lookup_projects_eq_some_iff htree hone]
  have hnone (d : List RawText) : (projects tree).lookup d = none ↔ ∀ found, ¬HoldsProject tree d found := by
    rw [← not_exists, ← hsome, Option.not_isSome_iff_eq_none]
  cases names with
  | nil =>
    obtain rfl : tree = .file bytes := Option.some.inj hfile
    have hempty (d : List RawText) (hd : d <+: []) (found : String) : ¬HoldsProject (.file bytes) d found := by
      rintro ⟨-, name, content, hfind, -⟩
      rw [List.prefix_nil.mp hd] at hfind
      simp [FileTree.find?, FileTree.entries] at hfind
    constructor
    · intro h
      exact .inr ⟨hempty, h.symm⟩
    · intro h
      rcases h with ⟨d, hdeepest, hholds⟩ | ⟨-, h⟩
      · exact absurd hholds (hempty d hdeepest.above project)
      · exact h.symm
  | cons name rest =>
    have hbelongs : BelongsTo repository tree (name :: rest) project ↔
        projectAbove (projects tree) (name :: rest) ((name :: rest).length - 1) = some project ∨
          projectAbove (projects tree) (name :: rest) ((name :: rest).length - 1) = none ∧
            project = repository.name := by
      simp only [projectAbove_eq_some_iff, projectAbove_eq_none_iff, hsome, hnone,
        lookup_projects_eq_some_iff htree hone, ← List.dropLast_eq_take]
      exact Iff.rfl
    rw [hbelongs]
    change (projectAbove (projects tree) (name :: rest) ((name :: rest).length - 1)).getD repository.name = project ↔ _
    cases projectAbove (projects tree) (name :: rest) ((name :: rest).length - 1) with
    | some found => simp
    | none => simp [eq_comm]

/-- Where the unit at the end of a chain of names belongs and lies. -/
structure IsOriginOf (r : Repository) (tree : FileTree) (names : List RawText) (origin : Origin) : Prop where
  repository : origin.repository = r.name
  project : BelongsTo r tree names origin.project
  path : origin.path = entryPath r.root names

section Listed

variable {tree : FileTree} (htree : tree.WellFormed) {repository : Repository} (enter : RawText → Bool)
  (kind : List RawText → Bool)

include htree

/-- The units of a kind are the files of that kind outside of the directories not looked into. -/
theorem mem_origins_iff (hone : OneProjectEach tree) {origin : Origin} :
    origin ∈ origins repository tree ((tree.files enter).filter fun e => kind e.1) ↔
      ∃ names bytes, tree.find? names = some (.file bytes) ∧ (∀ name ∈ names.dropLast, enter name = true) ∧
        kind names = true ∧ IsOriginOf repository tree names origin := by
  unfold origins
  rw [List.mem_mergeSort, List.mem_map]
  constructor
  · intro h
    obtain ⟨⟨names, bytes⟩, hmem, rfl⟩ := h
    obtain ⟨hentry, hkind⟩ := List.mem_filter.mp hmem
    obtain ⟨hfile, henter⟩ := (FileTree.mem_files_iff htree).mp hentry
    exact ⟨names, bytes, hfile, henter, hkind, rfl, (projectOf_eq_iff htree hone hfile).mp rfl, rfl⟩
  · intro h
    obtain ⟨names, bytes, hfile, henter, hkind, horigin⟩ := h
    refine ⟨(names, bytes), List.mem_filter.mpr ⟨(FileTree.mem_files_iff htree).mpr ⟨hfile, henter⟩, hkind⟩, ?_⟩
    obtain ⟨name, project, path⟩ := origin
    obtain ⟨rfl, hproject, rfl⟩ := horigin
    dsimp only at hproject ⊢
    rw [(projectOf_eq_iff htree hone hfile).mpr hproject]

/-- The paths of units rise. -/
theorem origins_rise : (origins repository tree ((tree.files enter).filter fun e => kind e.1)).Pairwise
    fun a b => compare a.path b.path = .lt := by
  have hsorted : (origins repository tree ((tree.files enter).filter fun e => kind e.1)).Pairwise
      fun a b => (compare a.path b.path).isLE = true := by
    have : TransCmp (compareOn Origin.path) := inferInstance
    exact sortBy_sorted (compareOn Origin.path) _
  have hproper {e : Entry} (he : e ∈ tree.files enter) : ∀ name ∈ e.1, IsEntryName name :=
    (htree.find? (FileTree.find?_of_mem_files htree he)).2
  have hdiffer : Analysis.PathsDiffer
      ((origins repository tree ((tree.files enter).filter fun e => kind e.1)).map Origin.path) := by
    refine Analysis.PathsDiffer.perm ?_ (origins_paths_perm repository tree _).symm
    have hnames := (List.pairwise_map.mp (FileTree.files_nodup enter htree)).filter fun e => kind e.1
    refine List.pairwise_map.mpr (hnames.imp_of_mem ?_)
    intro a b ha hb hne heq
    exact hne (entryPath_components_inj _ (hproper (List.mem_of_mem_filter ha))
      (hproper (List.mem_of_mem_filter hb)) heq)
  refine (hsorted.and hdiffer.pairwise).imp ?_
  intro a b hab
  obtain ⟨hle, hne⟩ := hab
  cases hcompare : compare a.path b.path with
  | lt => rfl
  | eq => exact absurd (Path.compare_eq_iff.mp hcompare) hne
  | gt => simp [hcompare] at hle

end Listed

section Kinds

variable (s : Indicators) (excludeTests : Bool) (root : Path)

/-- No directory on the way is one of tests, if these are left out. -/
def OutsideTests (names : List RawText) : Prop :=
  excludeTests = true → ∀ directory ∈ names.dropLast, ¬s.IsTestName directory.shown

/-- A source file that a run reads. -/
structure IsSourceUnit (tree : FileTree) (names : List RawText) : Prop where
  file : ∃ bytes, tree.find? names = some (.file bytes)
  ending : EndsIn "cs" (entryName root names)
  passed : ∀ directory ∈ names.dropLast, IsPassed directory
  outsideTests : OutsideTests s excludeTests names

/-- A module dump that a run reads. -/
structure IsModuleUnit (tree : FileTree) (names : List RawText) : Prop where
  file : ∃ bytes, tree.find? names = some (.file bytes)
  ending : ∃ name, (entryName root names).shown = name ++ ".module.json" ∧
    (excludeTests = true → ¬s.IsTestName name)
  built : .ofString "bin" ∈ names.dropLast
  own : ∀ directory ∈ names.dropLast, directory.bytes.head? ≠ some dot ∧ directory ≠ "node_modules"
  outsideTests : OutsideTests s excludeTests names

variable {s excludeTests root} {names : List RawText}

theorem outsideTests_iff :
    OutsideTests s excludeTests names ↔ (excludeTests && inTestDirectory s names) = false := by
  unfold OutsideTests inTestDirectory
  cases excludeTests with
  | false => simp
  | true => simp [← Indicators.isTestName_iff]

theorem isSource_iff : isSource s excludeTests root names = true ↔
    EndsIn "cs" (entryName root names) ∧ OutsideTests s excludeTests names := by
  rw [isSource, Bool.and_eq_true, hasExtension_iff (by decide), Bool.not_eq_true', outsideTests_iff]

/-- The name of a dump's own file is no directory's. -/
theorem contains_bin_iff {name : String} (h : (entryName root names).shown = name ++ Module.dumpEnding) :
    names.contains "bin" = true ↔ .ofString "bin" ∈ names.dropLast := by
  rw [List.contains_iff_mem]
  rcases List.eq_nil_or_concat' names with rfl | ⟨before, last, rfl⟩
  · simp
  · rw [entryName_concat] at h
    have hlast : .ofString "bin" ≠ last := by
      rintro rfl
      rw [RawText.shown_ofString] at h
      have hlength := congrArg (fun text => text.toList.length) h
      rw [String.toList_append, List.length_append] at hlength
      have hending : Module.dumpEnding.toList.length = 12 := by decide
      have hbin : "bin".toList.length = 3 := by decide
      omega
    simp [hlast]

theorem isModuleDump_iff : isModuleDump s excludeTests root names = true ↔
    (∃ name, (entryName root names).shown = name ++ ".module.json" ∧ (excludeTests = true → ¬s.IsTestName name)) ∧
      .ofString "bin" ∈ names.dropLast ∧ OutsideTests s excludeTests names := by
  have htests (name : String) : (!(excludeTests && (s.isTestName name || inTestDirectory s names))) = true ↔
      (excludeTests = true → ¬s.IsTestName name) ∧ OutsideTests s excludeTests names := by
    rw [outsideTests_iff, ← Indicators.isTestName_iff]
    cases excludeTests with
    | false => simp
    | true => simp
  simp only [isModuleDump, Bool.and_eq_true, Module.isSuffixOf_dumpEnding_iff]
  constructor
  · intro h
    obtain ⟨⟨⟨name, hname⟩, hbin⟩, hkept⟩ := h
    rw [hname, Module.nameOfFile_append, htests] at hkept
    exact ⟨⟨name, hname, hkept.1⟩, (contains_bin_iff hname).mp hbin, hkept.2⟩
  · intro h
    obtain ⟨⟨name, hname, htest⟩, hbin, houtside⟩ := h
    change (entryName root names).shown = name ++ Module.dumpEnding at hname
    refine ⟨⟨⟨name, hname⟩, (contains_bin_iff hname).mpr hbin⟩, ?_⟩
    rw [hname, Module.nameOfFile_append, htests]
    exact ⟨htest, houtside⟩

/-- The source units of a repository, and where each is found. -/
theorem mem_sources_iff {tree : FileTree} (htree : tree.WellFormed) (hone : OneProjectEach tree)
    {repository : Repository} {origin : Origin} :
    origin ∈ sources s excludeTests repository tree ↔
      ∃ names, IsSourceUnit s excludeTests repository.root tree names ∧ IsOriginOf repository tree names origin := by
  refine (mem_origins_iff htree _ (isSource s excludeTests repository.root) hone).trans ?_
  simp only [isSource_iff, enter_iff_isPassed]
  constructor
  · intro h
    obtain ⟨names, bytes, hfile, hpassed, ⟨hending, htests⟩, horigin⟩ := h
    exact ⟨names, ⟨⟨bytes, hfile⟩, hending, hpassed, htests⟩, horigin⟩
  · intro h
    obtain ⟨names, ⟨⟨bytes, hfile⟩, hending, hpassed, htests⟩, horigin⟩ := h
    exact ⟨names, bytes, hfile, hpassed, ⟨hending, htests⟩, horigin⟩

/-- The module dumps of a repository, and where each is found. -/
theorem mem_modules_iff {tree : FileTree} (htree : tree.WellFormed) (hone : OneProjectEach tree)
    {repository : Repository} {origin : Origin} :
    origin ∈ modules s excludeTests repository tree ↔
      ∃ names, IsModuleUnit s excludeTests repository.root tree names ∧ IsOriginOf repository tree names origin := by
  refine (mem_origins_iff htree _ (isModuleDump s excludeTests repository.root) hone).trans ?_
  simp only [isModuleDump_iff, Bool.not_eq_true', isForeign_eq_false_iff]
  constructor
  · intro h
    obtain ⟨names, bytes, hfile, hown, ⟨hending, hbin, htests⟩, horigin⟩ := h
    exact ⟨names, ⟨⟨bytes, hfile⟩, hending, hbin, hown, htests⟩, horigin⟩
  · intro h
    obtain ⟨names, ⟨⟨bytes, hfile⟩, hending, hbin, hown, htests⟩, horigin⟩ := h
    exact ⟨names, bytes, hfile, hown, ⟨hending, hbin, htests⟩, horigin⟩

/-- A dump has another extension than a source file. -/
theorem IsSourceUnit.not_moduleUnit {tree : FileTree} (h : IsSourceUnit s excludeTests root tree names)
    (h' : IsModuleUnit s excludeTests root tree names) : False := by
  have hsource : isSource s excludeTests root names = true := isSource_iff.mpr ⟨h.ending, h.outsideTests⟩
  have hmodule : isModuleDump s excludeTests root names = true :=
    isModuleDump_iff.mpr ⟨h'.ending, h'.built, h'.outsideTests⟩
  rw [isModuleDump_not_source hmodule] at hsource
  exact Bool.noConfusion hsource

end Kinds

/-- The paths of sources rise, and so do those of module dumps. The sources are the files with their extension outside
directories without sources, the dumps are the files with their ending below a directory of build results and outside
hidden and foreign directories. Where tests are left out, neither lies in a directory of tests, and no dump is of a
module of tests. Each belongs to the project in the deepest directory above it that holds one, or else to the
repository. No path is in both lists. -/
theorem units_exactly {fs : FileSystem} (hfs : fs.root.WellFormed) {repository : Repository} {tree : FileTree}
    (hroot : fs.find? repository.root = some tree) (hone : OneProjectEach tree) (s : Indicators)
    (excludeTests : Bool) :
    ((sourcesOf fs s excludeTests repository).Pairwise fun a b => compare a.path b.path = .lt) ∧
      (∀ origin, origin ∈ sourcesOf fs s excludeTests repository ↔ ∃ names,
        IsSourceUnit s excludeTests repository.root tree names ∧ IsOriginOf repository tree names origin) ∧
      ((modulesOf fs s excludeTests repository).Pairwise fun a b => compare a.path b.path = .lt) ∧
      (∀ origin, origin ∈ modulesOf fs s excludeTests repository ↔ ∃ names,
        IsModuleUnit s excludeTests repository.root tree names ∧ IsOriginOf repository tree names origin) ∧
      ∀ a ∈ sourcesOf fs s excludeTests repository, ∀ b ∈ modulesOf fs s excludeTests repository,
        a.path.components ≠ b.path.components := by
  have htree := wellFormed_of_find? hfs hroot
  have hsources : sourcesOf fs s excludeTests repository = sources s excludeTests repository tree := by
    rw [sourcesOf, hroot]
  have hmodules : modulesOf fs s excludeTests repository = modules s excludeTests repository tree := by
    rw [modulesOf, hroot]
  rw [hsources, hmodules]
  refine ⟨origins_rise htree _ (isSource s excludeTests repository.root), fun _ => mem_sources_iff htree hone,
    origins_rise htree _ (isModuleDump s excludeTests repository.root), fun _ => mem_modules_iff htree hone, ?_⟩
  intro a ha b hb heq
  obtain ⟨names, hsource, horigin⟩ := (mem_sources_iff htree hone).mp ha
  obtain ⟨others, hmodule, horigin'⟩ := (mem_modules_iff htree hone).mp hb
  obtain ⟨bytes, hfile⟩ := hsource.file
  obtain ⟨bytes', hfile'⟩ := hmodule.file
  rw [horigin.path, horigin'.path] at heq
  obtain rfl := entryPath_components_inj repository.root (htree.find? hfile).2 (htree.find? hfile').2 heq
  exact hsource.not_moduleUnit hmodule

/-- The directories of files that describe projects, one for each file. -/
def projectDirectories (tree : FileTree) : List (List RawText) :=
  ((tree.files fun _ => true).filter fun e => e.1.getLast?.any (hasExtension "csproj")).map fun e => e.1.dropLast

/-- Whether directories hold one project each can be told from the list of their descriptions. -/
theorem oneProjectEach_of_nodup {tree : FileTree} (htree : tree.WellFormed)
    (hnodup : (projectDirectories tree).Nodup) : OneProjectEach tree := by
  have hmem {directory : List RawText} {name : RawText} {bytes : ByteArray}
      (hfile : tree.find? (directory ++ [name]) = some (.file bytes)) (hending : EndsIn "csproj" name) :
      (directory ++ [name], bytes) ∈
        (tree.files fun _ => true).filter fun e => e.1.getLast?.any (hasExtension "csproj") := by
    refine List.mem_filter.mpr ⟨(FileTree.mem_files_iff htree).mpr ⟨hfile, fun _ _ => rfl⟩, ?_⟩
    simp [(hasExtension_iff (by decide)).mpr hending]
  intro directory name other bytes bytes' hfile hfile' hending hending'
  have heq := List.inj_on_of_nodup_map hnodup (hmem hfile hending) (hmem hfile' hending') (by simp)
  simpa using congrArg Prod.fst heq

/-- A repository with a project inside another one, and with files of tests and of builds. -/
def nestedTree : FileTree :=
  let file : FileTree := .file "".toUTF8
  let built : FileTree := .directory [("Api.module.json", file), ("Api.Tests.module.json", file)]
  .directory [("zoo.cs", file), ("Shop.csproj", file),
    ("src", .directory [("Api", .directory [("Order.CS", file), ("Api.CsProj", file),
      ("obj", .directory [("Old.csproj", file), ("Order.cs", file), ("bin", built)])])]),
    ("tests", .directory [("Checks.csproj", file), ("Check.cs", file)])]

def nestedShop : FileSystem where
  root := .directory [("shop", nestedTree)]

theorem nestedShop_units :
    nestedShop.root.WellFormed ∧ nestedShop.find? ⟨"shop"⟩ = some nestedTree ∧ OneProjectEach nestedTree ∧
      ⟨"shop", "Api", ⟨"shop/src/Api/Order.CS"⟩⟩ ∈ sourcesOf nestedShop {} true ⟨"shop", ⟨"shop"⟩⟩ ∧
      ⟨"shop", "Api", ⟨"shop/src/Api/obj/bin/Api.module.json"⟩⟩ ∈ modulesOf nestedShop {} true ⟨"shop", ⟨"shop"⟩⟩ ∧
      ⟨"shop", "Checks", ⟨"shop/tests/Check.cs"⟩⟩ ∈ sourcesOf nestedShop {} false ⟨"shop", ⟨"shop"⟩⟩ ∧
      ∀ origin ∈ sourcesOf nestedShop {} true ⟨"shop", ⟨"shop"⟩⟩, origin.path ≠ ⟨"shop/tests/Check.cs"⟩ := by
  have hfs : nestedShop.root.WellFormed := by decide
  have hroot : nestedShop.find? (⟨"shop", ⟨"shop"⟩⟩ : Repository).root = some nestedTree := rfl
  have hone : OneProjectEach nestedTree := oneProjectEach_of_nodup (by decide) (by decide)
  have hpassed {names : List RawText} (h : ∀ d ∈ names, isSourceless d = false) : ∀ d ∈ names, IsPassed d :=
    fun d hd => isSourceless_eq_false_iff.mp (h d hd)
  have hapi : HoldsProject nestedTree ["src", "Api"] "Api" :=
    ⟨hpassed (by decide), "Api.CsProj", _, rfl, "Api", "CsProj", by decide⟩
  have hchecks : HoldsProject nestedTree ["tests"] "Checks" :=
    ⟨hpassed (by decide), "Checks.csproj", _, rfl, "Checks", "csproj", by decide⟩
  obtain ⟨-, hsources, -, hmodules, -⟩ := units_exactly hfs hroot hone {} true
  obtain ⟨-, hall, -⟩ := units_exactly hfs hroot hone {} false
  refine ⟨hfs, hroot, hone, (hsources _).mpr ⟨["src", "Api", "Order.CS"], ?_, rfl, ?_, rfl⟩,
    (hmodules _).mpr ⟨["src", "Api", "obj", "bin", "Api.module.json"], ?_, rfl, ?_, rfl⟩,
    (hall _).mpr ⟨["tests", "Check.cs"], ?_, rfl, ?_, rfl⟩, ?_⟩
  · exact ⟨⟨_, rfl⟩, ⟨"Order", "CS", by decide⟩, hpassed (by decide), fun _ => by decide⟩
  · exact .inl ⟨["src", "Api"], ⟨List.prefix_rfl, ⟨"Api", hapi⟩, fun other hother _ => hother⟩, hapi⟩
  · exact ⟨⟨_, rfl⟩, ⟨"Api", rfl, fun _ => by decide⟩, by decide, by decide, fun _ => by decide⟩
  · refine .inl ⟨["src", "Api"], ⟨⟨["obj", "bin"], rfl⟩, ⟨"Api", hapi⟩, ?_⟩, hapi⟩
    intro other hother hfound
    obtain ⟨found, hothers, -⟩ := hfound
    have hobj : .ofString "obj" ∉ other := by
      intro hmem
      exact (hothers "obj" hmem).2 (by decide)
    rcases List.prefix_concat_iff.mp
      (show other <+: (["src", "Api", "obj"] : List RawText) ++ [.ofString "bin"] from hother) with rfl | hother
    · exact absurd (by decide) hobj
    · rcases List.prefix_concat_iff.mp
        (show other <+: (["src", "Api"] : List RawText) ++ [.ofString "obj"] from hother) with rfl | hother
      · exact absurd (by decide) hobj
      · exact hother
  · exact ⟨⟨_, rfl⟩, ⟨"Check", "cs", by decide⟩, hpassed (by decide), nofun⟩
  · exact .inl ⟨["tests"], ⟨List.prefix_rfl, ⟨"Checks", hchecks⟩, fun other hother _ => hother⟩, hchecks⟩
  · intro origin horigin hpath
    obtain ⟨names, hunit, -, -, hplace⟩ := (hsources origin).mp horigin
    obtain ⟨bytes, hfile⟩ := hunit.file
    have hnames : names = ["tests", "Check.cs"] := by
      refine entryPath_components_inj ⟨"shop"⟩ ((wellFormed_of_find? hfs hroot).find? hfile).2 (by decide) ?_
      rw [← hplace, hpath]
      rfl
    exact hunit.outsideTests rfl "tests" (by rw [hnames]; decide) (by decide)

end Discovery

end EventAtlas
