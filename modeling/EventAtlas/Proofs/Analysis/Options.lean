import EventAtlas.Proofs.Analysis.Runs
import EventAtlas.Proofs.Source.Extraction
import Mathlib.Data.List.Sort

namespace EventAtlas

open Std
open EventAtlas.Path (IsEntryName)

/-- The names of the directories between a repository and a file in it. -/
def Repository.directoriesTo (r : Repository) (p : Path) : List RawText :=
  (p.components.drop r.root.components.length).dropLast.map fun c => ⟨c.label⟩

/-- Whether one of the directories between a repository and a file in it is one of tests. -/
def Repository.inTests (s : Indicators) (r : Repository) (p : Path) : Bool :=
  (r.directoriesTo p).any fun directory => s.isTestName directory.shown

namespace Discovery

private theorem directoriesTo_entryPath (r : Repository) {names : List RawText} (h : ∀ name ∈ names, IsEntryName name) :
    r.directoriesTo (entryPath r.root names) = names.dropLast := by
  have hlabels : names.map ((fun c => ⟨c.label⟩) ∘ Path.Component.name) = names := List.map_id names
  rw [Repository.directoriesTo, components_entryPath r.root h, List.drop_left, List.map_dropLast, List.map_map,
    hlabels]

example : (Repository.ofRoot ⟨"work/shop"⟩).directoriesTo ⟨"work/shop/Tests/Cart/CartTests.cs"⟩ =
    ["Tests", "Cart"] := by
  decide

/-- Leaving out tests leaves out the files below directories of tests. -/
theorem sources_excludeTests (s : Indicators) (r : Repository) {tree : FileTree} (htree : tree.WellFormed) :
    sources s true r tree =
      (sources s false r tree).filter fun origin => !r.inTests s origin.path := by
  have hentries : ((tree.files (!isSourceless ·)).filter fun e => isSource s true r.root e.1) =
      ((tree.files (!isSourceless ·)).filter fun e => isSource s false r.root e.1).filter
        fun e => !inTestDirectory s e.1 := by
    rw [List.filter_filter]
    apply List.filter_congr
    intro e _
    simp [isSource, Bool.and_comm]
  have htests : ∀ e ∈ (tree.files (!isSourceless ·)).filter fun e => isSource s false r.root e.1,
      (!r.inTests s (entryPath r.root e.1)) = !inTestDirectory s e.1 := by
    intro e he
    have hfind := FileTree.find?_of_mem_files htree (List.mem_of_mem_filter he)
    rw [Repository.inTests, directoriesTo_entryPath r (htree.find? hfind).2]
    rfl
  exact (congrArg (origins r tree) hentries).trans (origins_filter r tree _ _
    (fun p => !r.inTests s p) htests)

end Discovery

namespace Analysis

open Discovery

variable {fs : FileSystem} {s : Indicators}

/-- Whether a file lies in a directory of tests of its repository. -/
def liesInTests (s : Indicators) (repositories : List Repository) (origin : Origin) : Bool :=
  repositories.any fun r => r.holds origin.path && r.inTests s origin.path

private theorem liesInTests_eq {root : Path} {tree : FileTree} (htree : tree.WellFormed) {r : Repository}
    (hr : r ∈ repositoriesIn root tree) {origin : Origin} (horigin : r.holds origin.path = true) :
    liesInTests s (repositoriesIn root tree) origin = r.inTests s origin.path := by
  unfold liesInTests
  rw [Bool.eq_iff_iff, List.any_eq_true]
  constructor
  · rintro ⟨other, hother, htests⟩
    rw [Bool.and_eq_true] at htests
    obtain rfl := eq_of_holds htree hr hother horigin htests.1
    exact htests.2
  · intro htests
    exact ⟨r, hr, by simp [horigin, htests]⟩

section Tests

variable {o : Options} (hmodules : o.bytecodePublishers = false)

include hmodules

private theorem unitsOf_excludeTests {r : Repository} {tree : FileTree} (hr : fs.find? r.root = some tree)
    (htree : tree.WellFormed) :
    unitsOf fs s { o with excludeTests := true } r =
      (unitsOf fs s { o with excludeTests := false } r).filter
        fun u => !r.inTests s u.origin.path := by
  simp only [unitsOf, sourcesOf, hr, hmodules, Bool.false_eq_true, if_false, List.append_nil,
    sources_excludeTests s r htree, List.filter_map]
  rfl

private theorem discovered_excludeTests (hfs : fs.root.WellFormed) {root : Path} {lead : List RawText} {tree : FileTree}
    (hroot : fs.locate root = .ok (lead, tree)) (hdirectory : tree.isDirectory = true) :
    discovered fs s { o with excludeTests := true } (repositoriesIn root tree) =
      (discovered fs s { o with excludeTests := false } (repositoriesIn root tree)).filter
        fun u => !liesInTests s (repositoriesIn root tree) u.origin := by
  have htree := tree_wellFormed hfs hroot
  unfold discovered
  rw [List.filter_flatMap]
  apply List.flatMap_congr
  intro r hr
  obtain ⟨names, entries, -, hentries, hfind, -⟩ := find?_repository hfs hroot hdirectory hr []
  rw [unitsOf_excludeTests hmodules hfind (htree.find? hentries).1]
  apply List.filter_congr
  intro u hu
  rw [liesInTests_eq htree hr ((isOriginIn_of_mem_unitsOf hu).holds hfind (htree.find? hentries).1)]

private theorem foundFacts_excludeTests (hfs : fs.root.WellFormed) {root : Path} {lead : List RawText}
    {tree : FileTree} (hroot : fs.locate root = .ok (lead, tree)) (hdirectory : tree.isDirectory = true) :
    foundFacts fs s { o with excludeTests := true } (repositoriesIn root tree) =
      (foundFacts fs s { o with excludeTests := false } (repositoriesIn root tree)).select
        (.ofOrigin fun origin => !liesInTests s (repositoriesIn root tree) origin) := by
  unfold foundFacts
  rw [Facts.select_sorted, concat_readableFacts_select,
    discovered_excludeTests hmodules hfs hroot hdirectory]
  refine congrArg (fun parts => (Facts.concat parts).sorted) (readableFacts_congr ?_)
  intro u hu
  obtain ⟨r, -, hru⟩ := List.mem_flatMap.mp (List.mem_of_mem_filter hu)
  have hsource : u.compiled = false := by
    have hcompiled := (mem_unitsOf hru).2
    simpa [hmodules] using hcompiled
  simp only [FoundUnit.extraction, hsource, Bool.false_eq_true, if_false]
  rfl

end Tests

section Modules

variable (fs s) (o : Options)

theorem discovered_bytecodePublishers (repositories : List Repository) :
    discovered fs s { o with bytecodePublishers := false } repositories =
      (discovered fs s { o with bytecodePublishers := true } repositories).filter fun u => !u.compiled := by
  unfold discovered
  rw [List.filter_flatMap]
  apply List.flatMap_congr
  intro r _
  have hsource : ((fun u => !u.compiled) ∘ FoundUnit.mk r false : Origin → Bool) = fun _ => true := rfl
  have hcompiled : ((fun u => !u.compiled) ∘ FoundUnit.mk r true : Origin → Bool) = fun _ => false := rfl
  simp only [unitsOf, Bool.false_eq_true, if_false, if_true, List.filter_append, List.filter_map, hsource, hcompiled,
    List.filter_true, List.filter_false, List.map_nil]

/-- Only publications of a source file depend on whether compiled modules are read. -/
theorem extraction_bytecodePublishers (repositories : List Repository) {u : FoundUnit}
    (hu : u ∈ discovered fs s { o with bytecodePublishers := false } repositories) :
    (u.extraction fs s { o with bytecodePublishers := true }).map (Facts.select .notPublications) =
      (u.extraction fs s { o with bytecodePublishers := false }).map (Facts.select .notPublications) := by
  rw [discovered_bytecodePublishers, List.mem_filter, Bool.not_eq_true'] at hu
  simp only [FoundUnit.extraction, hu.2, Bool.false_eq_true, if_false, sourceFacts]
  cases fs.readText u.origin.path with
  | error fault => rfl
  | ok text =>
    simp only [Except.map, Source.extract_eq, Facts.select, Facts.Selection.notPublications, List.filter_false]

theorem FoundUnit.extraction_compiled {u : FoundUnit} (hcompiled : u.compiled = true) :
    ((u.extraction fs s o).toOption.getD {}).select .notPublications = {} := by
  simp only [FoundUnit.extraction, hcompiled, if_true]
  cases Module.read fs u.origin.path with
  | error error => rfl
  | ok m => simp [Except.map, Except.toOption, Facts.select, Facts.Selection.notPublications]

/-- Compiled modules have no other facts than publications. -/
theorem concat_readableFacts_sources (units : List FoundUnit) :
    (Facts.concat (readableFacts fs s o units)).select .notPublications =
      (Facts.concat (readableFacts fs s o (units.filter fun u => !u.compiled))).select .notPublications := by
  induction units with
  | nil => rfl
  | cons u units ih =>
    rw [concat_readableFacts_cons, Facts.select_append, ih, List.filter_cons]
    cases hcompiled : u.compiled with
    | true =>
      rw [FoundUnit.extraction_compiled fs s o hcompiled]
      rfl
    | false =>
      rw [if_pos (by rfl), concat_readableFacts_cons, Facts.select_append]

private theorem foundFacts_bytecodePublishers (repositories : List Repository) :
    (foundFacts fs s { o with bytecodePublishers := true } repositories).select .notPublications =
      (foundFacts fs s { o with bytecodePublishers := false } repositories).select .notPublications := by
  unfold foundFacts
  rw [Facts.select_sorted, Facts.select_sorted, concat_readableFacts_sources, ← discovered_bytecodePublishers,
    Facts.select_concat, Facts.select_concat]
  exact congrArg (fun parts => (Facts.concat parts).sorted)
    (readableFacts_map_congr fun u hu => extraction_bytecodePublishers fs s o repositories hu)

private theorem failing_bytecodePublishers (repositories : List Repository) :
    (failing fs s { o with bytecodePublishers := false }
      (discovered fs s { o with bytecodePublishers := false } repositories)).Sublist
        (failing fs s { o with bytecodePublishers := true }
          (discovered fs s { o with bytecodePublishers := true } repositories)) := by
  have hsources := failing_congr fun u hu => extraction_bytecodePublishers fs s o repositories hu
  rw [← hsources, discovered_bytecodePublishers]
  exact List.filter_sublist.filterMap _

end Modules

/-- Among failures at different paths, fewer failures sort to fewer in the same order. -/
theorem sortBy_path_sublist {failures more : List UnitFailure} (h : failures.Sublist more)
    (hdiffer : PathsDiffer (more.map UnitFailure.path)) :
    (sortBy (compareOn UnitFailure.path) failures).Sublist (sortBy (compareOn UnitFailure.path) more) := by
  have hantisymm : Antisymm fun a b : UnitFailure => compare a.path b.path = .lt := by
    refine ⟨fun a b hlt hgt => ?_⟩
    have hswap : compare b.path a.path = (compare a.path b.path).swap := OrientedCmp.eq_swap
    rw [hgt, hlt] at hswap
    exact Ordering.noConfusion hswap
  have hsubperm := ((sortBy_perm (compareOn UnitFailure.path) failures).subperm).trans
    (h.subperm.trans (sortBy_perm (compareOn UnitFailure.path) more).symm.subperm)
  exact List.sublist_of_subperm_of_pairwise hsubperm (failures_increase (hdiffer.sublist (h.map _)))
    (failures_increase hdiffer)

section Details

variable (fs s) (o : Options)

theorem FoundUnit.extraction_includeDetails (u : FoundUnit) :
    (u.extraction fs s { o with includeDetails := true }).map Facts.withoutSnippets =
      (u.extraction fs s { o with includeDetails := false }).map id := by
  unfold FoundUnit.extraction
  split_ifs
  · cases Module.read fs u.origin.path <;> rfl
  · unfold sourceFacts
    cases fs.readText u.origin.path with
    | error fault => rfl
    | ok text =>
      simp only [Except.map, Source.extract_eq, Facts.withoutSnippets, Source.consumptions_withoutSnippet, id]

private theorem foundFacts_includeDetails (repositories : List Repository) :
    (foundFacts fs s { o with includeDetails := true } repositories).withoutSnippets =
      foundFacts fs s { o with includeDetails := false } repositories := by
  have hreadable := readableFacts_map_congr
    fun u (_ : u ∈ discovered fs s o repositories) => u.extraction_includeDetails fs s o
  unfold foundFacts
  rw [Facts.withoutSnippets_sorted, Facts.withoutSnippets_concat]
  refine congrArg (fun parts => (Facts.concat parts).sorted) (hreadable.trans ?_)
  exact List.map_id _

private theorem serviceCount_includeDetails (repositories : List Repository) :
    serviceCount fs s { o with includeDetails := true } repositories =
      serviceCount fs s { o with includeDetails := false } repositories := by
  simp only [serviceCount, repositoryResults, RepositoryResults.services, sourceResults, List.flatMap_map,
    List.map_map]
  rfl

private theorem failing_includeDetails (repositories : List Repository) :
    failing fs s { o with includeDetails := true } (discovered fs s { o with includeDetails := true } repositories) =
      failing fs s { o with includeDetails := false }
        (discovered fs s { o with includeDetails := false } repositories) :=
  failing_congr fun u _ => u.extraction_includeDetails fs s o

end Details

end Analysis

/-- An outcome with other facts and the same counts and failures. -/
def Outcome.mapFacts (f : Facts → Facts) (outcome : Outcome) : Outcome :=
  { outcome with report := { outcome.report with toFacts := f outcome.report.toFacts } }

/-- Publications and failures may be more in one outcome than in another, and the rest is the same. -/
structure Outcome.AddsPublications (more outcome : Outcome) : Prop where
  events : more.report.events = outcome.report.events
  consumptions : more.report.consumptions = outcome.report.consumptions
  subscriptions : more.report.subscriptions = outcome.report.subscriptions
  repositoryCount : more.report.repositoryCount = outcome.report.repositoryCount
  failures : outcome.failures.Sublist more.failures

namespace Analysis

/-- What each option does to the outcomes of runs over the same repositories. -/
structure OptionsApart (s : Indicators) (repositories : List Repository) (run : Options → Outcome) : Prop where
  modules (o : Options) :
    (run { o with bytecodePublishers := true }).AddsPublications (run { o with bytecodePublishers := false })
  details (o : Options) :
    run { o with includeDetails := false } = (run { o with includeDetails := true }).mapFacts Facts.withoutSnippets
  jobs (o : Options) :
    run { o with backgroundJobsOnly := true } =
      (run { o with backgroundJobsOnly := false }).mapFacts (Facts.select .inJobs)
  tests (o : Options) (hmodules : o.bytecodePublishers = false) :
    (run { o with excludeTests := true }).report.toFacts =
      (run { o with excludeTests := false }).report.toFacts.select
        (.ofOrigin fun origin => !liesInTests s repositories origin)

section

variable {fs : FileSystem} {s : Indicators} {repositories : List Repository}
  (hdiffer : ∀ o, PathsDiffer ((discovered fs s o repositories).map (·.origin.path)))
  (now : Timestamp) (o : Options)

include hdiffer

private theorem outcomeAt_bytecodePublishers :
    (outcomeAt fs s { o with bytecodePublishers := true } now repositories).AddsPublications
      (outcomeAt fs s { o with bytecodePublishers := false } now repositories) := by
  have hfacts : ((foundFacts fs s { o with bytecodePublishers := true } repositories).select
      o.selection).select .notPublications =
        ((foundFacts fs s { o with bytecodePublishers := false } repositories).select
          o.selection).select .notPublications := by
    rw [Facts.select_comm, foundFacts_bytecodePublishers, Facts.select_comm]
  have hevents := congrArg Facts.events hfacts
  have hconsumptions := congrArg Facts.consumptions hfacts
  have hsubscriptions := congrArg Facts.subscriptions hfacts
  simp only [Facts.select_notPublications_events, Facts.select_notPublications_consumptions,
    Facts.select_notPublications_subscriptions] at hevents hconsumptions hsubscriptions
  rw [outcomeAt_eq fs s _ now (hdiffer _), outcomeAt_eq fs s _ now (hdiffer _)]
  refine ⟨hevents, hconsumptions, hsubscriptions, rfl, ?_⟩
  exact sortBy_path_sublist (failing_bytecodePublishers fs s o _) ((hdiffer _).sublist (failing_paths_sublist _))

private theorem outcomeAt_includeDetails :
    outcomeAt fs s { o with includeDetails := false } now repositories =
      (outcomeAt fs s { o with includeDetails := true } now repositories).mapFacts Facts.withoutSnippets := by
  have hselection (f : Facts) : (f.select o.selection).withoutSnippets = f.withoutSnippets.select o.selection := by
    unfold Options.selection
    split_ifs
    · exact Facts.withoutSnippets_select_inJobs f
    · rw [Facts.select_all, Facts.select_all]
  have hfacts : ((foundFacts fs s { o with includeDetails := true } repositories).select
      o.selection).withoutSnippets =
        (foundFacts fs s { o with includeDetails := false } repositories).select o.selection := by
    rw [hselection, foundFacts_includeDetails]
  rw [outcomeAt_eq fs s _ now (hdiffer _), outcomeAt_eq fs s _ now (hdiffer _), Outcome.mapFacts,
    ← failing_includeDetails, ← serviceCount_includeDetails]
  exact congrArg (fun facts : Facts => Outcome.mk { facts with .. } _) hfacts.symm

private theorem outcomeAt_backgroundJobsOnly :
    outcomeAt fs s { o with backgroundJobsOnly := true } now repositories =
      (outcomeAt fs s { o with backgroundJobsOnly := false } now repositories).mapFacts
        (Facts.select .inJobs) := by
  have hall : (foundFacts fs s { o with backgroundJobsOnly := false } repositories).select
      (Options.selection { o with backgroundJobsOnly := false }) =
        foundFacts fs s { o with backgroundJobsOnly := false } repositories :=
    Facts.select_all _
  rw [outcomeAt_eq fs s _ now (hdiffer _), outcomeAt_eq fs s _ now (hdiffer _), hall]
  rfl

end

/-- Over the same repositories each option does one thing, whatever the others are. -/
theorem analyze_options_apart {fs : FileSystem} {s : Indicators} {root : Path} {repositories : List Repository}
    (hfs : fs.root.WellFormed) (hvalid : s.missing? = none)
    (hrepositories : Discovery.repositories? fs root = some repositories) (now : Timestamp) :
    ∃ run : Options → Outcome,
      (∀ o, analyze now fs s o (Module.read fs) root = .ok (run o)) ∧ OptionsApart s repositories run := by
  obtain ⟨lead, entries, hroot, rfl⟩ := repositories?_eq_some_iff.mp hrepositories
  have hdiffer (o : Options) := discovered_pathsDiffer s o hfs hroot rfl
  refine ⟨fun o => outcomeAt fs s o now _, fun o => analyze_eq_ok_iff.mpr ⟨hvalid, _, hrepositories, rfl⟩, ?_⟩
  exact
    { modules := outcomeAt_bytecodePublishers hdiffer now
      details := outcomeAt_includeDetails hdiffer now
      jobs := outcomeAt_backgroundJobsOnly hdiffer now
      tests := fun o hmodules => by
        rw [outcomeAt_toFacts fs s _ now (hdiffer _), outcomeAt_toFacts fs s _ now (hdiffer _), Facts.select_comm,
          foundFacts_excludeTests hmodules hfs hroot rfl]
        rfl }

/-- A repository with tests, and with a compiled module that is no text. -/
def testedShop : FileSystem where
  root := .directory [("work", .directory [("shop", .directory [("Shop.csproj", .file "".toUTF8),
    ("Cart.cs", .file "public class Paid : IntegrationEvent \x7b \x7d".toUTF8),
    ("Tests", .directory [("CartTests.cs", .file "public class Refunded : IntegrationEvent \x7b \x7d".toUTF8)]),
    ("bin", .directory [("Shop.module.json", .file ⟨#[255]⟩)])])])]

theorem testedShop_options_apart :
    testedShop.root.WellFormed ∧ ({} : Indicators).missing? = none ∧
    ∃ repositories, Discovery.repositories? testedShop ⟨"work"⟩ = some repositories ∧
      Repository.ofRoot (Path.join ⟨"work"⟩ "shop") ∈ repositories ∧
      ∃ run : Options → Outcome,
        (∀ o, analyze (.ofEpoch 0) testedShop {} o (Module.read testedShop) ⟨"work"⟩ = .ok (run o)) ∧
          OptionsApart {} repositories run := by
  have hfs : testedShop.root.WellFormed := by decide
  have hvalid : ({} : Indicators).missing? = none := by decide
  exact ⟨hfs, hvalid, _, rfl,
    Discovery.ofRoot_mem_repositoriesIn List.mem_cons_self rfl (by decide) (by decide),
    analyze_options_apart hfs hvalid rfl _⟩

end Analysis

end EventAtlas
