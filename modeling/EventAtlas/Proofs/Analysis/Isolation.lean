import EventAtlas.Proofs.Analysis.Removal

namespace EventAtlas

open Std

namespace Analysis

open Discovery

private theorem successes_origins_sublist {α : Type} (results : List (UnitResult α)) :
    ((successes results).map Prod.fst).Sublist (results.map Prod.fst) := by
  induction results with
  | nil => exact .slnil
  | cons result results ih =>
    obtain ⟨origin, result⟩ := result
    cases result with
    | error error => exact ih.cons origin
    | ok a => exact ih.cons_cons origin

section

variable (fs : FileSystem) (s : Indicators) (o : Options)

/-- The facts of the units that can be read, each by itself. -/
def readableFacts (units : List FoundUnit) : List Facts :=
  units.filterMap fun u => (u.extraction fs s o).toOption

/-- Why a unit cannot be read. -/
def FoundUnit.failure? (u : FoundUnit) : Option UnitFailure :=
  match u.extraction fs s o with
  | .ok _ => none
  | .error error => some ⟨u.origin.path, error⟩

/-- The units that cannot be read. -/
def failing (units : List FoundUnit) : List UnitFailure := units.filterMap (FoundUnit.failure? fs s o)

/-- What a run comes to, said by its units. -/
def outcomeAt (now : Timestamp) (repositories : List Repository) : Outcome :=
  outcomeOf now s o (repositories.map (repositoryResults fs s o (Module.read fs)))

theorem flatMap_units (repositories : List Repository) :
    (repositories.map (repositoryResults fs s o (Module.read fs))).flatMap (·.units s) =
      (discovered fs s o repositories).map fun u => (u.origin, u.extraction fs s o) := by
  rw [List.flatMap_map, discovered, List.map_flatMap]
  apply List.flatMap_congr
  intro r _
  exact units_eq_map fs s o r

private theorem successes_snd (units : List FoundUnit) :
    (successes (units.map fun u => (u.origin, u.extraction fs s o))).map Prod.snd =
      readableFacts fs s o units := by
  unfold successes readableFacts
  rw [List.filterMap_map, List.map_filterMap]
  apply List.filterMap_congr
  intro u _
  cases h : u.extraction fs s o <;> simp [h, Except.toOption]

theorem outcomeAt_facts (now : Timestamp) {repositories : List Repository}
    (hjobs : o.backgroundJobsOnly = false)
    (hdiffer : PathsDiffer ((discovered fs s o repositories).map (·.origin.path))) :
    (outcomeAt fs s o now repositories).report.toFacts =
      (Facts.concat (readableFacts fs s o (discovered fs s o repositories))).sorted := by
  have hread : PathsDiffer ((successes ((discovered fs s o repositories).map fun u =>
      (u.origin, u.extraction fs s o))).map (·.1.path)) := by
    have hsublist := (successes_origins_sublist ((discovered fs s o repositories).map fun u =>
      (u.origin, u.extraction fs s o))).map Origin.path
    rw [List.map_map, List.map_map, List.map_map] at hsublist
    exact hdiffer.sublist hsublist
  have hparts : ((collect (successes ((discovered fs s o repositories).map fun u =>
      (u.origin, u.extraction fs s o)))).map Prod.snd) =
        readableFacts fs s o (discovered fs s o repositories) := by
    rw [collect_eq_map hread, ← successes_snd, List.map_map]
    rfl
  simp only [outcomeAt, outcomeOf, hjobs, flatMap_units, hparts, Bool.false_eq_true, if_false]
  rfl

theorem outcomeAt_failures (now : Timestamp) (repositories : List Repository) :
    (outcomeAt fs s o now repositories).failures =
      sortBy (compareOn UnitFailure.path) (failing fs s o (discovered fs s o repositories)) := by
  have hfailures : failuresOf ((discovered fs s o repositories).map fun u =>
      (u.origin, u.extraction fs s o)) =
        sortBy (compareOn UnitFailure.path) (failing fs s o (discovered fs s o repositories)) := by
    unfold failuresOf
    rw [List.filterMap_map]
    rfl
  rw [← hfailures, ← flatMap_units]
  rfl

theorem outcomeAt_repositoryCount (now : Timestamp) (repositories : List Repository) :
    (outcomeAt fs s o now repositories).report.repositoryCount = repositories.length := by
  unfold outcomeAt outcomeOf
  split_ifs <;> simp [Report.inBackgroundJobs, Report.ofParts]

end

variable {fs : FileSystem} {s : Indicators} {o : Options}

/-- A unit with facts counts among the projects. -/
theorem service_mem_services {r : Repository} {u : FoundUnit} (hu : u ∈ unitsOf fs s o r) {f : Facts}
    (h : u.extraction fs s o = .ok f) :
    u.origin.service ∈ (repositoryResults fs s o (Module.read fs) r).services := by
  unfold RepositoryResults.services repositoryResults
  rcases List.mem_append.mp hu with hsource | hmodule
  · obtain ⟨origin, horigin, rfl⟩ := List.mem_map.mp hsource
    refine List.mem_append_left _ (List.mem_map.mpr ⟨_, List.mem_map.mpr ⟨origin, horigin, rfl⟩, rfl⟩)
  · split_ifs at hmodule with hmodules
    · obtain ⟨origin, horigin, rfl⟩ := List.mem_map.mp hmodule
      rw [FoundUnit.extraction, if_pos rfl] at h
      cases hread : Module.read fs origin.path with
      | error error => simp [hread, Except.map] at h
      | ok m =>
        have hloaded : (origin, m) ∈ successes (loadResults fs s o (Module.read fs) r) :=
          List.mem_filterMap.mpr ⟨(origin, .ok m), List.mem_map.mpr ⟨origin, horigin, by rw [hread]⟩, rfl⟩
        refine List.mem_append_right _ (List.mem_map.mpr ⟨(origin, m), ?_, rfl⟩)
        simpa [hmodules] using hloaded
    · simp at hmodule

private theorem mem_readableFacts {units : List FoundUnit} {f : Facts} :
    f ∈ readableFacts fs s o units ↔ ∃ u ∈ units, u.extraction fs s o = .ok f := by
  rw [readableFacts, List.mem_filterMap]
  refine exists_congr fun u => and_congr_right fun _ => ?_
  cases u.extraction fs s o <;> simp [Except.toOption]

/-- The facts come from units that could be read. -/
theorem exists_unit_of_origin {units : List FoundUnit} {facts : Facts}
    (h : facts.IsUnionOf (readableFacts fs s o units)) {origin : Origin} (horigin : origin ∈ facts.origins) :
    ∃ u ∈ units, u.origin = origin ∧ ∃ f, u.extraction fs s o = .ok f := by
  obtain ⟨part, hpart, hmem⟩ := h.mem_origins horigin
  obtain ⟨u, hu, hextraction⟩ := mem_readableFacts.mp hpart
  exact ⟨u, hu, (u.extraction_allFrom hextraction origin hmem).symm, part, hextraction⟩

private theorem outcomeAt_projectCount (now : Timestamp) {repositories : List Repository}
    (hjobs : o.backgroundJobsOnly = false)
    (hdiffer : PathsDiffer ((discovered fs s o repositories).map (·.origin.path))) :
    (outcomeAt fs s o now repositories).report.toFacts.projectCount ≤
      (outcomeAt fs s o now repositories).report.projectCount := by
  have hunion := (Facts.concat_isUnionOf (readableFacts fs s o (discovered fs s o repositories))).sorted
  rw [← outcomeAt_facts fs s o now hjobs hdiffer] at hunion
  have hcount : (outcomeAt fs s o now repositories).report.projectCount =
      ((repositories.map (repositoryResults fs s o (Module.read fs))).flatMap (·.services)).eraseDups.length := by
    simp [outcomeAt, outcomeOf, hjobs]
  rw [hcount, Facts.projectCount, Facts.services_eq_map]
  apply length_eraseDups_le
  intro service hservice
  obtain ⟨origin, horigin, rfl⟩ := List.mem_map.mp hservice
  obtain ⟨u, hu, rfl, f, hf⟩ := exists_unit_of_origin hunion horigin
  obtain ⟨r, hr, hru⟩ := List.mem_flatMap.mp hu
  exact List.mem_flatMap.mpr ⟨_, List.mem_map.mpr ⟨r, hr, rfl⟩, service_mem_services hru hf⟩

theorem mem_failing {units : List FoundUnit} {failure : UnitFailure} :
    failure ∈ failing fs s o units ↔
      ∃ u ∈ units, u.origin.path = failure.path ∧ u.extraction fs s o = .error failure.error := by
  rw [failing, List.mem_filterMap]
  refine exists_congr fun u => and_congr_right fun _ => ?_
  obtain ⟨path, error⟩ := failure
  unfold FoundUnit.failure?
  cases u.extraction fs s o <;> simp

theorem PathsDiffer.eq_of_components {units : List FoundUnit}
    (hdiffer : PathsDiffer (units.map (·.origin.path))) {u v : FoundUnit} (hu : u ∈ units) (hv : v ∈ units)
    (h : u.origin.path.components = v.origin.path.components) : u = v := by
  have hnodup : (units.map (·.origin.path.components)).Nodup := List.pairwise_map.mpr hdiffer.pairwise
  exact List.inj_on_of_nodup_map hnodup hu hv h

theorem failing_paths_sublist (units : List FoundUnit) :
    ((failing fs s o units).map UnitFailure.path).Sublist (units.map (·.origin.path)) := by
  induction units with
  | nil => exact .slnil
  | cons u units ih =>
    unfold failing FoundUnit.failure? at ih ⊢
    cases h : u.extraction fs s o with
    | ok f => simpa [h] using ih.cons u.origin.path
    | error error => simpa [h] using ih.cons_cons u.origin.path

/-- Different paths that are sorted increase. -/
theorem failures_increase {failures : List UnitFailure}
    (hdiffer : PathsDiffer (failures.map UnitFailure.path)) :
    (sortBy (compareOn UnitFailure.path) failures).Pairwise fun a b => compare a.path b.path = .lt := by
  have hsorted := sortBy_sorted (compareOn UnitFailure.path) failures
  have hpaths := (hdiffer.perm ((sortBy_perm (compareOn UnitFailure.path) failures).map _).symm).pairwise
  refine (hsorted.and hpaths).imp ?_
  rintro a b ⟨hle, hne⟩
  have heq : compare a.path b.path ≠ .eq := fun h => hne (Path.compare_eq_iff.mp h)
  have hle : (compare a.path b.path).isLE = true := hle
  cases h : compare a.path b.path with
  | lt => rfl
  | eq => exact absurd h heq
  | gt => simp [h] at hle

section Removed

variable {root : Path} {lead : List RawText} {tree : FileTree} (hfs : fs.root.WellFormed)
  (hroot : fs.locate root = .ok (lead, tree)) (hdirectory : tree.isDirectory = true)
  {lost : List Path}
  (hlost : ∀ p, p ∈ lost ↔
    p ∈ (failing fs s o (discovered fs s o (repositoriesIn root tree))).map UnitFailure.path)

include hfs hroot hdirectory hlost

theorem lost_areUnits : AreUnits s o root tree lost := by
  intro p hp
  obtain ⟨failure, hfailure, rfl⟩ := List.mem_map.mp ((hlost p).mp hp)
  obtain ⟨u, hu, hpath, _⟩ := mem_failing.mp hfailure
  rw [← hpath]
  exact exists_place hfs hroot hdirectory hu

/-- Exactly the units at the lost paths cannot be read. -/
theorem mem_lost_iff {u : FoundUnit} (hu : u ∈ discovered fs s o (repositoriesIn root tree)) :
    u.origin.path ∈ lost ↔ (u.extraction fs s o).toOption = none := by
  have hdiffer := discovered_pathsDiffer s o hfs hroot hdirectory
  rw [hlost, List.mem_map]
  constructor
  · rintro ⟨failure, hfailure, hpath⟩
    obtain ⟨v, hv, hvpath, herror⟩ := mem_failing.mp hfailure
    obtain rfl := hdiffer.eq_of_components hv hu (congrArg Path.components (hvpath.trans hpath))
    rw [herror]
    rfl
  · intro hnone
    cases h : u.extraction fs s o with
    | ok f => simp [h, Except.toOption] at hnone
    | error error => exact ⟨⟨u.origin.path, error⟩, mem_failing.mpr ⟨u, hu, rfl, h⟩, rfl⟩

private theorem readableFacts_without :
    readableFacts (fs.without lost) s o (discovered (fs.without lost) s o (repositoriesIn root tree)) =
      readableFacts fs s o (discovered fs s o (repositoriesIn root tree)) := by
  have hunits := lost_areUnits hfs hroot hdirectory hlost
  have hmem {u} := mem_lost_iff (u := u) hfs hroot hdirectory hlost
  rw [discovered_without hfs hroot hdirectory hunits]
  unfold readableFacts
  rw [List.filterMap_filter]
  apply List.filterMap_congr
  intro u hu
  by_cases hkept : u.origin.path ∈ lost
  · simp [hkept, (hmem hu).mp hkept]
  · simp [hkept, extraction_without hfs hroot hdirectory hunits (fun v hv => (hmem hv).mp) hu hkept]

/-- Nothing fails any more. -/
theorem failing_without :
    failing (fs.without lost) s o (discovered (fs.without lost) s o (repositoriesIn root tree)) = [] := by
  have hunits := lost_areUnits hfs hroot hdirectory hlost
  have hmem {u} := mem_lost_iff (u := u) hfs hroot hdirectory hlost
  rw [List.eq_nil_iff_forall_not_mem]
  intro failure hfailure
  obtain ⟨u, hu, _, herror⟩ := mem_failing.mp hfailure
  rw [discovered_without hfs hroot hdirectory hunits, List.mem_filter, decide_eq_true_iff] at hu
  rw [extraction_without hfs hroot hdirectory hunits (fun v hv => (hmem hv).mp) hu.1 hu.2] at herror
  exact hu.2 ((hmem hu.1).mpr (by rw [herror]; rfl))

end Removed

/-- The outcome of a run over units that lie at different paths: the facts are those of the units that
can be read and the failures are the other units, by path. -/
structure IsOutcomeOf (fs : FileSystem) (s : Indicators) (o : Options) (units : List FoundUnit)
    (outcome : Outcome) : Prop where
  pathsDiffer : PathsDiffer (units.map (·.origin.path))
  facts : outcome.report.toFacts.IsUnionOf (readableFacts fs s o units)
  failures : outcome.failures.Perm (failing fs s o units)
  failuresIncrease : outcome.failures.Pairwise fun a b => compare a.path b.path = .lt
  failuresWithoutFacts : ∀ failure ∈ outcome.failures, ∀ origin ∈ outcome.report.toFacts.origins,
    origin.path.components ≠ failure.path.components

private theorem outcomeAt_isOutcomeOf (now : Timestamp) {repositories : List Repository}
    (hjobs : o.backgroundJobsOnly = false)
    (hdiffer : PathsDiffer ((discovered fs s o repositories).map (·.origin.path))) :
    IsOutcomeOf fs s o (discovered fs s o repositories) (outcomeAt fs s o now repositories) := by
  have hunion := (Facts.concat_isUnionOf (readableFacts fs s o (discovered fs s o repositories))).sorted
  rw [← outcomeAt_facts fs s o now hjobs hdiffer] at hunion
  have hperm : (outcomeAt fs s o now repositories).failures.Perm
      (failing fs s o (discovered fs s o repositories)) := by
    rw [outcomeAt_failures]
    exact sortBy_perm _ _
  refine ⟨hdiffer, hunion, hperm, ?_, ?_⟩
  · rw [outcomeAt_failures]
    exact failures_increase (hdiffer.sublist (failing_paths_sublist _))
  · intro failure hfailure origin horigin hsame
    obtain ⟨u, hu, hpath, herror⟩ := mem_failing.mp (hperm.mem_iff.mp hfailure)
    obtain ⟨v, hv, rfl, f, hok⟩ := exists_unit_of_origin hunion horigin
    rw [← hpath] at hsame
    obtain rfl := hdiffer.eq_of_components hv hu hsame
    simp [herror] at hok

theorem analyze_eq_ok_iff {now : Timestamp} {root : Path} {outcome : Outcome} :
    analyze now fs s o (Module.read fs) root = .ok outcome ↔
      s.missing? = none ∧ ∃ repositories, repositories? fs root = some repositories ∧
        outcomeAt fs s o now repositories = outcome := by
  unfold analyze survey Indicators.validate
  cases s.missing? with
  | some key => simp
  | none =>
    cases repositories? fs root with
    | none => simp
    | some repositories => simp [outcomeAt]

theorem repositories?_eq_some_iff {root : Path} {repositories : List Repository} :
    repositories? fs root = some repositories ↔
      ∃ lead entries, fs.locate root = .ok (lead, .directory entries) ∧
        repositoriesIn root (.directory entries) = repositories := by
  unfold repositories? FileSystem.find?
  cases fs.locate root with
  | error fault => simp
  | ok found =>
    obtain ⟨lead, tree⟩ := found
    cases tree <;> simp

/-- A unit that cannot be read takes nothing from the rest: the facts are those of the other units, each
taken once, and the same facts are found if the files that failed are not there at all. -/
theorem analyze_isolates_failures {now : Timestamp} {root : Path} {outcome : Outcome}
    (hfs : fs.root.WellFormed) (hjobs : o.backgroundJobsOnly = false)
    (h : analyze now fs s o (Module.read fs) root = .ok outcome) :
    (∃ repositories, repositories? fs root = some repositories ∧
      IsOutcomeOf fs s o (discovered fs s o repositories) outcome) ∧
    (∀ later : Timestamp, ∃ outcome',
      analyze later (fs.without (outcome.failures.map UnitFailure.path)) s o
          (Module.read (fs.without (outcome.failures.map UnitFailure.path))) root = .ok outcome' ∧
        outcome'.report.toFacts = outcome.report.toFacts ∧
        outcome'.report.repositoryCount = outcome.report.repositoryCount ∧ outcome'.failures = []) ∧
    outcome.report.toFacts.projectCount ≤ outcome.report.projectCount := by
  obtain ⟨hvalid, repositories, hrepositories, rfl⟩ := analyze_eq_ok_iff.mp h
  obtain ⟨lead, entries, hroot, rfl⟩ := repositories?_eq_some_iff.mp hrepositories
  have hdiffer := discovered_pathsDiffer s o hfs hroot rfl
  have hisolated := outcomeAt_isOutcomeOf now hjobs hdiffer
  refine ⟨⟨_, hrepositories, hisolated⟩, ?_, outcomeAt_projectCount now hjobs hdiffer⟩
  intro later
  have hlost := fun p => (hisolated.failures.map UnitFailure.path).mem_iff (a := p)
  have hunits := lost_areUnits hfs hroot rfl hlost
  have hagain := repositories?_without hfs hroot rfl hunits
  have hdiffer' := hdiffer.sublist (discovered_without hfs hroot rfl hunits ▸ List.filter_sublist.map _)
  refine ⟨_, analyze_eq_ok_iff.mpr ⟨hvalid, _, hagain, rfl⟩, ?_, ?_, ?_⟩
  · rw [outcomeAt_facts _ _ _ _ hjobs hdiffer', outcomeAt_facts _ _ _ _ hjobs hdiffer,
      readableFacts_without hfs hroot rfl hlost]
  · rw [outcomeAt_repositoryCount, outcomeAt_repositoryCount]
  · rw [outcomeAt_failures, failing_without hfs hroot rfl hlost]
    simp [sortBy]

/-- A project with a source file that is no text beside one that is. -/
def brokenShop : FileSystem where
  root := .directory [("shop", .directory [("Shop.csproj", .file "".toUTF8),
    ("Broken.cs", .file ⟨#[255]⟩),
    ("Cart.cs", .file "public class OrderPlaced : IntegrationEvent \x7b \x7d".toUTF8)])]

theorem brokenShop_wellFormed : brokenShop.root.WellFormed := by decide

/-- The source file that is no text is among the units and fails. -/
theorem brokenShop_failures_ne_nil (now : Timestamp) {repositories : List Repository}
    (h : repositories? brokenShop ⟨"shop"⟩ = some repositories) :
    (outcomeAt brokenShop {} {} now repositories).failures ≠ [] := by
  obtain ⟨lead, entries, hroot, rfl⟩ := repositories?_eq_some_iff.mp h
  obtain ⟨-, hentries⟩ := Prod.mk.inj (Except.ok.inj hroot)
  have hdirectories : directories ⟨"shop"⟩ (.directory entries) = [] := by
    rw [← hentries]
    exact List.mergeSort_nil
  have hleads : leads ⟨"shop"⟩ (.directory entries) = [[]] := by
    have hmanifest : holdsManifest ⟨"shop"⟩ (.directory entries) = true := by
      rw [← hentries]
      decide
    simp [leads, repositoryEntries, hdirectories, hmanifest]
  have hplace : [.ofString "Broken.cs"] ∈ places {} {} ⟨"shop"⟩ (.directory entries) := by
    rw [places, hleads, ← hentries]
    decide
  have hpath := (discovered_paths_perm {} {} brokenShop_wellFormed hroot rfl).mem_iff.mpr
    (List.mem_map.mpr ⟨_, hplace, rfl⟩)
  obtain ⟨u, hu, hpath⟩ := List.mem_map.mp hpath
  have hsource : u.compiled = false := by
    obtain ⟨r, _, hr⟩ := List.mem_flatMap.mp hu
    simpa using (mem_unitsOf hr).2
  have hfault : u.extraction brokenShop {} {} = .error (.unreadable .notText) := by
    rw [FoundUnit.extraction, hsource]
    simp only [sourceFacts, hpath]
    rfl
  have hfailure : ⟨u.origin.path, .unreadable .notText⟩ ∈
      failing brokenShop {} {} (discovered brokenShop {} {} (repositoriesIn ⟨"shop"⟩ (.directory entries))) :=
    mem_failing.mpr ⟨u, hu, rfl, hfault⟩
  rw [outcomeAt_failures]
  exact List.ne_nil_of_mem ((mem_sortBy _).mpr hfailure)

theorem brokenShop_isolates_failures :
    brokenShop.root.WellFormed ∧ ∃ outcome,
      analyze (.ofEpoch 0) brokenShop {} {} (Module.read brokenShop) ⟨"shop"⟩ = .ok outcome ∧
      outcome.failures ≠ [] ∧
      (∃ repositories, repositories? brokenShop ⟨"shop"⟩ = some repositories ∧
        IsOutcomeOf brokenShop {} {} (discovered brokenShop {} {} repositories) outcome) ∧
      (∀ later : Timestamp, ∃ outcome',
        analyze later (brokenShop.without (outcome.failures.map UnitFailure.path)) {} {}
            (Module.read (brokenShop.without (outcome.failures.map UnitFailure.path))) ⟨"shop"⟩ =
              .ok outcome' ∧
          outcome'.report.toFacts = outcome.report.toFacts ∧
          outcome'.report.repositoryCount = outcome.report.repositoryCount ∧ outcome'.failures = []) ∧
      outcome.report.toFacts.projectCount ≤ outcome.report.projectCount := by
  have hrepositories : repositories? brokenShop ⟨"shop"⟩ = some _ := rfl
  have hvalid : ({} : Indicators).missing? = none := by decide
  have hrun : analyze (.ofEpoch 0) brokenShop {} {} (Module.read brokenShop) ⟨"shop"⟩ = .ok _ :=
    analyze_eq_ok_iff.mpr ⟨hvalid, _, hrepositories, rfl⟩
  have hfailures := brokenShop_failures_ne_nil (.ofEpoch 0) hrepositories
  exact ⟨brokenShop_wellFormed, _, hrun, hfailures, analyze_isolates_failures brokenShop_wellFormed rfl hrun⟩

end Analysis

end EventAtlas
