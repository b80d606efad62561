import EventAtlas.Command.Run
import EventAtlas.Proofs.Analysis.Growth
import EventAtlas.Proofs.Export.Json

namespace EventAtlas

open FileSystem (DirectoryAt MadeAt WrittenAt along)
open FileTree (Grown)

namespace Format

/-- Whether a report can have the name. -/
def isFileName (name : RawText) : Bool := all.any (.ofString ·.fileName == name)

private theorem isFileName_fileName (f : Format) : isFileName f.fileName = true := by
  cases f <;> decide

theorem fileName_isEntryName (f : Format) : Path.IsEntryName f.fileName := by
  cases f <;> decide

theorem fileName_inj {f g : Format} (h : RawText.ofString f.fileName = g.fileName) : f = g := by
  cases f <;> cases g <;> first | rfl | exact absurd h (by decide)

/-- A report is no manifest, no source file and no module dump. -/
theorem isFileName_unread : Discovery.Unread isFileName := by
  have hname {name : RawText} (h : isFileName name = true) : ∃ f : Format, .ofString f.fileName = name := by
    obtain ⟨f, _, hf⟩ := List.any_eq_true.mp h
    exact ⟨f, beq_iff_eq.mp hf⟩
  constructor
  all_goals
    intro name h
    obtain ⟨f, rfl⟩ := hname h
    cases f <;> decide

end Format

/-- Default indicators and those of a file have all the lists that analysis needs. -/
theorem Arguments.missing?_of_loadIndicators {a : Arguments} {fs : FileSystem} {s : Indicators}
    (h : a.loadIndicators fs = .ok s) : s.missing? = none := by
  have hvalidate {s s' : Indicators} (h : s.validate = .ok s') : s'.missing? = none := by
    unfold Indicators.validate at h
    split at h
    · simp at h
    · obtain rfl := Except.ok.inj h
      assumption
  unfold loadIndicators Indicators.load Indicators.ofText at h
  split at h
  · obtain rfl := Except.ok.inj h
    decide
  · split at h
    · rename_i hload
      obtain rfl := Except.ok.inj h
      split at hload
      · simp at hload
      · split at hload
        · simp at hload
        · exact hvalidate hload
    · simp at h

theorem Analysis.analyze_of_valid {s : Indicators} (hvalid : s.missing? = none) (now : Timestamp)
    (fs : FileSystem) (o : Options) (read : ModuleReader) (root : Path) :
    analyze now fs s o read root = (survey fs s o read root).map (outcomeOf now s o) := by
  unfold analyze Indicators.validate
  simp only [hvalid]
  cases survey fs s o read root <;> rfl

/-- There is a report for each of the formats now, which is all that is new. -/
structure ReportsAt (place : List RawText) (report : Report) (formats : List Format) (tree tree' : FileTree) :
    Prop where
  wellFormed : tree'.WellFormed
  grown : Grown Format.isFileName tree tree'
  written : ∀ f ∈ formats, ∃ text, f.render? report = some text ∧
    tree'.nodeAt? (place ++ [.ofString f.fileName]) = some (.file text.toUTF8)
  before : ∀ f ∈ formats, ¬DirectoryAt tree (place ++ [.ofString f.fileName])
  elsewhere : ∀ names, (∀ f ∈ formats, names ≠ place ++ [.ofString f.fileName]) →
    tree'.nodeAt? names = tree.nodeAt? names

namespace ReportsAt

variable {place : List RawText} {report : Report} {tree tree₁ tree' : FileTree}

theorem nil (h : tree.WellFormed) : ReportsAt place report [] tree tree where
  wellFormed := h
  grown := .refl tree
  written := by simp
  before := by simp
  elsewhere _ _ := rfl

theorem cons {f : Format} {rest : List Format} {text : String} (htext : f.render? report = some text)
    (h : WrittenAt tree tree₁ (place ++ [.ofString f.fileName]) text.toUTF8)
    (hrest : ReportsAt place report rest tree₁ tree') : ReportsAt place report (f :: rest) tree tree' := by
  have hother {g : Format} (hne : g ≠ f) : place ++ [.ofString g.fileName] ≠ place ++ [.ofString f.fileName] := by
    intro heq
    exact hne (Format.fileName_inj (by simpa using heq))
  have hgrown : Grown Format.isFileName tree tree₁ := by
    apply h.grown
    simp [Format.isFileName_fileName]
  refine ⟨hrest.wellFormed, hgrown.trans hrest.grown, ?_, ?_, ?_⟩
  · intro g hg
    by_cases hmem : g ∈ rest
    · exact hrest.written g hmem
    · obtain rfl := (List.mem_cons.mp hg).resolve_right hmem
      refine ⟨text, htext, ?_⟩
      rw [hrest.elsewhere, h.nodeAt?, if_pos rfl]
      intro f hf
      exact (hother fun heq => hmem (heq ▸ hf)).symm
  · intro g hg
    by_cases heq : g = f
    · exact heq ▸ h.before
    · have hlater := hrest.before g ((List.mem_cons.mp hg).resolve_left heq)
      rwa [← FileTree.nodeAt?_eq_directory_iff, h.nodeAt?, if_neg (hother heq),
        FileTree.nodeAt?_eq_directory_iff] at hlater
  · intro names hnames
    rw [hrest.elsewhere names fun g hg => hnames g (List.mem_cons_of_mem _ hg), h.nodeAt?,
      if_neg (hnames f List.mem_cons_self)]

end ReportsAt

namespace Arguments

variable {a : Arguments} {now : Timestamp} {fs : FileSystem}

private theorem writeReports_reportsAt {report : Report} {formats : List Format} (hfs : fs.root.WellFormed)
    (hplace : DirectoryAt fs.root (fs.placeOf a.outputDir))
    (h : (a.writeReports report fs formats).failure = none) :
    (a.writeReports report fs formats).files.current = fs.current ∧
      ReportsAt (fs.placeOf a.outputDir) report formats fs.root (a.writeReports report fs formats).files.root := by
  induction formats generalizing fs with
  | nil => exact ⟨rfl, .nil hfs⟩
  | cons f rest ih =>
    rw [writeReports] at h ⊢
    cases htext : f.render? report with
    | none => simp [htext] at h
    | some text =>
      simp only [htext] at h ⊢
      cases hwrite : fs.writeFile a.outputDir f.fileName text with
      | error fault => simp [hwrite] at h
      | ok fs₁ =>
        simp only [hwrite] at h ⊢
        obtain ⟨hcurrent, hwritten⟩ := FileSystem.writeFile_writtenAt hfs hplace f.fileName_isEntryName hwrite
        have hsame := FileSystem.placeOf_eq_of_current hcurrent a.outputDir
        have hgrown := hwritten.grown (fun _ => true) (by simp)
        obtain ⟨hcurrent', hrest⟩ := ih hwritten.wellFormed (hsame ▸ hgrown.directoryAt hplace) h
        exact ⟨hcurrent'.trans hcurrent, .cons htext hwritten (hsame ▸ hrest)⟩

private theorem writeReports_succeeds {report : Report} {formats : List Format} {entries : List (RawText × FileTree)}
    (hheld : ∀ f ∈ formats, (f.render? report).isSome = true) (hfs : fs.root.WellFormed)
    (hlocate : fs.locate a.outputDir = .ok (fs.placeOf a.outputDir, .directory entries))
    (hfree : ∀ f ∈ formats, ¬DirectoryAt fs.root (fs.placeOf a.outputDir ++ [.ofString f.fileName])) :
    (a.writeReports report fs formats).failure = none := by
  induction formats generalizing fs entries with
  | nil => rfl
  | cons f rest ih =>
    obtain ⟨text, htext⟩ := Option.isSome_iff_exists.mp (hheld f List.mem_cons_self)
    obtain ⟨fs₁, hwrite⟩ := FileSystem.exists_writeFile hlocate (hfree f List.mem_cons_self) text
    have hplace : DirectoryAt fs.root (fs.placeOf a.outputDir) :=
      ⟨entries, (FileSystem.locate_eq_ok_iff.mp hlocate).2.2.1⟩
    obtain ⟨hcurrent, hwritten⟩ := FileSystem.writeFile_writtenAt hfs hplace f.fileName_isEntryName hwrite
    have hsame := FileSystem.placeOf_eq_of_current hcurrent a.outputDir
    obtain ⟨entries', hlocate'⟩ := FileSystem.locate_of_grown (hwritten.grown (fun _ => true) (by simp))
      hcurrent hlocate
    simp only [writeReports, htext, hwrite]
    refine ih (fun g hg => hheld g (List.mem_cons_of_mem _ hg)) hwritten.wellFormed (hsame ▸ hlocate') ?_
    intro g hg
    rw [hsame, ← FileTree.nodeAt?_eq_directory_iff, hwritten.nodeAt?]
    split_ifs
    · simp
    · rw [FileTree.nodeAt?_eq_directory_iff]
      exact hfree g (List.mem_cons_of_mem _ hg)

/-- The output directory can be made, and no directory is in the way of a report. Where JSON is asked for, all
paths of the report are texts. -/
def CanDeliver (a : Arguments) (report : Report) (fs : FileSystem) : Prop :=
  a.outputDir.text ≠ "" ∧ (∃ fs₁, fs.createDirectory a.outputDir = .ok fs₁ ∧
    ∀ f ∈ a.formats, ¬DirectoryAt fs₁.root (fs.placeOf a.outputDir ++ [.ofString f.fileName])) ∧
    (.json ∈ a.formats → report.toFacts.HasTextPaths)

/-- A run whose reports can be written succeeds. -/
theorem run_succeeds {s : Indicators} {results : List Analysis.RepositoryResults} (hfs : fs.Proper)
    (hload : a.loadIndicators fs = .ok s)
    (hsurvey : Analysis.survey fs s a.options (Module.read fs) a.input = .ok results)
    (h : a.CanDeliver (Analysis.outcomeOf now s a.options results).report fs) :
    (a.run now fs).failure = none := by
  obtain ⟨htext, ⟨fs₁, hcreate, hfree⟩, hpaths⟩ := h
  obtain ⟨hcurrent, hmade⟩ := FileSystem.createDirectory_madeAt hfs hcreate
  obtain ⟨hhere, halong⟩ := FileSystem.createDirectory_directories hfs hcreate
  obtain ⟨entries, hlocate⟩ := FileSystem.locate_eq_placeOf hhere halong
    fun hbytes => htext (RawText.ext hbytes)
  simp only [run, hload, hsurvey, finish, hcreate]
  refine writeReports_succeeds ?_ hmade.wellFormed hlocate ?_
  · intro f hf
    cases f with
    | json =>
      rw [Format.render?, Report.jsonText?, Option.isSome_map, Report.exportJson?_isSome_iff]
      exact hpaths (List.mem_eraseDups.mp hf)
    | markdown => rfl
    | cypher => rfl
  · intro f hf
    rw [FileSystem.placeOf_eq_of_current hcurrent]
    exact hfree f (List.mem_eraseDups.mp hf)

/-- What a run that succeeds did. -/
theorem run_eq_of_success (h : (a.run now fs).failure = none) :
    ∃ s results fs₁, a.loadIndicators fs = .ok s ∧
      Analysis.survey fs s a.options (Module.read fs) a.input = .ok results ∧
      fs.createDirectory a.outputDir = .ok fs₁ ∧
      let report := (Analysis.outcomeOf now s a.options results).report
      let result := a.writeReports report fs₁ (Format.distinct a.formats)
      result.failure = none ∧ (a.run now fs).files = result.files := by
  unfold run at h ⊢
  cases hload : a.loadIndicators fs with
  | error error => simp [hload] at h
  | ok s =>
    simp only [hload] at h ⊢
    cases hsurvey : Analysis.survey fs s a.options (Module.read fs) a.input with
    | error error => simp [hsurvey] at h
    | ok results =>
      simp only [hsurvey, finish] at h ⊢
      cases hcreate : fs.createDirectory a.outputDir with
      | error fault => simp [hcreate] at h
      | ok fs₁ =>
        simp only [hcreate] at h ⊢
        exact ⟨s, results, fs₁, rfl, hsurvey, rfl, h, rfl⟩

/-- The output directory and those on the way to it are there, with a report for each format that was asked
for. Nothing else is new. -/
structure Delivered (a : Arguments) (report : Report) (fs after : FileSystem) : Prop where
  current : after.current = fs.current
  directories : ∀ place ∈ along fs.current a.outputDir.components,
    (fs.root.nodeAt? place = none ∨ fs.root.nodeAt? place = some .directory) ∧
      after.root.nodeAt? place = some .directory
  reports : ∀ f ∈ a.formats, fs.root.nodeAt? (fs.placeOf a.outputDir ++ [.ofString f.fileName]) ≠ some .directory ∧
    ∃ text, f.render? report = some text ∧
      after.root.nodeAt? (fs.placeOf a.outputDir ++ [.ofString f.fileName]) = some (.file text.toUTF8)
  apart : ((Format.distinct a.formats).map fun f => fs.placeOf a.outputDir ++ [.ofString f.fileName]).Nodup
  elsewhere : ∀ names, names ∉ along fs.current a.outputDir.components →
    (∀ f ∈ a.formats, names ≠ fs.placeOf a.outputDir ++ [.ofString f.fileName]) →
      after.root.nodeAt? names = fs.root.nodeAt? names

/-- The file system of a run that succeeds has grown by its output. -/
theorem delivered_of_parts {report : Report} {fs₁ fs₂ : FileSystem} (hcurrent : fs₂.current = fs.current)
    (hmade : MadeAt fs.root fs₁.root (along fs.current a.outputDir.components))
    (hreports : ReportsAt (fs.placeOf a.outputDir) report (Format.distinct a.formats) fs₁.root fs₂.root) :
    Delivered a report fs fs₂ := by
  have hformats {f : Format} : f ∈ Format.distinct a.formats ↔ f ∈ a.formats := List.mem_eraseDups
  refine ⟨hcurrent, ?_, ?_, ?_, ?_⟩
  · intro place hplace
    rw [FileTree.nodeAt?_eq_directory_iff, FileTree.nodeAt?_eq_directory_iff]
    exact ⟨hmade.before place hplace, hreports.grown.directoryAt (hmade.made place hplace)⟩
  · intro f hf
    refine ⟨fun hold => hreports.before f (hformats.mpr hf) ?_, hreports.written f (hformats.mpr hf)⟩
    exact (hmade.grown fun _ => false).directoryAt (FileTree.nodeAt?_eq_directory_iff.mp hold)
  · refine (nodup_eraseDups a.formats).map fun f g heq => Format.fileName_inj ?_
    simpa using heq
  · intro names halong hnames
    rw [hreports.elsewhere names fun f hf => hnames f (hformats.mp hf), hmade.elsewhere names halong]

/-- A run that cannot begin leaves all files as they are. A run that succeeds leaves its reports and the
directories they lie in, which another analysis takes no notice of. -/
theorem run_leaves_only_reports (hfs : fs.Proper) (a : Arguments) (now : Timestamp) :
    (∀ error, a.loadIndicators fs = .error error →
      (a.run now fs).failure = some error ∧ (a.run now fs).files = fs) ∧
    (∀ s error, a.loadIndicators fs = .ok s →
      Analysis.analyze now fs s a.options (Module.read fs) a.input = .error error →
        (a.run now fs).failure = some (.analysis error) ∧ (a.run now fs).files = fs) ∧
    (∀ s outcome, a.loadIndicators fs = .ok s →
      Analysis.analyze now fs s a.options (Module.read fs) a.input = .ok outcome →
        a.CanDeliver outcome.report fs → (a.run now fs).failure = none) ∧
    ((a.run now fs).failure = none → ∃ s outcome, a.loadIndicators fs = .ok s ∧
      Analysis.analyze now fs s a.options (Module.read fs) a.input = .ok outcome ∧
      Delivered a outcome.report fs (a.run now fs).files ∧
      ∀ later, Analysis.analyze later (a.run now fs).files s a.options (Module.read (a.run now fs).files) a.input =
        .ok { outcome with report := { outcome.report with generatedAt := later } }) := by
  refine ⟨?_, ?_, ?_, ?_⟩
  · intro error hload
    simp [run, hload]
  · intro s error hload hanalyze
    rw [Analysis.analyze_of_valid (missing?_of_loadIndicators hload)] at hanalyze
    cases hsurvey : Analysis.survey fs s a.options (Module.read fs) a.input with
    | ok results => simp [hsurvey, Except.map] at hanalyze
    | error cause =>
      obtain rfl : cause = error := by simpa [hsurvey, Except.map] using hanalyze
      simp [run, hload, hsurvey]
  · intro s outcome hload hanalyze hdeliver
    rw [Analysis.analyze_of_valid (missing?_of_loadIndicators hload)] at hanalyze
    cases hsurvey : Analysis.survey fs s a.options (Module.read fs) a.input with
    | error error => simp [hsurvey, Except.map] at hanalyze
    | ok results =>
      obtain rfl : Analysis.outcomeOf now s a.options results = outcome := by
        simpa [hsurvey, Except.map] using hanalyze
      exact run_succeeds hfs hload hsurvey hdeliver
  · intro hsuccess
    obtain ⟨s, results, fs₁, hload, hsurvey, hcreate, hwrite, hfiles⟩ := run_eq_of_success hsuccess
    have hvalid := missing?_of_loadIndicators hload
    obtain ⟨hcurrent, hmade⟩ := FileSystem.createDirectory_madeAt hfs hcreate
    obtain ⟨hhere, halong⟩ := FileSystem.createDirectory_directories hfs hcreate
    obtain ⟨hcurrent', hreports⟩ := writeReports_reportsAt hmade.wellFormed
      (FileSystem.directoryAt_placeOf hhere halong) hwrite
    rw [FileSystem.placeOf_eq_of_current hcurrent] at hreports
    rw [hfiles]
    refine ⟨s, _, hload, ?_, delivered_of_parts (hcurrent'.trans hcurrent) hmade hreports, ?_⟩
    · rw [Analysis.analyze_of_valid hvalid, hsurvey]
      rfl
    · intro later
      have hagain := Analysis.survey_of_grown Format.isFileName_unread hfs.wellFormed hreports.wellFormed
        ((hmade.grown _).trans hreports.grown) (hcurrent'.trans hcurrent) hsurvey
      rw [Analysis.analyze_of_valid hvalid, hagain, Except.map, Analysis.outcomeOf_later now]

/-- Reports that go into the build results of the repository they are about. -/
def shopArguments : Arguments where
  input := ⟨"work"⟩
  outputDir := ⟨"work/shop/bin/out"⟩
  formats := [.json, .cypher, .json]

def shopFileSystem : FileSystem where
  root := .directory [("work", .directory [("shop", .directory [("Shop.csproj", .file "".toUTF8),
    ("Cart.cs", .file "public class Paid : IntegrationEvent \x7b \x7d".toUTF8)])])]

theorem shopFileSystem_rerun :
    shopFileSystem.Proper ∧ (shopArguments.run (.ofEpoch 0) shopFileSystem).failure = none ∧
      ∃ s outcome, shopArguments.loadIndicators shopFileSystem = .ok s ∧
        Analysis.analyze (.ofEpoch 0) shopFileSystem s shopArguments.options (Module.read shopFileSystem)
          shopArguments.input = .ok outcome ∧
        Delivered shopArguments outcome.report shopFileSystem
          (shopArguments.run (.ofEpoch 0) shopFileSystem).files ∧
        ∀ later, Analysis.analyze later (shopArguments.run (.ofEpoch 0) shopFileSystem).files s
            shopArguments.options (Module.read (shopArguments.run (.ofEpoch 0) shopFileSystem).files)
            shopArguments.input =
          .ok { outcome with report := { outcome.report with generatedAt := later } } := by
  have hproper : shopFileSystem.Proper := ⟨by decide, _, rfl⟩
  have hsuccess : (shopArguments.run (.ofEpoch 0) shopFileSystem).failure = none := by decide +kernel
  exact ⟨hproper, hsuccess, (run_leaves_only_reports hproper shopArguments (.ofEpoch 0)).2.2.2 hsuccess⟩

end Arguments

end EventAtlas
