import EventAtlas.Proofs.Files.Growth

namespace EventAtlas

open EventAtlas.Path (IsEntryName)
open FileTree (Grown Unnoticed)

theorem Text.not_mem_of_mem_splitAtMark {α : Type} [DecidableEq α] {mark : α} {s piece : List α}
    (h : piece ∈ splitAtMark mark s) : mark ∉ piece := by
  induction s generalizing piece with
  | nil =>
    obtain rfl := List.mem_singleton.mp h
    simp
  | cons c rest ih =>
    rw [splitAtMark] at h
    split_ifs at h with hc
    · rcases List.mem_cons.mp h with rfl | h
      · simp
      · exact ih h
    · split at h
      · obtain rfl := List.mem_singleton.mp h
        simpa using Ne.symm hc
      · rename_i first more hsplit
        rcases List.mem_cons.mp h with rfl | h
        · have hfirst := ih (hsplit ▸ List.mem_cons_self)
          simp [hfirst, Ne.symm hc]
        · exact ih (hsplit ▸ List.mem_cons_of_mem _ h)

namespace Path

private theorem isEntryName_of_mem_filterMap {s : List UInt8} {name : RawText}
    (h : .name name ∈ (pieces s).filterMap step?) : IsEntryName name := by
  obtain ⟨piece, hpiece, hstep⟩ := List.mem_filterMap.mp h
  have hslash := Text.not_mem_of_mem_splitAtMark hpiece
  unfold step? at hstep
  split_ifs at hstep with hnone hparent
  · simp at hstep
  · obtain rfl := Component.name.inj (Option.some.inj hstep)
    obtain ⟨hempty, hcurrent⟩ := not_or.mp hnone
    exact ⟨fun h => hempty (congrArg RawText.bytes h), fun h => hcurrent (congrArg RawText.bytes h),
      fun h => hparent (congrArg RawText.bytes h), hslash⟩

private theorem isEntryName_of_mem_components {p : Path} {name : RawText} (h : .name name ∈ p.components) :
    IsEntryName name := by
  unfold components start at h
  split_ifs at h <;> exact isEntryName_of_mem_filterMap (by simpa using h)

end Path

namespace FileSystem

def follow (names : List RawText) : Path.Component → List RawText
  | .root => []
  | .current => names
  | .parent => names.dropLast
  | .name s => names ++ [s]

/-- The places that steps lead through. -/
def along (names : List RawText) : List Path.Component → List (List RawText)
  | [] => []
  | c :: rest => follow names c :: along (follow names c) rest

/-- The place that a path leads to. -/
def placeOf (fs : FileSystem) (p : Path) : List RawText := p.components.foldl follow fs.current

private theorem follow_of_step {tree : FileTree} {names next : List RawText} {c : Path.Component}
    (h : step tree names c = .ok next) : next = follow names c := by
  unfold step at h
  cases c with
  | root => exact (Except.ok.inj h).symm
  | current => exact (Except.ok.inj h).symm
  | parent =>
    dsimp only at h
    split at h
    · exact (Except.ok.inj h).symm
    · simp at h
  | name s =>
    dsimp only at h
    split at h
    · split_ifs at h
      exact (Except.ok.inj h).symm
    · simp at h

theorem steps_cons_eq_ok_iff {tree : FileTree} {names final : List RawText} {c : Path.Component}
    {rest : List Path.Component} :
    (c :: rest).foldlM (step tree) names = .ok final ↔
      ∃ next, step tree names c = .ok next ∧ rest.foldlM (step tree) next = .ok final := by
  rw [List.foldlM_cons]
  cases step tree names c with
  | error fault => simp [bind, Except.bind]
  | ok next => simp [bind, Except.bind]

private theorem foldl_follow_of_steps {tree : FileTree} {names final : List RawText} {steps : List Path.Component}
    (h : steps.foldlM (step tree) names = .ok final) : final = steps.foldl follow names := by
  induction steps generalizing names with
  | nil => exact (Except.ok.inj h).symm
  | cons c rest ih =>
    obtain ⟨next, hstep, hrest⟩ := steps_cons_eq_ok_iff.mp h
    obtain rfl := follow_of_step hstep
    exact ih hrest

private theorem placeOf_eq_of_locate {fs : FileSystem} {p : Path} {names : List RawText} {tree : FileTree}
    (h : fs.locate p = .ok (names, tree)) : names = fs.placeOf p :=
  foldl_follow_of_steps (locate_eq_ok_iff.mp h).2.1

theorem placeOf_eq_of_current {fs fs' : FileSystem} (h : fs'.current = fs.current) (p : Path) :
    fs'.placeOf p = fs.placeOf p := by
  rw [placeOf, placeOf, h]

private theorem foldl_follow_mem (names : List RawText) (steps : List Path.Component) :
    steps.foldl follow names ∈ names :: along names steps := by
  induction steps generalizing names with
  | nil => simp
  | cons c rest ih => exact List.mem_cons_of_mem _ (ih (follow names c))

private theorem step_eq_follow {tree : FileTree} {names : List RawText} {c : Path.Component}
    (hnames : DirectoryAt tree names) (hnext : DirectoryAt tree (follow names c)) :
    step tree names c = .ok (follow names c) := by
  obtain ⟨entries, hentries⟩ := hnames
  cases c with
  | root => rfl
  | current => rfl
  | parent => simp [step, follow, hentries]
  | name s =>
    obtain ⟨below, hbelow⟩ := hnext
    rw [follow, FileTree.find?_append, hentries, Option.bind_some, FileTree.find?_singleton] at hbelow
    simp [step, follow, hentries, hbelow]

private theorem steps_eq_follow {tree : FileTree} {names : List RawText} {steps : List Path.Component}
    (hnames : DirectoryAt tree names) (halong : ∀ place ∈ along names steps, DirectoryAt tree place) :
    steps.foldlM (step tree) names = .ok (steps.foldl follow names) := by
  induction steps generalizing names with
  | nil => rfl
  | cons c rest ih =>
    have hnext := halong (follow names c) List.mem_cons_self
    refine steps_cons_eq_ok_iff.mpr ⟨_, step_eq_follow hnames hnext, ih hnext ?_⟩
    exact fun place hplace => halong place (List.mem_cons_of_mem _ hplace)

section

variable {fs : FileSystem} {p : Path} (hcurrent : DirectoryAt fs.root fs.current)
  (halong : ∀ place ∈ along fs.current p.components, DirectoryAt fs.root place)

include hcurrent halong

/-- A path through directories leads to one. -/
theorem directoryAt_placeOf : DirectoryAt fs.root (fs.placeOf p) := by
  rcases List.mem_cons.mp (foldl_follow_mem fs.current p.components) with heq | hmem
  · rw [placeOf, heq]
    exact hcurrent
  · exact halong _ hmem

/-- A path that leads through directories only can be followed. -/
theorem locate_eq_placeOf (htext : p.text.bytes ≠ []) :
    ∃ entries, fs.locate p = .ok (fs.placeOf p, .directory entries) := by
  obtain ⟨entries, hentries⟩ := directoryAt_placeOf hcurrent halong
  exact ⟨entries, locate_eq_ok_iff.mpr ⟨htext, steps_eq_follow hcurrent halong, hentries, fun _ => rfl⟩⟩

end

private theorem step_of_grown {idle : RawText → Bool} {before after : FileTree} (h : Grown idle before after)
    {names next : List RawText} {c : Path.Component} (hstep : step before names c = .ok next) :
    step after names c = .ok next := by
  cases c with
  | root => exact hstep
  | current => exact hstep
  | parent =>
    obtain ⟨entries, hentries⟩ := directoryAt_of_step (by simp [Path.IsPlain]) hstep
    obtain ⟨entries', hentries'⟩ := h.directoryAt ⟨entries, hentries⟩
    rw [← hstep]
    simp [step, hentries, hentries']
  | name s =>
    obtain ⟨entries, hentries⟩ := directoryAt_of_step (by simp [Path.IsPlain]) hstep
    obtain ⟨entries', hentries'⟩ := h.directoryAt ⟨entries, hentries⟩
    simp only [step, hentries] at hstep
    split_ifs at hstep with hsome
    obtain ⟨found, hfound⟩ := Option.isSome_iff_exists.mp hsome
    obtain ⟨found', hfound', _⟩ := h.kept (names ++ [s]) found (by
      simp [FileTree.find?_append, hentries, FileTree.find?, FileTree.entries, hfound])
    have hlookup : entries'.lookup s = some found' := by
      rw [FileTree.find?_append, hentries'] at hfound'
      simpa [FileTree.find?, FileTree.entries] using hfound'
    rw [← hstep]
    simp [step, hentries', hlookup]

private theorem steps_of_grown {idle : RawText → Bool} {before after : FileTree} (h : Grown idle before after)
    {names final : List RawText} {steps : List Path.Component}
    (hsteps : steps.foldlM (step before) names = .ok final) : steps.foldlM (step after) names = .ok final := by
  induction steps generalizing names with
  | nil => exact hsteps
  | cons c rest ih =>
    obtain ⟨next, hstep, hrest⟩ := steps_cons_eq_ok_iff.mp hsteps
    exact steps_cons_eq_ok_iff.mpr ⟨next, step_of_grown h hstep, ih hrest⟩

/-- A directory stays where it is while the tree grows. -/
theorem locate_of_grown {idle : RawText → Bool} {fs fs' : FileSystem} (h : Grown idle fs.root fs'.root)
    (hcurrent : fs'.current = fs.current) {p : Path} {names : List RawText}
    {entries : List (RawText × FileTree)} (hp : fs.locate p = .ok (names, .directory entries)) :
    ∃ entries', fs'.locate p = .ok (names, .directory entries') := by
  obtain ⟨htext, hsteps, hfound, -⟩ := locate_eq_ok_iff.mp hp
  obtain ⟨entries', hentries'⟩ := h.directoryAt ⟨entries, hfound⟩
  refine ⟨entries', locate_eq_ok_iff.mpr ⟨htext, ?_, hentries', fun _ => rfl⟩⟩
  rw [hcurrent]
  exact steps_of_grown h hsteps

/-- At the given places there are directories now, which is all that is new. -/
structure MadeAt (tree tree' : FileTree) (places : List (List RawText)) : Prop where
  wellFormed : tree'.WellFormed
  grown : ∀ idle, Grown idle tree tree'
  made : ∀ place ∈ places, DirectoryAt tree' place
  before : ∀ place ∈ places, tree.nodeAt? place = none ∨ DirectoryAt tree place
  elsewhere : ∀ place, place ∉ places → tree'.nodeAt? place = tree.nodeAt? place

namespace MadeAt

variable {tree tree₁ tree' : FileTree} {names : List RawText}

private theorem nothing (h : tree.WellFormed) : MadeAt tree tree [] where
  wellFormed := h
  grown _ := .refl tree
  made := by simp
  before := by simp
  elsewhere _ _ := rfl

theorem old (h : tree.WellFormed) (hnames : DirectoryAt tree names) : MadeAt tree tree [names] where
  wellFormed := h
  grown _ := .refl tree
  made _ hplace := List.mem_singleton.mp hplace ▸ hnames
  before _ hplace := .inr (List.mem_singleton.mp hplace ▸ hnames)
  elsewhere _ _ := rfl

theorem new (h : tree.WellFormed) (hnames : DirectoryAt tree names) {s : RawText} (hs : IsEntryName s)
    (hnone : tree.find? (names ++ [s]) = none) :
    MadeAt tree (tree.put (names ++ [s]) (.directory [])) [names ++ [s]] := by
  have hold : ¬DirectoryAt tree (names ++ [s]) := by
    rintro ⟨entries, hentries⟩
    simp [hnone] at hentries
  have hnode (place : List RawText) : (tree.put (names ++ [s]) (.directory [])).nodeAt? place =
      if place = names ++ [s] then some .directory else tree.nodeAt? place :=
    FileTree.nodeAt?_put hnames rfl hold place
  obtain ⟨entries, hentries⟩ := hnames
  constructor
  · refine h.put ?_ (.directory .nil (by simp) (by simp))
    intro n hn
    rcases List.mem_append.mp hn with hn | hn
    · exact (h.find? hentries).2 n hn
    · exact List.mem_singleton.mp hn ▸ hs
  · intro idle
    refine Unnoticed.put ⟨entries, hentries⟩ ?_
    rw [hnone]
    exact .newDirectory
  · intro place hplace
    rw [← FileTree.nodeAt?_eq_directory_iff, hnode, if_pos (List.mem_singleton.mp hplace)]
  · intro place hplace
    obtain rfl := List.mem_singleton.mp hplace
    exact .inl (by simp [FileTree.nodeAt?, hnone])
  · intro place hplace
    rw [hnode, if_neg (by simpa using hplace)]

theorem append {places more : List (List RawText)} (h : MadeAt tree tree₁ places)
    (h' : MadeAt tree₁ tree' more) : MadeAt tree tree' (places ++ more) where
  wellFormed := h'.wellFormed
  grown idle := (h.grown idle).trans (h'.grown idle)
  made place hplace := by
    rcases List.mem_append.mp hplace with hplace | hplace
    · exact (h'.grown fun _ => false).directoryAt (h.made place hplace)
    · exact h'.made place hplace
  before place hplace := by
    by_cases hfirst : place ∈ places
    · exact h.before place hfirst
    · have hmore := h'.before place ((List.mem_append.mp hplace).resolve_left hfirst)
      rwa [← FileTree.nodeAt?_eq_directory_iff, h.elsewhere place hfirst,
        FileTree.nodeAt?_eq_directory_iff] at hmore
  elsewhere place hplace := by
    rw [List.mem_append, not_or] at hplace
    rw [h'.elsewhere place hplace.2, h.elsewhere place hplace.1]

end MadeAt

/-- One step of making directories. -/
theorem makeDirectories_cons {inside made : Bool} {tree tree' : FileTree} {names : List RawText}
    {c : Path.Component} {rest : List Path.Component} (htree : tree.WellFormed)
    (hnames : DirectoryAt tree names) (hproper : ∀ s, c = .name s → IsEntryName s)
    (h : makeDirectories inside tree names made (c :: rest) = .ok tree') :
    ∃ tree₁ made', MadeAt tree tree₁ [follow names c] ∧
      makeDirectories inside tree₁ (follow names c) made' rest = .ok tree' := by
  cases c with
  | root =>
    refine ⟨tree, made, .old htree ?_, h⟩
    exact FileTree.directoryAt_of_append (show DirectoryAt tree ([] ++ names) from hnames)
  | current => exact ⟨tree, made, .old htree hnames, h⟩
  | parent =>
    refine ⟨tree, made, .old htree ?_, h⟩
    rcases List.eq_nil_or_concat' names with rfl | ⟨before, last, rfl⟩
    · exact hnames
    · rw [follow, List.dropLast_concat]
      exact FileTree.directoryAt_of_append hnames
  | name s =>
    rw [makeDirectories] at h
    split at h
    · exact ⟨tree, made, .old htree ⟨_, by assumption⟩, h⟩
    · simp at h
    · split_ifs at h
      exact ⟨_, true, .new htree hnames (hproper s rfl) (by assumption), h⟩

private theorem makeDirectories_madeAt {inside made : Bool} {tree tree' : FileTree} {names : List RawText}
    {steps : List Path.Component} (htree : tree.WellFormed) (hnames : DirectoryAt tree names)
    (hproper : ∀ s, .name s ∈ steps → IsEntryName s)
    (h : makeDirectories inside tree names made steps = .ok tree') : MadeAt tree tree' (along names steps) := by
  induction steps generalizing tree names made with
  | nil =>
    obtain rfl := Except.ok.inj h
    exact .nothing htree
  | cons c rest ih =>
    obtain ⟨tree₁, made', hfirst, hrest⟩ := makeDirectories_cons htree hnames
      (fun s hs => hproper s (hs ▸ List.mem_cons_self)) h
    have hnext := hfirst.made _ (List.mem_singleton.mpr rfl)
    exact hfirst.append (ih hfirst.wellFormed hnext (fun s hs => hproper s (List.mem_cons_of_mem _ hs)) hrest)

/-- The names in the tree are proper, and the current directory is one. -/
structure Proper (fs : FileSystem) : Prop where
  wellFormed : fs.root.WellFormed
  current : DirectoryAt fs.root fs.current

section

variable {fs fs' : FileSystem} (hfs : fs.Proper) {p : Path} (h : fs.createDirectory p = .ok fs')

include hfs h

/-- Making a directory makes the directories along its path and nothing else. -/
theorem createDirectory_madeAt :
    fs'.current = fs.current ∧ MadeAt fs.root fs'.root (along fs.current p.components) := by
  unfold createDirectory at h
  split at h
  · obtain rfl := Except.ok.inj h
    refine ⟨rfl, makeDirectories_madeAt hfs.wellFormed hfs.current ?_ (by assumption)⟩
    exact fun s hs => Path.isEntryName_of_mem_components hs
  · simp at h

/-- The path leads through directories now. -/
theorem createDirectory_directories : DirectoryAt fs'.root fs'.current ∧
    ∀ place ∈ along fs'.current p.components, DirectoryAt fs'.root place := by
  obtain ⟨hcurrent, hmade⟩ := createDirectory_madeAt hfs h
  rw [hcurrent]
  exact ⟨(hmade.grown fun _ => false).directoryAt hfs.current, hmade.made⟩

end

/-- There is a file at the given place now, which is all that is new. -/
structure WrittenAt (tree tree' : FileTree) (place : List RawText) (bytes : ByteArray) : Prop where
  wellFormed : tree'.WellFormed
  grown : ∀ idle : RawText → Bool, (∀ name ∈ place.getLast?, idle name = true) → Grown idle tree tree'
  before : ¬DirectoryAt tree place
  nodeAt? : ∀ names, tree'.nodeAt? names = if names = place then some (.file bytes) else tree.nodeAt? names

private theorem writeFile_eq_ok {fs fs' : FileSystem} {p : Path} {name : RawText} {text : String}
    (h : fs.writeFile p name text = .ok fs') :
    ∃ names tree, fs.locate p = .ok (names, tree) ∧
      (∀ entries, tree.entries.lookup name ≠ some (.directory entries)) ∧
        fs' = { fs with root := fs.root.put (names ++ [name]) (.file text.toUTF8) } := by
  unfold writeFile at h
  cases hlocate : fs.locate p with
  | error fault => simp [hlocate, bind, Except.bind] at h
  | ok found =>
    obtain ⟨names, tree⟩ := found
    simp only [hlocate, bind, Except.bind, pure, Except.pure, throw, throwThe, MonadExceptOf.throw] at h
    split at h
    · simp at h
    · rename_i hnot
      exact ⟨names, tree, rfl, hnot, (Except.ok.inj h).symm⟩

/-- A file can be written into a directory where no directory has its name. -/
theorem exists_writeFile {fs : FileSystem} {p : Path} {names : List RawText} {entries : List (RawText × FileTree)}
    (hp : fs.locate p = .ok (names, .directory entries)) {name : RawText}
    (hname : ¬DirectoryAt fs.root (names ++ [name])) (text : String) :
    ∃ fs', fs.writeFile p name text = .ok fs' := by
  have hfound := (locate_eq_ok_iff.mp hp).2.2.1
  unfold writeFile
  simp only [hp, bind, Except.bind, pure, Except.pure, FileTree.entries]
  split
  · rename_i inner hinner
    refine absurd ⟨inner, ?_⟩ hname
    rw [FileTree.find?_append, hfound, Option.bind_some, FileTree.find?_singleton, hinner]
  · exact ⟨_, rfl⟩

/-- Writing a file changes this one file and nothing else. -/
theorem writeFile_writtenAt {fs fs' : FileSystem} {p : Path} {name : RawText} {text : String} (hfs : fs.root.WellFormed)
    (hplace : DirectoryAt fs.root (fs.placeOf p)) (hname : IsEntryName name)
    (h : fs.writeFile p name text = .ok fs') :
    fs'.current = fs.current ∧ WrittenAt fs.root fs'.root (fs.placeOf p ++ [name]) text.toUTF8 := by
  obtain ⟨names, tree, hlocate, hnot, rfl⟩ := writeFile_eq_ok h
  obtain rfl := placeOf_eq_of_locate hlocate
  obtain ⟨entries, hentries⟩ := hplace
  obtain rfl : tree = .directory entries :=
    Option.some.inj ((locate_eq_ok_iff.mp hlocate).2.2.1.symm.trans hentries)
  have hlookup : fs.root.find? (fs.placeOf p ++ [name]) = entries.lookup name := by
    rw [FileTree.find?_append, hentries, Option.bind_some, FileTree.find?_singleton]
  have hold : ¬DirectoryAt fs.root (fs.placeOf p ++ [name]) := by
    rintro ⟨inner, hinner⟩
    exact hnot inner (hlookup ▸ hinner)
  refine ⟨rfl, ?_, ?_, hold, FileTree.nodeAt?_put ⟨entries, hentries⟩ rfl hold⟩
  · refine hfs.put ?_ (.file _)
    intro n hn
    rcases List.mem_append.mp hn with hn | hn
    · exact (hfs.find? hentries).2 n hn
    · exact List.mem_singleton.mp hn ▸ hname
  · intro idle hidle
    refine Unnoticed.put ⟨entries, hentries⟩ (.idleFile ?_ (hidle name (by simp)) _)
    rw [hlookup]
    exact hnot

end FileSystem

end EventAtlas
