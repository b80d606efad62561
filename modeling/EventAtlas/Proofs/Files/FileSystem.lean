import EventAtlas.Files.FileSystem
import EventAtlas.Proofs.Files.Pruning

namespace EventAtlas

open RawText (slash dot)

namespace Path

/-- Only the first step of a path can be the root or the current directory. -/
def IsPlain (c : Component) : Prop := c ≠ .root ∧ c ≠ .current

private theorem isPlain_of_step? {piece : List UInt8} {c : Component} (h : step? piece = some c) : IsPlain c := by
  unfold step? at h
  split_ifs at h <;> obtain rfl := Option.some.inj h <;> simp [IsPlain]

theorem isPlain_of_mem_filterMap {all : List (List UInt8)} {c : Component}
    (h : c ∈ all.filterMap step?) : IsPlain c := by
  obtain ⟨piece, _, hpiece⟩ := List.mem_filterMap.mp h
  exact isPlain_of_step? hpiece

private theorem isPlain_of_mem_tail {p : Path} {c : Component} (h : c ∈ p.components.tail) : IsPlain c := by
  unfold components start at h
  split_ifs at h
  · exact isPlain_of_mem_filterMap h
  · exact isPlain_of_mem_filterMap h
  · exact isPlain_of_mem_filterMap (List.mem_of_mem_tail h)

/-- The text of a path to an entry is the entry's name, or ends in it behind a slash. -/
theorem bytes_join (p : Path) (name : RawText) :
    (p.join name).text = name ∨ ∃ before, (p.join name).text.bytes = before ++ slash :: name.bytes := by
  unfold join
  split_ifs with hempty hslash
  · exact .inl rfl
  · obtain ⟨before, hbefore⟩ := List.getLast?_eq_some_iff.mp hslash
    refine .inr ⟨before, ?_⟩
    change p.text.bytes ++ name.bytes = _
    rw [hbefore, List.append_assoc]
    rfl
  · exact .inr ⟨p.text.bytes, List.append_assoc p.text.bytes [slash] name.bytes⟩

private theorem join_bytes_ne_nil (p : Path) {name : RawText} (h : IsEntryName name) :
    (p.join name).text.bytes ≠ [] := by
  rcases bytes_join p name with hjoin | ⟨before, hjoin⟩
  · rw [hjoin]
    exact h.bytes_ne_nil
  · simp [hjoin]

private theorem pieces_join_getLast? (p : Path) {name : RawText} (h : IsEntryName name) :
    (pieces (p.join name).text.bytes).getLast? = some name.bytes := by
  rcases bytes_join p name with hjoin | ⟨before, hjoin⟩
  · rw [hjoin, pieces_entryName h, List.getLast?_singleton]
  · rw [hjoin, pieces_append_slash, pieces_entryName h, List.getLast?_concat]

end Path

namespace FileSystem

open EventAtlas.Path (IsEntryName IsPlain)

private theorem asksForDirectory_join (p : Path) {name : RawText} (h : IsEntryName name) :
    asksForDirectory (p.join name) = false := by
  unfold asksForDirectory
  simp [Path.pieces_join_getLast? p h, h.bytes_ne_nil, h.bytes_ne_dot]

theorem locate_eq_ok_iff {fs : FileSystem} {p : Path} {names : List RawText} {tree : FileTree} :
    fs.locate p = .ok (names, tree) ↔
      p.text.bytes ≠ [] ∧ p.components.foldlM (step fs.root) fs.current = .ok names ∧
        fs.root.find? names = some tree ∧ (asksForDirectory p = true → tree.isDirectory = true) := by
  unfold locate
  by_cases htext : p.text.bytes = []
  · simp [htext, bind, Except.bind, throw, throwThe, MonadExceptOf.throw]
  · rw [if_neg htext]
    cases hsteps : p.components.foldlM (step fs.root) fs.current with
    | error fault => simp [bind, Except.bind]
    | ok found =>
      constructor
      · intro h
        simp only [bind, Except.bind, pure, Except.pure, throw, throwThe, MonadExceptOf.throw] at h
        split at h
        · simp at h
        · split_ifs at h with hasks
          obtain ⟨rfl, rfl⟩ := Prod.mk.inj (Except.ok.inj h)
          exact ⟨htext, rfl, by assumption, fun h => absurd h hasks⟩
        · obtain ⟨rfl, rfl⟩ := Prod.mk.inj (Except.ok.inj h)
          rename_i t hfile hfound
          refine ⟨htext, rfl, hfound, fun _ => ?_⟩
          cases t with
          | file bytes => exact absurd rfl (hfile bytes)
          | directory entries => rfl
      · rintro ⟨-, hfound, htree, hasks⟩
        obtain rfl := Except.ok.inj hfound
        simp only [bind, Except.bind, pure, Except.pure, throw, throwThe, MonadExceptOf.throw, htree]
        cases tree with
        | file bytes => simpa [FileTree.isDirectory] using hasks
        | directory entries => rfl

/-- An entry of a directory lies at the path of the directory joined with its name. -/
theorem locate_join {fs : FileSystem} {p : Path} {names : List RawText}
    {entries : List (RawText × FileTree)} {name : RawText} {tree : FileTree}
    (hp : fs.locate p = .ok (names, .directory entries)) (hname : IsEntryName name)
    (hlookup : entries.lookup name = some tree) :
    fs.locate (p.join name) = .ok (names ++ [name], tree) := by
  obtain ⟨-, hsteps, hfound, -⟩ := locate_eq_ok_iff.mp hp
  refine locate_eq_ok_iff.mpr ⟨p.join_bytes_ne_nil hname, ?_, ?_, ?_⟩
  · rw [p.components_join hname, List.foldlM_append, hsteps]
    simp [bind, Except.bind, pure, Except.pure, step, hfound, hlookup]
  · rw [FileTree.find?_append, hfound]
    simp [FileTree.find?, FileTree.entries, hlookup]
  · simp [asksForDirectory_join p hname]

/-- Whether a path leads along the given names. -/
def leadsTo (fs : FileSystem) (names : List RawText) (p : Path) : Bool :=
  match fs.locate p with
  | .ok (found, _) => found == names
  | .error _ => false

/-- The file system without the files at some paths. -/
def without (fs : FileSystem) (paths : List Path) : FileSystem :=
  { fs with root := fs.root.prune fun names => !paths.any (fs.leadsTo names) }

def DirectoryAt (root : FileTree) (names : List RawText) : Prop :=
  ∃ entries, root.find? names = some (.directory entries)

theorem directoryAt_of_step {root : FileTree} {names next : List RawText} {c : Path.Component}
    (hplain : IsPlain c) (h : step root names c = .ok next) : DirectoryAt root names := by
  unfold step at h
  cases c with
  | root => exact absurd rfl hplain.1
  | current => exact absurd rfl hplain.2
  | parent =>
    dsimp only at h
    split at h
    · exact ⟨_, by assumption⟩
    · simp at h
  | name s =>
    dsimp only at h
    split at h
    · exact ⟨_, by assumption⟩
    · simp at h

section Pruned

variable {root : FileTree} (hroot : root.WellFormed) (keep : List RawText → Bool)

include hroot

theorem find?_prune_directory {names : List RawText} {entries : List (RawText × FileTree)}
    (h : root.find? names = some (.directory entries)) :
    (root.prune keep).find? names =
      some (.directory (FileTree.pruneEntries (fun more => keep (names ++ more)) entries)) := by
  rw [FileTree.find?_prune hroot, h]
  simp [FileTree.isDirectory, FileTree.prune]

/-- A step that ends in a directory can still be taken. -/
theorem step_prune {names next : List RawText} {c : Path.Component} (hstep : step root names c = .ok next)
    (hnext : DirectoryAt root next) : step (root.prune keep) names c = .ok next := by
  cases c with
  | root => exact hstep
  | current => exact hstep
  | parent =>
    obtain ⟨entries, hentries⟩ := directoryAt_of_step (by simp [IsPlain]) hstep
    rw [← hstep]
    simp [step, hentries, find?_prune_directory hroot keep hentries]
  | name s =>
    obtain ⟨entries, hentries⟩ := directoryAt_of_step (by simp [IsPlain]) hstep
    obtain ⟨below, hbelow⟩ := hnext
    simp only [step, hentries] at hstep
    split_ifs at hstep with hsome
    obtain rfl := Except.ok.inj hstep
    have hlookup : entries.lookup s = some (.directory below) := by
      rw [FileTree.find?_append, hentries] at hbelow
      simpa [FileTree.find?, FileTree.entries] using hbelow
    cases (hroot.find? hentries).1 with
    | directory nodup proper wellFormed =>
      have hkept := FileTree.lookup_pruneEntries (fun more => keep (names ++ more)) nodup s
      simp [step, find?_prune_directory hroot keep hentries, hkept, hlookup, FileTree.isDirectory]

/-- The way to a directory leads through directories only, which stay. -/
theorem steps_prune {names final : List RawText} (hfinal : DirectoryAt root final)
    {steps : List Path.Component} (hplain : ∀ c ∈ steps.tail, IsPlain c)
    (hsteps : steps.foldlM (step root) names = .ok final) :
    steps.foldlM (step (root.prune keep)) names = .ok final := by
  induction steps generalizing names with
  | nil => exact hsteps
  | cons c rest ih =>
    rw [List.foldlM_cons] at hsteps ⊢
    cases hstep : step root names c with
    | error fault => simp [hstep, bind, Except.bind] at hsteps
    | ok next =>
      have hrest : rest.foldlM (step root) next = .ok final := by simpa [hstep, bind, Except.bind] using hsteps
      have hnext : DirectoryAt root next := by
        cases rest with
        | nil =>
          obtain rfl := Except.ok.inj hrest
          exact hfinal
        | cons c' rest =>
          rw [List.foldlM_cons] at hrest
          cases hstep' : step root next c' with
          | error fault => simp [hstep', bind, Except.bind] at hrest
          | ok _ => exact directoryAt_of_step (hplain c' List.mem_cons_self) hstep'
      rw [step_prune hroot keep hstep hnext]
      exact ih (fun d hd => hplain d (List.mem_of_mem_tail hd)) hrest

end Pruned

/-- A directory stays where it is if files are taken away. -/
theorem locate_prune {fs : FileSystem} (hfs : fs.root.WellFormed) (keep : List RawText → Bool) {p : Path}
    {names : List RawText} {entries : List (RawText × FileTree)}
    (h : fs.locate p = .ok (names, .directory entries)) :
    ({ fs with root := fs.root.prune keep } : FileSystem).locate p =
      .ok (names, (FileTree.directory entries).prune fun more => keep (names ++ more)) := by
  obtain ⟨htext, hsteps, hfound, -⟩ := locate_eq_ok_iff.mp h
  refine locate_eq_ok_iff.mpr ⟨htext, ?_, find?_prune_directory hfs keep hfound, fun _ => rfl⟩
  exact steps_prune hfs keep ⟨entries, hfound⟩ (fun _ hc => Path.isPlain_of_mem_tail hc) hsteps

/-- A file that was written as text is read as that text. -/
theorem readText_of_find? {fs : FileSystem} {path : Path} {text : String}
    (h : fs.find? path = some (.file text.toUTF8)) : fs.readText path = .ok text := by
  have hutf8 : String.fromUTF8? text.toUTF8 = some text := dif_pos text.isValidUTF8
  unfold find? at h
  unfold readText
  cases hlocate : fs.locate path with
  | error fault => simp [hlocate] at h
  | ok found =>
    obtain ⟨names, tree⟩ := found
    rw [hlocate] at h
    obtain rfl := Option.some.inj h
    simp only [hutf8]

end FileSystem

end EventAtlas
