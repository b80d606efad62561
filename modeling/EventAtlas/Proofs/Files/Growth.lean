import EventAtlas.Proofs.Files.FileSystem

namespace EventAtlas

open EventAtlas.Path (IsEntryName)
open FileSystem (DirectoryAt)

namespace FileTree

/-- What lies at a place, apart from what lies below it. -/
inductive Node where
  | file (bytes : ByteArray)
  | directory

def node : FileTree → Node
  | file bytes => .file bytes
  | directory _ => .directory

def nodeAt? (tree : FileTree) (names : List RawText) : Option Node := (tree.find? names).map node

theorem nodeAt?_eq_directory_iff {tree : FileTree} {names : List RawText} :
    tree.nodeAt? names = some .directory ↔ DirectoryAt tree names := by
  unfold nodeAt? DirectoryAt
  cases tree.find? names with
  | none => simp
  | some found => cases found <;> simp [node]

theorem find?_singleton (entries : List (RawText × FileTree)) (name : RawText) :
    (directory entries).find? [name] = entries.lookup name := by
  rw [find?_cons]
  cases entries.lookup name <;> rfl

theorem directoryAt_of_append {tree : FileTree} {names more : List RawText}
    (h : DirectoryAt tree (names ++ more)) : DirectoryAt tree names := by
  obtain ⟨entries, hentries⟩ := h
  rw [find?_append] at hentries
  obtain ⟨found, hfound, hmore⟩ := Option.bind_eq_some_iff.mp hentries
  cases found with
  | directory inner => exact ⟨inner, hfound⟩
  | file bytes =>
    cases more with
    | nil => simp [find?] at hmore
    | cons name more => simp [find?, FileTree.entries] at hmore

theorem directoryAt_cons {entries : List (RawText × FileTree)} {name : RawText} {names : List RawText}
    (h : DirectoryAt (directory entries) (name :: names)) :
    ∃ below, entries.lookup name = some below ∧ DirectoryAt below names := by
  obtain ⟨inner, hinner⟩ := h
  obtain ⟨below, hlookup, hbelow⟩ := Option.bind_eq_some_iff.mp hinner
  exact ⟨below, hlookup, inner, hbelow⟩

theorem exists_entries_of_directoryAt {tree : FileTree} {names : List RawText} (h : DirectoryAt tree names) :
    ∃ entries, tree = directory entries := by
  obtain ⟨entries, hentries⟩ := directoryAt_of_append (show DirectoryAt tree ([] ++ names) from h)
  exact ⟨entries, Option.some.inj hentries⟩

/-- Setting an entry changes what is found under its name only. -/
theorem lookup_setEntry (name other : RawText) (new : FileTree) (entries : List (RawText × FileTree)) :
    (setEntry name new entries).lookup other = if other = name then some new else entries.lookup other := by
  induction entries with
  | nil =>
    rw [setEntry, List.lookup_cons]
    by_cases h : other = name
    · simp [h]
    · simp [h, beq_eq_false_iff_ne.mpr h]
  | cons entry rest ih =>
    obtain ⟨first, old⟩ := entry
    rw [setEntry]
    by_cases hfirst : first = name
    · rw [if_pos hfirst, List.lookup_cons, List.lookup_cons, hfirst]
      by_cases h : other = name
      · simp [h]
      · simp [h, beq_eq_false_iff_ne.mpr h]
    · rw [if_neg hfirst, List.lookup_cons, List.lookup_cons, ih]
      by_cases h : other = first
      · simp [h, hfirst]
      · simp [beq_eq_false_iff_ne.mpr h]

theorem mem_setEntry {name : RawText} {new : FileTree} {entries : List (RawText × FileTree)}
    {e : RawText × FileTree} (h : e ∈ setEntry name new entries) : e = (name, new) ∨ e ∈ entries := by
  induction entries with
  | nil => exact .inl (List.mem_singleton.mp h)
  | cons entry rest ih =>
    rw [setEntry] at h
    split_ifs at h with hfirst
    · rcases List.mem_cons.mp h with rfl | h
      · exact .inl rfl
      · exact .inr (List.mem_cons_of_mem _ h)
    · rcases List.mem_cons.mp h with rfl | h
      · exact .inr List.mem_cons_self
      · exact (ih h).imp_right (List.mem_cons_of_mem _)

private theorem setEntry_nodup {name : RawText} {new : FileTree} {entries : List (RawText × FileTree)}
    (h : (entries.map Prod.fst).Nodup) : ((setEntry name new entries).map Prod.fst).Nodup := by
  induction entries with
  | nil => simp [setEntry]
  | cons entry rest ih =>
    obtain ⟨hentry, hrest⟩ := List.nodup_cons.mp h
    rw [setEntry]
    split_ifs with hfirst
    · rw [List.map_cons, ← hfirst]
      exact List.nodup_cons.mpr ⟨hentry, hrest⟩
    · refine List.nodup_cons.mpr ⟨?_, ih hrest⟩
      intro hmem
      obtain ⟨e, he, heq⟩ := List.mem_map.mp hmem
      rcases mem_setEntry he with rfl | he
      · exact hfirst heq.symm
      · exact hentry (List.mem_map.mpr ⟨e, he, heq⟩)

/-- A tree stays well-formed if well-formed things are put into it. -/
theorem WellFormed.put {tree new : FileTree} (h : tree.WellFormed) {names : List RawText}
    (hnames : ∀ name ∈ names, IsEntryName name) (hnew : new.WellFormed) : (tree.put names new).WellFormed := by
  induction names generalizing tree with
  | nil => exact hnew
  | cons name names ih =>
    have hempty : (FileTree.directory []).WellFormed := .directory .nil (by simp) (by simp)
    have hentries : (FileTree.directory tree.entries).WellFormed := by
      cases h with
      | file bytes => exact hempty
      | directory nodup proper below => exact .directory nodup proper below
    have hbelow : ((tree.entries.lookup name).getD (FileTree.directory [])).WellFormed := by
      cases hlookup : tree.entries.lookup name with
      | none => exact hempty
      | some found =>
        cases hentries with
        | directory nodup proper below => exact below _ (mem_of_lookup hlookup)
    have hrest := ih hbelow fun n hn => hnames n (List.mem_cons_of_mem _ hn)
    cases hentries with
    | directory nodup proper below =>
      refine .directory (setEntry_nodup nodup) ?_ ?_
      · intro e he
        rcases mem_setEntry he with rfl | he
        · exact hnames name List.mem_cons_self
        · exact proper e he
      · intro e he
        rcases mem_setEntry he with rfl | he
        · exact hrest
        · exact below e he

/-- A leaf in a directory changes the tree in its own place only. -/
theorem nodeAt?_put {tree new : FileTree} {lead : List RawText} {name : RawText} (hlead : DirectoryAt tree lead)
    (hnew : new.entries = []) (hold : ¬DirectoryAt tree (lead ++ [name])) (names : List RawText) :
    (tree.put (lead ++ [name]) new).nodeAt? names =
      if names = lead ++ [name] then some new.node else tree.nodeAt? names := by
  induction lead generalizing tree names with
  | nil =>
    obtain ⟨entries, rfl⟩ := exists_entries_of_directoryAt hlead
    rw [List.nil_append, put, put]
    cases names with
    | nil => rfl
    | cons first names =>
      simp only [nodeAt?, find?_cons, FileTree.entries, lookup_setEntry]
      by_cases hfirst : first = name
      · subst hfirst
        cases names with
        | nil => simp [find?]
        | cons second names =>
          have hnone : (entries.lookup first).bind (find? · (second :: names)) = none := by
            cases hlookup : entries.lookup first with
            | none => rfl
            | some old =>
              cases old with
              | file bytes => rfl
              | directory inner => exact absurd ⟨inner, by simp [find?, FileTree.entries, hlookup]⟩ hold
          rw [hnone]
          simp [find?, hnew]
      · simp [hfirst]
  | cons outer lead ih =>
    obtain ⟨entries, rfl⟩ := exists_entries_of_directoryAt hlead
    obtain ⟨below, hlookup, hbelow⟩ := directoryAt_cons hlead
    have hold' : ¬DirectoryAt below (lead ++ [name]) := by
      rintro ⟨inner, hinner⟩
      exact hold ⟨inner, by rw [List.cons_append, find?_cons, hlookup]; exact hinner⟩
    rw [List.cons_append, put]
    cases names with
    | nil => rfl
    | cons first names =>
      simp only [nodeAt?, find?_cons, FileTree.entries, lookup_setEntry, hlookup, Option.getD_some]
      by_cases hfirst : first = outer
      · subst hfirst
        simpa [hlookup, nodeAt?] using ih hbelow hold' names
      · simp [hfirst]

/-- Whether a file counts: its name is not one of those that are passed over. -/
def counts (idle : RawText → Bool) (file : List RawText × ByteArray) : Bool := !file.1.getLast?.any idle

/-- The files below some entries that count. -/
def countedFiles (idle enter : RawText → Bool) (entries : List (RawText × FileTree)) :
    List (List RawText × ByteArray) :=
  (entryFiles enter entries).filter (counts idle)

section

variable (idle enter : RawText → Bool)

theorem countedFiles_cons (e : RawText × FileTree) (rest : List (RawText × FileTree)) :
    countedFiles idle enter (e :: rest) = countedFiles idle enter [e] ++ countedFiles idle enter rest := by
  obtain ⟨name, tree⟩ := e
  simp only [countedFiles, entryFiles, List.append_nil, List.filter_append]

/-- Setting an entry changes nothing if it brings what was there before. -/
theorem countedFiles_setEntry {name : RawText} {new : FileTree} {entries : List (RawText × FileTree)}
    (h : countedFiles idle enter [(name, new)] =
      countedFiles idle enter ((entries.lookup name).toList.map fun old => (name, old))) :
    countedFiles idle enter (setEntry name new entries) = countedFiles idle enter entries := by
  induction entries with
  | nil => exact h
  | cons entry rest ih =>
    obtain ⟨other, old⟩ := entry
    rw [setEntry, countedFiles_cons idle enter (other, old)]
    split_ifs with hother
    · subst hother
      rw [List.lookup_cons_self] at h
      rw [countedFiles_cons, h]
      rfl
    · rw [List.lookup_cons, beq_eq_false_iff_ne.mpr (Ne.symm hother)] at h
      rw [countedFiles_cons, ih h]

theorem countedFiles_directory (name : RawText) (entries : List (RawText × FileTree)) :
    countedFiles idle enter [(name, directory entries)] =
      if enter name then (countedFiles idle enter entries).map fun e => (name :: e.1, e.2) else [] := by
  cases henter : enter name with
  | false => simp [countedFiles, entryFiles, isDirectory, henter]
  | true =>
    have hfiles : entryFiles enter [(name, directory entries)] =
        (entryFiles enter entries).map fun e => (name :: e.1, e.2) := by
      simp [entryFiles, isDirectory, henter, files]
    rw [if_pos rfl, countedFiles, hfiles, List.filter_map]
    refine congrArg (List.map _) (List.filter_congr ?_)
    rintro ⟨names, bytes⟩ he
    obtain ⟨_, _, _, _, rest, rfl, _⟩ := mem_entryFiles.mp he
    simp [counts]

theorem countedFiles_idle {name : RawText} (h : idle name = true) (bytes : ByteArray) :
    countedFiles idle enter [(name, file bytes)] = [] := by
  simp [countedFiles, entryFiles, isDirectory, files, counts, h]

end

/-- The entries of the directory at a place, none if there is no directory. -/
def entriesAt (tree : FileTree) (names : List RawText) : List (RawText × FileTree) :=
  ((tree.find? names).map entries).getD []

/-- All that was there is there, and below every directory the same files count. -/
structure Grown (idle : RawText → Bool) (before after : FileTree) : Prop where
  kept : ∀ names found, before.find? names = some found →
    ∃ found', after.find? names = some found' ∧ found'.isDirectory = found.isDirectory
  files : ∀ enter names,
    countedFiles idle enter (after.entriesAt names) = countedFiles idle enter (before.entriesAt names)

/-- What can be put into a directory without being noticed: an empty directory where nothing was, or a file
that does not count where no directory was. -/
inductive Unnoticed (idle : RawText → Bool) (name : RawText) : Option FileTree → FileTree → Prop where
  | newDirectory : Unnoticed idle name none (directory [])
  | idleFile {old : Option FileTree} (hold : ∀ entries, old ≠ some (directory entries))
      (hname : idle name = true) (bytes : ByteArray) : Unnoticed idle name old (file bytes)

namespace Grown

variable {idle : RawText → Bool} {before after : FileTree}

theorem refl (tree : FileTree) : Grown idle tree tree where
  kept _ found h := ⟨found, h, rfl⟩
  files _ _ := rfl

/-- Trees that grow unnoticed twice grow unnoticed. -/
theorem trans {last : FileTree} (h : Grown idle before after) (h' : Grown idle after last) :
    Grown idle before last where
  kept names found hfound := by
    obtain ⟨found', hfound', hkind⟩ := h.kept names found hfound
    obtain ⟨found'', hfound'', hkind'⟩ := h'.kept names found' hfound'
    exact ⟨found'', hfound'', hkind'.trans hkind⟩
  files enter names := (h'.files enter names).trans (h.files enter names)

theorem directoryAt (h : Grown idle before after) {names : List RawText} (hnames : DirectoryAt before names) :
    DirectoryAt after names := by
  obtain ⟨entries, hentries⟩ := hnames
  obtain ⟨found, hfound, hkind⟩ := h.kept names _ hentries
  cases found with
  | file bytes => simp [isDirectory] at hkind
  | directory entries' => exact ⟨entries', hfound⟩

/-- A directory with a file that counts was there before. -/
theorem directoryAt_of_counted (h : Grown idle before after) {enter : RawText → Bool} {names : List RawText}
    (hfile : countedFiles idle enter (after.entriesAt names) ≠ []) : DirectoryAt before names := by
  rw [h.files, entriesAt] at hfile
  unfold DirectoryAt
  cases hfound : before.find? names with
  | none => simp [hfound, countedFiles, entryFiles] at hfile
  | some found =>
    cases found with
    | file bytes => simp [hfound, FileTree.entries, countedFiles, entryFiles] at hfile
    | directory entries => exact ⟨entries, rfl⟩

/-- What lies below a place has grown too. -/
theorem below (h : Grown idle before after) {lead : List RawText} {tree tree' : FileTree}
    (htree : before.find? lead = some tree) (htree' : after.find? lead = some tree') :
    Grown idle tree tree' where
  kept names found hfound := by
    obtain ⟨found', hfound', hkind⟩ := h.kept (lead ++ names) found (by rw [find?_append, htree]; exact hfound)
    rw [find?_append, htree'] at hfound'
    exact ⟨found', hfound', hkind⟩
  files enter names := by
    have hfiles := h.files enter (lead ++ names)
    unfold entriesAt at hfiles
    rwa [find?_append, find?_append, htree, htree'] at hfiles

end Grown

section

variable {idle : RawText → Bool} {name : RawText} {new : FileTree} {entries : List (RawText × FileTree)}

/-- A directory grows if an entry is set to something that has grown, or that is new and does not count. -/
theorem grown_setEntry
    (hkept : ∀ old, entries.lookup name = some old → ∀ names found, old.find? names = some found →
      ∃ found', new.find? names = some found' ∧ found'.isDirectory = found.isDirectory)
    (hentry : ∀ enter, countedFiles idle enter [(name, new)] =
      countedFiles idle enter ((entries.lookup name).toList.map fun old => (name, old)))
    (hbelow : ∀ enter names, countedFiles idle enter (new.entriesAt names) =
      countedFiles idle enter (((entries.lookup name).map (entriesAt · names)).getD [])) :
    Grown idle (directory entries) (directory (setEntry name new entries)) where
  kept names found hfound := by
    cases names with
    | nil =>
      obtain rfl := Option.some.inj hfound
      exact ⟨_, rfl, rfl⟩
    | cons first names =>
      rw [find?_cons] at hfound ⊢
      rw [lookup_setEntry]
      split_ifs with hfirst
      · subst hfirst
        obtain ⟨old, hold, hfound⟩ := Option.bind_eq_some_iff.mp hfound
        exact hkept old hold names found hfound
      · exact ⟨found, hfound, rfl⟩
  files enter names := by
    cases names with
    | nil => exact countedFiles_setEntry idle enter (hentry enter)
    | cons first names =>
      unfold entriesAt
      rw [find?_cons, find?_cons, lookup_setEntry]
      split_ifs with hfirst
      · subst hfirst
        refine (hbelow enter names).trans ?_
        cases entries.lookup first <;> rfl
      · rfl

theorem Grown.setEntry {old : FileTree} (h : Grown idle old new) (hold : entries.lookup name = some old)
    (hdirectory : old.isDirectory = true) :
    Grown idle (directory entries) (directory (setEntry name new entries)) := by
  apply grown_setEntry
  · intro old' hold' names found hfound
    obtain rfl : old = old' := Option.some.inj (hold.symm.trans hold')
    exact h.kept names found hfound
  · intro enter
    obtain ⟨_, hnew, hkind⟩ := h.kept [] old rfl
    obtain rfl := Option.some.inj hnew
    have hfiles := h.files enter []
    cases old with
    | file bytes => simp [isDirectory] at hdirectory
    | directory inner =>
      cases new with
      | file bytes => simp [isDirectory] at hkind
      | directory inner' =>
        have hinner : countedFiles idle enter inner' = countedFiles idle enter inner := hfiles
        rw [hold, Option.toList_some, List.map_singleton, countedFiles_directory, countedFiles_directory, hinner]
  · intro enter names
    rw [hold]
    exact h.files enter names

theorem entriesAt_of_leaf {tree : FileTree} (h : tree.entries = []) (names : List RawText) :
    tree.entriesAt names = [] := by
  cases names with
  | nil => exact h
  | cons first names => simp [entriesAt, find?, h]

namespace Unnoticed

private theorem entries_eq_nil {old : Option FileTree} (h : Unnoticed idle name old new) : new.entries = [] := by
  cases h <;> rfl

private theorem countedFiles_eq_nil {old : Option FileTree} (h : Unnoticed idle name old new) (enter : RawText → Bool) :
    countedFiles idle enter [(name, new)] = [] := by
  cases h with
  | newDirectory =>
    rw [countedFiles_directory]
    simp [countedFiles, entryFiles]
  | idleFile hold hname bytes => exact countedFiles_idle idle enter hname bytes

/-- What is replaced is a file by a file. -/
theorem files_of_some {old : FileTree} (h : Unnoticed idle name (some old) new) :
    (∃ bytes, old = file bytes) ∧ new.isDirectory = false ∧ idle name = true := by
  cases h with
  | idleFile hold hname bytes =>
    cases old with
    | directory inner => exact absurd rfl (hold inner)
    | file bytes' => exact ⟨⟨bytes', rfl⟩, rfl, hname⟩

theorem setEntry (h : Unnoticed idle name (entries.lookup name) new) :
    Grown idle (directory entries) (directory (setEntry name new entries)) := by
  apply grown_setEntry
  · intro old hold names found hfound
    obtain ⟨⟨bytes, rfl⟩, hkind, -⟩ := (hold ▸ h).files_of_some
    cases names with
    | nil =>
      obtain rfl := Option.some.inj hfound
      exact ⟨new, rfl, hkind⟩
    | cons first names => simp [find?, FileTree.entries] at hfound
  · intro enter
    rw [h.countedFiles_eq_nil]
    cases hold : entries.lookup name with
    | none => simp [countedFiles, entryFiles]
    | some old =>
      obtain ⟨⟨bytes, rfl⟩, -, hname⟩ := (hold ▸ h).files_of_some
      exact (countedFiles_idle idle enter hname bytes).symm
  · intro enter names
    rw [entriesAt_of_leaf h.entries_eq_nil]
    cases hold : entries.lookup name with
    | none => rfl
    | some old =>
      obtain ⟨⟨bytes, rfl⟩, -, -⟩ := (hold ▸ h).files_of_some
      rw [Option.map_some, Option.getD_some, entriesAt_of_leaf rfl]

end Unnoticed

end

/-- A tree grows by what is put into one of its directories unnoticed. -/
theorem Unnoticed.put {idle : RawText → Bool} {tree new : FileTree} {lead : List RawText} {name : RawText}
    (hlead : DirectoryAt tree lead) (h : Unnoticed idle name (tree.find? (lead ++ [name])) new) :
    Grown idle tree (tree.put (lead ++ [name]) new) := by
  induction lead generalizing tree with
  | nil =>
    obtain ⟨entries, rfl⟩ := exists_entries_of_directoryAt hlead
    rw [List.nil_append, find?_singleton] at h
    exact h.setEntry
  | cons outer lead ih =>
    obtain ⟨entries, rfl⟩ := exists_entries_of_directoryAt hlead
    obtain ⟨below, hlookup, hbelow⟩ := directoryAt_cons hlead
    obtain ⟨inner, rfl⟩ := exists_entries_of_directoryAt hbelow
    rw [List.cons_append, find?_cons, hlookup] at h
    rw [List.cons_append, FileTree.put, FileTree.entries, hlookup]
    exact (ih hbelow h).setEntry hlookup rfl

end FileTree

end EventAtlas
