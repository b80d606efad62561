import EventAtlas.Files.Tree
import EventAtlas.Proofs.Path
import Mathlib.Data.List.Nodup

namespace EventAtlas

theorem mem_of_lookup {κ α : Type} [BEq κ] [LawfulBEq κ] {entries : List (κ × α)} {name : κ} {a : α}
    (h : entries.lookup name = some a) : (name, a) ∈ entries := by
  obtain ⟨before, after, rfl, _⟩ := List.lookup_eq_some_iff.mp h
  simp

/-- An entry is found under its name if no other has the name. -/
theorem lookup_of_mem {κ α : Type} [BEq κ] [LawfulBEq κ] {entries : List (κ × α)}
    (hnodup : (entries.map Prod.fst).Nodup) {name : κ} {a : α} (h : (name, a) ∈ entries) :
    entries.lookup name = some a := by
  induction entries with
  | nil => simp at h
  | cons entry rest ih =>
    obtain ⟨other, b⟩ := entry
    obtain ⟨hother, hrest⟩ := List.nodup_cons.mp hnodup
    rcases List.mem_cons.mp h with he | hmem
    · obtain ⟨rfl, rfl⟩ := Prod.mk.inj he
      exact List.lookup_cons_self
    · have hne : name ≠ other := by
        rintro rfl
        exact hother (List.mem_map.mpr ⟨_, hmem, rfl⟩)
      rw [List.lookup_cons, beq_eq_false_iff_ne.mpr hne]
      exact ih hrest hmem

/-- Where no name comes twice, the order of the entries does not show. -/
theorem lookup_eq_of_perm {κ α : Type} [BEq κ] [LawfulBEq κ] {entries others : List (κ × α)}
    (hnodup : (others.map Prod.fst).Nodup) (h : entries.Perm others) (name : κ) :
    entries.lookup name = others.lookup name := by
  have hnodup' : (entries.map Prod.fst).Nodup := (h.map Prod.fst).nodup_iff.mpr hnodup
  apply Option.ext
  intro a
  constructor
  · intro ha
    exact lookup_of_mem hnodup (h.mem_iff.mp (mem_of_lookup ha))
  · intro ha
    exact lookup_of_mem hnodup' (h.mem_iff.mpr (mem_of_lookup ha))

namespace FileTree

open EventAtlas.Path (IsEntryName)

/-- In every directory the names are proper names and differ from one another. -/
inductive WellFormed : FileTree → Prop where
  | file (bytes : ByteArray) : WellFormed (file bytes)
  | directory {entries : List (RawText × FileTree)} (nodup : (entries.map Prod.fst).Nodup)
      (proper : ∀ entry ∈ entries, IsEntryName entry.1)
      (below : ∀ entry ∈ entries, WellFormed entry.2) : WellFormed (directory entries)

mutual

/-- Decides whether a tree is well-formed. -/
def isWellFormed : FileTree → Bool
  | file _ => true
  | directory entries => decide (entries.map Prod.fst).Nodup && entriesWellFormed entries

def entriesWellFormed : List (RawText × FileTree) → Bool
  | [] => true
  | (name, tree) :: rest => decide (IsEntryName name) && isWellFormed tree && entriesWellFormed rest

end

mutual

theorem isWellFormed_iff : (tree : FileTree) → (tree.isWellFormed = true ↔ tree.WellFormed)
  | file bytes => by simp [isWellFormed, WellFormed.file]
  | directory entries => by
    rw [isWellFormed, Bool.and_eq_true, decide_eq_true_iff, entriesWellFormed_iff entries]
    constructor
    · rintro ⟨hnodup, hentries⟩
      exact .directory hnodup (fun e he => (hentries e he).1) fun e he => (hentries e he).2
    · rintro (_ | ⟨hnodup, hproper, hbelow⟩)
      exact ⟨hnodup, fun e he => ⟨hproper e he, hbelow e he⟩⟩

theorem entriesWellFormed_iff : (entries : List (RawText × FileTree)) →
    (entriesWellFormed entries = true ↔ ∀ e ∈ entries, IsEntryName e.1 ∧ e.2.WellFormed)
  | [] => by simp [entriesWellFormed]
  | (name, tree) :: rest => by
    rw [entriesWellFormed, Bool.and_eq_true, Bool.and_eq_true, decide_eq_true_iff, isWellFormed_iff tree,
      entriesWellFormed_iff rest, List.forall_mem_cons]

end

instance (tree : FileTree) : Decidable tree.WellFormed :=
  decidable_of_iff (tree.isWellFormed = true) tree.isWellFormed_iff

theorem find?_cons (entries : List (RawText × FileTree)) (name : RawText) (names : List RawText) :
    (directory entries).find? (name :: names) = (entries.lookup name).bind (find? · names) := rfl

theorem find?_append (tree : FileTree) (names more : List RawText) :
    tree.find? (names ++ more) = (tree.find? names).bind (find? · more) := by
  induction names generalizing tree with
  | nil => rfl
  | cons name names ih =>
    rw [List.cons_append, find?, find?]
    cases tree.entries.lookup name with
    | none => rfl
    | some below => exact ih below

theorem WellFormed.nodup {entries : List (RawText × FileTree)} (h : (FileTree.directory entries).WellFormed) :
    (entries.map Prod.fst).Nodup := by
  cases h with
  | directory nodup proper below => exact nodup

theorem WellFormed.of_mem {entries : List (RawText × FileTree)} (h : (FileTree.directory entries).WellFormed)
    {entry : RawText × FileTree} (hmem : entry ∈ entries) : IsEntryName entry.1 ∧ entry.2.WellFormed := by
  cases h with
  | directory nodup proper below => exact ⟨proper entry hmem, below entry hmem⟩

/-- What lies in a well-formed tree is well-formed and is led to by proper names. -/
theorem WellFormed.find? {tree found : FileTree} (h : tree.WellFormed) {names : List RawText}
    (hfound : tree.find? names = some found) : found.WellFormed ∧ ∀ name ∈ names, IsEntryName name := by
  induction names generalizing tree with
  | nil =>
    obtain rfl : tree = found := Option.some.inj hfound
    exact ⟨h, by simp⟩
  | cons name names ih =>
    obtain ⟨below, hlookup, hbelow⟩ := Option.bind_eq_some_iff.mp hfound
    cases h with
    | file bytes => simp [entries] at hlookup
    | directory nodup proper wellFormed =>
      have hmem := mem_of_lookup hlookup
      obtain ⟨hfound', hnames⟩ := ih (wellFormed _ hmem) hbelow
      refine ⟨hfound', ?_⟩
      intro n hn
      rcases List.mem_cons.mp hn with rfl | hn
      · exact proper _ hmem
      · exact hnames n hn

/-- The files below some entries are those below each of them. -/
theorem mem_entryFiles {enter : RawText → Bool} {entries : List (RawText × FileTree)}
    {names : List RawText} {bytes : ByteArray} :
    (names, bytes) ∈ entryFiles enter entries ↔
      ∃ name tree, (name, tree) ∈ entries ∧ (tree.isDirectory = true → enter name = true) ∧
        ∃ rest, names = name :: rest ∧ (rest, bytes) ∈ tree.files enter := by
  induction entries with
  | nil => simp [entryFiles]
  | cons entry entries ih =>
    obtain ⟨name, tree⟩ := entry
    rw [entryFiles, List.mem_append, ih]
    constructor
    · rintro (h | ⟨other, below, hmem, h⟩)
      · split_ifs at h with hskip
        · simp at h
        · simp only [List.mem_map, Prod.mk.injEq, Prod.exists] at h
          obtain ⟨rest, bytes', hrest, rfl, rfl⟩ := h
          exact ⟨name, tree, List.mem_cons_self, by simpa using hskip, rest, rfl, hrest⟩
      · exact ⟨other, below, List.mem_cons_of_mem _ hmem, h⟩
    · rintro ⟨other, below, hmem, henter, rest, rfl, hrest⟩
      rcases List.mem_cons.mp hmem with he | hmem
      · obtain ⟨rfl, rfl⟩ := Prod.mk.inj he
        left
        rw [if_neg (by simpa using henter)]
        exact List.mem_map.mpr ⟨(rest, bytes), hrest, rfl⟩
      · exact .inr ⟨other, below, hmem, henter, rest, rfl, hrest⟩

/-- A file lies where its names lead to. -/
theorem find?_of_mem_files {enter : RawText → Bool} {tree : FileTree} (h : tree.WellFormed)
    {names : List RawText} {bytes : ByteArray} (hmem : (names, bytes) ∈ tree.files enter) :
    tree.find? names = some (file bytes) := by
  induction h generalizing names with
  | file content =>
    obtain ⟨rfl, rfl⟩ : names = [] ∧ bytes = content := by simpa [files] using hmem
    rfl
  | directory nodup proper below ih =>
    rw [files] at hmem
    obtain ⟨name, tree, hentry, _, rest, rfl, hrest⟩ := mem_entryFiles.mp hmem
    rw [find?_cons, lookup_of_mem nodup hentry]
    exact ih _ hentry hrest

private theorem enter_of_mem_files {enter : RawText → Bool} {tree : FileTree} (h : tree.WellFormed)
    {names : List RawText} {bytes : ByteArray} (hmem : (names, bytes) ∈ tree.files enter) :
    ∀ name ∈ names.dropLast, enter name = true := by
  induction h generalizing names with
  | file content =>
    obtain ⟨rfl, -⟩ : names = [] ∧ bytes = content := by simpa [files] using hmem
    simp
  | directory nodup proper below ih =>
    rw [files] at hmem
    obtain ⟨name, tree, hentry, henter, rest, rfl, hrest⟩ := mem_entryFiles.mp hmem
    cases rest with
    | nil => simp
    | cons next rest =>
      have hdirectory : tree.isDirectory = true := by
        cases tree with
        | file content => simp [files] at hrest
        | directory inner => rfl
      rw [List.dropLast_cons_cons]
      exact List.forall_mem_cons.mpr ⟨henter hdirectory, ih _ hentry hrest⟩

private theorem mem_files_of_find? {enter : RawText → Bool} {tree : FileTree} (h : tree.WellFormed)
    {names : List RawText} {bytes : ByteArray} (hfind : tree.find? names = some (file bytes))
    (henter : ∀ name ∈ names.dropLast, enter name = true) : (names, bytes) ∈ tree.files enter := by
  induction h generalizing names with
  | file content =>
    cases names with
    | nil =>
      obtain rfl : content = bytes := by simpa [find?] using hfind
      simp [files]
    | cons name rest => simp [find?, entries] at hfind
  | directory nodup proper below ih =>
    cases names with
    | nil => simp [find?] at hfind
    | cons name rest =>
      rw [find?_cons] at hfind
      obtain ⟨tree, hlookup, hfound⟩ := Option.bind_eq_some_iff.mp hfind
      have hentry := mem_of_lookup hlookup
      rw [files, mem_entryFiles]
      cases rest with
      | nil =>
        obtain rfl : tree = file bytes := Option.some.inj hfound
        exact ⟨name, file bytes, hentry, by simp [isDirectory], [], rfl, by simp [files]⟩
      | cons next rest =>
        rw [List.dropLast_cons_cons, List.forall_mem_cons] at henter
        exact ⟨name, tree, hentry, fun _ => henter.1, next :: rest, rfl, ih _ hentry hfound henter.2⟩

/-- The files that are met are those behind directories that are entered. -/
theorem mem_files_iff {enter : RawText → Bool} {tree : FileTree} (h : tree.WellFormed) {names : List RawText}
    {bytes : ByteArray} :
    (names, bytes) ∈ tree.files enter ↔
      tree.find? names = some (file bytes) ∧ ∀ name ∈ names.dropLast, enter name = true :=
  ⟨fun hmem => ⟨find?_of_mem_files h hmem, enter_of_mem_files h hmem⟩,
    fun hfound => mem_files_of_find? h hfound.1 hfound.2⟩

/-- No two files have the same names. -/
theorem files_nodup (enter : RawText → Bool) {tree : FileTree} (h : tree.WellFormed) :
    ((tree.files enter).map Prod.fst).Nodup := by
  induction h with
  | file bytes => simp [files]
  | @directory entries nodup proper below ih =>
    rw [files]
    clear proper below
    induction entries with
    | nil => simp [entryFiles]
    | cons entry entries ihEntries =>
      obtain ⟨name, tree⟩ := entry
      obtain ⟨hname, hnodup⟩ := List.nodup_cons.mp nodup
      have hrest := ihEntries hnodup fun e he => ih e (List.mem_cons_of_mem _ he)
      have htree : ((tree.files enter).map Prod.fst).Nodup := ih _ List.mem_cons_self
      rw [entryFiles, List.map_append, List.nodup_append]
      refine ⟨?_, hrest, ?_⟩
      · split_ifs
        · simp
        · rw [List.map_map]
          have hmap : (tree.files enter).map (Prod.fst ∘ fun e : List RawText × ByteArray =>
              (name :: e.1, e.2)) = ((tree.files enter).map Prod.fst).map (name :: ·) := by simp
          exact hmap ▸ htree.map fun _ _ h => (List.cons.inj h).2
      · rintro names hnames others hothers rfl
        obtain ⟨e, he, rfl⟩ := List.mem_map.mp hothers
        obtain ⟨other, below, hother, _, rest, hrest, _⟩ := mem_entryFiles.mp he
        split_ifs at hnames with hskip
        · simp at hnames
        · obtain ⟨e', he', heq⟩ := List.mem_map.mp hnames
          obtain ⟨e'', _, rfl⟩ := List.mem_map.mp he'
          rw [hrest] at heq
          obtain ⟨rfl, _⟩ := List.cons.inj heq
          exact hname (List.mem_map.mpr ⟨_, hother, rfl⟩)

end FileTree

end EventAtlas
