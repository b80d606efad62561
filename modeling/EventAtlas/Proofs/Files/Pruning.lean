import EventAtlas.Proofs.Files.Tree

namespace EventAtlas.FileTree

mutual

/-- The tree without the files whose names `keep` does not hold for. Directories stay. -/
def prune (keep : List RawText → Bool) : FileTree → FileTree
  | file bytes => file bytes
  | directory entries => directory (pruneEntries keep entries)

def pruneEntries (keep : List RawText → Bool) : List (RawText × FileTree) → List (RawText × FileTree)
  | [] => []
  | (name, tree) :: rest =>
    if tree.isDirectory || keep [name] then
      (name, prune (fun names => keep (name :: names)) tree) :: pruneEntries keep rest
    else pruneEntries keep rest

end

private theorem isDirectory_prune (keep : List RawText → Bool) (tree : FileTree) :
    (tree.prune keep).isDirectory = tree.isDirectory := by
  cases tree <;> rfl

theorem pruneEntries_eq_map (keep : List RawText → Bool) (entries : List (RawText × FileTree)) :
    pruneEntries keep entries = (entries.filter fun e => e.2.isDirectory || keep [e.1]).map fun e =>
      (e.1, e.2.prune fun names => keep (e.1 :: names)) := by
  induction entries with
  | nil => rfl
  | cons entry rest ih =>
    obtain ⟨name, tree⟩ := entry
    rw [pruneEntries, List.filter_cons]
    split_ifs with hkeep
    · rw [ih, List.map_cons]
    · exact ih

theorem lookup_pruneEntries (keep : List RawText → Bool) {entries : List (RawText × FileTree)}
    (hnodup : (entries.map Prod.fst).Nodup) (name : RawText) :
    (pruneEntries keep entries).lookup name = (entries.lookup name).bind fun tree =>
      if tree.isDirectory || keep [name] then some (tree.prune fun names => keep (name :: names))
      else none := by
  induction entries with
  | nil => rfl
  | cons entry rest ih =>
    obtain ⟨other, tree⟩ := entry
    obtain ⟨hother, hrest⟩ := List.nodup_cons.mp hnodup
    by_cases hname : name = other
    · subst hname
      have hnone : rest.lookup name = none := by
        rw [List.lookup_eq_none_iff]
        intro e he
        rw [bne_iff_ne]
        rintro rfl
        exact hother (List.mem_map.mpr ⟨e, he, rfl⟩)
      have hpruned : (pruneEntries keep rest).lookup name = none := by
        rw [ih hrest, hnone]
        rfl
      rw [pruneEntries, List.lookup_cons_self, Option.bind_some]
      split_ifs
      · exact List.lookup_cons_self
      · exact hpruned
    · have hne : (name == other) = false := beq_eq_false_iff_ne.mpr hname
      rw [pruneEntries, List.lookup_cons, hne]
      split_ifs
      · rw [List.lookup_cons, hne]
        exact ih hrest
      · exact ih hrest

/-- Pruning takes away the files that are not kept and nothing else. -/
theorem find?_prune {tree : FileTree} (h : tree.WellFormed) (keep : List RawText → Bool)
    (names : List RawText) :
    (tree.prune keep).find? names = (tree.find? names).bind fun found =>
      if found.isDirectory || names.isEmpty || keep names then
        some (found.prune fun more => keep (names ++ more))
      else none := by
  induction names generalizing tree keep with
  | nil => simp [find?]
  | cons name names ih =>
    cases h with
    | file bytes => rfl
    | @directory entries nodup proper below =>
      rw [prune, find?_cons, find?_cons, lookup_pruneEntries keep nodup]
      cases hlookup : entries.lookup name with
      | none => rfl
      | some tree =>
        have htree := ih (below _ (mem_of_lookup hlookup)) fun more => keep (name :: more)
        cases tree with
        | directory entries =>
          rw [Option.bind_some, if_pos (by rfl), Option.bind_some, htree]
          cases names with
          | nil => rfl
          | cons next names => rfl
        | file bytes =>
          cases names with
          | nil =>
            rw [Option.bind_some]
            split_ifs <;> simp_all [isDirectory, find?, prune]
          | cons next names =>
            rw [Option.bind_some]
            split_ifs <;> rfl

mutual

/-- The files of a pruned directory are those that are kept, in the same order. -/
theorem files_prune (enter : RawText → Bool) (keep : List RawText → Bool) :
    (tree : FileTree) → tree.isDirectory = true →
      (tree.prune keep).files enter = (tree.files enter).filter fun e => keep e.1
  | file _, h => by simp [isDirectory] at h
  | directory entries, _ => by
    rw [prune, files, files]
    exact entryFiles_pruneEntries enter keep entries

theorem entryFiles_pruneEntries (enter : RawText → Bool) (keep : List RawText → Bool) :
    (entries : List (RawText × FileTree)) → entryFiles enter (pruneEntries keep entries) =
      (entryFiles enter entries).filter fun e => keep e.1
  | [] => by simp [pruneEntries, entryFiles]
  | (name, file bytes) :: rest => by
    have ih := entryFiles_pruneEntries enter keep rest
    rw [pruneEntries, entryFiles, List.filter_append, ← ih]
    cases hkeep : keep [name] <;> simp [isDirectory, hkeep, entryFiles, prune, files]
  | (name, directory below) :: rest => by
    have ih := entryFiles_pruneEntries enter keep rest
    have hbelow := files_prune enter (fun names => keep (name :: names)) (directory below) rfl
    rw [pruneEntries, entryFiles, List.filter_append, ← ih]
    rw [if_pos (by rfl), entryFiles, isDirectory_prune, hbelow]
    cases henter : enter name <;> simp [isDirectory, List.filter_map, Function.comp_def]

end

end EventAtlas.FileTree
