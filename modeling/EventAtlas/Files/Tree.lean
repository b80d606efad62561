import EventAtlas.RawText

namespace EventAtlas

/-- A file with its bytes, or a directory with its entries by name. -/
inductive FileTree where
  | file (bytes : ByteArray)
  | directory (entries : List (RawText × FileTree))

namespace FileTree

instance : Inhabited FileTree := ⟨directory []⟩

def isDirectory : FileTree → Bool
  | directory _ => true
  | file _ => false

/-- The entries of a directory. -/
def entries : FileTree → List (RawText × FileTree)
  | directory entries => entries
  | file _ => []

mutual

/-- The files of a tree with the names that lead to them. A directory below the root is entered only if
`enter` holds for its name. -/
def files (enter : RawText → Bool) : FileTree → List (List RawText × ByteArray)
  | file bytes => [([], bytes)]
  | directory entries => entryFiles enter entries

def entryFiles (enter : RawText → Bool) : List (RawText × FileTree) → List (List RawText × ByteArray)
  | [] => []
  | (name, tree) :: rest =>
    (if tree.isDirectory && !enter name then []
    else (files enter tree).map fun (names, bytes) => (name :: names, bytes)) ++ entryFiles enter rest

end

/-- The tree at the end of a chain of names. -/
def find? (tree : FileTree) : List RawText → Option FileTree
  | [] => some tree
  | name :: rest => (tree.entries.lookup name).bind fun below => find? below rest

/-- The entries with one of them set. -/
def setEntry (name : RawText) (tree : FileTree) : List (RawText × FileTree) → List (RawText × FileTree)
  | [] => [(name, tree)]
  | (other, old) :: rest =>
    if other = name then (name, tree) :: rest else (other, old) :: setEntry name tree rest

/-- The tree with `new` at the end of a chain of names. Directories on the way that are missing are
made. -/
def put (tree : FileTree) : List RawText → FileTree → FileTree
  | [], new => new
  | name :: rest, new =>
    let below := (tree.entries.lookup name).getD (directory [])
    directory (setEntry name (put below rest new) tree.entries)

end FileTree

end EventAtlas
