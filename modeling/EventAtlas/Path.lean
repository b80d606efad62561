import EventAtlas.RawText
import EventAtlas.Text.Search

namespace EventAtlas

open RawText (slash dot)

/-- A path as it was written. Paths are compared by their components. -/
structure Path where
  text : RawText
  deriving DecidableEq, Repr

namespace Path

/-- A step of a path. -/
inductive Component where
  | root
  | current
  | parent
  | name (s : RawText)
  deriving DecidableEq, Repr

namespace Component

/-- The place of each kind of step in the order of paths. -/
def rank : Component → Nat
  | root => 0
  | current => 1
  | parent => 2
  | name _ => 3

def label : Component → List UInt8
  | name s => s.bytes
  | _ => []

instance : Ord Component := ⟨compareLex (compareOn rank) (compareOn label)⟩

end Component

/-- The pieces of a text between slashes. -/
def pieces (s : List UInt8) : List (List UInt8) := Text.splitAtMark slash s

/-- The step that a piece stands for; an empty piece and a dot stand for none. -/
def step? (piece : List UInt8) : Option Component :=
  if piece = [] ∨ piece = [dot] then none
  else if piece = [dot, dot] then some .parent
  else some (.name ⟨piece⟩)

/-- The step that a text stands for by how it starts. -/
def start (s : List UInt8) : List Component :=
  if s.head? = some slash then [.root]
  else if (pieces s).head? = some [dot] then [.current]
  else []

/-- The steps of a path. Repeated slashes, a slash at the end, and dots do not count, apart from a dot
that a relative path starts with. -/
def components (p : Path) : List Component :=
  start p.text.bytes ++ (pieces p.text.bytes).filterMap step?

/-- Order by components, each kind of step in its place and names by their bytes. -/
instance : Ord Path := ⟨compareOn components⟩

/-- Whether two paths have the same components. -/
def same (p q : Path) : Bool := p.components == q.components

/-- The last component if it is a name. -/
def fileName? (p : Path) : Option RawText :=
  match p.components.getLast? with
  | some (.name s) => some s
  | _ => none

/-- The last component for readers. -/
def fileName (p : Path) : String := (p.fileName?.map RawText.shown).getD ""

/-- A path for readers. -/
def shown (p : Path) : String := p.text.shown

/-- The path of the entry `name` in the directory at `p`. -/
def join (p : Path) (name : RawText) : Path :=
  if p.text.bytes = [] then ⟨name⟩
  else if p.text.bytes.getLast? = some slash then ⟨p.text ++ name⟩
  else ⟨p.text ++ "/" ++ name⟩

end Path

/-- A file name cut at its last dot. A name without a dot, and one whose only dot comes first, has no
extension. -/
def splitExtension? (name : RawText) : Option (RawText × RawText) :=
  if name = ".." then none
  else
    match Text.splitLast? (· == dot) name.bytes with
    | some (first :: before, found) => some (⟨first :: before⟩, ⟨found⟩)
    | _ => none

/-- Whether a file name has the given extension, ASCII case ignored. -/
def hasExtension (extension : String) (name : RawText) : Bool :=
  match splitExtension? name with
  | some (_, found) => found.string?.any fun s => Text.sameAscii s.toList extension.toList
  | none => false

/-- A file name without its extension, for readers. -/
def stem (name : RawText) : String :=
  match splitExtension? name with
  | some (before, _) => before.shown
  | none => name.shown

end EventAtlas
