import SignatureIndex.Text.Pieces

/-!
# Paths

A path is where it starts and the names on the way.  Empty names and the name `.` lead nowhere and
are left out when a path is read, so two spellings of one path are one value; `..` is a name like
any other, because where it leads depends on links.
-/

namespace SignatureIndex

/-- Where a path starts. -/
inductive Anchor where
  /-- At the working directory. -/
  | here
  /-- At the root. -/
  | root
  /-- At the root, written with exactly two slashes. -/
  | doubleRoot
  deriving DecidableEq, Repr

def Anchor.text : Anchor → String
  | .here => ""
  | .root => "/"
  | .doubleRoot => "//"

/-- Where to start and the names on the way. -/
structure Path where
  anchor : Anchor
  parts : List String
  deriving DecidableEq, Repr

namespace Path

def here : Path := ⟨.here, []⟩

def isIdle (name : String) : Bool := name == "" || name == "."

/-- The names of a written path, as they stand between slashes. -/
def namesIn (text : String) : List String := (Text.pieces '/' text.toList).map String.ofList

def anchorOf (text : String) : Anchor :=
  match (text.toList.takeWhile (· = '/')).length with
  | 0 => .here
  | 2 => .doubleRoot
  | _ => .root

def ofString (text : String) : Path :=
  ⟨anchorOf text, (namesIn text).filter fun name => !isIdle name⟩

/-- Writes a path; the path that goes nowhere is written `.`. -/
def toString (path : Path) : String :=
  let text := path.anchor.text ++ "/".intercalate path.parts
  if text.isEmpty then "." else text

instance : ToString Path := ⟨Path.toString⟩

def isAbsolute (path : Path) : Bool := path.anchor != .here

/-- Goes on from the end of one path along another; an absolute path goes its own way. -/
def join (path next : Path) : Path :=
  if next.isAbsolute then next else ⟨path.anchor, path.parts ++ next.parts⟩

def child (path : Path) (text : String) : Path := path.join (ofString text)

/-- The last name; the root and the working directory have none. -/
def name (path : Path) : String := path.parts.getLast?.getD ""

/-- The path without its last name. -/
def parent (path : Path) : Path := ⟨path.anchor, path.parts.dropLast⟩

/-- The path and one name more. -/
def down (path : Path) (name : String) : Path := ⟨path.anchor, path.parts ++ [name]⟩

@[simp] theorem parent_down (path : Path) (name : String) : (path.down name).parent = path := by
  simp [down, parent]

/-- Where `..` leads from the end of a path without links.  Above the root is the root, and what is
above the place where a path starts that does not start at the root is told by another `..`. -/
def above (path : Path) : Path :=
  match path.parts.getLast? with
  | none => if path.isAbsolute then path else path.down ".."
  | some last => if last = ".." then path.down ".." else path.parent

/-- The path, its parent, the parent of that, up to the anchor. -/
def selfAndParents (path : Path) : List Path :=
  (List.range (path.parts.length + 1)).map fun dropped =>
    ⟨path.anchor, path.parts.take (path.parts.length - dropped)⟩

def hasNull (text : String) : Bool := text.toList.contains '\x00'

/-- Whether a path has a name that no file can have, because it holds the null character. -/
def holdsNull (path : Path) : Bool := path.parts.any hasNull

def ofLocation (names : List String) : Path := ⟨.root, names⟩

end Path

end SignatureIndex
