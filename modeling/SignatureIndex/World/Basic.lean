import SignatureIndex.Path
import SignatureIndex.Text.Utf8

/-!
# The world

What this library can see of the machine it runs on: a tree of files, directories, links and
programs, the working directory, the directories that programs are looked for in, and what the
system has settled beside the tree.  The tree is kept flat.  A *location* is the row of names that
leads from the root to a place, and the world lists what stands at each location; the root itself is
always a directory.

A *system* knows the home directories, and what it refuses at which places.  A name may have bytes
that stand for no character, and the system knows which characters hold the places of such bytes in
a text, and which characters can be printed.  It also knows where the directory stands that comes
with this library.

A working directory that is removed is not gone for those who stand in it: it is an empty directory
that still has its parent, but nobody can name it any more.  It keeps its place under a name that no
path can hold, because there is a slash in it.
-/

namespace SignatureIndex

/-- The names that lead from the root to a place. -/
abbrev Location := List String

/-- Why a place could not be used. -/
inductive FileError where
  | notFound
  | notADirectory
  | isADirectory
  /-- The system refuses what was asked of the place, for want of a right or because it cannot be
  done. -/
  | permissionDenied
  | tooManyLinks
  | nameTooLong
  /-- The path holds a null character, so nothing was looked for. -/
  | nullCharacter
  deriving DecidableEq, Repr

/-- Whether an error says no more than that there is nothing of the kind. -/
def FileError.isAbsence : FileError → Bool
  | .notFound | .notADirectory | .tooManyLinks | .nullCharacter => true
  | .isADirectory | .permissionDenied | .nameTooLong => false

def FileError.message : FileError → String
  | .notFound => "No such file or directory"
  | .notADirectory => "Not a directory"
  | .isADirectory => "Is a directory"
  | .permissionDenied => "Permission denied"
  | .tooManyLinks => "Too many levels of symbolic links"
  | .nameTooLong => "File name too long"
  | .nullCharacter => "embedded null byte"

/-- What a program does when it is run.  What it writes is a text, unless its bytes stand for
none. -/
structure Program where
  output : Option String
  complaints : Option String
  /-- The code it ends with; where a signal ends it, the number of the signal below zero. -/
  exitCode : Int
  /-- How long it stays busy before it ends. -/
  busySeconds : Nat

/-- A file that can be run: its bytes, and what becomes of an attempt to start it. -/
structure Executable where
  bytes : List UInt8
  start : Except FileError Program

instance : Coe Program Executable := ⟨fun program => ⟨[], .ok program⟩⟩

/-- What can stand at a place. -/
inductive Node where
  | file (bytes : List UInt8)
  | directory
  | link (target : String)
  | program (executable : Executable)

namespace Node

def ofText (text : String) : Node := .file (Text.Utf8.encode text)

def isDirectory : Node → Bool
  | .directory => true
  | _ => false

def isFile : Node → Bool
  | .file _ | .program _ => true
  | _ => false

end Node

/-- What the system may refuse at a place. -/
inductive Access where
  /-- To go on from a directory along a name. -/
  | search
  /-- To read what a file holds, or the names in a directory. -/
  | read
  deriving DecidableEq, Repr

/-- Where the directory is that comes with the library. -/
inductive Package where
  /-- The library brings its files along. -/
  | bundled
  /-- The files are installed in a directory. -/
  | installed (directory : Path)

/-- What the system has settled beside the tree. -/
structure System where
  /-- The home directories of the users, as written, by their names.  The one without a name is that
  of whoever runs the program. -/
  homes : String → Option String
  refuses : Access → Location → Bool := fun _ _ => false
  /-- Whether a character holds the place of a byte in a name that stands for no character. -/
  isStandIn : Char → Bool := fun _ => false
  /-- Whether a character can be printed. -/
  isWritable : Char → Bool := fun _ => true
  package : Package := .bundled

/-- How many bytes a text has as a name. -/
def System.byteCount (system : System) (text : String) : Nat :=
  text.toList.foldr (fun c bytes => (if system.isStandIn c then 1 else c.utf8Size) + bytes) 0

/-- A system that refuses nothing and knows only the home directory of whoever runs the program. -/
def System.ofHome (home : String) : System where
  homes name := if name.isEmpty then some home else none

instance : Coe String System := ⟨System.ofHome⟩

/-- The part of the machine that can be seen. -/
structure World where
  entries : List (Location × Node)
  workingDirectory : Location
  system : System
  /-- Where programs are looked for. -/
  programDirectories : List Path

namespace World

/-- The home directory of a user. -/
def home (w : World) (name : String) : Option String := w.system.homes name

/-- What stands at a location, if anything does. -/
def node? (w : World) (location : Location) : Option Node :=
  if location.isEmpty then some .directory else w.entries.lookup location

def hasDirectory (w : World) (location : Location) : Bool :=
  (w.node? location).any Node.isDirectory

/-- Every location at which something stands, apart from the root. -/
def locations (w : World) : List Location := w.entries.map (·.1)

/-- What a name becomes when its directory is removed from under those who stand in it. -/
def lostName (name : String) : String := name ++ "/"

def isLost (location : Location) : Bool := location.any fun name => name.toList.contains '/'

/-- The names that stand in the directory at a location, as they are come upon. -/
def namesAt (w : World) (location : Location) : List String :=
  w.locations.filterMap fun place =>
    if place.dropLast = location ∧ !isLost place then place.getLast? else none

/-- Only listed locations and the root hold anything. -/
theorem mem_locations_of_node? {w : World} {location : Location} {node : Node}
    (present : w.node? location = some node) (below : location ≠ []) :
    location ∈ w.locations := by
  unfold node? at present
  rw [if_neg (by simpa using below)] at present
  unfold locations
  generalize w.entries = entries at present ⊢
  induction entries with
  | nil => simp at present
  | cons entry entries ih =>
    obtain ⟨place, here⟩ := entry
    rw [List.lookup_cons] at present
    split at present
    · next same => simp [eq_of_beq same]
    · exact List.mem_cons_of_mem _ (ih present)

end World

end SignatureIndex
