import SignatureIndex.World.Walk

/-!
# Changing the world

Directories, files and links are put at the location that a path resolves to, over whatever stood
there; the directories on the way are made where they are missing.  A link itself is put into the
directory that its path's parent leads to, not where it points.

What is removed is gone from the world, with the one exception of the working directory and the
directories above it, which whoever stands there does not leave.
-/

namespace SignatureIndex.World

def put (w : World) (location : Location) (node : Node) : World :=
  { w with entries := w.entries.filter (·.1 ≠ location) ++ [(location, node)] }

/-- Makes a directory at a location and at every location on the way that holds nothing. -/
def makeDirectories (w : World) (location : Location) : World :=
  (places location).foldl
    (fun w place => if (w.node? place).isSome then w else w.put place .directory) w
where
  /-- The locations on the way, the nearest to the root first. -/
  places : Location → List Location := fun location =>
    (List.range location.length).map fun n => location.take (n + 1)

/-- Puts a file, a program or a directory at the end of a path. -/
def write (w : World) (path : Path) (node : Node) : World :=
  let w := w.makeDirectories (w.resolveLocation path.parent)
  let location := w.resolveLocation path
  if node.isDirectory then w.makeDirectories location else w.put location node

def makeLink (w : World) (path : Path) (target : String) : World :=
  let directory := w.resolveLocation path.parent
  (w.makeDirectories directory).put (directory ++ [path.name]) (.link target)

/-- Where the working directory is once a location has been removed. -/
def afterRemoval (location here : Location) : Location :=
  if location.isPrefixOf here then
    location.dropLast ++ (here.drop (location.length - 1)).map lostName
  else here

/-- Removes what stands at the end of a path, and everything below it. -/
def remove (w : World) (path : Path) : World :=
  let location := w.resolveLocation path.parent ++ [path.name]
  let entries := w.entries.filter fun entry => !location.isPrefixOf entry.1
  let here := afterRemoval location w.workingDirectory
  { w with entries := entries, workingDirectory := here }.makeDirectories here

end SignatureIndex.World
