import SignatureIndex.CommandLine

/-!
# The program

Takes a picture of the part of the file system that a run can ask about and hands it, with the
arguments, to the command line.  The picture holds the trees below the working directory, below
every directory that an argument names, below the projects that these belong to, and below the
directory of libraries that settings name; of the directories above these it holds the settings
files.

The program runs no other program, so it finds no runtime to ask for the directory of libraries.
-/

namespace SignatureIndex.Picture

/-- The location of an absolute path as the system writes it. -/
def locationOf (text : String) : Location := (Path.ofString text).parts

/-- Adds something to the picture unless the picture shows something there already. -/
def addNode (w : World) (location : Location) (node : Node) : World :=
  if (w.node? location).isSome then w else { w with entries := (location, node) :: w.entries }

/-- Adds what stands at a place, and everything below it if that is a directory. -/
partial def addTree (w : World) (text : String) : IO World := do
  let path := (← IO.currentDir) / text
  let location := locationOf path.toString
  match (← path.symlinkMetadata).type with
  | .dir =>
    let mut w := addNode w location .directory
    for entry in ← path.readDir do
      w ← addTree w entry.path.toString
    return w
  | .symlink =>
    let target ← try pure (← IO.FS.realPath path).toString catch _ => pure ""
    return addNode w location (.link target)
  | _ =>
    let bytes ← try IO.FS.readBinFile path catch _ => pure .empty
    return addNode w location (.file bytes.data.toList)

/-- Adds the directories above a place, and the settings files in them. -/
def addAbove (w : World) (location : Location) : IO World := do
  let mut w := w
  for above in (Path.ofLocation location).parent.selfAndParents do
    w := addNode w above.parts .directory
    let settings := (← IO.currentDir) / toString (above.child Settings.fileName)
    if ← settings.pathExists then
      if !(← settings.isDir) then w ← addTree w settings.toString
  return w

/-- Adds a directory with everything below it and what is needed of the directories above. -/
def addDirectory (w : World) (text : String) : IO World := do
  let path := (← IO.currentDir) / text
  if ← path.isDir then
    let place := (← IO.FS.realPath path).toString
    addAbove (← addTree w place) (locationOf place)
  else return w

/-- The written paths among arguments: each argument, and what follows an equals sign in it. -/
def written (arguments : List String) : List String :=
  arguments ++ arguments.map fun argument =>
    String.ofList ((argument.toList.dropWhile (· ≠ '=')).drop 1)

/-- Adds the project that a path belongs to, and the directory of libraries that its settings
name. -/
def addProject (w : World) (start : String) : IO World := do
  match Settings.loadFor w (some (Path.ofString start)) with
  | .error _ => return w
  | .ok settings =>
    let w ← (settings.libraryDirectory.toList).foldlM addDirectory w
    let directories :=
      match w.resolve (Path.ofString start) with
      | .ok start => start.selfAndParents
      | .error _ => []
    for above in directories do
      let marker := (← IO.currentDir) / toString (above.child settings.layout.buildMarker)
      if ← marker.isDir then return ← addDirectory w (toString above)
    return w

/-- The system with the home directory that the environment names; of the users nothing is known. -/
def systemOf (home : Option String) : System where
  homes user := if user.isEmpty then home else none

def take (arguments : List String) : IO World := do
  let here := (← IO.FS.realPath (← IO.currentDir)).toString
  let home ← IO.getEnv "HOME"
  let starts := here :: (written arguments).filter fun text => !text.isEmpty
  let w ← starts.foldlM addDirectory ⟨[], locationOf here, systemOf home, []⟩
  starts.foldlM addProject w

end SignatureIndex.Picture

open SignatureIndex in
def main (arguments : List String) : IO UInt32 := do
  let outcome := CommandLine.run (← Picture.take arguments) arguments
  IO.print outcome.output
  IO.eprint outcome.complaints
  match outcome.fault with
  | some fault => IO.eprintln s!"error: {fault.message}"
  | none => pure ()
  return UInt32.ofNat outcome.exitCode
