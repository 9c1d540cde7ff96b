import SignatureIndex.World.Basic

/-!
# Following paths

A path is followed name by name from a directory.  A link is followed to where its target leads
before the next name is looked at, so `..` after a link leaves the directory that the link led to.

Two ways of following differ in what they ask for.  `locate` asks that every place on the way is
there and may be searched, and gives the location reached; it gives up after a fixed number of
links, and refuses names and paths that are too long.  `resolve` asks for nothing: names that lead
nowhere are kept as they are, and the path it gives has no links that can be seen and no `..` left
in it.  A link that leads back to itself stops it.  Then what is left of the path is kept as
written, and resolving fails only if nobody can go along it.

A question about a path, such as whether it leads to a file, takes most errors for a no.  What
cannot even be asked, because a name is too long or a directory may not be searched, stays an error.
-/

namespace SignatureIndex.World

def targetStart (directory : Location) (target : String) : Location :=
  if Path.anchorOf target = .here then directory else []

/-- The most bytes that a name may have. -/
def longestName : Nat := 255

/-- The most bytes that a path may have. -/
def longestPath : Nat := 4095

/-- The most links that are followed on the way along one path. -/
def mostLinks : Nat := 40

/-- Where one name leads. -/
inductive Step where
  | to (place : Location)
  | link (target : String)

/-- Looks up one name in the directory at a location.  An empty name, such as the one after a slash
at the end of a path, only asks for a directory. -/
def step (w : World) (place : Location) (name : String) : Except FileError Step :=
  if !w.hasDirectory place then .error .notADirectory
  else if name = "" then .ok (.to place)
  else if w.system.refuses .search place then .error .permissionDenied
  else if name = "." then .ok (.to place)
  else if name = ".." then .ok (.to place.dropLast)
  else if longestName < w.system.byteCount name then .error .nameTooLong
  else
    match w.node? (place ++ [name]) with
    | none => .error .notFound
    | some (.link target) => .ok (.link target)
    -- A file is passed here too; a further name then finds no directory.
    | some _ => .ok (.to (place ++ [name]))

/-- Follows names from a location up to the first link, from where `follow` goes on. -/
def walkWith (w : World) (follow : Location → List String → Except FileError Location) :
    Location → List String → Except FileError Location
  | place, [] => .ok place
  | place, name :: names =>
    match w.step place name with
    | .error e => .error e
    | .ok (.to next) => walkWith w follow next names
    | .ok (.link target) => follow (targetStart place target) (Path.namesIn target ++ names)

/-- Follows names from a location, over at most so many links. -/
def walk (w : World) : (links : Nat) → Location → List String → Except FileError Location
  | 0 => w.walkWith fun _ _ => .error .tooManyLinks
  | links + 1 => w.walkWith (w.walk links)

def startOf (w : World) (path : Path) : Location :=
  if path.isAbsolute then [] else w.workingDirectory

def locate (w : World) (path : Path) : Except FileError Location :=
  if path.holdsNull then .error .nullCharacter
  else if longestPath < w.system.byteCount (toString path) then .error .nameTooLong
  else w.walk mostLinks (w.startOf path) path.parts

/-- The location that a written path leads to; the empty text leads nowhere. -/
def locateText (w : World) (text : String) : Except FileError Location :=
  if Path.hasNull text then .error .nullCharacter
  else if text.isEmpty then .error .notFound
  else if longestPath < w.system.byteCount text then .error .nameTooLong
  else w.walk mostLinks (targetStart w.workingDirectory text) (Path.namesIn text)

/-! ## Resolving -/

/-- Why the names of a path are not followed to their end. -/
inductive Impasse where
  /-- A link leads back to itself; the path goes on as written from where the link stands. -/
  | circle (path : Path)
  /-- Links lead to links too deeply. -/
  | depth
  /-- A name holds a null character. -/
  | null
  deriving DecidableEq

/-- How deeply links may lead to links when a path is resolved. -/
def deepestLink : Nat := 980

/-- The location that names lead to where none of them is a link. -/
def climb (place : Location) (name : String) : Location :=
  if name = ".." then place.dropLast else place ++ [name]

/-- The location that a path leads to where none of its names is a link. -/
def spot (w : World) (path : Path) : Location := path.parts.foldl climb (w.startOf path)

/-- The target of the link that a name leads to from the end of a path without links, if it can be
seen that there is one. -/
def linkAt? (w : World) (path : Path) (name : String) : Option String :=
  match (w.walk 0 (w.startOf path) path.parts).bind fun place => w.step place name with
  | .ok (.link target) => some target
  | _ => none

/-- What stops a path of which more is left, in names as they stand between slashes. -/
def Impasse.goOn (names : List String) : Impasse → Impasse
  | .circle path => .circle (path.child ("/".intercalate names))
  | impasse => impasse

/-- Where the target of a link starts that stands in the directory at the end of a path. -/
def turn (path : Path) (target : String) : Path :=
  if Path.anchorOf target = .here then path else ⟨.root, []⟩

/-- Follows names from the end of a path, without asking whether anything is there; `follow` tells
where the link at the end of a path leads. -/
def resolveWith (w : World) (follow : Path → String → Except Impasse Path) :
    Path → List String → Except Impasse Path
  | path, [] => .ok path
  | path, name :: names =>
    if Path.isIdle name then resolveWith w follow path names
    else if name = ".." then resolveWith w follow path.above names
    else if Path.hasNull name then .error .null
    else
      match w.linkAt? path name with
      | none => resolveWith w follow (path.down name) names
      | some target =>
        match follow (path.down name) target with
        | .ok path => resolveWith w follow path names
        | .error impasse => .error (impasse.goOn names)

/-- Follows names from the end of a path, through links nested up to a depth.  The links `within`
whose targets this happens are not followed again. -/
def resolveNames (w : World) : (depth : Nat) → (within : List Path) → Path → List String →
    Except Impasse Path
  | 0, _ => w.resolveWith fun _ _ => .error .depth
  | depth + 1, within => w.resolveWith fun link target =>
      if within.contains link then .error (.circle link)
      else w.resolveNames depth (link :: within) (turn link.parent target) (Path.namesIn target)

/-- The path without names that a path starts with when it is resolved. -/
def originOf (path : Path) : Path := if path.isAbsolute then ⟨.root, []⟩ else Path.here

/-- Where a path ends, whether or not anything is there. -/
def endOf (w : World) (path : Path) : Except Impasse Path :=
  w.resolveNames deepestLink [] (originOf path) path.parts

/-- The path from the root that a path stands for where none of its names is a link.  Nobody can
tell where a working directory is that has been removed. -/
def fromRoot (w : World) (path : Path) : Except FileError Path :=
  if path.isAbsolute then .ok ⟨path.anchor, w.spot path⟩
  else if isLost w.workingDirectory then .error .notFound
  else .ok (Path.ofLocation (w.spot path))

/-- The path from the root at which a path ends, or at which a circle of links stops it. -/
def goalOf (w : World) (path : Path) : Except FileError Path :=
  match w.endOf path with
  | .ok reached | .error (.circle reached) => w.fromRoot reached
  | .error .depth => .error .tooManyLinks
  | .error .null => .error .nullCharacter

/-- A path from the root without `..` and without links that can be seen, unless a link leads back
to itself. -/
def resolve (w : World) (path : Path) : Except FileError Path := do
  let goal ← w.goalOf path
  -- What is left of a path that leads into a circle may lead out of it again.
  match w.locate goal with
  | .error .tooManyLinks => .error .tooManyLinks
  | .error .nullCharacter => .error .nullCharacter
  | _ => .ok goal

/-- The location that a path names, whether or not anything is there. -/
def resolveLocation (w : World) (path : Path) : Location :=
  match w.endOf path with
  | .ok reached | .error (.circle reached) => w.spot reached
  | .error _ => w.spot path

/-! ## Asking about a path -/

/-- The location that a path leads to, if it leads anywhere. -/
def reach (w : World) (path : Path) : Except FileError (Option Location) :=
  match w.locate path with
  | .ok location => .ok (some location)
  | .error e => if e.isAbsence then .ok none else .error e

/-- The location of the file that a path leads to, if it leads to one. -/
def fileAt (w : World) (path : Path) : Except FileError (Option Location) :=
  (w.reach path).map fun reached =>
    reached.filter fun location => (w.node? location).any Node.isFile

def isFile (w : World) (path : Path) : Except FileError Bool := (w.fileAt path).map Option.isSome

def isDirectory (w : World) (path : Path) : Except FileError Bool :=
  (w.reach path).map fun reached => reached.any w.hasDirectory

/-- What stands at a location, if it may be read. -/
def readable (w : World) (location : Location) : Except FileError Node :=
  match w.node? location with
  | none => .error .notFound
  | some node => if w.system.refuses .read location then .error .permissionDenied else .ok node

def readBytes (w : World) (path : Path) : Except FileError (List UInt8) := do
  let location ← w.locate path
  match ← w.readable location with
  | .file bytes => .ok bytes
  | .program executable => .ok executable.bytes
  | .directory => .error .isADirectory
  | .link _ => .error .tooManyLinks

/-- The names in the directory that a path leads to, as they are come upon. -/
def list (w : World) (path : Path) : Except FileError (List String) := do
  let location ← w.locate path
  if !w.hasDirectory location then .error .notADirectory
  else if w.system.refuses .read location then .error .permissionDenied
  else .ok (w.namesAt location)

/-- The directories in a directory, in order of their names. -/
def childDirectories (w : World) (path : Path) : Except FileError (List Path) := do
  let names ← w.list path
  let directories ← names.filterM fun name => w.isDirectory (path.join ⟨.here, [name]⟩)
  let sorted := directories.eraseDups.mergeSort fun a b => decide (a ≤ b)
  .ok (sorted.map fun name => path.join ⟨.here, [name]⟩)

/-! ## Files that can be read -/

/-- Only files can be read. -/
theorem isFile_of_readBytes {w : World} {path : Path} {bytes : List UInt8}
    (read : w.readBytes path = .ok bytes) : w.isFile path = .ok true := by
  unfold readBytes readable at read
  unfold isFile fileAt reach
  cases located : w.locate path with
  | error e => simp [located, bind, Except.bind] at read
  | ok location =>
    simp only [located, bind, Except.bind] at read
    cases present : w.node? location with
    | none => simp [present] at read
    | some node =>
      simp only [present] at read
      split at read
      · cases read
      next fetched =>
      split at fetched
      · cases fetched
      cases fetched
      -- what is no file has not been read
      cases node with
      | file _ => simp [present, Except.map, Node.isFile]
      | program _ => simp [present, Except.map, Node.isFile]
      | directory => cases read
      | link _ => cases read

end SignatureIndex.World
