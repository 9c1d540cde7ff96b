import SignatureIndex.Settings

/-!
# Search paths

The sources of a module are looked for in the applications of the runtime's libraries, in the
project, and in the dependencies that the project has built, in this order; the first place that has
the module wins.  The project is the nearest directory, going up, in which something has been built.
-/

namespace SignatureIndex

/-- Where a module was found: its source, and the directory of its includes. -/
structure ModuleLocation where
  source : Path
  includes : Path
  deriving DecidableEq, Repr

namespace SearchPath

/-- The directories in a directory, where `problem` says what its flaws amount to. -/
def childDirectories (w : World) (path : Path) (problem : DirectoryFlaw → Problem) :
    Except Fault (List Path) :=
  match w.childDirectories path with
  | .ok children => .ok children
  | .error .notFound => .error (.problem (problem .missing))
  | .error .notADirectory => .error (.problem (problem .notDirectory))
  | .error .permissionDenied => .error (.problem (problem .notListable))
  | .error e => .error (.file e)

def libraryRoots (w : World) (libraryDirectory : Path) : Except Fault (List Path) :=
  childDirectories w libraryDirectory (.libraryRoot libraryDirectory)

/-- The nearest directory, going up from a path, that has the marker as a directory in it. -/
def projectRoot (w : World) (start : Path) (marker : String) : Except Fault Path :=
  match w.resolve start with
  | .error e => .error (.file e)
  | .ok start =>
    match start.selfAndParents.findM? fun directory => w.isDirectory (directory.child marker) with
    | .error e => .error (.file e)
    | .ok (some directory) => .ok directory
    | .ok none => .error (.problem (.projectRootNotFound start marker))

def dependencyRoots (w : World) (project : Path) (subpath : String) : Except Fault (List Path) :=
  let directory := project.child subpath
  childDirectories w directory (.dependencyDirectory directory)

/-- The project that a path belongs to, and all search paths that go with it. -/
def find (w : World) (start libraryDirectory : Path) (layout : Layout) :
    Except Fault (Path × List Path) := do
  let project ← projectRoot w start layout.buildMarker
  let libraries ← libraryRoots w libraryDirectory
  let dependencies ← dependencyRoots w project layout.dependencySubpath
  .ok (project, libraries ++ project :: dependencies)

def list (w : World) (start libraryDirectory : Path) (layout : Layout) : Traced (List Path) := do
  let (project, paths) ← Traced.ofExcept (find w start libraryDirectory layout)
  Traced.report .debug .searchPaths s!"project root {project}, {paths.length} search paths"
  pure paths

def sourceName (moduleName : String) (layout : Layout) : String :=
  moduleName ++ layout.sourceExtension

def candidate (moduleName : String) (layout : Layout) (path : Path) : Path :=
  (path.child layout.sourceDirectory).child (sourceName moduleName layout)

def probe (w : World) (moduleName : String) (layout : Layout) :
    List Path → Traced (Option ModuleLocation)
  | [] => pure none
  | path :: paths => do
    let source := candidate moduleName layout path
    Traced.report .debug .searchPaths s!"probing {source}"
    if ← Traced.ofFile (w.isFile source) then
      pure (some ⟨source, path.child layout.includeDirectory⟩)
    else probe w moduleName layout paths

/-- The first search path that has a module, if any has. -/
def findModule (w : World) (paths : List Path) (moduleName : String) (layout : Layout) :
    Traced (Option ModuleLocation) := do
  Traced.report .debug .searchPaths s!"looking for file {sourceName moduleName layout}"
  probe w moduleName layout paths

/-- The first search path that has a module, which one must have. -/
def locateModule (w : World) (paths : List Path) (moduleName : String) (layout : Layout) :
    Traced ModuleLocation := do
  match ← findModule w paths moduleName layout with
  | some location => pure location
  | none => Traced.problem (.moduleNotFound moduleName paths)

/-- Probing finds the first candidate that is a file, unless it comes upon one that cannot be asked
about. -/
theorem outcome_probe (w : World) (moduleName : String) (layout : Layout) (paths : List Path) :
    (probe w moduleName layout paths).outcome =
      ((paths.findM? fun path => w.isFile (candidate moduleName layout path)).mapError .file).map
        fun found => found.map fun path =>
          ⟨candidate moduleName layout path, path.child layout.includeDirectory⟩ := by
  induction paths with
  | nil => rfl
  | cons path paths ih =>
    simp only [probe, List.findM?, Traced.outcome_bind, Traced.outcome_report,
      Traced.outcome_ofFile]
    cases w.isFile (candidate moduleName layout path) with
    | error e => rfl
    | ok found =>
      cases found with
      | true => rfl
      | false => exact ih

/-- A module is located by searching for the first path that has it. -/
theorem outcome_locateModule (w : World) (moduleName : String) (layout : Layout)
    (paths : List Path) : (locateModule w paths moduleName layout).outcome =
      match paths.findM? fun path => w.isFile (candidate moduleName layout path) with
      | .ok (some path) =>
        .ok ⟨candidate moduleName layout path, path.child layout.includeDirectory⟩
      | .ok none => .error (.problem (.moduleNotFound moduleName paths))
      | .error e => .error (.file e) := by
  unfold locateModule findModule
  simp only [Traced.outcome_bind, Traced.outcome_report, outcome_probe]
  cases paths.findM? fun path => w.isFile (candidate moduleName layout path) with
  | error e => rfl
  | ok path? => cases path? <;> rfl

end SearchPath

end SignatureIndex
