import SignatureIndex.Proofs.Hindrances
import SignatureIndex.Proofs.Rewriting
import SignatureIndex.Proofs.Rows

/-!
# Files that are not read

Two worlds may differ in what a single file holds, and in nothing else.  All paths lead to the same
places in both, and the same directories are listed.  Whatever does not read the file comes to the
same, what it tells included: a scan if neither its root nor any file that it includes leads to it,
a catalog if its name does not, and so the answer of a command.
-/

namespace SignatureIndex

namespace World

/-- Whether two worlds are the same apart from what the file at a place holds. -/
structure SameBut (w w' : World) (place : Location) : Prop where
  alike : Alike w w'
  node?_eq : ∀ location, location ≠ place → w'.node? location = w.node? location
  locations_eq : w'.locations = w.locations
  programDirectories_eq : w'.programDirectories = w.programDirectories

/-- A world is the same but for one file if one of its entries is changed to a file with other
bytes. -/
theorem sameBut_of_entries {w : World} {place : Location} {bytes : List UInt8}
    {before after : List (Location × Node)}
    (parts : w.entries = before ++ (place, .file bytes) :: after) (other : List UInt8) :
    SameBut w { w with entries := before ++ (place, .file other) :: after } place := by
  -- an entry for the place may stand before the one that is changed
  have here (location : Location) : Option.Rel Node.Alike (w.node? location)
        (World.node? { w with entries := before ++ (place, .file other) :: after } location) ∧
      (location ≠ place →
        World.node? { w with entries := before ++ (place, .file other) :: after } location =
        w.node? location) := by
    unfold node?
    rw [parts]
    split
    · exact ⟨.some .same, fun _ => rfl⟩
    dsimp only
    rw [List.lookup_append, List.lookup_append, List.lookup_cons, List.lookup_cons]
    have alike (node? : Option Node) : Option.Rel Node.Alike node? node? := by
      cases node? with
      | none => exact .none
      | some node => exact .some .same
    by_cases isHere : location = place
    · refine ⟨?_, fun away => absurd isHere away⟩
      rw [isHere, beq_self_eq_true]
      cases before.lookup place with
      | none => exact .some .file
      | some node => exact .some .same
    · rw [beq_false_of_ne isHere]
      exact ⟨alike _, fun _ => rfl⟩
  exact {
    alike := ⟨fun location => (here location).1, rfl, rfl⟩
    node?_eq := fun location => (here location).2
    locations_eq := by simp [locations, parts]
    programDirectories_eq := rfl }

variable {w w' : World} {place : Location} (same : SameBut w w' place)

namespace SameBut

include same

/-! ## Asking and reading -/

theorem readBytes_eq {path : Path} (elsewhere : w.locate path ≠ .ok place) :
    w'.readBytes path = w.readBytes path := by
  unfold readBytes
  rw [same.alike.locate_eq]
  cases located : w.locate path with
  | error e => rfl
  | ok location =>
    have apart : location ≠ place := fun here => elsewhere (here ▸ located)
    simp only [bind, Except.bind, readable, same.node?_eq location apart, same.alike.system_eq]

private theorem list_eq (path : Path) : w'.list path = w.list path := by
  have sameNames (location : Location) : w'.namesAt location = w.namesAt location := by
    rw [namesAt, namesAt, same.locations_eq]
  simp only [list, same.alike.locate_eq, same.alike.hasDirectory_eq,
    same.alike.system_eq, sameNames]

private theorem childDirectories_eq (path : Path) :
    w'.childDirectories path = w.childDirectories path := by
  simp only [childDirectories, same.list_eq, same.alike.isDirectory_eq]

theorem locateText_eq (text : String) : w'.locateText text = w.locateText text := by
  simp only [locateText, same.alike.system_eq, same.alike.workingDirectory_eq, same.alike.walk_eq]

/-! ## Programs -/

/-- What is started at a place starts in the same way, whatever its bytes. -/
private theorem map_start_executableAt (found : Except FileError Location) :
    (w'.executableAt found).map Executable.start = (w.executableAt found).map Executable.start := by
  cases found with
  | error e => rfl
  | ok location =>
    simp only [executableAt]
    have nodes := same.alike.stands location
    generalize w.node? location = here, w'.node? location = there at nodes ⊢
    cases nodes with
    | none => rfl
    | some nodes => cases nodes <;> rfl

private theorem programAt_eq (found : Except FileError Location) :
    w'.programAt found = w.programAt found := by
  have starts := same.map_start_executableAt found
  unfold programAt
  cases first : w.executableAt found <;> cases second : w'.executableAt found <;>
    simp_all [Except.map, Except.bind]

private theorem program_eq (name : String) : w'.program name = w.program name := by
  simp only [program, programNamed, same.programAt_eq, same.locateText_eq, same.alike.locate_eq,
    same.programDirectories_eq]

private theorem which?_eq (name : String) : w'.which? name = w.which? name := by
  unfold which?
  rw [same.programDirectories_eq]
  congr 1
  funext path
  have starts := same.map_start_executableAt (w.locate path)
  rw [same.alike.locate_eq]
  cases first : w.executableAt (w.locate path) <;>
    cases second : w'.executableAt (w.locate path) <;> simp_all [Except.map]

/-! ## Scanning -/

theorem sheet_eq {path : Path} (elsewhere : w.locate path ≠ .ok place) :
    w'.sheet path = w.sheet path := by
  simp only [sheet, same.readBytes_eq elsewhere, same.alike.knownFileAt_eq]

/-- A scan that does not read the file comes to the same. -/
theorem scan_eq {options : ScanOptions} {root : Path}
    (unread : ∀ path, w.ScanReads options root path → w.locate path ≠ .ok place) :
    w'.scan options root = w.scan options root :=
  scan_congr same.alike.firstFile_eq fun path reads => same.sheet_eq (unread path reads)

end SameBut

end World

open World (SameBut)

variable {w w' : World} {place : Location} (same : SameBut w w' place)
include same

/-! ## Search paths, the runtime and modules -/

namespace SearchPath

theorem list_of_sameBut (start libraryDirectory : Path) (layout : Layout) :
    list w' start libraryDirectory layout = list w start libraryDirectory layout := by
  simp only [list, find, projectRoot, libraryRoots, dependencyRoots, childDirectories,
    same.alike.resolve_eq, same.alike.isDirectory_eq, same.childDirectories_eq]

theorem locateModule_of_sameBut (paths : List Path) (moduleName : String) (layout : Layout) :
    locateModule w' paths moduleName layout = locateModule w paths moduleName layout := by
  have probed : probe w' moduleName layout paths = probe w moduleName layout paths := by
    induction paths with
    | nil => rfl
    | cons path paths ih => simp only [probe, World.isFile, same.alike.fileAt_eq, ih]
  simp only [locateModule, findModule, probed]

end SearchPath

private theorem Discovery.libraryDirectory_of_sameBut (executable : Option String) (limit : Datum) :
    libraryDirectory w' executable limit = libraryDirectory w executable limit := by
  simp only [libraryDirectory, ask, same.which?_eq, same.program_eq]

namespace Resolver

private theorem ofSettings_of_sameBut (settings : Settings) (libraryDirectory : Option Path) :
    ofSettings w' settings libraryDirectory = ofSettings w settings libraryDirectory := by
  simp only [ofSettings, Discovery.libraryDirectory_of_sameBut same]

/-- The files that resolving modules may read. -/
def Reads (resolver : Resolver) (w : World) (start : Path) (modules : List String)
    (path : Path) : Prop :=
  ∃ paths, (resolver.searchPaths w start).outcome = .ok paths ∧ ∃ moduleName ∈ modules, ∃ location,
    (SearchPath.locateModule w paths moduleName resolver.layout).outcome = .ok location ∧
    w.ScanReads (resolver.scanOptions paths location) location.source path

private theorem resolve_of_sameBut (resolver : Resolver) (table : SymbolTable) (start : Path)
    (modules : List String)
    (unread : ∀ path, resolver.Reads w start modules path → w.locate path ≠ .ok place) :
    resolver.resolve w' table start modules = resolver.resolve w table start modules := by
  have sameDeclarations {paths : List Path} {moduleName : String} (asked : moduleName ∈ modules)
      (listed : (resolver.searchPaths w start).outcome = .ok paths) :
      resolver.declarations w' paths moduleName = resolver.declarations w paths moduleName := by
    rw [declarations, declarations, SearchPath.locateModule_of_sameBut same]
    refine Traced.bind_congr_of_outcome fun location located => bind_congr fun _ => ?_
    have scans : w'.scan (resolver.scanOptions paths location) location.source =
        w.scan (resolver.scanOptions paths location) location.source :=
      same.scan_eq fun path reads =>
        unread path ⟨paths, listed, moduleName, asked, location, located, reads⟩
    rw [scanOptions] at scans
    dsimp only
    rw [scans]
  unfold resolve searchPaths
  rw [SearchPath.list_of_sameBut same]
  split
  · rfl
  refine Traced.bind_congr_of_outcome fun paths listed => ?_
  -- module after module, as long as all of them are among those that are asked for
  have folds (asked : List String) (among : ∀ moduleName ∈ asked, moduleName ∈ modules)
      (table : SymbolTable) :
      resolver.foldModules w' paths asked table = resolver.foldModules w paths asked table := by
    induction asked generalizing table with
    | nil => rfl
    | cons moduleName asked ih =>
      obtain ⟨here, rest⟩ := List.forall_mem_cons.mp among
      rw [foldModules, foldModules, sameDeclarations here listed]
      exact bind_congr fun declarations => bind_congr fun extended => ih rest extended
  exact folds modules (fun _ among => among) table

end Resolver

/-! ## Catalogs -/

namespace Catalog

/-- The path in the world that a catalog is read from, unless it comes with the library. -/
def path? (w : World) (name : String) : Option Path :=
  let path := Path.ofString name
  if path.isAbsolute then some path
  else
    match w.system.package with
    | .installed directory => some (directory.join path)
    | .bundled => none

private theorem load_of_sameBut {name : String}
    (unread : ∀ path, path? w name = some path → w.locate path ≠ .ok place) :
    load w' name = load w name := by
  unfold path? at unread
  unfold load
  dsimp only at unread ⊢
  rw [same.alike.system_eq]
  split at unread
  next absolute => simp only [if_pos absolute, loadFrom, same.readBytes_eq (unread _ rfl)]
  next relative =>
    rw [if_neg relative, if_neg relative]
    split at unread
    next installed => simp only [installed, loadFrom, same.readBytes_eq (unread _ rfl)]
    next bundled => simp only [bundled]

end Catalog

/-! ## Commands -/

namespace CommandLine

theorem Command.ofArguments_of_sameBut (name : CommandName) (arguments : Arguments) :
    ofArguments w' name arguments = ofArguments w name arguments := by
  have checks : checkDirectory w' = checkDirectory w := by
    have files := same.alike.any_node?_eq fun _ _ nodes => nodes.isFile_eq
    funext hint mustExist text
    simp only [checkDirectory, same.locateText_eq, files, same.alike.system_eq]
  cases name <;> simp only [ofArguments, startCheck, libraryCheck, checks]

namespace Command

theorem printWritten_of_sameBut (before : String) (written : List (Except NumeralFlaw String)) :
    printWritten w' before written = printWritten w before written := by
  have prints (text : String) : printRow w' text = printRow w text := by
    unfold printRow isPrintable
    rw [same.alike.system_eq]
  induction written with
  | nil => rfl
  | cons row written ih =>
    cases row with
    | error flaw => rfl
    | ok row => rw [printWritten, printWritten, prints, ih]

/-- The files that a command may read besides its settings file. -/
inductive Reads (w : World) (settings : Settings) : Command → Path → Prop
  | lookedUp {subject modules start given path} : Catalog.path? w settings.catalog = some path →
      Reads w settings (.lookup subject modules start given) path
  | listed {operators path} : Catalog.path? w settings.catalog = some path →
      Reads w settings (.builtins operators) path
  | resolved {subject modules start given resolver path} : modules ≠ [] →
      (Resolver.ofSettings w settings (given.map Path.ofString)).outcome = .ok resolver →
      resolver.Reads w (Path.ofString start) modules path →
      Reads w settings (.lookup subject modules start given) path

/-- A command that does not read the file has the same answer. -/
theorem rows_of_sameBut {settings : Settings} {command : Command}
    (unread : ∀ path, command.Reads w settings path → w.locate path ≠ .ok place) :
    command.rows w' settings = command.rows w settings := by
  cases command with
  | paths start given =>
    simp only [rows, Resolver.ofSettings_of_sameBut same, Resolver.searchPaths,
      SearchPath.list_of_sameBut same]
  | locate moduleName start given =>
    simp only [rows, Resolver.ofSettings_of_sameBut same, Resolver.searchPaths,
      SearchPath.list_of_sameBut same, SearchPath.locateModule_of_sameBut same]
  | lookup subject modules start given =>
    -- the catalog is loaded first, and then modules, if any are asked for
    have loads := Catalog.load_of_sameBut same fun path reads => unread path (.lookedUp reads)
    have tables :
        tableOf w' settings modules start given = tableOf w settings modules start given := by
      rw [tableOf, tableOf, loads]
      refine bind_congr fun catalog => ?_
      dsimp only
      split
      · rfl
      next asked =>
        rw [Resolver.ofSettings_of_sameBut same]
        refine Traced.bind_congr_of_outcome fun resolver made => ?_
        exact Resolver.resolve_of_sameBut same resolver _ _ _ fun path reads =>
          unread path (.resolved (mt List.isEmpty_iff.mpr asked) made reads)
    rw [rows, rows, tables]
  | builtins operators =>
    rw [rows, rows, Catalog.load_of_sameBut same fun path reads => unread path (.listed reads)]

end Command

end CommandLine

end SignatureIndex
