import SignatureIndex.Proofs.Stages
import SignatureIndex.Proofs.Spellings
import SignatureIndex.Proofs.Stops
import SignatureIndex.World.Edit

/-!
# What can come of resolving

Resolving gives a table or one of five problems: there is no project, the libraries or the
dependencies cannot be listed, a module is not found, or a source is faulty.  What else can come of
it has nothing to do with the texts of sources, and it is of two kinds.

Resolving has *limits*.  It cannot be told where to start with a null character, it does not know
where a working directory is that has been removed, and files include one another no deeper than the
depth of inclusion allows.

And some of what the system says *escapes*: that a path is too long to be asked about, or that a
directory may not be searched; that the way to a directory leads over too many links, or in a
circle; or that there can be no dependencies where a null character stands in their place.  Reading
a source makes a problem of such things, and listing a directory makes one of most of them; asking
whether a file is there does not.
-/

namespace SignatureIndex

namespace Resolver

/-- The directories that are listed for search paths. -/
inductive Lists (resolver : Resolver) (w : World) (start : Path) : Path → Prop
  | libraries : Lists resolver w start resolver.libraryDirectory
  | dependencies {project} :
      SearchPath.projectRoot w start resolver.layout.buildMarker = .ok project →
      Lists resolver w start (project.child resolver.layout.dependencySubpath)

/-- How included files are looked for in the scan of a module that has been located. -/
def scanOptions (resolver : Resolver) (paths : List Path) (location : ModuleLocation) :
    ScanOptions :=
  ⟨resolver.verbose, [location.includes], paths, resolver.depth⟩

/-- The paths about which resolving may ask whether something is there. -/
inductive Asks (resolver : Resolver) (w : World) (start : Path)
    (modules : List String) : Path → Prop
  /-- The mark of a project, in a directory above the start. -/
  | marker {origin directory} : w.resolve start = .ok origin → directory ∈ origin.selfAndParents →
      Asks resolver w start modules (directory.child resolver.layout.buildMarker)
  | listed {directory} : resolver.Lists w start directory → Asks resolver w start modules directory
  | child {directory names name} : resolver.Lists w start directory → w.list directory = .ok names →
      name ∈ names → Asks resolver w start modules (directory.join ⟨.here, [name]⟩)
  | source {paths path moduleName} : (resolver.searchPaths w start).outcome = .ok paths →
      path ∈ paths → moduleName ∈ modules →
      Asks resolver w start modules (SearchPath.candidate moduleName resolver.layout path)
  /-- A place for a file that is included by a module or by a file that it includes. -/
  | included {paths moduleName location locations including kind name path} :
      (resolver.searchPaths w start).outcome = .ok paths → moduleName ∈ modules →
      (SearchPath.locateModule w paths moduleName resolver.layout).outcome = .ok location →
      World.Chain w (resolver.scanOptions paths location) location.source locations including →
      w.HasInclusion including kind name →
      path ∈ (resolver.scanOptions paths location).candidates kind name including →
      Asks resolver w start modules path

/-- The problems that resolving can have. -/
inductive Complains (resolver : Resolver) (w : World) (start : Path) (modules : List String) :
    Problem → Prop
  | noProject {origin} : w.resolve start = .ok origin →
      Complains resolver w start modules (.projectRootNotFound origin resolver.layout.buildMarker)
  | libraries (flaw) :
      Complains resolver w start modules (.libraryRoot resolver.libraryDirectory flaw)
  | dependencies {project} (flaw) :
      SearchPath.projectRoot w start resolver.layout.buildMarker = .ok project →
      Complains resolver w start modules
        (.dependencyDirectory (project.child resolver.layout.dependencySubpath) flaw)
  | notFound {paths moduleName} : (resolver.searchPaths w start).outcome = .ok paths →
      moduleName ∈ modules → Complains resolver w start modules (.moduleNotFound moduleName paths)
  | source {problem} : Complains resolver w start modules (.source problem)

/-- What resolving is not made for. -/
inductive Limited (resolver : Resolver) (w : World) (start : Path) (modules : List String) :
    Fault → Prop
  /-- A null character in a path that was given. -/
  | null : start.holdsNull = true ∨ resolver.libraryDirectory.holdsNull = true →
      Limited resolver w start modules (.file .nullCharacter)
  /-- No machine can be in such a world. -/
  | impossible {e} : ¬w.IsPossible → e = .nullCharacter ∨ e = .tooManyLinks →
      Limited resolver w start modules (.file e)
  /-- The working directory has been removed, and one of the paths that were given starts there. -/
  | adrift : World.isLost w.workingDirectory = true →
      start.isAbsolute = false ∨ resolver.libraryDirectory.isAbsolute = false →
      Limited resolver w start modules (.file .notFound)
  /-- A module starts a chain of more files that include one another than the limit allows. -/
  | nesting {limit paths moduleName location locations path} : resolver.depth = some limit →
      (resolver.searchPaths w start).outcome = .ok paths → moduleName ∈ modules →
      (SearchPath.locateModule w paths moduleName resolver.layout).outcome = .ok location →
      World.Chain w (resolver.scanOptions paths location) location.source locations path →
      limit + 1 < locations.length → Limited resolver w start modules .nesting

/-- What the system says while resolving asks it about directories and files, and nobody makes a
problem of. -/
inductive Escapes (resolver : Resolver) (w : World) (start : Path) (modules : List String) :
    Fault → Prop
  /-- A path is too long, or it leads through a directory that may not be searched. -/
  | barred {path e} : resolver.Asks w start modules path → w.Bars path e →
      Escapes resolver w start modules (.file e)
  /-- The start leads into a circle of links. -/
  | circle : w.resolve start = .error .tooManyLinks →
      Escapes resolver w start modules (.file .tooManyLinks)
  | tooManyLinks {directory} : resolver.Lists w start directory →
      w.locate directory = .error .tooManyLinks →
      Escapes resolver w start modules (.file .tooManyLinks)
  /-- The place of the dependencies is told with a null character. -/
  | unnamed : Path.hasNull resolver.layout.dependencySubpath = true →
      Escapes resolver w start modules (.file .nullCharacter)

/-- What else can be in the way. -/
def Hindered (resolver : Resolver) (w : World) (start : Path) (modules : List String)
    (fault : Fault) : Prop :=
  resolver.Limited w start modules fault ∨ resolver.Escapes w start modules fault

/-- What can come of resolving when it does not give a table. -/
def Expects (resolver : Resolver) (w : World) (start : Path) (modules : List String)
    (fault : Fault) : Prop :=
  (∃ problem, fault = .problem problem ∧ resolver.Complains w start modules problem) ∨
    resolver.Hindered w start modules fault

variable {resolver : Resolver} {w : World} {start : Path} {modules : List String} {fault : Fault}

/-! ## Finding search paths -/

theorem exists_origin_of_projectRoot {project : Path}
    (found : SearchPath.projectRoot w start resolver.layout.buildMarker = .ok project) :
    ∃ origin, w.resolve start = .ok origin ∧ project ∈ origin.selfAndParents := by
  unfold SearchPath.projectRoot at found
  split at found
  · cases found
  next origin resolved =>
  split at found
  · cases found
  next directory above =>
    cases found
    exact ⟨origin, resolved, (mem_of_findM?_eq_some above).1⟩
  · cases found

private theorem expects_of_projectRoot
    (failed : SearchPath.projectRoot w start resolver.layout.buildMarker = .error fault) :
    resolver.Expects w start modules fault := by
  unfold SearchPath.projectRoot at failed
  split at failed
  next e unresolved =>
    cases failed
    rcases World.eq_of_resolve_eq_error unresolved with
      ⟨rfl, null | null⟩ | rfl | ⟨rfl, lost, relative⟩
    · exact .inr (.inl (.null (.inl null)))
    · exact .inr (.inl (.impossible (fun possible => possible.free null) (.inl rfl)))
    · exact .inr (.inr (.circle unresolved))
    · exact .inr (.inl (.adrift lost (.inl relative)))
  next origin resolved =>
  split at failed
  next e stopped =>
    cases failed
    obtain ⟨directory, above, stopped⟩ := exists_of_findM?_eq_error stopped
    exact .inr (.inr (.barred (.marker resolved above) (World.isDirectory_eq_error_iff.mp stopped)))
  · cases failed
  · cases failed
    exact .inl ⟨_, rfl, .noProject resolved⟩

/-- A null character in the path of a directory that is listed was given. -/
theorem hindered_of_lists {directory : Path} (lists : resolver.Lists w start directory)
    (null : directory.holdsNull = true) :
    resolver.Hindered w start modules (.file .nullCharacter) := by
  cases lists with
  | libraries => exact .inl (.null (.inr null))
  | dependencies found =>
    rcases Path.holdsNull_child null with null | null
    · -- a directory above the place that the start resolves to has no other names than the place
      obtain ⟨origin, resolved, above⟩ := exists_origin_of_projectRoot found
      have free := World.holdsNull_of_resolve resolved
      rw [Path.holdsNull_of_mem_selfAndParents above null] at free
      cases free
    · exact .inr (.unnamed null)

/-- Listing a directory for search paths is refused for reasons that make up a problem, and
otherwise only where there is a hindrance. -/
theorem hindered_of_childDirectories {directory : Path} {problem : DirectoryFlaw → Problem}
    (lists : resolver.Lists w start directory)
    (failed : SearchPath.childDirectories w directory problem = .error fault) :
    (∃ flaw, fault = .problem (problem flaw)) ∨ resolver.Hindered w start modules fault := by
  unfold SearchPath.childDirectories at failed
  split at failed
  · cases failed
  · cases failed
    exact .inl ⟨_, rfl⟩
  · cases failed
    exact .inl ⟨_, rfl⟩
  · cases failed
    exact .inl ⟨_, rfl⟩
  next e notMissing notNoDirectory notListable unlisted =>
    cases failed
    -- what is left are null characters, too many links, and names about which nothing can be asked
    rcases World.childDirectories_eq_error_iff.mp unlisted with
      unlisted | ⟨before, name, after, listed, -, bars⟩
    · rcases World.list_eq_error_iff.mp unlisted with unreached | ⟨-, -, ⟨rfl, -⟩ | ⟨rfl, -⟩⟩
      case inr.inl => exact absurd rfl notNoDirectory
      case inr.inr => exact absurd rfl notListable
      rcases World.eq_of_locate_eq_error unreached with ⟨rfl, null⟩ | rfl | rfl | rfl | rfl | rfl
      · exact .inr (hindered_of_lists lists null)
      · exact absurd rfl notMissing
      · exact absurd rfl notNoDirectory
      · exact .inr (.inr (.tooManyLinks lists unreached))
      · exact absurd rfl notListable
      · exact .inr (.inr (.barred (.listed lists) ⟨.inl rfl, unreached⟩))
    · have stands : name ∈ before ++ name :: after := List.mem_append_right _ List.mem_cons_self
      exact .inr (.inr (.barred (.child lists listed stands) bars))

theorem outcome_searchPaths (resolver : Resolver) (w : World) (start : Path) :
    (resolver.searchPaths w start).outcome =
      (SearchPath.find w start resolver.libraryDirectory resolver.layout).map Prod.snd := by
  unfold searchPaths SearchPath.list
  cases SearchPath.find w start resolver.libraryDirectory resolver.layout <;> rfl

theorem expects_of_searchPaths (failed : (resolver.searchPaths w start).outcome = .error fault) :
    resolver.Expects w start modules fault := by
  rw [outcome_searchPaths, map_eq_error_iff] at failed
  -- the project is looked for first, then the libraries are listed, then the dependencies
  rw [SearchPath.find, bind_eq_error_iff] at failed
  rcases failed with noProject | ⟨project, found, failed⟩
  · exact expects_of_projectRoot noProject
  rw [bind_eq_error_iff] at failed
  rcases failed with libraries | ⟨roots, -, failed⟩
  · exact (hindered_of_childDirectories .libraries libraries).imp_left
      fun ⟨flaw, same⟩ => ⟨_, same, .libraries flaw⟩
  rw [bind_eq_error_iff] at failed
  rcases failed with dependencies | ⟨built, -, failed⟩
  · exact (hindered_of_childDirectories (.dependencies found) dependencies).imp_left
      fun ⟨flaw, same⟩ => ⟨_, same, .dependencies flaw found⟩
  · cases failed

private theorem isAbsolute_of_childDirectories {directory : Path}
    {problem : DirectoryFlaw → Problem} {children : List Path}
    (absolute : directory.isAbsolute = true)
    (listed : SearchPath.childDirectories w directory problem = .ok children) :
    ∀ child ∈ children, child.isAbsolute = true := by
  unfold SearchPath.childDirectories at listed
  split at listed
  next children' names =>
    cases listed
    intro child among
    obtain ⟨name, rfl⟩ := World.exists_of_childDirectories names child among
    exact Path.isAbsolute_join absolute _
  all_goals cases listed

theorem isAbsolute_of_mem_searchPaths {paths : List Path}
    (absolute : resolver.libraryDirectory.isAbsolute = true)
    (searched : (resolver.searchPaths w start).outcome = .ok paths) :
    ∀ path ∈ paths, path.isAbsolute = true := by
  rw [outcome_searchPaths, map_eq_ok_iff] at searched
  obtain ⟨⟨project, _⟩, found, rfl⟩ := searched
  simp only [SearchPath.find, bind_eq_ok_iff] at found
  obtain ⟨project', above, roots, libraries, built, dependencies, same⟩ := found
  cases same
  obtain ⟨origin, resolved, within⟩ := exists_origin_of_projectRoot above
  -- the project lies above a place that is told from the root
  have absoluteProject :=
    Path.isAbsolute_of_mem_selfAndParents (World.isAbsolute_of_resolve resolved) within
  intro path among
  rcases List.mem_append.mp among with among | among
  · exact isAbsolute_of_childDirectories absolute libraries path among
  rcases List.mem_cons.mp among with rfl | among
  · exact absoluteProject
  · exact isAbsolute_of_childDirectories (Path.isAbsolute_child absoluteProject _)
      dependencies path among

/-! ## Locating and scanning a module -/

section Modules

variable {paths : List Path} {moduleName : String} {location : ModuleLocation}

theorem exists_path_of_locateModule
    (located : (SearchPath.locateModule w paths moduleName resolver.layout).outcome =
      .ok location) :
    ∃ path ∈ paths,
      location = ⟨SearchPath.candidate moduleName resolver.layout path,
        path.child resolver.layout.includeDirectory⟩ ∧
      w.isFile location.source = .ok true := by
  rw [SearchPath.outcome_locateModule] at located
  split at located
  next path found =>
    cases located
    obtain ⟨among, file⟩ := mem_of_findM?_eq_some found
    exact ⟨path, among, rfl, file⟩
  · cases located
  · cases located

theorem isAbsolute_of_locateModule (absolute : resolver.libraryDirectory.isAbsolute = true)
    (searched : (resolver.searchPaths w start).outcome = .ok paths)
    (located : (SearchPath.locateModule w paths moduleName resolver.layout).outcome =
      .ok location) :
    location.source.isAbsolute = true ∧ location.includes.isAbsolute = true := by
  obtain ⟨path, among, rfl, -⟩ := exists_path_of_locateModule located
  have absolutePath := isAbsolute_of_mem_searchPaths absolute searched path among
  exact ⟨Path.isAbsolute_child (Path.isAbsolute_child absolutePath _) _,
    Path.isAbsolute_child absolutePath _⟩

/-- Where included files are looked for starts at the root if the directory of the libraries
does. -/
theorem isAbsolute_of_chain (absolute : resolver.libraryDirectory.isAbsolute = true)
    (searched : (resolver.searchPaths w start).outcome = .ok paths)
    (located : (SearchPath.locateModule w paths moduleName resolver.layout).outcome = .ok location)
    {locations : List Location} {including path : Path} {kind : IncludeKind} {name : String}
    (chain : World.Chain w (resolver.scanOptions paths location) location.source
      locations including)
    (among : path ∈ (resolver.scanOptions paths location).candidates kind name including) :
    path.isAbsolute = true := by
  obtain ⟨source, includes⟩ := isAbsolute_of_locateModule absolute searched located
  have libraries := isAbsolute_of_mem_searchPaths absolute searched
  have directories : ∀ directory ∈ [location.includes], directory.isAbsolute = true :=
    fun directory listed => List.mem_singleton.mp listed ▸ includes
  exact World.isAbsolute_of_mem_candidates directories libraries
    (World.isAbsolute_of_chain directories libraries source chain) among

variable (searched : (resolver.searchPaths w start).outcome = .ok paths)
    (asked : moduleName ∈ modules)
include searched asked

theorem expects_of_locateModule
    (failed : (SearchPath.locateModule w paths moduleName resolver.layout).outcome = .error fault) :
    resolver.Expects w start modules fault := by
  rw [SearchPath.outcome_locateModule] at failed
  split at failed
  · cases failed
  · cases failed
    exact .inl ⟨_, rfl, .notFound searched asked⟩
  next e stopped =>
    cases failed
    obtain ⟨path, among, stopped⟩ := exists_of_findM?_eq_error stopped
    exact .inr (.inr
      (.barred (.source searched among asked) (World.isFile_eq_error_iff.mp stopped)))

private theorem expects_of_scan
    (located : (SearchPath.locateModule w paths moduleName resolver.layout).outcome = .ok location)
    (failed : (w.scan (resolver.scanOptions paths location) location.source).outcome =
      .error fault) :
    resolver.Expects w start modules fault := by
  -- the source is a file, so it can be asked about
  obtain ⟨-, -, -, file⟩ := exists_path_of_locateModule located
  obtain ⟨place, reached⟩ := World.exists_locate_of_isFile file
  have relative {path : Path} (relative : path.isAbsolute = false)
      (start : resolver.libraryDirectory.isAbsolute = true → path.isAbsolute = true) :
      resolver.libraryDirectory.isAbsolute = false :=
    Bool.eq_false_iff.mpr fun absolute => Bool.eq_false_iff.mp relative (start absolute)
  cases World.stops_of_scan failed with
  | source => exact .inl ⟨_, rfl, .source⟩
  | null null =>
    rw [World.holdsNull_of_locate reached] at null
    cases null
  | unknown unknown =>
    rcases World.eq_of_knownFileAt_eq_error unknown with
      ⟨-, bars⟩ | ⟨rfl, lost, fromHere⟩ | ⟨fault, impossible⟩
    · rw [reached] at bars
      cases bars
    · exact .inr (.inl (.adrift lost (.inr (relative fromHere fun absolute =>
        (isAbsolute_of_locateModule absolute searched located).1))))
    · exact .inr (.inl (.impossible impossible fault))
  | unanswered chain asks stopped =>
    -- nothing can be asked about one of the places, or it is told from the working directory
    obtain ⟨path, among, unknown⟩ := World.exists_of_firstFile_eq_error stopped
    rcases World.eq_of_knownFileAt_eq_error unknown with
      bars | ⟨rfl, lost, fromHere⟩ | ⟨fault, impossible⟩
    · exact .inr (.inr (.barred (.included searched asked located chain asks among) bars))
    · exact .inr (.inl (.adrift lost (.inr (relative fromHere fun absolute =>
        isAbsolute_of_chain absolute searched located chain among))))
    · exact .inr (.inl (.impossible impossible fault))
  | deep limited chain longer =>
    exact .inr (.inl (.nesting limited searched asked located chain longer))

end Modules

/-! ## What comes of resolving -/

/-- Resolving that gives no table has one of five problems, or something is in the way. -/
theorem expects_of_resolve {table : SymbolTable}
    (failed : (resolver.resolve w table start modules).outcome = .error fault) :
    resolver.Expects w start modules fault := by
  obtain ⟨-, failed | ⟨paths, before, moduleName, after, searched, parts, -, fails⟩⟩ :=
    outcome_resolve_eq_error_iff.mp failed
  · exact expects_of_searchPaths failed
  have asked : moduleName ∈ modules := by
    rw [parts]
    exact List.mem_append_right _ List.mem_cons_self
  -- the module is not found, or its files cannot be scanned, or a declaration is malformed
  cases fails with
  | unlocated failed => exact expects_of_locateModule searched asked failed
  | unscanned located failed => exact expects_of_scan searched asked located failed
  | malformed => exact .inl ⟨_, rfl, .source⟩

/-- Resolving gives a table, or it has one of five problems, or it comes to its limits, or something
escapes.  What the files hold can only lead to problems with sources, apart from paths about which
nothing can be asked and files that include one another too deeply. -/
theorem outcome_resolve_cases (resolver : Resolver) (w : World) (table : SymbolTable) (start : Path)
    (modules : List String) :
    (∃ result, (resolver.resolve w table start modules).outcome = .ok result) ∨
      ∃ fault, (resolver.resolve w table start modules).outcome = .error fault ∧
        resolver.Expects w start modules fault := by
  cases outcome : (resolver.resolve w table start modules).outcome with
  | ok result => exact .inl ⟨result, rfl⟩
  | error fault => exact .inr ⟨fault, rfl, expects_of_resolve outcome⟩

/-- Nobody can tell where to look for a project from a working directory that has been removed. -/
example : (resolve ⟨⟨.root, ["l"]⟩, .default, false, none⟩
    (World.remove ⟨[(["w"], .directory)], ["w"], "/", []⟩ ⟨.root, ["w"]⟩) .empty .here
      ["b"]).outcome =
    .error (.file .notFound) := rfl

/-- A name that is one byte longer than the name of a file can be. -/
def longName : String := String.ofList (List.replicate 256 'a')

/-- A project with a module that asks for a name that no file can have, and a link to the root of
its libraries. -/
def rough : World where
  entries := [
    (["l"], .directory), (["x"], .link "l"), (["p"], .directory), (["p", "_build"], .directory),
    (["p", "_build", "default"], .directory), (["p", "_build", "default", "lib"], .directory),
    (["p", "src"], .directory),
    (["p", "src", "c.erl"], .ofText ("-include(\"" ++ longName ++ "\").\n"))]
  workingDirectory := []
  system := .ofHome "/"
  programDirectories := []

namespace rough

def usual : Resolver := ⟨⟨.root, ["l"]⟩, .default, false, none⟩

/-- A resolver for projects that have their dependencies where no directory can be. -/
def unnamed : Resolver :=
  { usual with layout := { Layout.default with dependencySubpath := "\x00" } }

/-- The root of the libraries by way of a link that is followed forty-one times. -/
def detour : Path := ⟨.root, "x" :: (List.replicate 40 ["..", "x"]).flatten⟩

def location (moduleName : String) : ModuleLocation :=
  ⟨⟨.root, ["p", "src", moduleName ++ ".erl"]⟩, ⟨.root, ["p", "include"]⟩⟩

end rough

theorem outcome_resolve_of_searchPaths {moduleName : String} {table : SymbolTable}
    (failed : SearchPath.find w start resolver.libraryDirectory resolver.layout = .error fault) :
    (resolver.resolve w table start [moduleName]).outcome = .error fault := by
  refine outcome_resolve_eq_error_iff.mpr ⟨List.cons_ne_nil _ _, .inl ?_⟩
  rw [outcome_searchPaths, map_eq_error_iff, failed]

private theorem outcome_resolve_of_scanItems {moduleName : String} {table : SymbolTable}
    {paths : List Path} {location : ModuleLocation} {place? : Option Location} {sheet : Sheet}
    (searched : (resolver.searchPaths w start).outcome = .ok paths)
    (located : (SearchPath.locateModule w paths moduleName resolver.layout).outcome = .ok location)
    (read : (w.sheet location.source).outcome = .ok (place?, sheet))
    (failed : (w.scanItems (resolver.scanOptions paths location) resolver.depth
      location.source place?.toList sheet.items).outcome = .error fault) :
    (resolver.resolve w table start [moduleName]).outcome = .error fault := by
  refine outcome_resolve_eq_error_iff.mpr ⟨List.cons_ne_nil _ _,
    .inr ⟨paths, [], moduleName, [], searched, rfl, by simp, .unscanned located ?_⟩⟩
  rw [World.scan, Traced.outcome_bind_eq_error_iff]
  exact .inr ⟨_, read, Traced.outcome_bind_eq_error_iff.mpr (.inl failed)⟩

namespace rough

theorem projectRoot_eq : SearchPath.projectRoot rough ⟨.root, ["p"]⟩ "_build" =
    .ok ⟨.root, ["p"]⟩ := rfl

private theorem libraryRoots_eq : SearchPath.libraryRoots rough ⟨.root, ["l"]⟩ = .ok [] :=
  Traced.eq_ok_of_toOption (by decide +kernel)

private theorem outcome_searchPaths_usual :
    (usual.searchPaths rough ⟨.root, ["p"]⟩).outcome = .ok [⟨.root, ["p"]⟩] :=
  Traced.eq_ok_of_toOption (by decide +kernel)

private theorem outcome_resolve_unnamed :
    (unnamed.resolve rough .empty ⟨.root, ["p"]⟩ ["c"]).outcome =
      .error (.file .nullCharacter) := by
  have place : Path.child ⟨.root, ["p"]⟩ "\x00" = ⟨.root, ["p", "\x00"]⟩ := by decide
  have unlisted : rough.childDirectories ⟨.root, ["p", "\x00"]⟩ = .error .nullCharacter := rfl
  apply outcome_resolve_of_searchPaths
  rw [SearchPath.find, bind_eq_error_iff]
  refine .inr ⟨_, projectRoot_eq, bind_eq_error_iff.mpr (.inr ⟨_, libraryRoots_eq, ?_⟩)⟩
  rw [bind_eq_error_iff]
  refine .inl ?_
  rw [SearchPath.dependencyRoots, unnamed, place, SearchPath.childDirectories, unlisted]

private theorem outcome_resolve_detour :
    (resolve { usual with libraryDirectory := detour } rough .empty
    ⟨.root, ["p"]⟩ ["c"]).outcome = .error (.file .tooManyLinks) := by
  have unlisted : rough.childDirectories detour = .error .tooManyLinks := by decide +kernel
  apply outcome_resolve_of_searchPaths
  rw [SearchPath.find, bind_eq_error_iff]
  refine .inr ⟨_, projectRoot_eq, bind_eq_error_iff.mpr (.inl ?_)⟩
  rw [SearchPath.libraryRoots, SearchPath.childDirectories, unlisted]

theorem toList_longName : longName.toList = List.replicate 256 'a' := String.toList_ofList

/-- A name that starts with a letter and has no slash in it is one step from the directory of
sources. -/
theorem child_of_letter {name : String} {rest : List Char} (chars : name.toList = 'a' :: rest)
    (whole : '/' ∉ rest) : Path.child ⟨.root, ["p", "src"]⟩ name = ⟨.root, ["p", "src", name]⟩ := by
  rw [Path.child, Path.ofString_of_name]
  · rfl
  · rintro rfl
    cases chars
  · rintro rfl
    cases chars
  · rw [chars, List.mem_cons]
    exact not_or.mpr ⟨by decide, whole⟩

private theorem step_of_long {name : String}
    (long : World.longestName < rough.system.byteCount name) :
    rough.step ["p", "src"] name = .error .nameTooLong := by
  have filled : name ≠ "" := by
    rintro rfl
    exact absurd long (by decide)
  have going : name ≠ "." := by
    rintro rfl
    exact absurd long (by decide)
  have down : name ≠ ".." := by
    rintro rfl
    exact absurd long (by decide)
  have here : rough.hasDirectory ["p", "src"] = true := rfl
  have searchable : rough.system.refuses .search ["p", "src"] = false := rfl
  simp only [World.step, here, searchable, filled, going, down, long, Bool.not_true,
    Bool.false_eq_true, if_true, if_false]

/-- Nothing can be asked about a name that is too long. -/
theorem locate_of_long {name : String} (free : Path.hasNull name = false)
    (long : World.longestName < rough.system.byteCount name) :
    rough.locate ⟨.root, ["p", "src", name]⟩ = .error .nameTooLong := by
  have freePath : Path.holdsNull ⟨.root, ["p", "src", name]⟩ = false := by
    simp only [Path.holdsNull, List.any_cons, free]
    decide
  have walked : rough.walk World.mostLinks [] ["p", "src", name] = .error .nameTooLong := by
    -- the names before it lead to the directory of sources
    change rough.walkWith (rough.walk 39) ["p", "src"] [name] = _
    rw [World.walkWith, step_of_long long]
  rw [World.locate, freePath, if_neg (by decide)]
  split
  · rfl
  · exact walked

theorem hasNull_longName : Path.hasNull longName = false := by
  -- reading the characters back from the bytes of the name would take long
  rw [Path.hasNull, toList_longName]
  decide

theorem child_longName :
    Path.child ⟨.root, ["p", "src"]⟩ longName = ⟨.root, ["p", "src", longName]⟩ :=
  child_of_letter toList_longName (by decide)

theorem locate_longName : rough.locate ⟨.root, ["p", "src", longName]⟩ = .error .nameTooLong := by
  apply locate_of_long hasNull_longName
  rw [System.byteCount, toList_longName]
  decide +kernel

private theorem knownFileAt_longName : rough.knownFileAt ⟨.root, ["p", "src", longName]⟩ =
    .error .nameTooLong := by
  rw [World.knownFileAt, World.fileAt, World.reach, locate_longName]
  rfl

/-- Nobody can tell whether there is a file with the long name, wherever else it is looked for. -/
theorem firstFile_longName (options : ScanOptions) :
    rough.firstFile (options.candidates .file longName (location "c").source) =
      .error .nameTooLong := by
  have beside : (location "c").source.parent.child longName = ⟨.root, ["p", "src", longName]⟩ :=
    child_longName
  rw [ScanOptions.candidates, List.cons_append, beside, World.firstFile, List.findSomeM?_cons,
    knownFileAt_longName]
  rfl

theorem outcome_sheet_longName : (rough.sheet (location "c").source).outcome =
    .ok (some ["p", "src", "c.erl"],
      ⟨(location "c").source, [.inclusion .file longName ⟨"/p/src/c.erl", 1, 1, 1, 268⟩], none⟩) :=
  Traced.eq_ok_of_toOption (by decide +kernel)

private theorem outcome_resolve_longName :
    (usual.resolve rough .empty ⟨.root, ["p"]⟩ ["c"]).outcome = .error (.file .nameTooLong) := by
  have located : (SearchPath.locateModule rough [⟨.root, ["p"]⟩] "c" .default).outcome =
      .ok (location "c") := rfl
  exact outcome_resolve_of_scanItems outcome_searchPaths_usual located outcome_sheet_longName
    (congrArg Traced.outcome (World.scanItems_of_error (firstFile_longName _)))

end rough

/-- Nothing here may not be searched, no links lead in a circle, and no file has a name that is too
long.  Still resolving gives neither a table nor a problem where a module asks for a file with a
name that no file can have, where the place of the dependencies is told with a null character, and
where too many links lead to the libraries. -/
theorem outcome_resolve_hindered :
    (rough.usual.resolve rough .empty ⟨.root, ["p"]⟩ ["c"]).outcome = .error (.file .nameTooLong) ∧
    (rough.unnamed.resolve rough .empty ⟨.root, ["p"]⟩ ["c"]).outcome =
      .error (.file .nullCharacter) ∧
    (resolve { rough.usual with libraryDirectory := rough.detour } rough .empty
      ⟨.root, ["p"]⟩ ["c"]).outcome = .error (.file .tooManyLinks) :=
  ⟨rough.outcome_resolve_longName, rough.outcome_resolve_unnamed, rough.outcome_resolve_detour⟩

end Resolver

end SignatureIndex
