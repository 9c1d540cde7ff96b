import SignatureIndex.Proofs.AlikeWorlds
import SignatureIndex.Proofs.Hindrances
import SignatureIndex.Proofs.NamesInOrder

/-!
# The order of search

The search paths of a project are the directories in the root of the libraries, the project itself,
and the directories among its dependencies.  Each of the two directories is listed in strictly
increasing order of names, with links that lead to directories among the names and everything else
left out.  So the list does not depend on the order in which a directory is enumerated.  Only what
is told can depend on it, if there are two names about which nothing can be asked, for different
reasons.

The project is looked for first, although it stands between the two others.  So that there is no
project is the first thing that can be missing, before the libraries and the dependencies.

A module is located at the first search path that has it as a file.  What stands at later paths has
no part in this, so libraries hide projects, and both hide dependencies.
-/

namespace SignatureIndex

/-- The error that tells of a flaw. -/
def DirectoryFlaw.error : DirectoryFlaw → FileError
  | .missing => .notFound
  | .notDirectory => .notADirectory
  | .notListable => .permissionDenied

namespace World

variable {w : World} {directory : Path} {children : List Path} {flaw : DirectoryFlaw}

/-- Whether these are the directories in a directory, in strictly increasing order of their names.
The directory may be read, and about everything that stands there it can be asked whether it is a
directory. -/
def ListsDirectories (w : World) (directory : Path) (children : List Path) : Prop :=
  ∃ (location : Location) (names : List String), w.locate directory = .ok location ∧
    w.hasDirectory location = true ∧ w.system.refuses .read location = false ∧
    (∀ name, w.StandsIn location name →
      ∃ answer, w.isDirectory (directory.join ⟨.here, [name]⟩) = .ok answer) ∧
    (∀ name, name ∈ names ↔
      w.StandsIn location name ∧ w.isDirectory (directory.join ⟨.here, [name]⟩) = .ok true) ∧
    names.Pairwise (· < ·) ∧ children = names.map fun name => directory.join ⟨.here, [name]⟩

/-- Why the directories in a directory cannot be listed: it is not there, or it is no directory, or
the system does not allow it. -/
inductive IsFlawed (w : World) (directory : Path) : DirectoryFlaw → Prop
  | missing : w.locate directory = .error .notFound → IsFlawed w directory .missing
  | blocked : w.locate directory = .error .notADirectory → IsFlawed w directory .notDirectory
  | noDirectory {location : Location} : w.locate directory = .ok location →
      w.hasDirectory location = false → IsFlawed w directory .notDirectory
  /-- The way to it leads through a directory that may not be searched. -/
  | unsearchable : w.locate directory = .error .permissionDenied → IsFlawed w directory .notListable
  | unreadable {location : Location} : w.locate directory = .ok location →
      w.hasDirectory location = true → w.system.refuses .read location = true →
      IsFlawed w directory .notListable
  /-- One of the names may not be asked about, and about all before it there is an answer. -/
  | unasked {before : List String} {name : String} {after : List String} :
      w.list directory = .ok (before ++ name :: after) →
      (∀ other ∈ before, ∃ answer, w.isDirectory (directory.join ⟨.here, [other]⟩) = .ok answer) →
      w.isDirectory (directory.join ⟨.here, [name]⟩) = .error .permissionDenied →
      IsFlawed w directory .notListable

theorem childDirectories_eq_ok_iff :
    w.childDirectories directory = .ok children ↔ w.ListsDirectories directory children := by
  rw [childDirectories, bind_eq_ok_iff]
  simp only [bind_eq_ok_iff, filterM_eq_ok_iff]
  constructor
  · rintro ⟨_, listed, _, ⟨answered, rfl⟩, same⟩
    cases same
    obtain ⟨location, located, isDirectory, readable, rfl⟩ := list_eq_ok_iff.mp listed
    obtain ⟨kept, increasing⟩ := eq_inOrder_iff.mp
      (rfl : _ = List.mergeSort (List.eraseDups ((w.namesAt location).filter _)) _)
    refine ⟨location, _, located, isDirectory, readable,
      fun name stands => answered name (mem_namesAt_iff.mpr stands), fun name =>
      ?_, increasing, rfl⟩
    rw [kept, List.mem_filter, mem_namesAt_iff, affirms_eq_true_iff]
  · rintro ⟨location, names, located, isDirectory, readable, answered, kept, increasing, rfl⟩
    refine ⟨_, list_eq_ok_iff.mpr ⟨location, located, isDirectory, readable, rfl⟩, _,
      ⟨fun name among => answered name (mem_namesAt_iff.mp among), rfl⟩, ?_⟩
    -- there is only one increasing row of these names
    rw [← eq_inOrder_iff.mpr ⟨fun name => ?_, increasing⟩]
    rw [kept, List.mem_filter, mem_namesAt_iff, affirms_eq_true_iff]

private theorem childDirectories_eq_flaw_iff :
    w.childDirectories directory = .error flaw.error ↔ w.IsFlawed directory flaw := by
  rw [childDirectories_eq_error_iff, list_eq_error_iff]
  constructor
  · -- the directory is not there or may not be listed, or a name in it cannot be asked about
    rintro ((nowhere | ⟨location, located, ⟨same, noDirectory⟩ | ⟨same, isDirectory, unreadable⟩⟩) |
      ⟨before, name, after, listed, answered, bars⟩)
    · cases flaw with
      | missing => exact .missing nowhere
      | notDirectory => exact .blocked nowhere
      | notListable => exact .unsearchable nowhere
    · cases flaw with
      | notDirectory => exact .noDirectory located noDirectory
      | missing | notListable => cases same
    · cases flaw with
      | notListable => exact .unreadable located isDirectory unreadable
      | missing | notDirectory => cases same
    · cases flaw with
      | notListable => exact .unasked listed answered (isDirectory_eq_error_iff.mpr bars)
      | missing | notDirectory => exact absurd bars.1 (by simp [DirectoryFlaw.error])
  · intro flawed
    cases flawed with
    | missing nowhere | blocked nowhere | unsearchable nowhere => exact .inl (.inl nowhere)
    | noDirectory located noDirectory => exact .inl (.inr ⟨_, located, .inl ⟨rfl, noDirectory⟩⟩)
    | unreadable located isDirectory unreadable =>
      exact .inl (.inr ⟨_, located, .inr ⟨rfl, isDirectory, unreadable⟩⟩)
    | unasked listed answered unasked =>
      exact .inr ⟨_, _, _, listed, answered, isDirectory_eq_error_iff.mp unasked⟩

/-! ## Orders of enumeration -/

/-- Whether nothing can be asked about two names in a directory, for different reasons.  What is
told of the directory then depends on which of them is come upon first. -/
def IsMixed (w : World) (directory : Path) : Prop :=
  ∃ names name other, w.list directory = .ok names ∧ name ∈ names ∧ other ∈ names ∧
    w.isDirectory (directory.join ⟨.here, [name]⟩) = .error .permissionDenied ∧
    w.isDirectory (directory.join ⟨.here, [other]⟩) = .error .nameTooLong

private theorem isMixed_of_bars {names : List String} {name other : String} {e e' : FileError}
    (listed : w.list directory = .ok names) (among : name ∈ names) (amongToo : other ∈ names)
    (bars : w.Bars (directory.join ⟨.here, [name]⟩) e)
    (barsToo : w.Bars (directory.join ⟨.here, [other]⟩) e') (ne : e ≠ e') :
    w.IsMixed directory := by
  have first := isDirectory_eq_error_iff.mpr bars
  have second := isDirectory_eq_error_iff.mpr barsToo
  rcases bars.1 with rfl | rfl <;> rcases barsToo.1 with rfl | rfl
  · exact absurd rfl ne
  · exact ⟨names, other, name, listed, amongToo, among, second, first⟩
  · exact ⟨names, name, other, listed, among, amongToo, first, second⟩
  · exact absurd rfl ne

namespace Alike

variable {w' : World} (alike : Alike w w')
include alike

theorem listsDirectories_iff :
    w'.ListsDirectories directory children ↔ w.ListsDirectories directory children := by
  simp only [ListsDirectories, alike.locate_eq, alike.hasDirectory_eq, alike.system_eq,
    alike.standsIn_congr, alike.isDirectory_eq]

/-- The same names are come upon, in whatever order. -/
theorem exists_list_eq {names : List String} (listed : w.list directory = .ok names) :
    ∃ others, w'.list directory = .ok others ∧ ∀ name ∈ others, name ∈ names := by
  obtain ⟨location, located, isDirectory, readable, rfl⟩ := list_eq_ok_iff.mp listed
  refine ⟨w'.namesAt location, list_eq_ok_iff.mpr ⟨location, ?_, ?_, ?_, rfl⟩, fun name among => ?_⟩
  · rw [alike.locate_eq, located]
  · rw [alike.hasDirectory_eq, isDirectory]
  · rw [alike.system_eq, readable]
  · exact mem_namesAt_iff.mpr ((alike.standsIn_congr location name).mp (mem_namesAt_iff.mp among))

theorem list_eq_error_iff {e : FileError} :
    w'.list directory = .error e ↔ w.list directory = .error e := by
  simp only [World.list_eq_error_iff, alike.locate_eq, alike.hasDirectory_eq, alike.system_eq]

/-- What stands where decides about the directories in a directory, unless nothing can be asked
about two names for different reasons. -/
theorem childDirectories_eq_or_isMixed :
    w'.childDirectories directory = w.childDirectories directory ∨ w.IsMixed directory := by
  cases outcome : w.childDirectories directory with
  | ok children =>
    have lists := childDirectories_eq_ok_iff.mp outcome
    exact .inl (childDirectories_eq_ok_iff.mpr (alike.listsDirectories_iff.mpr lists))
  | error e =>
    cases outcome' : w'.childDirectories directory with
    | ok children =>
      have lists := alike.listsDirectories_iff.mp (childDirectories_eq_ok_iff.mp outcome')
      cases outcome.symm.trans (childDirectories_eq_ok_iff.mpr lists)
    | error e' =>
      rcases childDirectories_eq_error_iff.mp outcome with
        unlisted | ⟨before, name, after, listed, -, bars⟩
      · have failed :=
          childDirectories_eq_error_iff.mpr (.inl (alike.list_eq_error_iff.mpr unlisted))
        exact .inl (outcome'.symm.trans failed)
      -- both come upon a name about which nothing can be asked
      obtain ⟨others, listed', sub⟩ := alike.exists_list_eq listed
      rcases childDirectories_eq_error_iff.mp outcome' with
        unlisted | ⟨before', other, after', listedToo, -, barsToo⟩
      · cases listed'.symm.trans unlisted
      cases listed'.symm.trans listedToo
      rw [Bars, alike.locate_eq] at barsToo
      by_cases same : e = e'
      · exact .inl (by rw [same])
      · exact .inr (isMixed_of_bars listed (by simp) (sub other (by simp)) bars barsToo same)

end Alike

end World

namespace SearchPath

/-! ## Finding search paths -/

section Paths

variable {w : World} {start libraryDirectory : Path} {layout : Layout} {directory project : Path}
    {marker : String} {children paths : List Path} {problem : Problem}

/-- Whether a path is the nearest one, going up from a start, that has the marker as a directory in
it. -/
def IsProject (w : World) (start : Path) (marker : String) (project : Path) : Prop :=
  ∃ origin before after, w.resolve start = .ok origin ∧
  origin.selfAndParents = before ++ project :: after ∧
    (∀ other ∈ before, w.isDirectory (other.child marker) = .ok false) ∧
    w.isDirectory (project.child marker) = .ok true

/-- The first thing that is missing for search paths. -/
inductive Missing (w : World) (start libraryDirectory : Path) (layout : Layout) : Problem → Prop
  | project {origin : Path} : w.resolve start = .ok origin →
      (∀ directory ∈ origin.selfAndParents,
        w.isDirectory (directory.child layout.buildMarker) = .ok false) →
      Missing w start libraryDirectory layout (.projectRootNotFound origin layout.buildMarker)
  | libraries {project : Path} {flaw : DirectoryFlaw} :
      IsProject w start layout.buildMarker project →
      w.IsFlawed libraryDirectory flaw →
      Missing w start libraryDirectory layout (.libraryRoot libraryDirectory flaw)
  | dependencies {project : Path} {libraries : List Path} {flaw : DirectoryFlaw} :
      IsProject w start layout.buildMarker project → w.ListsDirectories libraryDirectory libraries →
      w.IsFlawed (project.child layout.dependencySubpath) flaw →
      Missing w start libraryDirectory layout
        (.dependencyDirectory (project.child layout.dependencySubpath) flaw)

theorem childDirectories_eq_ok_iff {amounts : DirectoryFlaw → Problem} :
    childDirectories w directory amounts = .ok children ↔
    w.ListsDirectories directory children := by
  rw [← World.childDirectories_eq_ok_iff]
  unfold childDirectories
  split
  next listed => simp [listed]
  all_goals
    next unlisted => simp [unlisted]

private theorem childDirectories_eq_problem_iff {amounts : DirectoryFlaw → Problem} :
    childDirectories w directory amounts = .error (.problem problem) ↔
      ∃ flaw, problem = amounts flaw ∧ w.IsFlawed directory flaw := by
  simp only [← World.childDirectories_eq_flaw_iff]
  constructor
  · intro failed
    unfold childDirectories at failed
    split at failed
    · cases failed
    next missing =>
      cases failed
      exact ⟨.missing, rfl, missing⟩
    next noDirectory =>
      cases failed
      exact ⟨.notDirectory, rfl, noDirectory⟩
    next forbidden =>
      cases failed
      exact ⟨.notListable, rfl, forbidden⟩
    · cases failed
  · rintro ⟨flaw, rfl, failed⟩
    rw [childDirectories, failed]
    cases flaw <;> rfl

theorem projectRoot_eq_ok_iff : projectRoot w start marker = .ok project ↔
    IsProject w start marker project := by
  constructor
  · intro found
    unfold projectRoot at found
    split at found
    · cases found
    next origin resolved =>
    split at found
    · cases found
    next directory above =>
      cases found
      obtain ⟨before, _, after, parts, unmarked, marked, rfl⟩ := findM?_eq_some_iff.mp above
      exact ⟨origin, before, after, resolved, parts, unmarked, marked⟩
    · cases found
  · rintro ⟨origin, before, after, resolved, parts, unmarked, marked⟩
    unfold projectRoot
    rw [resolved]
    dsimp only
    rw [findM?_eq_some_iff.mpr ⟨before, project, after, parts, unmarked, marked, rfl⟩]

private theorem projectRoot_eq_problem_iff :
    projectRoot w start marker = .error (.problem problem) ↔
    ∃ origin, w.resolve start = .ok origin ∧
      (∀ directory ∈ origin.selfAndParents, w.isDirectory (directory.child marker) = .ok false) ∧
      problem = .projectRootNotFound origin marker := by
  constructor
  · intro failed
    unfold projectRoot at failed
    split at failed
    · cases failed
    next origin resolved =>
    split at failed
    · cases failed
    · cases failed
    next none =>
      cases failed
      exact ⟨origin, resolved, findM?_eq_none_iff.mp none, rfl⟩
  · rintro ⟨origin, resolved, unmarked, rfl⟩
    unfold projectRoot
    rw [resolved]
    dsimp only
    rw [findM?_eq_none_iff.mpr unmarked]

theorem outcome_list : (list w start libraryDirectory layout).outcome =
    (find w start libraryDirectory layout).map Prod.snd := by
  unfold list
  cases find w start libraryDirectory layout <;> rfl

theorem outcome_list_eq_ok_iff : (list w start libraryDirectory layout).outcome = .ok paths ↔
    ∃ project libraries dependencies, IsProject w start layout.buildMarker project ∧
      w.ListsDirectories libraryDirectory libraries ∧
      w.ListsDirectories (project.child layout.dependencySubpath) dependencies ∧
      paths = libraries ++ project :: dependencies := by
  rw [outcome_list, map_eq_ok_iff]
  simp only [find, bind_eq_ok_iff, projectRoot_eq_ok_iff, libraryRoots, dependencyRoots,
    childDirectories_eq_ok_iff]
  constructor
  · rintro ⟨_, ⟨project, isProject, libraries, first, dependencies, last, same⟩, rfl⟩
    cases same
    exact ⟨project, libraries, dependencies, isProject, first, last, rfl⟩
  · rintro ⟨project, libraries, dependencies, isProject, first, last, rfl⟩
    exact ⟨_, ⟨project, isProject, libraries, first, dependencies, last, rfl⟩, rfl⟩

private theorem outcome_list_eq_problem_iff : (list w start libraryDirectory layout).outcome =
    .error (.problem problem) ↔
    Missing w start libraryDirectory layout problem := by
  rw [outcome_list, map_eq_error_iff]
  simp only [find, bind_eq_error_iff, projectRoot_eq_problem_iff, projectRoot_eq_ok_iff,
    libraryRoots, dependencyRoots, childDirectories_eq_problem_iff, childDirectories_eq_ok_iff,
    reduceCtorEq, and_false, exists_false, or_false]
  constructor
  · rintro (⟨origin, resolved, unmarked, rfl⟩ | ⟨project, isProject, ⟨flaw, rfl, flawed⟩ |
      ⟨libraries, listed, flaw, rfl, flawed⟩⟩)
    · exact .project resolved unmarked
    · exact .libraries isProject flawed
    · exact .dependencies isProject listed flawed
  · rintro (⟨resolved, unmarked⟩ | ⟨isProject, flawed⟩ | ⟨isProject, listed, flawed⟩)
    · exact .inl ⟨_, resolved, unmarked, rfl⟩
    · exact .inr ⟨_, isProject, .inl ⟨_, rfl, flawed⟩⟩
    · exact .inr ⟨_, isProject, .inr ⟨_, listed, _, rfl, flawed⟩⟩

section Alike

variable {w' : World} (alike : w.Alike w')
include alike

private theorem isProject_of_alike : IsProject w' start marker project ↔
    IsProject w start marker project := by
  simp only [IsProject, alike.resolve_eq, alike.isDirectory_eq]

/-- The list depends on what stands where, and not on how the world keeps track of it. -/
theorem outcome_list_of_alike : (list w' start libraryDirectory layout).outcome = .ok paths ↔
    (list w start libraryDirectory layout).outcome = .ok paths := by
  simp only [outcome_list_eq_ok_iff, isProject_of_alike alike, alike.listsDirectories_iff]

/-- Whatever is told depends on what stands where, unless nothing can be asked about two names in
one of the two directories, for different reasons. -/
theorem list_of_alike :
    list w' start libraryDirectory layout = list w start libraryDirectory layout ∨
      w.IsMixed libraryDirectory ∨ ∃ project, IsProject w start layout.buildMarker project ∧
        w.IsMixed (project.child layout.dependencySubpath) := by
  refine Classical.or_iff_not_imp_right.mpr fun neither => ?_
  obtain ⟨noLibraries, noDependencies⟩ := not_or.mp neither
  have same (directory : Path) (unmixed : ¬w.IsMixed directory)
      (amounts : DirectoryFlaw → Problem) :
      childDirectories w' directory amounts = childDirectories w directory amounts := by
    unfold childDirectories
    rw [alike.childDirectories_eq_or_isMixed.resolve_right unmixed]
  have sameProject :
      projectRoot w' start layout.buildMarker = projectRoot w start layout.buildMarker := by
    unfold projectRoot
    simp only [alike.resolve_eq, alike.isDirectory_eq]
  have found : find w' start libraryDirectory layout = find w start libraryDirectory layout := by
    unfold find libraryRoots dependencyRoots
    rw [sameProject, same _ noLibraries]
    -- the dependencies are listed only if there is a project
    cases above : projectRoot w start layout.buildMarker with
    | error fault => simp only [bind, Except.bind]
    | ok project =>
      have unmixed : ¬w.IsMixed (project.child layout.dependencySubpath) :=
        fun mixed => noDependencies ⟨project, projectRoot_eq_ok_iff.mp above, mixed⟩
      simp only [bind, Except.bind, same _ unmixed]
  unfold list
  rw [found]

end Alike

end Paths

/-! ## Locating modules -/

section Modules

variable {w : World} {moduleName : String} {layout : Layout} {paths : List Path}

/-- What comes of locating a module: the first of the paths that has it as a file, or that none has
it, or that nothing can be asked about one of them. -/
inductive Locates (w : World) (moduleName : String) (layout : Layout) :
    List Path → Except Fault ModuleLocation → Prop
  | found {before : List Path} {path : Path} {after : List Path} :
      (∀ other ∈ before, w.isFile (candidate moduleName layout other) = .ok false) →
      w.isFile (candidate moduleName layout path) = .ok true →
      Locates w moduleName layout (before ++ path :: after)
        (.ok ⟨candidate moduleName layout path, path.child layout.includeDirectory⟩)
  | absent {paths : List Path} :
      (∀ path ∈ paths, w.isFile (candidate moduleName layout path) = .ok false) →
      Locates w moduleName layout paths (.error (.problem (.moduleNotFound moduleName paths)))
  | barred {before : List Path} {path : Path} {after : List Path} {e : FileError} :
      (∀ other ∈ before, w.isFile (candidate moduleName layout other) = .ok false) →
      w.Bars (candidate moduleName layout path) e →
      Locates w moduleName layout (before ++ path :: after) (.error (.file e))

theorem outcome_locateModule_eq_iff {outcome : Except Fault ModuleLocation} :
    (locateModule w paths moduleName layout).outcome = outcome ↔
    Locates w moduleName layout paths outcome := by
  rw [outcome_locateModule]
  constructor
  · rintro rfl
    split
    next path found =>
      obtain ⟨before, _, after, rfl, passed, here, rfl⟩ := findM?_eq_some_iff.mp found
      exact .found passed here
    next none => exact .absent (findM?_eq_none_iff.mp none)
    next e failed =>
      obtain ⟨before, path, after, rfl, passed, unanswered⟩ := findM?_eq_error_iff.mp failed
      exact .barred passed (World.isFile_eq_error_iff.mp unanswered)
  · intro locates
    cases locates with
    | found passed here => rw [findM?_eq_some_iff.mpr ⟨_, _, _, rfl, passed, here, rfl⟩]
    | absent none => rw [findM?_eq_none_iff.mpr none]
    | barred passed bars =>
      rw [findM?_eq_error_iff.mpr ⟨_, _, _, rfl, passed, World.isFile_eq_error_iff.mpr bars⟩]

/-- Paths that have a module hide all that come after them. -/
theorem outcome_locateModule_append {w' : World} {upper lower lower' : List Path}
    (agree : ∀ path ∈ upper, w'.isFile (candidate moduleName layout path) =
      w.isFile (candidate moduleName layout path))
    (has : ∃ path ∈ upper, w.isFile (candidate moduleName layout path) = .ok true) :
    (locateModule w' (upper ++ lower') moduleName layout).outcome =
      (locateModule w (upper ++ lower) moduleName layout).outcome := by
  have has' : ∃ path ∈ upper, w'.isFile (candidate moduleName layout path) = .ok true := by
    obtain ⟨path, among, here⟩ := has
    exact ⟨path, among, (agree path among).trans here⟩
  rw [outcome_locateModule, outcome_locateModule, findM?_append_of_exists has,
    findM?_append_of_exists has', findM?_congr agree]
  -- only that there is nothing would tell about the other paths
  cases found : upper.findM? fun path => w.isFile (candidate moduleName layout path) with
  | error e => rfl
  | ok path? =>
    cases path? with
    | some path => rfl
    | none =>
      obtain ⟨path, among, here⟩ := has
      cases (findM?_eq_none_iff.mp found path among).symm.trans here

end Modules

/-- The list of search paths, and where modules are located on it.

The paths are the directories of the libraries, the project, and the directories of the
dependencies, and the order in which a directory is enumerated makes no difference to the list.
Where something is missing, it is the project before the libraries and the libraries before the
dependencies; and apart from that only hindrances keep the paths from being listed.  A module is
located at the first path that has it, and if none has it, all paths are noted.  Libraries that have
it hide the project and its dependencies, and a project that has it hides the dependencies. -/
theorem lists_and_locates (w : World) (start libraryDirectory : Path) (layout : Layout) :
    (∀ paths, (list w start libraryDirectory layout).outcome = .ok paths ↔
      ∃ project libraries dependencies, IsProject w start layout.buildMarker project ∧
        w.ListsDirectories libraryDirectory libraries ∧
        w.ListsDirectories (project.child layout.dependencySubpath) dependencies ∧
        paths = libraries ++ project :: dependencies) ∧
    (∀ w' : World, w.entries.Perm w'.entries → w.locations.Nodup → w'.system = w.system →
      w'.workingDirectory = w.workingDirectory →
      (∀ paths, (list w' start libraryDirectory layout).outcome = .ok paths ↔
        (list w start libraryDirectory layout).outcome = .ok paths) ∧
      (list w' start libraryDirectory layout = list w start libraryDirectory layout ∨
        w.IsMixed libraryDirectory ∨ ∃ project, IsProject w start layout.buildMarker project ∧
          w.IsMixed (project.child layout.dependencySubpath))) ∧
    (∀ problem, (list w start libraryDirectory layout).outcome = .error (.problem problem) ↔
      Missing w start libraryDirectory layout problem) ∧
    (∀ fault, (list w start libraryDirectory layout).outcome = .error fault →
      (∃ problem, fault = .problem problem) ∨
        Resolver.Hindered ⟨libraryDirectory, layout, false, none⟩ w start [] fault) ∧
    (∀ paths moduleName outcome, (locateModule w paths moduleName layout).outcome = outcome ↔
      Locates w moduleName layout paths outcome) ∧
    (∀ paths moduleName, (Problem.moduleNotFound moduleName paths).notes =
      paths.map fun path => "searched " ++ toString path) ∧
    ∀ (w' : World) (libraries : List Path) (project : Path) (dependencies : List Path)
        (moduleName : String),
      (∀ path ∈ libraries,
        w'.isFile (candidate moduleName layout path) =
          w.isFile (candidate moduleName layout path)) →
      ((∃ path ∈ libraries, w.isFile (candidate moduleName layout path) = .ok true) →
        (locateModule w' (libraries ++ project :: dependencies) moduleName layout).outcome =
          (locateModule w (libraries ++ project :: dependencies) moduleName layout).outcome) ∧
      (w.isFile (candidate moduleName layout project) = .ok true →
        w'.isFile (candidate moduleName layout project) = .ok true →
        (locateModule w' (libraries ++ project :: dependencies) moduleName layout).outcome =
          (locateModule w (libraries ++ project :: dependencies) moduleName layout).outcome) := by
  refine ⟨fun paths => outcome_list_eq_ok_iff, ?_, fun problem => outcome_list_eq_problem_iff, ?_,
    fun paths moduleName outcome => outcome_locateModule_eq_iff, fun paths moduleName => rfl, ?_⟩
  · intro w' perm once sameSystem same
    have alike := World.alike_of_perm perm once sameSystem same
    exact ⟨fun paths => outcome_list_of_alike alike, list_of_alike alike⟩
  · intro fault failed
    apply (@Resolver.expects_of_searchPaths ⟨libraryDirectory, layout, false,
      none⟩ w start [] fault failed).imp_left
    rintro ⟨problem, rfl, -⟩
    exact ⟨problem, rfl⟩
  · intro w' libraries project dependencies moduleName agree
    refine ⟨outcome_locateModule_append agree, fun has has' => ?_⟩
    -- the project is looked at right after the libraries
    have parts : libraries ++ project :: dependencies = (libraries ++ [project]) ++
        dependencies := by simp
    rw [parts]
    apply outcome_locateModule_append
    · intro path among
      rcases List.mem_append.mp among with among | among
      · exact agree path among
      · rw [List.mem_singleton.mp among, has, has']
    · exact ⟨project, by simp, has⟩

/-- Libraries with a link to a directory, a directory and a file, and a project with a
dependency. -/
def shelf : World where
  entries := [
    (["l"], .directory), (["l", "b"], .directory), (["l", "c"], .file []),
    (["l", "a"], .link "../o"),
    (["o"], .directory), (["o", "src"], .directory), (["o", "src", "m.erl"], .file []),
    (["p"], .directory), (["p", "_build"], .directory), (["p", "_build", "default"], .directory),
    (["p", "_build", "default", "lib"], .directory),
    (["p", "_build", "default", "lib", "d"], .directory),
    (["p", "src"], .directory), (["p", "src", "m.erl"], .file [])]
  workingDirectory := []
  system := .ofHome "/"
  programDirectories := []

/-- The same world, enumerated from its end. -/
def shelf.reversed : World := { shelf with entries := shelf.entries.reverse }

/-- The same libraries without any project. -/
def shelf.emptied : World := { shelf with entries := shelf.entries.take 7 }

def shelf.libraries : List Path := [⟨.root, ["l", "a"]⟩, ⟨.root, ["l", "b"]⟩]

def shelf.project : Path := ⟨.root, ["p"]⟩

def shelf.dependencies : List Path := [⟨.root, ["p", "_build", "default", "lib", "d"]⟩]

private theorem shelf.listsDirectories_libraries :
    shelf.ListsDirectories ⟨.root, ["l"]⟩ shelf.libraries := by
  have names : shelf.namesAt ["l"] = ["b", "c", "a"] := by decide
  refine ⟨["l"], ["a", "b"], rfl, rfl, rfl, fun name stands => ?_, fun name => ?_, by decide, rfl⟩
  · rw [← World.mem_namesAt_iff, names] at stands
    simp only [List.mem_cons, List.not_mem_nil, or_false] at stands
    rcases stands with rfl | rfl | rfl
    · exact ⟨true, rfl⟩
    · exact ⟨false, rfl⟩
    · exact ⟨true, rfl⟩
  · rw [← World.mem_namesAt_iff, names]
    simp only [List.mem_cons, List.not_mem_nil, or_false]
    constructor
    · rintro (rfl | rfl)
      · exact ⟨.inr (.inr rfl), rfl⟩
      · exact ⟨.inl rfl, rfl⟩
    · rintro ⟨rfl | rfl | rfl, isDirectory⟩
      · exact .inr rfl
      · cases isDirectory
      · exact .inl rfl

private theorem shelf.listsDirectories_dependencies :
    shelf.ListsDirectories (shelf.project.child Layout.default.dependencySubpath)
      shelf.dependencies := by
  have place : shelf.project.child Layout.default.dependencySubpath =
      ⟨.root, ["p", "_build", "default", "lib"]⟩ := by decide
  have names : shelf.namesAt ["p", "_build", "default", "lib"] = ["d"] := by decide
  rw [place]
  refine ⟨["p", "_build", "default", "lib"], ["d"], rfl, rfl, rfl, fun name stands => ?_,
    fun name => ?_, by decide, rfl⟩
  · rw [← World.mem_namesAt_iff, names, List.mem_singleton] at stands
    subst stands
    exact ⟨true, rfl⟩
  · rw [← World.mem_namesAt_iff, names]
    refine ⟨fun among => ⟨among, ?_⟩, And.left⟩
    rw [List.mem_singleton.mp among]
    rfl

/-- Reversing all enumerations does not change the search paths, and the library has the module in
both worlds. -/
theorem lists_and_locates_shelf :
    (list shelf.reversed ⟨.root, ["p", "src"]⟩ ⟨.root, ["l"]⟩ .default).outcome =
      .ok (shelf.libraries ++ shelf.project :: shelf.dependencies) ∧
    (locateModule shelf.emptied (shelf.libraries ++ shelf.project :: shelf.dependencies) "m"
      .default).outcome =
        .ok ⟨⟨.root, ["l", "a", "src", "m.erl"]⟩, ⟨.root, ["l", "a", "include"]⟩⟩ := by
  obtain ⟨lists, reordered, -, -, -, -, hides⟩ :=
    lists_and_locates shelf ⟨.root, ["p", "src"]⟩ ⟨.root, ["l"]⟩ .default
  constructor
  · obtain ⟨same, -⟩ := reordered shelf.reversed (List.reverse_perm _).symm (by decide) rfl rfl
    rw [same, lists]
    exact ⟨_, _, _, projectRoot_eq_ok_iff.mp (Traced.eq_ok_of_toOption (by decide +kernel)),
      shelf.listsDirectories_libraries, shelf.listsDirectories_dependencies, rfl⟩
  · have same :=
      hides shelf.emptied shelf.libraries shelf.project shelf.dependencies "m" (by decide +kernel)
    rw [same.1 (by decide +kernel)]
    exact Traced.eq_ok_of_toOption (by decide +kernel)

end SearchPath

namespace Resolver.rough

theorem toList_longSource :
    (longName ++ ".erl").toList = List.replicate 256 'a' ++ ['.', 'e', 'r', 'l'] := by
  rw [String.toList_append, toList_longName]
  rfl

private theorem locate_longSource : rough.locate ⟨.root, ["p", "src", longName ++ ".erl"]⟩ =
    .error .nameTooLong := by
  apply locate_of_long
  · rw [Path.hasNull, toList_longSource]
    decide
  · decide +kernel

/-- A module with too long a name is not just missing. -/
theorem outcome_locateModule_longName :
    (SearchPath.locateModule rough [⟨.root, ["p"]⟩] longName .default).outcome =
      .error (.file .nameTooLong) := by
  apply SearchPath.outcome_locateModule_eq_iff.mpr
  apply @SearchPath.Locates.barred rough longName .default [] _ [] .nameTooLong nofun
  have place : SearchPath.candidate longName .default ⟨.root, ["p"]⟩ =
      ⟨.root, ["p", "src", longName ++ ".erl"]⟩ :=
    child_of_letter toList_longSource (by decide)
  rw [place]
  exact ⟨.inl rfl, locate_longSource⟩

end Resolver.rough

end SignatureIndex
