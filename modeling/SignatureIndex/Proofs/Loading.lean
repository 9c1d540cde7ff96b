import SignatureIndex.Proofs.Refusals
import SignatureIndex.Proofs.Spellings
import SignatureIndex.Catalog.Bundle
import SignatureIndex.Discovery
import SignatureIndex.Settings

/-!
# What can come of loading

Settings and catalogs are loaded from documents, and mistakes in a document are problems.  What
stands in the way of the document is not: bytes that are not UTF-8, numerals that are too long,
values that are nested too deeply, paths about which nothing can be asked, files that may not be
read, and a home directory that nobody knows.  The runtime, which is asked for its libraries,
answers or is a problem, unless it cannot be started or what it writes is no text.
-/

namespace SignatureIndex

/-! ## Documents -/

namespace Toml

/-- What can stop the reading of a document apart from mistakes in it. -/
inductive Spoils (bytes : List UInt8) : Fault → Prop
  | undecodable {rest} : Text.Utf8.decode bytes = .error rest → Spoils bytes .undecodable
  | numeral {text flaw} : Text.Utf8.decode bytes = .ok text → parse text = .error (.numeral flaw) →
      Spoils bytes (.numeral flaw)
  | nesting {text} : Text.Utf8.decode bytes = .ok text → parse text = .error .nesting →
      Spoils bytes .nesting

theorem not_spoils_problem {bytes : List UInt8} (problem : Problem) :
    ¬Spoils bytes (.problem problem) := by
  intro spoiled
  cases spoiled

/-- Bytes are no document because there is a mistake in it, or because they are spoiled. -/
theorem ofBytes_eq_error_iff {problem : String → Problem} {bytes : List UInt8} {fault : Fault} :
    ofBytes problem bytes = .error fault ↔
      (∃ text detail, Text.Utf8.decode bytes = .ok text ∧ parse text = .error (.malformed detail) ∧
        fault = .problem (problem detail)) ∨ Spoils bytes fault := by
  unfold ofBytes
  constructor
  · intro failed
    split at failed
    next rest undecoded =>
      cases failed
      exact .inr (.undecodable undecoded)
    next text decoded =>
    split at failed
    · cases failed
    next detail mistaken =>
      cases failed
      exact .inl ⟨text, detail, decoded, mistaken, rfl⟩
    next flaw tooLong =>
      cases failed
      exact .inr (.numeral decoded tooLong)
    next tooDeep =>
      cases failed
      exact .inr (.nesting decoded tooDeep)
  · rintro (⟨text, detail, decoded, mistaken, rfl⟩ | spoiled)
    · simp only [decoded, mistaken]
    · cases spoiled with
      | undecodable undecoded => simp only [undecoded]
      | numeral decoded tooLong => simp only [decoded, tooLong]
      | nesting decoded tooDeep => simp only [decoded, tooDeep]

end Toml

/-! ## Settings -/

namespace Settings

/-- Whether a path starts at the home directory of a user. -/
def StartsAtHomeOf (path : Path) (user : String) : Prop :=
  path.isAbsolute = false ∧ ∃ first ∈ path.parts.head?, first.startsWith "~" = true ∧
    user = String.ofList (first.toList.drop 1)

private theorem expandHome_eq_error_iff {w : World} {path : Path} {fault : Fault} :
    expandHome w path = .error fault ↔ ∃ user, StartsAtHomeOf path user ∧
    homeOf w user = .error fault := by
  unfold expandHome
  split
  next first rest relative parts =>
    simp only [StartsAtHomeOf, relative, parts, List.head?_cons, Option.mem_some_iff,
      exists_eq_left', true_and]
    split
    next marked => simp only [marked, true_and, exists_eq_left, map_eq_error_iff]
    next unmarked => simp only [unmarked, false_and, exists_false, reduceCtorEq]
  next other =>
    constructor
    · nofun
    · rintro ⟨user, ⟨relative, name, first, -⟩, -⟩
      obtain ⟨rest, parts⟩ := List.head?_eq_some_iff.mp first
      exact absurd parts (other name rest relative)

theorem homeOf_ne_problem {w : World} {user : String} {problem : Problem} :
    homeOf w user ≠ .error (.problem problem) := by
  unfold homeOf
  split
  · nofun
  split
  · nofun
  · split <;> nofun

/-- The paths about which it is asked whether they are files when settings are looked for. -/
inductive Asks (w : World) (start : Path) : Path → Prop
  | origin {path} : w.resolve start = .ok path → Asks w start path
  | nearest {origin directory} : searchStart w start = .ok origin →
      directory ∈ origin.selfAndParents → Asks w start (directory.child fileName)

/-- What can be in the way of loading settings. -/
inductive Hindered (w : World) (start : Option Path) : Fault → Prop
  /-- A null character in the path that settings are loaded for. -/
  | null : (start.getD .here).holdsNull = true → Hindered w start (.file .nullCharacter)
  /-- No machine can be in such a world. -/
  | impossible : ¬w.IsPossible → Hindered w start (.file .nullCharacter)
  /-- The path leads into a circle of links. -/
  | circle : w.resolve (start.getD .here) = .error .tooManyLinks →
      Hindered w start (.file .tooManyLinks)
  /-- A path is too long, or it leads through a directory that may not be searched. -/
  | barred {path e} : Asks w (start.getD .here) path → w.Bars path e → Hindered w start (.file e)
  /-- The settings file may not be read. -/
  | refused {file} : find w start = .ok file → w.readBytes file = .error .permissionDenied →
      Hindered w start (.file .permissionDenied)
  | spoiled {file bytes fault} : find w start = .ok file → w.readBytes file = .ok bytes →
      Toml.Spoils bytes fault → Hindered w start fault
  /-- The libraries are at a home directory that is not known. -/
  | homeless {file bytes document settings written user fault} : find w start = .ok file →
      w.readBytes file = .ok bytes →
      Toml.ofBytes (fun detail => .settings (.unreadable file detail)) bytes = .ok document →
      ofDocument document = .ok settings → settings.libraryDirectory = some written →
      StartsAtHomeOf (Path.ofString written) user → homeOf w user = .error fault →
      Hindered w start fault

variable {w : World} {start : Option Path} {file : Path} {fault : Fault}

/-- What has been found as a settings file can be read, unless that is refused. -/
theorem readBytes_of_find (found : find w start = .ok file) :
    (∃ bytes, w.readBytes file = .ok bytes) ∨ w.readBytes file = .error .permissionDenied := by
  unfold find at found
  split at found
  next file' near =>
    cases found
    obtain ⟨origin, -, above⟩ := bind_eq_ok_iff.mp near
    exact World.readBytes_of_isFile (mem_of_findM?_eq_some above).2
  · cases found
  · cases found

/-- Settings are looked for in vain because there are none, or because something is in the way. -/
theorem hindered_of_find (failed : find w start = .error fault) :
    fault = .file .notFound ∨ Hindered w start fault := by
  unfold find at failed
  split at failed
  · cases failed
  · cases failed
    exact .inl rfl
  next e failed' =>
    cases failed
    -- the path is resolved and asked about, and then the directories from there upwards are
    rw [nearest, bind_eq_error_iff] at failed'
    rcases failed' with unstarted | ⟨origin, started, unasked⟩
    · rw [searchStart, bind_eq_error_iff] at unstarted
      rcases unstarted with unresolved | ⟨origin, resolved, unasked⟩
      · rcases World.eq_of_resolve_eq_error unresolved with ⟨rfl, null | null⟩ | rfl | ⟨rfl, -, -⟩
        · exact .inr (.null null)
        · exact .inr (.impossible fun possible => possible.free null)
        · exact .inr (.circle unresolved)
        · exact .inl rfl
      · rw [bind_eq_error_iff] at unasked
        rcases unasked with unasked | ⟨isFile, -, never⟩
        · exact .inr (.barred (.origin resolved) (World.isFile_eq_error_iff.mp unasked))
        · cases isFile <;> cases never
    · obtain ⟨path, among, unasked⟩ := exists_of_findM?_eq_error unasked
      obtain ⟨directory, above, rfl⟩ := List.mem_map.mp among
      exact .inr (.barred (.nearest started above) (World.isFile_eq_error_iff.mp unasked))

theorem locateLibraries_eq_error_iff {settings : Settings} :
    locateLibraries w file settings = .error fault ↔ ∃ written user,
      settings.libraryDirectory = some written ∧ StartsAtHomeOf (Path.ofString written) user ∧
      homeOf w user = .error fault := by
  unfold locateLibraries
  split
  next none => simp [none]
  next written given =>
    have causes := @expandHome_eq_error_iff w (Path.ofString written) fault
    simp only [given, Option.some.injEq, exists_and_left, exists_eq_left', ← causes]
    split
    next other failed => simp [failed]
    next path expanded => simp [expanded]

theorem hindered_of_load (found : find w start = .ok file) (failed : load w file = .error fault) :
    (∃ problem, fault = .problem (.settings problem)) ∨ Hindered w start fault := by
  rcases readBytes_of_find found with ⟨bytes, read⟩ | unread
  · simp only [load, read, bind_eq_error_iff] at failed
    rcases failed with unread | ⟨document, parsed, failed⟩
    · rcases Toml.ofBytes_eq_error_iff.mp unread with ⟨-, detail, -, -, rfl⟩ | spoiled
      · exact .inl ⟨_, rfl⟩
      · exact .inr (.spoiled found read spoiled)
    · split at failed
      · cases failed
        exact .inl ⟨_, rfl⟩
      next settings made =>
        obtain ⟨written, user, given, starts, unknown⟩ := locateLibraries_eq_error_iff.mp failed
        exact .inr (.homeless found read parsed made given starts unknown)
  · simp only [load, unread] at failed
    cases failed
    exact .inr (.refused found unread)

/-- Loading the settings that hold at a path gives settings, unless there is a problem with them or
something is in the way. -/
theorem hindered_of_loadFor (failed : loadFor w start = .error fault) :
    (∃ problem, fault = .problem (.settings problem)) ∨ Hindered w start fault := by
  unfold loadFor at failed
  split at failed
  · cases failed
  next notMissing =>
  -- if there is no settings file the defaults hold, so something else has failed
  rcases bind_eq_error_iff.mp failed with unfound | ⟨file, found, unloaded⟩
  · rcases hindered_of_find unfound with rfl | hindered
    · exact absurd failed notMissing
    · exact .inr hindered
  · exact hindered_of_load found unloaded

/-- Bytes that are spoiled are in the way of every settings file that holds them. -/
theorem loadFor_of_spoils {bytes : List UInt8} (found : find w start = .ok file)
    (read : w.readBytes file = .ok bytes) (spoiled : Toml.Spoils bytes fault) :
    loadFor w start = .error fault := by
  have unloaded : load w file = .error fault := by
    simp only [load, read, bind_eq_error_iff]
    exact .inl (Toml.ofBytes_eq_error_iff.mpr (.inr spoiled))
  have failed : (find w start).bind (load w) = .error fault := by
    rw [found]
    exact unloaded
  unfold loadFor
  rw [failed]
  cases spoiled <;> rfl

end Settings

/-! ## Catalogs -/

namespace Catalog

/-- The bytes that are read for a catalog of a name. -/
def bytesOf (w : World) (name : String) : Except FileError (List UInt8) :=
  let path := Path.ofString name
  if path.isAbsolute then w.readBytes path
  else
    match w.system.package with
    | .installed directory => w.readBytes (directory.join path)
    | .bundled => bundle.readBytes path

/-- What can be in the way of loading a catalog. -/
inductive Hindered (w : World) (name : String) : Fault → Prop
  /-- Something else than that there is no file. -/
  | unreadable {e} : bytesOf w name = .error e → e ≠ .notFound → e ≠ .isADirectory →
      Hindered w name (.file e)
  | spoiled {bytes fault} : bytesOf w name = .ok bytes → Toml.Spoils bytes fault →
      Hindered w name fault

variable {w : World} {name : String} {fault : Fault}

theorem hindered_of_missing {e : FileError} (unread : bytesOf w name = .error e) :
    (∃ problem, missing name e = .problem (.catalog problem)) ∨
    Hindered w name (missing name e) := by
  by_cases isMissing : e = .notFound ∨ e = .isADirectory
  · rcases isMissing with rfl | rfl
    · exact .inl ⟨_, rfl⟩
    · exact .inl ⟨_, rfl⟩
  · obtain ⟨found, noDirectory⟩ := not_or.mp isMissing
    have serious : missing name e = .file e := by
      unfold missing
      split
      · exact absurd rfl found
      · exact absurd rfl noDirectory
      · rfl
    rw [serious]
    exact .inr (.unreadable unread found noDirectory)

private theorem hindered_of_loadFrom {path : Path} (place : bytesOf w name = w.readBytes path)
    (failed : loadFrom w name path = .error fault) :
    (∃ problem, fault = .problem (.catalog problem)) ∨ Hindered w name fault := by
  unfold loadFrom at failed
  split at failed
  next e unread =>
    cases failed
    exact hindered_of_missing (place.trans unread)
  next bytes read =>
    rw [ofBytes, bind_eq_error_iff] at failed
    rcases failed with unread | ⟨document, -, failed⟩
    · rcases Toml.ofBytes_eq_error_iff.mp unread with ⟨-, detail, -, -, rfl⟩ | spoiled
      · exact .inl ⟨_, rfl⟩
      · exact .inr (.spoiled (place.trans read) spoiled)
    · split at failed
      · cases failed
      · cases failed
        exact .inl ⟨_, rfl⟩

private theorem hindered_of_loadBundled {path : Path}
    (place : bytesOf w name = bundle.readBytes path)
    (failed : loadBundled name path = .error fault) :
    (∃ problem, fault = .problem (.catalog problem)) ∨ Hindered w name fault := by
  unfold loadBundled at failed
  split at failed
  next e unread =>
    cases failed
    exact hindered_of_missing (place.trans unread)
  · split at failed
    · cases failed
    · cases failed
      exact .inl ⟨_, rfl⟩

/-- Loading a catalog gives a catalog, unless there is a problem with it or something is in the
way. -/
theorem hindered_of_load (failed : load w name = .error fault) :
    (∃ problem, fault = .problem (.catalog problem)) ∨ Hindered w name fault := by
  unfold load at failed
  dsimp only at failed
  split at failed
  next absolute => exact hindered_of_loadFrom (if_pos absolute) failed
  next relative =>
    split at failed
    next directory installed =>
      refine hindered_of_loadFrom ?_ failed
      simp only [bytesOf, relative, Bool.false_eq_true, if_false, installed]
    next bundled =>
      refine hindered_of_loadBundled ?_ failed
      simp only [bytesOf, relative, Bool.false_eq_true, if_false, bundled]

end Catalog

/-! ## The runtime -/

namespace World

variable {w : World} {name : String}

private theorem exists_programNamed {directory : Path} {program : Program}
    (among : directory ∈ w.programDirectories)
    (here : w.programAt (w.locate (directory.child name)) = .ok program) :
    ∃ program, w.programNamed name = .ok program := by
  have listed : Except.ok program ∈
      w.programDirectories.map fun directory => w.programAt (w.locate (directory.child name)) :=
    List.mem_map.mpr ⟨directory, among, here⟩
  obtain ⟨first, found⟩ := Option.isSome_iff_exists.mp
    (List.findSome?_isSome_iff.mpr ⟨_, listed, rfl⟩ :
      (List.findSome? Except.toOption _).isSome = true)
  exact ⟨first, by simp only [programNamed, found]⟩

/-- Whether there is a program of a name in one of the directories of programs that cannot be
started. -/
def HasUnstartable (w : World) (name : String) : Prop :=
  ∃ directory ∈ w.programDirectories, ∃ executable reason,
    w.executableAt (w.locate (directory.child name)) = .ok executable ∧
    executable.start = .error reason

/-- A program that is found by its name can be run by the path that it has been found at, unless a
program of that name cannot be started. -/
theorem exists_program_of_which? (plain : Path.ofString name = ⟨.here, [name]⟩)
    (regular : ∀ directory ∈ w.programDirectories, directory.IsRegular) {text : String}
    (found : w.which? name = some text) :
    (∃ program, w.program text = .ok program) ∨ w.HasUnstartable name := by
  obtain ⟨path, listed, here⟩ := List.exists_of_findSome?_eq_some found
  obtain ⟨directory, among, rfl⟩ := List.mem_map.mp listed
  split at here
  next executable reached =>
    cases here
    change (∃ program, w.program (directory.child name).toString = .ok program) ∨ _
    cases started : executable.start with
    | error reason => exact .inr ⟨directory, among, executable, reason, reached, started⟩
    | ok program =>
      have starts : w.programAt (w.locate (directory.child name)) = .ok program := by
        rw [programAt, reached]
        exact started
      have child : directory.child name = ⟨directory.anchor, directory.parts ++ [name]⟩ := by
        rw [Path.child, plain]
        rfl
      -- the path that was found is started by its text, which is another way of asking for it
      have some : (directory.child name).parts ≠ [] := by simp [child]
      have childRegular := (regular directory among).join (Path.isRegular_ofString name)
      obtain ⟨location, located⟩ : ∃ location, w.locate (directory.child name) = .ok location := by
        unfold executableAt at reached
        split at reached
        · cases reached
        next location located => exact ⟨location, located⟩
      have free : Path.hasNull (directory.child name).toString = false :=
        (Path.hasNull_toString some childRegular).trans (holdsNull_of_locate located)
      by_cases slash : '/' ∈ (directory.child name).toString.toList
      · refine .inl ⟨program, ?_⟩
        rw [World.program, free, List.contains_iff_mem.mpr slash,
          locateText_toString some childRegular]
        exact starts
      · -- a name alone is looked for in all directories again
        obtain ⟨other, alone⟩ := Path.exists_eq_of_not_mem_toString some childRegular slash
        have same : name = other ∧ name ≠ "" := by
          have ends : directory.parts ++ [name] = [] ++ [other] :=
            congrArg Path.parts (child.symm.trans alone)
          have filled : name ∈ (Path.ofString name).parts := by simp [plain]
          exact ⟨List.singleton_inj.mp (List.append_inj' ends rfl).2,
            (Path.isRegular_ofString name name filled).1⟩
        obtain ⟨program, named⟩ := exists_programNamed among starts
        refine .inl ⟨program, ?_⟩
        rw [World.program, free, Bool.eq_false_iff.mpr (mt List.contains_iff_mem.mp slash), alone,
          ← same.1, Path.toString_name same.2]
        exact named
  · cases here

end World

namespace Discovery

/-- What can be in the way when the usual runtime is asked for its libraries. -/
inductive Hindered (w : World) : Fault → Prop
  /-- The runtime is found and not started, because a program of its name cannot be, or because
  programs are looked for in a directory that there cannot be. -/
  | unstarted {executable e} : w.which? runtimeName = some executable →
      w.program executable = .error e → w.HasUnstartable runtimeName ∨
      (∃ directory ∈ w.programDirectories, ¬directory.IsRegular) →
      Hindered w (.file e)
  /-- What it writes is no text. -/
  | undecodable {executable program} : w.which? runtimeName = some executable →
      w.program executable = .ok program → program.output = none ∨ program.complaints = none →
      Hindered w .undecodable

variable {w : World} {fault : Fault}

/-- Ten seconds can be waited for. -/
theorem isLate_usualLimit (busySeconds : Nat) :
    isLate busySeconds usualLimit = .ok (decide (10 ≤ (busySeconds : Int))) := by
  have short : ¬(beyondTime ≤ (10 : Int).natAbs ∨ longestWait < 1000 * (10 : Int)) := by
    decide +kernel
  rw [usualLimit, isLate, isLateAfter, if_neg short]

/-- Asking the usual runtime for its libraries gives their directory, unless there is a problem with
the runtime or something is in the way. -/
theorem hindered_of_libraryDirectory
    (failed : (libraryDirectory w none usualLimit).outcome = .error fault) :
    (∃ problem, fault = .problem (.discovery problem)) ∨ Hindered w fault := by
  unfold libraryDirectory at failed
  dsimp only at failed
  split at failed
  next executable found =>
    unfold ask at failed
    split at failed
    · cases failed
      exact .inl ⟨_, rfl⟩
    next e _ unstarted =>
      cases failed
      refine .inr (.unstarted found unstarted (Classical.byContradiction fun neither => ?_))
      -- with regular directories and programs that start the runtime would be there
      obtain ⟨startable, none⟩ := not_or.mp neither
      have regular : ∀ directory ∈ w.programDirectories, directory.IsRegular := by
        simpa using none
      rcases World.exists_program_of_which? (by decide) regular found with
        ⟨program, started⟩ | unstartable
      · rw [unstarted] at started
        cases started
      · exact startable unstartable
    next program started =>
      rw [Traced.outcome_bind_eq_error_iff] at failed
      rcases failed with never | ⟨-, -, failed⟩
      · cases never
      rw [isLate_usualLimit] at failed
      split at failed
      next never => exact absurd never nofun
      · cases failed
        exact .inl ⟨_, rfl⟩
      · split at failed
        · cases failed
          exact .inl ⟨_, rfl⟩
        · cases failed
      next noText =>
        cases failed
        refine .inr (.undecodable found started ?_)
        -- had both been texts there would have been an answer
        cases output : program.output with
        | none => exact .inl rfl
        | some output =>
          cases complaint : program.complaints with
          | none => exact .inr rfl
          | some complaint => simp_all
  · cases failed
    exact .inl ⟨_, rfl⟩

end Discovery

end SignatureIndex
