import SignatureIndex.Proofs.Ends
import SignatureIndex.Proofs.Scanning

/-!
# What the world refuses

Most questions about a path have an answer, if only that there is nothing of the kind.  A few are
left.  Nothing can be asked about a path that is too long, or that leads through a directory which
may not be searched.  A path does not resolve if it holds the null character or leads into a circle
of links.  And nobody who stands in a directory that has been removed can tell where that directory
is, so there a path resolves only if it leads through the root.

Listing a directory, and reading a file, can also be refused at the place itself.
-/

namespace SignatureIndex

namespace World

variable {w : World}

/-! ## What stops a path from being resolved -/

/-- What a path resolves to, if it does. -/
theorem exists_of_resolve_eq_ok {path goal : Path} (resolved : w.resolve path = .ok goal) :
    ∃ reached, (w.endOf path = .ok reached ∨ w.endOf path = .error (.circle reached)) ∧
      w.fromRoot reached = .ok goal ∧ goal.holdsNull = false := by
  obtain ⟨told, fine, resolved⟩ := bind_eq_ok_iff.mp resolved
  split at resolved
  · cases resolved
  · cases resolved
  next noNull =>
    cases resolved
    have free : goal.holdsNull = false := by
      refine Bool.eq_false_iff.mpr fun null => noNull ?_
      rw [locate, if_pos null]
    unfold goalOf at fine
    split at fine
    next reached ends => exact ⟨reached, .inl ends, fine, free⟩
    next reached ends => exact ⟨reached, .inr ends, fine, free⟩
    · cases fine
    · cases fine

theorem isAbsolute_of_resolve {path goal : Path} (resolved : w.resolve path = .ok goal) :
    goal.isAbsolute = true := by
  obtain ⟨reached, -, told, -⟩ := exists_of_resolve_eq_ok resolved
  exact (eq_of_fromRoot_eq_ok told).1

theorem holdsNull_of_resolve {path goal : Path} (resolved : w.resolve path = .ok goal) :
    goal.holdsNull = false := by
  obtain ⟨reached, -, -, free⟩ := exists_of_resolve_eq_ok resolved
  exact free

/-- Why a path does not resolve: a null character, a circle of links, or a working directory that
has been removed. -/
theorem eq_of_resolve_eq_error {path : Path} {e : FileError} (failed : w.resolve path = .error e) :
    (e = .nullCharacter ∧ (path.holdsNull = true ∨ w.HoldsNull)) ∨ e = .tooManyLinks ∨
      (e = .notFound ∧ isLost w.workingDirectory = true ∧ path.isAbsolute = false) := by
  have adrift {reached : Path} (told : w.fromRoot reached = .error e)
      (ends : w.endOf path = .ok reached ∨ w.endOf path = .error (.circle reached)) :
      e = .notFound ∧ isLost w.workingDirectory = true ∧ path.isAbsolute = false := by
    obtain ⟨rfl, lost, relative⟩ := eq_of_fromRoot_eq_error told
    refine ⟨rfl, lost, Bool.eq_false_iff.mpr fun absolute => ?_⟩
    -- a path from the root would have led through the root
    rw [isAbsolute_of_endOf absolute ends] at relative
    cases relative
  rcases bind_eq_error_iff.mp failed with failed | ⟨goal, told, failed⟩
  · unfold goalOf at failed
    split at failed
    next reached ends => exact .inr (.inr (adrift failed (.inl ends)))
    next reached ends => exact .inr (.inr (adrift failed (.inr ends)))
    · cases failed
      exact .inr (.inl rfl)
    next ends =>
      cases failed
      exact .inl ⟨rfl, holdsNull_of_endOf_eq_null ends⟩
  · split at failed
    · cases failed
      exact .inr (.inl rfl)
    next unasked =>
      cases failed
      have null : goal.holdsNull = true := by
        rcases eq_of_locate_eq_error unasked with ⟨-, null⟩ | obstacle
        · exact null
        · simp [IsObstacle] at obstacle
      refine .inl ⟨rfl, ?_⟩
      unfold goalOf at told
      split at told
      next reached ends =>
        refine (holdsNull_of_fromRoot told null).elim (fun null => ?_) .inr
        rw [holdsNull_of_endOf.1 ends] at null
        cases null
      next reached ends =>
        exact (holdsNull_of_fromRoot told null).elim (holdsNull_of_endOf.2 ends) .inr
      · cases told
      · cases told
    · cases failed

/-! ## What stops a question -/

/-- Whether nothing can be asked about a path, because a name is too long or a directory may not be
searched. -/
def Bars (w : World) (path : Path) (e : FileError) : Prop :=
  (e = .nameTooLong ∨ e = .permissionDenied) ∧ w.locate path = .error e

theorem reach_eq_error_iff {path : Path} {e : FileError} : w.reach path = .error e ↔
    w.Bars path e := by
  unfold reach
  cases located : w.locate path with
  | ok location => simp [Bars, located]
  | error reason =>
    -- every other error says no more than that there is nothing of the kind
    rcases eq_of_locate_eq_error located with ⟨rfl, -⟩ | rfl | rfl | rfl | rfl | rfl <;>
      cases e <;> simp [Bars, located, FileError.isAbsence]

theorem isFile_eq_error_iff {path : Path} {e : FileError} : w.isFile path = .error e ↔
    w.Bars path e := by
  rw [isFile, map_eq_error_iff, fileAt, map_eq_error_iff, reach_eq_error_iff]

theorem isDirectory_eq_error_iff {path : Path} {e : FileError} : w.isDirectory path = .error e ↔
    w.Bars path e := by
  rw [isDirectory, map_eq_error_iff, reach_eq_error_iff]

theorem exists_locate_of_isFile {path : Path} (file : w.isFile path = .ok true) :
    ∃ location, w.locate path = .ok location := by
  rw [isFile, map_eq_ok_iff] at file
  obtain ⟨place?, found, present⟩ := file
  obtain ⟨location, rfl⟩ := Option.isSome_iff_exists.mp present
  exact ⟨location, (fileAt_eq_ok_some found).1⟩

theorem holdsNull_of_locate {path : Path} {location : Location}
    (located : w.locate path = .ok location) : path.holdsNull = false := by
  unfold locate at located
  split at located
  · cases located
  next free => exact Bool.eq_false_iff.mpr free

/-- In a possible world a path that leads somewhere does not resolve only if nobody can tell where
the working directory is. -/
theorem eq_of_resolve_eq_error_of_locate {path : Path} {location : Location} {e : FileError}
    (located : w.locate path = .ok location) (failed : w.resolve path = .error e) :
    (e = .notFound ∧ isLost w.workingDirectory = true ∧ path.isAbsolute = false) ∨
      (e = .nullCharacter ∨ e = .tooManyLinks) ∧ ¬w.IsPossible := by
  rcases eq_of_resolve_eq_error failed with ⟨rfl, null | null⟩ | rfl | adrift
  · rw [holdsNull_of_locate located] at null
    cases null
  · exact .inr ⟨.inl rfl, fun possible => possible.free null⟩
  · refine .inr ⟨.inr rfl, fun possible => ?_⟩
    -- where the path leads is settled, and there are no circles on the way to a settled place
    rcases endOf_of_locate located with ⟨reached, ends, stands⟩ | null
    · rcases bind_eq_error_iff.mp failed with failed | ⟨goal, told, failed⟩
      · rw [goalOf, ends] at failed
        obtain ⟨never, -⟩ := eq_of_fromRoot_eq_error failed
        cases never
      · rw [goalOf, ends] at told
        obtain rfl := stands.fromRoot told
        split at failed
        next circle => exact absurd circle (locate_of_isSettled (stands.isSettled possible))
        · cases failed
        · cases failed
    · rw [resolve, goalOf, null] at failed
      cases failed
  · exact .inl adrift

/-- Why it is not known whether a path leads to a file, or where that file is. -/
theorem eq_of_knownFileAt_eq_error {path : Path} {e : FileError}
    (failed : w.knownFileAt path = .error e) : w.Bars path e ∨
    (e = .notFound ∧ isLost w.workingDirectory = true ∧ path.isAbsolute = false) ∨
      (e = .nullCharacter ∨ e = .tooManyLinks) ∧ ¬w.IsPossible := by
  rw [knownFileAt, bind_eq_error_iff] at failed
  rcases failed with failed | ⟨place?, found, failed⟩
  · exact .inl (isFile_eq_error_iff.mp (by rw [isFile, failed]; rfl))
  cases place? with
  | none => cases failed
  | some location =>
    have unresolved : w.resolve path = .error e := by
      cases resolved : w.resolve path with
      | error reason =>
        rw [resolved] at failed
        cases failed
        rfl
      | ok goal =>
        rw [resolved] at failed
        cases failed
    exact .inr (eq_of_resolve_eq_error_of_locate (fileAt_eq_ok_some found).1 unresolved)

theorem exists_of_firstFile_eq_error {paths : List Path} {e : FileError}
    (failed : w.firstFile paths = .error e) : ∃ path ∈ paths, w.knownFileAt path = .error e := by
  obtain ⟨path, among, stopped⟩ := exists_of_findSomeM?_eq_error failed
  rw [bind_eq_error_iff] at stopped
  rcases stopped with unknown | ⟨place?, -, stopped⟩
  · exact ⟨path, among, unknown⟩
  · cases stopped

theorem holdsNull_of_readBytes {path : Path} (unread : w.readBytes path = .error .nullCharacter) :
    path.holdsNull = true := by
  rw [readBytes, bind_eq_error_iff] at unread
  rcases unread with unread | ⟨location, -, unread⟩
  · simpa [IsObstacle] using eq_of_locate_eq_error unread
  rw [bind_eq_error_iff] at unread
  rcases unread with unread | ⟨node, -, unread⟩
  · unfold readable at unread
    split at unread
    · cases unread
    · split at unread <;> cases unread
  · cases node <;> cases unread

/-- A file can be read, unless that is refused. -/
theorem readBytes_of_isFile {path : Path} (file : w.isFile path = .ok true) :
    (∃ bytes, w.readBytes path = .ok bytes) ∨ w.readBytes path = .error .permissionDenied := by
  rw [isFile, map_eq_ok_iff] at file
  obtain ⟨place?, found, present⟩ := file
  obtain ⟨location, rfl⟩ := Option.isSome_iff_exists.mp present
  obtain ⟨located, node, stands, isFile⟩ := fileAt_eq_ok_some found
  rw [readBytes, located]
  simp only [bind, Except.bind, readable, stands]
  cases w.system.refuses .read location with
  | true => exact .inr rfl
  | false =>
    cases node with
    | file bytes => exact .inl ⟨bytes, rfl⟩
    | program executable => exact .inl ⟨executable.bytes, rfl⟩
    | directory => cases isFile
    | link _ => cases isFile

/-! ## Listing directories -/

theorem list_eq_ok_iff {path : Path} {names : List String} : w.list path = .ok names ↔
    ∃ location, w.locate path = .ok location ∧ w.hasDirectory location = true ∧
      w.system.refuses .read location = false ∧ names = w.namesAt location := by
  rw [list, bind_eq_ok_iff]
  constructor
  · rintro ⟨location, located, listed⟩
    split at listed
    · cases listed
    next isDirectory =>
    split at listed
    · cases listed
    next readable =>
      cases listed
      exact ⟨location, located, by simpa using isDirectory, Bool.eq_false_iff.mpr readable, rfl⟩
  · rintro ⟨location, located, isDirectory, readable, rfl⟩
    refine ⟨location, located, ?_⟩
    rw [isDirectory, readable]
    rfl

/-- Why a directory cannot be listed: the way to it is barred, or it is none, or it may not be
read. -/
theorem list_eq_error_iff {path : Path} {e : FileError} : w.list path = .error e ↔
    w.locate path = .error e ∨ ∃ location, w.locate path = .ok location ∧
      (e = .notADirectory ∧ w.hasDirectory location = false ∨
        e = .permissionDenied ∧ w.hasDirectory location = true ∧
          w.system.refuses .read location = true) := by
  rw [list, bind_eq_error_iff]
  refine or_congr Iff.rfl (exists_congr fun location => and_congr Iff.rfl ?_)
  cases w.hasDirectory location <;> cases w.system.refuses .read location <;> simp [eq_comm]

theorem exists_of_childDirectories {path : Path} {children : List Path}
    (listed : w.childDirectories path = .ok children) :
    ∀ child ∈ children, ∃ name, child = path.join ⟨.here, [name]⟩ := by
  rw [childDirectories, bind_eq_ok_iff] at listed
  obtain ⟨names, -, kept⟩ := listed
  obtain ⟨directories, -, same⟩ := bind_eq_ok_iff.mp kept
  cases same
  intro child among
  obtain ⟨name, -, rfl⟩ := List.mem_map.mp among
  exact ⟨name, rfl⟩

/-- The directories in a directory are not listed if it cannot be listed itself, or for the first of
the names in it about which nothing can be asked. -/
theorem childDirectories_eq_error_iff {path : Path} {e : FileError} :
    w.childDirectories path = .error e ↔ w.list path = .error e ∨
      ∃ before name after, w.list path = .ok (before ++ name :: after) ∧
        (∀ other ∈ before, ∃ answer, w.isDirectory (path.join ⟨.here, [other]⟩) = .ok answer) ∧
        w.Bars (path.join ⟨.here, [name]⟩) e := by
  rw [childDirectories, bind_eq_error_iff]
  simp only [bind_eq_error_iff, filterM_eq_error_iff, isDirectory_eq_error_iff,
    reduceCtorEq, and_false, exists_false, or_false]
  refine or_congr Iff.rfl ⟨?_, ?_⟩
  · rintro ⟨_, listed, before, name, after, rfl, answered, bars⟩
    exact ⟨before, name, after, listed, answered, bars⟩
  · rintro ⟨before, name, after, listed, answered, bars⟩
    exact ⟨_, listed, before, name, after, rfl, answered, bars⟩

end World

end SignatureIndex
