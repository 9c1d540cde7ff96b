import SignatureIndex.Proofs.Following
import SignatureIndex.Proofs.Spellings

/-!
# Where paths end

Resolving a path moves its end along the names, up at `..`, down at a name where no link is seen,
and over to where a link leads.  So whatever holds at the root and is kept by going up and down
holds at the end.

An end is *settled* if its location is told by names that stand for themselves and if no link is
seen on the way to it from the root.  A settled place resolves to itself, and so does every place
above it.  Ends are settled, with two exceptions.  A path that leads into a circle of links is kept
as written.  And seen from the working directory there may be directories in the way that may not be
searched; from the root, a link behind them can still be seen.
-/

namespace SignatureIndex

private theorem Text.mem_of_mem_pieces {sep c : Char} {text piece : List Char}
    (among : piece ∈ pieces sep text) (inside : c ∈ piece) : c ∈ text := by
  induction text generalizing piece with
  | nil =>
    obtain rfl := List.mem_singleton.mp among
    exact inside
  | cons d text ih =>
    unfold pieces at among
    split at among
    · rcases List.mem_cons.mp among with rfl | among
      · cases inside
      · exact List.mem_cons_of_mem _ (ih among inside)
    split at among
    · -- there is always a piece
      next none => exact absurd none (pieces_ne_nil sep text)
    next first others cut =>
      rcases List.mem_cons.mp among with rfl | among
      · rcases List.mem_cons.mp inside with rfl | inside
        · exact List.mem_cons_self
        · exact List.mem_cons_of_mem _ (ih (cut ▸ List.mem_cons_self) inside)
      · exact List.mem_cons_of_mem _ (ih (cut ▸ List.mem_cons_of_mem _ among) inside)

namespace Path

/-! ## Paths that start at the root, and names without a null character -/

theorem isAbsolute_join {path : Path} (absolute : path.isAbsolute = true) (next : Path) :
    (path.join next).isAbsolute = true := by
  unfold join
  split
  · assumption
  · exact absolute

theorem isAbsolute_child {path : Path} (absolute : path.isAbsolute = true) (text : String) :
    (path.child text).isAbsolute = true := isAbsolute_join absolute _

theorem isAbsolute_of_mem_selfAndParents {path directory : Path} (absolute : path.isAbsolute = true)
    (among : directory ∈ path.selfAndParents) : directory.isAbsolute = true := by
  obtain ⟨dropped, -, rfl⟩ := List.mem_map.mp among
  exact absolute

theorem holdsNull_of_mem_selfAndParents {path directory : Path}
    (among : directory ∈ path.selfAndParents) (null : directory.holdsNull = true) :
    path.holdsNull = true := by
  obtain ⟨dropped, -, rfl⟩ := List.mem_map.mp among
  obtain ⟨name, among, null⟩ := List.any_eq_true.mp null
  exact List.any_eq_true.mpr ⟨name, List.mem_of_mem_take among, null⟩

theorem hasNull_of_mem_namesIn {text name : String} (among : name ∈ namesIn text)
    (holds : hasNull name = true) : hasNull text = true := by
  obtain ⟨piece, cut, rfl⟩ := List.mem_map.mp among
  rw [hasNull, String.toList_ofList, List.contains_iff_mem] at holds
  rw [hasNull, List.contains_iff_mem]
  exact Text.mem_of_mem_pieces cut holds

theorem holdsNull_child {path : Path} {text : String} (holds : (path.child text).holdsNull = true) :
    path.holdsNull = true ∨ hasNull text = true := by
  have ofText (holds : (ofString text).holdsNull = true) : hasNull text = true := by
    obtain ⟨name, among, null⟩ := List.any_eq_true.mp holds
    exact hasNull_of_mem_namesIn (List.mem_filter.mp among).1 null
  unfold child join at holds
  split at holds
  · exact .inr (ofText holds)
  · rw [holdsNull, List.any_append, Bool.or_eq_true] at holds
    exact holds.imp_right ofText

theorem holdsNull_down (path : Path) (name : String) :
    (path.down name).holdsNull = (path.holdsNull || hasNull name) := by
  simp [holdsNull, down, List.any_append]

private theorem exists_hasNull_of_intercalate {names : List String}
    (null : hasNull ("/".intercalate names) = true) :
    ∃ name ∈ names, hasNull name = true := by
  rw [hasNull, String.toList_intercalate, List.contains_iff_mem] at null
  obtain ⟨_, among, null⟩ := (Text.mem_intercalate (by decide)).mp null
  obtain ⟨name, isName, rfl⟩ := List.mem_map.mp among
  exact ⟨name, isName, List.contains_iff_mem.mpr null⟩

end Path

namespace World

variable {w : World}

/-! ## What stops the way along a path -/

/-- What looking up a name can fail with. -/
theorem eq_of_step_eq_error {place : Location} {name : String} {e : FileError}
    (failed : w.step place name = .error e) :
    e = .notFound ∨ e = .notADirectory ∨ e = .permissionDenied ∨ e = .nameTooLong := by
  unfold step at failed
  split at failed
  · cases failed
    simp
  split at failed
  · cases failed
  split at failed
  · cases failed
    simp
  split at failed
  · cases failed
  split at failed
  · cases failed
  split at failed
  · cases failed
    simp
  split at failed
  · cases failed
    simp
  · cases failed
  · cases failed

/-- Whether following a path can stop with an error: nothing is there, or no directory is, or too
many links are, or a directory may not be searched, or a name is too long. -/
def IsObstacle (e : FileError) : Prop :=
  e = .notFound ∨ e = .notADirectory ∨ e = .tooManyLinks ∨ e = .permissionDenied ∨ e = .nameTooLong

private theorem isObstacle_of_walkWith {follow : Location → List String → Except FileError Location}
    (turn : ∀ place names e, follow place names = .error e → IsObstacle e) {place : Location}
    {names : List String} {e : FileError} (failed : w.walkWith follow place names = .error e) :
    IsObstacle e := by
  induction names generalizing place with
  | nil => cases failed
  | cons name names ih =>
    unfold walkWith at failed
    split at failed
    next stopped =>
      cases failed
      rcases eq_of_step_eq_error stopped with rfl | rfl | rfl | rfl <;> simp [IsObstacle]
    · exact ih failed
    · exact turn _ _ _ failed

theorem isObstacle_of_walk {links : Nat} {place : Location} {names : List String} {e : FileError}
    (failed : w.walk links place names = .error e) : IsObstacle e := by
  induction links generalizing place names e with
  | zero =>
    refine isObstacle_of_walkWith (fun _ _ _ noMore => ?_) failed
    cases noMore
    simp [IsObstacle]
  | succ links ih => exact isObstacle_of_walkWith (fun _ _ _ failed => ih failed) failed

theorem eq_of_locate_eq_error {path : Path} {e : FileError} (failed : w.locate path = .error e) :
    (e = .nullCharacter ∧ path.holdsNull = true) ∨ IsObstacle e := by
  unfold locate at failed
  split at failed
  next null =>
    cases failed
    exact .inl ⟨rfl, null⟩
  split at failed
  · cases failed
    simp [IsObstacle]
  · exact .inr (isObstacle_of_walk failed)

/-! ## Where a path ends -/

/-- How the end of a path moves along a name, where `follow` tells where links lead. -/
inductive Moves (w : World) (follow : Path → String → Except Impasse Path) (path : Path)
    (name : String) : Path → Prop
  | idle : Path.isIdle name = true → Moves w follow path name path
  | above : name = ".." → Moves w follow path name path.above
  | down : Path.isIdle name = false → name ≠ ".." → Path.hasNull name = false →
      w.linkAt? path name = none → Moves w follow path name (path.down name)
  | link {target next} : w.linkAt? path name = some target →
      follow (path.down name) target = .ok next → Moves w follow path name next

/-- A name is passed, or it holds a null character, or it leads to a link that cannot be
followed. -/
theorem resolveWith_cons_cases {follow : Path → String → Except Impasse Path} {path : Path}
    {name : String} {names : List String} {outcome : Except Impasse Path}
    (ends : w.resolveWith follow path (name :: names) = outcome) :
    (∃ next, Moves w follow path name next ∧ w.resolveWith follow next names = outcome) ∨
      (Path.hasNull name = true ∧ outcome = .error .null) ∨
      ∃ target impasse, w.linkAt? path name = some target ∧ follow (path.down name) target =
        .error impasse ∧ outcome = .error (impasse.goOn names) := by
  unfold resolveWith at ends
  split at ends
  next idle => exact .inl ⟨_, .idle idle, ends⟩
  next busy =>
  split at ends
  next dots => exact .inl ⟨_, .above dots, ends⟩
  next going =>
  split at ends
  next null => exact .inr (.inl ⟨null, ends.symm⟩)
  next free =>
  split at ends
  next none =>
    exact .inl ⟨_, .down (Bool.eq_false_iff.mpr busy) going (Bool.eq_false_iff.mpr free) none, ends⟩
  next target seen =>
    split at ends
    next next followed => exact .inl ⟨next, .link seen followed, ends⟩
    next impasse followed => exact .inr (.inr ⟨target, impasse, seen, followed, ends.symm⟩)

section Preserving

variable {good stuck : Path → Prop} {fine : String → Prop}
    (above : ∀ path, good path → good path.above)
  (down : ∀ path name, good path → Path.isIdle name = false → name ≠ ".." →
    Path.hasNull name = false → w.linkAt? path name = none → good (path.down name))
  (goOn : ∀ reached names, stuck reached → (∀ name ∈ names, fine name) →
    stuck (reached.child ("/".intercalate names)))
include above down goOn

private theorem resolveWith_preserves {follow : Path → String → Except Impasse Path}
    (links : ∀ path name target, good path → fine name → w.linkAt? path name = some target →
      (∀ reached, follow (path.down name) target = .ok reached → good reached) ∧
        ∀ reached, follow (path.down name) target = .error (.circle reached) → stuck reached)
    {path : Path} {names : List String} (start : good path) (all : ∀ name ∈ names, fine name) :
    (∀ reached, w.resolveWith follow path names = .ok reached → good reached) ∧
      ∀ reached, w.resolveWith follow path names = .error (.circle reached) → stuck reached := by
  induction names generalizing path with
  | nil =>
    refine ⟨fun reached ends => ?_, fun reached ends => by cases ends⟩
    cases ends
    exact start
  | cons name names ih =>
    obtain ⟨here, rest⟩ := List.forall_mem_cons.mp all
    -- each move keeps what is good, whatever it is that moves
    have move {next : Path} (moves : Moves w follow path name next) : good next := by
      cases moves with
      | idle => exact start
      | above => exact above _ start
      | down busy going free none => exact down _ _ start busy going free none
      | link seen followed => exact (links _ _ _ start here seen).1 _ followed
    refine ⟨fun reached ends => ?_, fun reached ends => ?_⟩
    · rcases resolveWith_cons_cases ends with
        ⟨next, moves, ends⟩ | ⟨-, never⟩ | ⟨target, impasse, -, -, never⟩
      · exact (ih (move moves) rest).1 _ ends
      · cases never
      · cases never
    · -- a circle stops the path here or further on
      rcases resolveWith_cons_cases ends with ⟨next, moves, ends⟩ | ⟨-, never⟩ |
        ⟨target, impasse, seen, followed, same⟩
      · exact (ih (move moves) rest).2 _ ends
      · cases never
      · cases impasse with
        | circle within =>
          cases same
          exact goOn _ _ ((links _ _ _ start here seen).2 _ followed) rest
        | depth => cases same
        | null => cases same

/-- Where a path ends has every property that the root has and that going up, and going down along a
name where no link is seen, preserve.  Where a circle stops a path has every property that the links
on it have and that going on as written preserves.  The names are those of the path and of the
targets of links. -/
theorem resolveNames_preserves (root : good ⟨.root, []⟩)
    (circle : ∀ path name, good path → fine name → stuck (path.down name))
    (targets : ∀ path name target, w.linkAt? path name = some target →
      ∀ name ∈ Path.namesIn target, fine name)
    {depth : Nat} {within : List Path} {path : Path} {names : List String} (start : good path)
    (all : ∀ name ∈ names, fine name) :
    (∀ reached, w.resolveNames depth within path names = .ok reached → good reached) ∧
      ∀ reached, w.resolveNames depth within path names = .error (.circle reached) →
      stuck reached := by
  -- what a link leads to is found with less depth
  induction depth generalizing within path names with
  | zero =>
    refine resolveWith_preserves above down goOn (fun _ _ _ _ _ _ => ⟨?_, ?_⟩) start all
    · intro _ followed
      cases followed
    · intro _ followed
      cases followed
  | succ depth ih =>
    refine resolveWith_preserves above down goOn (fun path name target good here seen =>
      ?_) start all
    split
    · refine ⟨fun _ followed => (by cases followed), fun reached followed => ?_⟩
      cases followed
      exact circle _ _ good here
    · refine ih ?_ (targets _ _ _ seen)
      rw [Path.parent_down, World.turn]
      split
      · exact good
      · exact root

end Preserving

theorem isAbsolute_above {path : Path} (absolute : path.isAbsolute = true) :
    path.above.isAbsolute = true := by
  unfold Path.above
  split
  · split <;> exact absolute
  · split <;> exact absolute

/-- Whether the working directory or the target of a link holds a null character.  In a world that
exists, neither does. -/
def HoldsNull (w : World) : Prop :=
  (∃ name ∈ w.workingDirectory, Path.hasNull name = true) ∨
    ∃ location target, w.node? location = some (.link target) ∧ Path.hasNull target = true

/-- A link that is seen stands at the end of the path. -/
theorem exists_step_of_linkAt? {path : Path} {name target : String}
    (seen : w.linkAt? path name = some target) : ∃ place, w.walk 0 (w.startOf path) path.parts =
      .ok place ∧ w.step place name = .ok (.link target) := by
  unfold linkAt? at seen
  split at seen
  next target' stepped =>
    cases seen
    exact bind_eq_ok_iff.mp stepped
  · cases seen

theorem linkAt?_of_walk {path : Path} {place : Location} {name target : String}
    (walked : w.walk 0 (w.startOf path) path.parts = .ok place)
    (stepped : w.step place name = .ok (.link target)) :
    w.linkAt? path name = some target := by
  have goesOn : (Except.ok place).bind (fun place => w.step place name) = .ok (.link target) :=
    stepped
  rw [linkAt?, walked, goesOn]

theorem exists_link_of_linkAt? {path : Path} {name target : String}
    (seen : w.linkAt? path name = some target) :
    ∃ location, w.node? location = some (.link target) := by
  obtain ⟨place, -, stepped⟩ := exists_step_of_linkAt? seen
  exact ⟨_, (node?_of_step stepped).2.2⟩

private theorem holdsNull_of_resolveWith {follow : Path → String → Except Impasse Path}
    (turn : ∀ path name target, w.linkAt? path name = some target →
      follow (path.down name) target = .error .null →
      w.HoldsNull) {path : Path} {names : List String} (ends :
      w.resolveWith follow path names = .error .null) :
    (∃ name ∈ names, Path.hasNull name = true) ∨ w.HoldsNull := by
  induction names generalizing path with
  | nil => cases ends
  | cons name names ih =>
    rcases resolveWith_cons_cases ends with
      ⟨next, -, ends⟩ | ⟨null, -⟩ | ⟨target, impasse, seen, followed, same⟩
    · refine (ih ends).imp_left ?_
      rintro ⟨other, among, null⟩
      exact ⟨other, List.mem_cons_of_mem _ among, null⟩
    · exact .inl ⟨name, List.mem_cons_self, null⟩
    · cases impasse with
      | null => exact .inr (turn _ _ _ seen followed)
      | circle => cases same
      | depth => cases same

/-- A null character that is met comes from the path or from the target of a link. -/
theorem holdsNull_of_resolveNames {depth : Nat} {within : List Path} {path : Path}
    {names : List String} (ends : w.resolveNames depth within path names = .error .null) :
    (∃ name ∈ names, Path.hasNull name = true) ∨ w.HoldsNull := by
  induction depth generalizing within path names with
  | zero => exact holdsNull_of_resolveWith (fun _ _ _ _ followed => by cases followed) ends
  | succ depth ih =>
    refine holdsNull_of_resolveWith (fun path name target seen followed => ?_) ends
    split at followed
    · cases followed
    rcases ih followed with ⟨name, among, null⟩ | world
    · obtain ⟨location, stands⟩ := exists_link_of_linkAt? seen
      exact .inr ⟨location, target, stands, Path.hasNull_of_mem_namesIn among null⟩
    · exact world

theorem holdsNull_of_endOf_eq_null {path : Path} (ends : w.endOf path = .error .null) :
    path.holdsNull = true ∨ w.HoldsNull :=
  (holdsNull_of_resolveNames ends).imp_left List.any_eq_true.mpr

/-- What is told from the root stays told from the root, also where a circle is met. -/
theorem isAbsolute_of_endOf {path reached : Path} (absolute : path.isAbsolute = true)
    (ends : w.endOf path = .ok reached ∨ w.endOf path = .error (.circle reached)) :
    reached.isAbsolute = true := by
  have origin : (originOf path).isAbsolute = true := by
    rw [originOf, if_pos absolute]
    rfl
  have kept :=
    @resolveNames_preserves w (fun path => path.isAbsolute = true) (fun path =>
    path.isAbsolute = true)
    (fun _ => True) (fun _ => isAbsolute_above) (fun _ _ absolute _ _ _ _ => absolute)
    (fun _ _ absolute _ => Path.isAbsolute_child absolute _) rfl (fun _ _ absolute _ => absolute)
    (fun _ _ _ _ _ _ => trivial) deepestLink [] _ path.parts origin (fun _ _ => trivial)
  exact ends.elim (kept.1 _) (kept.2 _)

theorem eq_of_fromRoot_eq_ok {path goal : Path} (told : w.fromRoot path = .ok goal) :
    goal.isAbsolute = true ∧ goal.parts = w.spot path := by
  unfold fromRoot at told
  split at told
  next absolute =>
    cases told
    exact ⟨absolute, rfl⟩
  split at told
  · cases told
  · cases told
    exact ⟨rfl, rfl⟩

theorem eq_of_fromRoot_eq_error {path : Path} {e : FileError}
    (failed : w.fromRoot path = .error e) : e = .notFound ∧ isLost w.workingDirectory = true ∧
    path.isAbsolute = false := by
  unfold fromRoot at failed
  split at failed
  · cases failed
  next relative =>
  split at failed
  next lost =>
    cases failed
    exact ⟨rfl, lost, Bool.eq_false_iff.mpr relative⟩
  · cases failed

/-- Names without a null character lead to a place without one. -/
theorem hasNull_foldl_climb {place : Location} {names : List String}
    (start : ∀ name ∈ place, Path.hasNull name = false)
    (free : ∀ name ∈ names, Path.hasNull name = false) :
    ∀ name ∈ names.foldl climb place, Path.hasNull name = false := by
  induction names generalizing place with
  | nil => exact start
  | cons name names ih =>
    obtain ⟨here, rest⟩ := List.forall_mem_cons.mp free
    rw [List.foldl_cons]
    refine ih ?_ rest
    unfold climb
    split
    · exact fun other among => start other (List.dropLast_subset _ among)
    · exact List.forall_mem_append.mpr ⟨start, List.forall_mem_singleton.mpr here⟩

private theorem free_above {path : Path} (free : path.holdsNull = false) :
    path.above.holdsNull = false := by
  have down : (path.down "..").holdsNull = false := by
    rw [Path.holdsNull_down, free]
    decide
  unfold Path.above
  split
  · split
    · exact free
    · exact down
  · split
    · exact down
    · rw [Path.holdsNull, List.any_eq_false] at free ⊢
      exact fun name among => free name (List.dropLast_subset _ among)

/-- No name that has been followed holds a null character, and one that is left where a circle stops
a path comes from the path or from the world. -/
theorem holdsNull_of_endOf {path reached : Path} :
    (w.endOf path = .ok reached → reached.holdsNull = false) ∧
      (w.endOf path = .error (.circle reached) → reached.holdsNull = true →
        path.holdsNull = true ∨ w.HoldsNull) := by
  have origin : (originOf path).holdsNull = false := by
    unfold originOf
    split <;> rfl
  -- a null character among the names stops the path, so only what a circle leaves can have one
  refine (@resolveNames_preserves w (fun path => path.holdsNull = false)
    (fun reached => reached.holdsNull = true → path.holdsNull = true ∨ w.HoldsNull)
    (fun name => Path.hasNull name = true → path.holdsNull = true ∨ w.HoldsNull)
    (fun _ => free_above) ?_ ?_ rfl ?_ ?_ deepestLink [] _ path.parts origin ?_).imp
      (fun kept => kept _) (fun kept => kept _)
  · intro path name free _ _ here _
    rw [Path.holdsNull_down, free, here]
    rfl
  · intro reached names stuck all null
    rcases Path.holdsNull_child null with null | null
    · exact stuck null
    · obtain ⟨name, among, null⟩ := Path.exists_hasNull_of_intercalate null
      exact all name among null
  · intro path name free here null
    rw [Path.holdsNull_down, free, Bool.false_or] at null
    exact here null
  · intro path name target seen other among null
    obtain ⟨location, stands⟩ := exists_link_of_linkAt? seen
    exact .inr (.inr ⟨location, target, stands, Path.hasNull_of_mem_namesIn among null⟩)
  · exact fun name among null => .inl (List.any_eq_true.mpr ⟨name, among, null⟩)

/-- Null characters in the path from the root come from the path or from the world. -/
theorem holdsNull_of_fromRoot {path goal : Path} (told : w.fromRoot path = .ok goal)
    (null : goal.holdsNull = true) : path.holdsNull = true ∨ w.HoldsNull := by
  refine Classical.byContradiction fun neither => ?_
  obtain ⟨free, world⟩ := not_or.mp neither
  have start : ∀ name ∈ w.startOf path, Path.hasNull name = false := by
    unfold startOf
    split
    · exact List.forall_mem_nil _
    · exact fun name among => Bool.eq_false_iff.mpr fun null => world (.inl ⟨name, among, null⟩)
  have all : ∀ name ∈ path.parts, Path.hasNull name = false :=
    fun name among => Bool.eq_false_iff.mpr fun null =>
    free (List.any_eq_true.mpr ⟨name, among, null⟩)
  obtain ⟨name, among, nullName⟩ := List.any_eq_true.mp null
  rw [(eq_of_fromRoot_eq_ok told).2] at among
  rw [hasNull_foldl_climb start all name among] at nullName
  cases nullName

/-! ## Settled places -/

/-- Whether a world is one that a machine can be in: no null character stands in it, and the working
directory is told by names that stand for themselves, and reached from the root through
directories. -/
structure IsPossible (w : World) : Prop where
  free : ¬w.HoldsNull
  named : ∀ name ∈ w.workingDirectory, Path.isIdle name = false ∧ name ≠ ".."
  directories : ∀ front, front <+: w.workingDirectory → w.hasDirectory front = true

/-- Whether a location is told by names that stand for themselves, and no link is seen on the way to
it from the root. -/
structure IsSettled (w : World) (location : Location) : Prop where
  named : ∀ name ∈ location, Path.isIdle name = false ∧ name ≠ ".."
  unlinked : ∀ front name, front ++ [name] <+: location →
    w.linkAt? (Path.ofLocation front) name = none

section Settled

variable {location upper place next goal : Location} {name : String} {names : List String}
    {path : Path}

theorem foldl_climb_eq (named : ∀ name ∈ names, name ≠ "..") :
    names.foldl climb place = place ++ names := by
  induction names generalizing place with
  | nil => exact (List.append_nil place).symm
  | cons name names ih =>
    obtain ⟨here, rest⟩ := List.forall_mem_cons.mp named
    rw [List.foldl_cons, ih rest, climb, if_neg here, List.append_assoc, List.singleton_append]

private theorem isSettled_nil (w : World) : w.IsSettled [] where
  named := nofun
  unlinked front name isFront := absurd (List.prefix_nil.mp isFront) (by simp)

theorem IsSettled.above (settled : w.IsSettled location) (front : upper <+: location) :
    w.IsSettled upper where
  named name among := settled.named name (front.subset among)
  unlinked _ _ more := settled.unlinked _ _ (more.trans front)

private theorem IsSettled.concat (settled : w.IsSettled location) (busy : Path.isIdle name = false)
    (down : name ≠ "..") (unlinked : w.linkAt? (Path.ofLocation location) name = none) :
    w.IsSettled (location ++ [name]) where
  named := List.forall_mem_append.mpr ⟨settled.named, List.forall_mem_singleton.mpr ⟨busy, down⟩⟩
  unlinked front other isFront := by
    rcases List.prefix_concat_iff.mp isFront with same | isFront
    · obtain ⟨rfl, last⟩ := List.append_inj' same rfl
      obtain rfl : other = name := by simpa using last
      exact unlinked
    · exact settled.unlinked front other isFront

theorem IsSettled.spot_eq (settled : w.IsSettled location) :
    w.spot (Path.ofLocation location) = location :=
  foldl_climb_eq fun name among => (settled.named name among).2

/-- On the way to a settled place from the root each name leads to itself, as far as it leads. -/
theorem IsSettled.eq_of_walk (settled : w.IsSettled location)
    (walked : w.walk 0 [] location = .ok place) :
    place = location := by
  have climbed := foldl_climb_of_walk (fun name among => (settled.named name among).1) walked
  rw [← climbed]
  exact foldl_climb_eq fun name among => (settled.named name among).2

/-- No link is seen where none stands. -/
theorem isSettled_of_nodes (named : ∀ name ∈ location, Path.isIdle name = false ∧ name ≠ "..")
    (nodes : ∀ front, front <+: location → ∀ target, w.node? front ≠ some (.link target)) :
    w.IsSettled location where
  named := named
  unlinked front name isFront := by
    cases seen : w.linkAt? (Path.ofLocation front) name with
    | none => rfl
    | some target =>
      obtain ⟨place, walked, stepped⟩ := exists_step_of_linkAt? seen
      have within : front <+: location := (List.prefix_append front [name]).trans isFront
      -- the way from the root leads to where the names do
      have climbed :=
        foldl_climb_of_walk (fun name among => (named name (within.subset among)).1) walked
      rw [startOf, foldl_climb_eq fun name among => (named name (within.subset among)).2] at climbed
      obtain rfl : front = place := climbed
      exact absurd (node?_of_step stepped).2.2 (nodes _ isFront target)

/-- The working directory of a possible world is settled. -/
theorem IsPossible.nodes (possible : w.IsPossible) {front : Location}
    (isFront : front <+: w.workingDirectory) (target : String) :
    w.node? front ≠ some (.link target) := by
  intro link
  have directory := possible.directories front isFront
  rw [hasDirectory, link] at directory
  cases directory

theorem IsPossible.isSettled (possible : w.IsPossible) : w.IsSettled w.workingDirectory :=
  isSettled_of_nodes possible.named fun _ => possible.nodes

/-! ## Settled places resolve to themselves -/

private theorem resolveWith_of_isSettled {follow : Path → String → Except Impasse Path}
    (settled : w.IsSettled (location ++ names)) (free : ∀ name ∈ names, Path.hasNull name = false) :
    w.resolveWith follow (Path.ofLocation location) names =
      .ok (Path.ofLocation (location ++ names)) := by
  induction names generalizing location with
  | nil => rw [List.append_nil]; rfl
  | cons name names ih =>
    obtain ⟨here, rest⟩ := List.forall_mem_cons.mp free
    obtain ⟨busy, down⟩ := settled.named name (by simp)
    have parts : location ++ name :: names = (location ++ [name]) ++ names := by simp
    rw [parts] at settled ⊢
    rw [resolveWith, if_neg (Bool.eq_false_iff.mp busy), if_neg down,
      if_neg (Bool.eq_false_iff.mp here), settled.unlinked location name (List.prefix_append _ _)]
    exact ih settled rest

/-- From the root no link is met on the way to a settled place. -/
theorem walkWith_of_isSettled {follow : Location → List String → Except FileError Location}
    (settled : w.IsSettled (location ++ names)) (walked : w.walk 0 [] location = .ok location) :
    w.walkWith follow location names ≠ .error .tooManyLinks := by
  induction names generalizing location with
  | nil =>
    intro stopped
    cases stopped
  | cons name names ih =>
    have parts : location ++ name :: names = (location ++ [name]) ++ names := by simp
    obtain ⟨busy, down⟩ := settled.named name (by simp)
    rw [parts] at settled
    rw [walkWith]
    split
    next e stopped =>
      rcases eq_of_step_eq_error stopped with rfl | rfl | rfl | rfl <;> simp
    next next stepped =>
      rcases eq_of_step stepped with ⟨idle, -⟩ | ⟨dots, -⟩ | ⟨-, -, rfl⟩
      · exact absurd idle (Bool.eq_false_iff.mp busy)
      · exact absurd dots down
      · -- what has been walked so far is settled as well
        refine ih settled ?_
        rw [walk_zero_append, walked]
        exact walk_zero_singleton stepped
    next target stepped =>
      have seen : w.linkAt? (Path.ofLocation location) name = some target :=
        linkAt?_of_walk walked stepped
      rw [settled.unlinked location name (List.prefix_append _ _)] at seen
      cases seen

theorem locate_of_isSettled (settled : w.IsSettled location) :
    w.locate (Path.ofLocation location) ≠ .error .tooManyLinks := by
  unfold locate
  split
  · nofun
  split
  · nofun
  · exact walkWith_of_isSettled settled rfl

/-- A settled place resolves to itself. -/
theorem resolve_of_isSettled (settled : w.IsSettled location)
    (free : (Path.ofLocation location).holdsNull = false) :
    w.resolve (Path.ofLocation location) = .ok (Path.ofLocation location) := by
  have freeNames : ∀ name ∈ location, Path.hasNull name = false := by
    simpa [Path.holdsNull, Path.ofLocation] using free
  have ends : w.endOf (Path.ofLocation location) = .ok (Path.ofLocation location) :=
    resolveWith_of_isSettled settled freeNames
  have told : w.fromRoot (Path.ofLocation location) = .ok (Path.ofLocation location) := by
    have absolute : (Path.ofLocation location).isAbsolute = true := rfl
    rw [fromRoot, if_pos absolute, settled.spot_eq]
    rfl
  have goal : w.goalOf (Path.ofLocation location) = .ok (Path.ofLocation location) := by
    rw [goalOf, ends]
    exact told
  simp only [resolve, goal, bind, Except.bind]
  split
  next circle => exact absurd circle (locate_of_isSettled settled)
  next null =>
    rcases eq_of_locate_eq_error null with ⟨-, holds⟩ | never
    · rw [free] at holds
      cases holds
    · simp [IsObstacle] at never
  · rfl

/-! ## Ends are settled -/

/-- A name that leads down leads to no link. -/
theorem node?_ne_link_of_step (stepped : w.step place name = .ok (.to (place ++ [name])))
    (down : name ≠ "..") (busy : Path.isIdle name = false) (target : String) :
    w.node? (place ++ [name]) ≠ some (.link target) := by
  intro link
  have filled : name ≠ "" := by
    rintro rfl
    cases busy
  have going : name ≠ "." := by
    rintro rfl
    cases busy
  simp only [step, filled, going, down, link, if_false] at stepped
  split at stepped
  · cases stepped
  split at stepped
  · cases stepped
  split at stepped <;> cases stepped

/-- From a place without links above it a way without links leads to such a place. -/
theorem nodes_of_walk (walked : w.walk 0 place names = .ok goal)
    (named : ∀ name ∈ place, Path.isIdle name = false ∧ name ≠ "..")
    (nodes : ∀ front, front <+: place → ∀ target, w.node? front ≠ some (.link target)) :
    (∀ name ∈ goal, Path.isIdle name = false ∧ name ≠ "..") ∧
      ∀ front, front <+: goal → ∀ target, w.node? front ≠ some (.link target) := by
  induction names generalizing place with
  | nil =>
    cases walked
    exact ⟨named, nodes⟩
  | cons name names ih =>
    rw [walk, walkWith] at walked
    split at walked
    · cases walked
    next next stepped =>
      rcases eq_of_step stepped with ⟨-, rfl⟩ | ⟨-, rfl⟩ | ⟨busy, down, rfl⟩
      · exact ih walked named nodes
      · exact ih walked (fun name among => named name (List.dropLast_subset _ among))
          fun front isFront => nodes front (isFront.trans (List.dropLast_prefix _))
      · refine ih walked
          (List.forall_mem_append.mpr ⟨named, List.forall_mem_singleton.mpr ⟨busy, down⟩⟩) ?_
        intro front isFront
        rcases List.prefix_concat_iff.mp isFront with rfl | isFront
        · exact node?_ne_link_of_step stepped down busy
        · exact nodes front isFront
    · cases walked

/-- Where a path without links leads in a possible world is settled. -/
theorem Stands.isSettled (stands : Stands w path place) (possible : w.IsPossible) :
    w.IsSettled place := by
  have start : (∀ name ∈ w.startOf path, Path.isIdle name = false ∧ name ≠ "..") ∧
      ∀ front, front <+: w.startOf path → ∀ target, w.node? front ≠ some (.link target) := by
    unfold startOf
    split
    · refine ⟨nofun, fun front isFront target => ?_⟩
      rw [List.prefix_nil.mp isFront]
      nofun
    · exact ⟨possible.named, fun _ => possible.nodes⟩
  obtain ⟨named, nodes⟩ := nodes_of_walk stands.walked start.1 start.2
  exact isSettled_of_nodes named nodes

/-- Whether a path has all its ways up before its ways down, and no idle names. -/
structure IsPlain (path : Path) : Prop where
  parts : ∃ ups names, path.parts = List.replicate ups ".." ++ names ∧
    (path.isAbsolute = true → ups = 0) ∧ ∀ name ∈ names, Path.isIdle name = false ∧ name ≠ ".."
  anchor : path.anchor ≠ .doubleRoot

private theorem isPlain_nil {anchor : Anchor} (single : anchor ≠ .doubleRoot) :
    IsPlain ⟨anchor, []⟩ :=
  ⟨⟨0, [], rfl, fun _ => rfl, List.forall_mem_nil _⟩, single⟩

theorem IsPlain.down (plain : IsPlain path) (busy : Path.isIdle name = false)
    (going : name ≠ "..") : IsPlain (path.down name) := by
  obtain ⟨⟨ups, names, parts, onlyHere, named⟩, anchor⟩ := plain
  refine ⟨⟨ups, names ++ [name], by simp [Path.down, parts], onlyHere, ?_⟩, anchor⟩
  exact List.forall_mem_append.mpr ⟨named, List.forall_mem_singleton.mpr ⟨busy, going⟩⟩

theorem IsPlain.above (plain : IsPlain path) : IsPlain path.above := by
  obtain ⟨⟨ups, names, parts, onlyHere, named⟩, anchor⟩ := plain
  unfold Path.above
  split
  next none =>
    have empty := List.getLast?_eq_none_iff.mp none
    split
    · exact ⟨⟨ups, names, parts, onlyHere, named⟩, anchor⟩
    next relative =>
      exact ⟨⟨1, [], by simp [Path.down, empty], fun absolute => absurd absolute relative,
        List.forall_mem_nil _⟩, anchor⟩
  next last ends =>
    rcases List.eq_nil_or_concat' names with rfl | ⟨front, final, rfl⟩
    · -- all names lead up
      rw [List.append_nil] at parts
      have dots : last = ".." := List.eq_of_mem_replicate (parts ▸ List.mem_of_getLast? ends)
      rw [if_pos dots]
      refine ⟨⟨ups + 1, [], by simp [Path.down, parts, List.replicate_succ'], fun absolute => ?_,
        List.forall_mem_nil _⟩, anchor⟩
      rw [onlyHere absolute] at parts
      rw [parts] at ends
      cases ends
    · -- a name that leads down is taken away again
      have same : last = final := by
        rw [parts] at ends
        simpa [eq_comm] using ends
      obtain ⟨frontNamed, lastNamed⟩ := List.forall_mem_append.mp named
      rw [if_neg (same ▸ (lastNamed final (List.mem_singleton_self _)).2)]
      refine ⟨⟨ups, front, ?_, onlyHere, frontNamed⟩, anchor⟩
      rw [Path.parent, parts, ← List.append_assoc, List.dropLast_concat]

private theorem spot_above (path : Path) : w.spot path.above = (w.spot path).dropLast := by
  unfold Path.above
  split
  next none =>
    split
    next absolute => simp [spot, List.getLast?_eq_none_iff.mp none, startOf, absolute]
    · rw [spot_down, climb, if_pos rfl]
  next last ends =>
    split
    · rw [spot_down, climb, if_pos rfl]
    next down =>
      obtain ⟨front, parts⟩ := List.getLast?_eq_some_iff.mp ends
      have whole : path = path.parent.down last := by
        rw [Path.parent, Path.down, parts, List.dropLast_concat, ← parts]
      have lower := spot_down (w := w) path.parent last
      rw [← whole, climb, if_neg down] at lower
      rw [lower, List.dropLast_concat]

private theorem foldl_climb_ups_prefix {front : Location} (isFront : front <+: w.workingDirectory)
    (ups : Nat) :
    (List.replicate ups "..").foldl climb front <+: w.workingDirectory := by
  induction ups generalizing front with
  | zero => exact isFront
  | succ ups ih =>
    rw [List.replicate_succ, List.foldl_cons, climb, if_pos rfl]
    exact ih ((List.dropLast_prefix _).trans isFront)

section Searchable

variable (possible : w.IsPossible)
  (searchable : ∀ front, front <+: w.workingDirectory → w.system.refuses .search front = false)
include possible searchable

/-- From the working directory every `..` can be followed. -/
theorem walk_ups {front : Location} (isFront : front <+: w.workingDirectory) (ups : Nat) :
    w.walk 0 front (List.replicate ups "..") =
      .ok ((List.replicate ups "..").foldl climb front) := by
  induction ups generalizing front with
  | zero => rfl
  | succ ups ih =>
    have stepped : w.step front ".." = .ok (.to front.dropLast) := by
      rw [step, possible.directories front isFront, searchable front isFront]
      rfl
    rw [List.replicate_succ, walk, walkWith, stepped, List.foldl_cons, climb, if_pos rfl]
    exact ih ((List.dropLast_prefix _).trans isFront)

end Searchable

/-- What is seen along the location of a plain path from the root is seen along the path. -/
theorem walk_of_isPlain (possible : w.IsPossible) (plain : IsPlain path)
    (searchable : path.isAbsolute = true ∨
      ∀ front, front <+: w.workingDirectory → w.system.refuses .search front = false)
    (walked : w.walk 0 [] (w.spot path) = .ok place) :
    w.walk 0 (w.startOf path) path.parts = .ok place := by
  obtain ⟨⟨ups, names, parts, onlyHere, named⟩, -⟩ := plain
  have down : ∀ name ∈ names, name ≠ ".." := fun name among => (named name among).2
  rw [spot, parts, List.foldl_append, foldl_climb_eq down] at walked
  rw [parts]
  by_cases absolute : path.isAbsolute = true
  · rw [startOf, if_pos absolute, onlyHere absolute] at walked ⊢
    exact walked
  · have searchable := searchable.resolve_left absolute
    rw [startOf, if_neg absolute, walk_zero_append] at walked ⊢
    obtain ⟨middle, before, after⟩ := bind_eq_ok_iff.mp walked
    -- the way from the root to the place where the path turns down leads to that place
    have isFront := foldl_climb_ups_prefix (List.prefix_refl w.workingDirectory) ups
    obtain rfl := (possible.isSettled.above isFront).eq_of_walk before
    rw [walk_ups possible searchable List.prefix_rfl]
    exact after

/-- Whether the way from a path is clear: no circle of links stops it, and if it starts at the
working directory then that directory and all above it may be searched. -/
structure IsClear (w : World) (path : Path) : Prop where
  ends : ∃ reached, w.endOf path = .ok reached
  searchable : path.isAbsolute = true ∨
    ∀ front, front <+: w.workingDirectory → w.system.refuses .search front = false

/-- The end of a path with a clear way is settled. -/
theorem isSettled_of_endOf (possible : w.IsPossible) {reached : Path}
    (searchable : path.isAbsolute = true ∨
      ∀ front, front <+: w.workingDirectory → w.system.refuses .search front = false)
    (ends : w.endOf path = .ok reached) : IsPlain reached ∧ w.IsSettled (w.spot reached) := by
  have kept := @resolveNames_preserves w
    (fun reached => (reached.isAbsolute = true ∨
      ∀ front, front <+: w.workingDirectory → w.system.refuses .search front = false) ∧
      IsPlain reached ∧ w.IsSettled (w.spot reached))
    (fun _ => True) (fun _ => True) ?_ ?_ (fun _ _ _ _ => trivial) ?_ (fun _ _ _ _ => trivial)
    (fun _ _ _ _ _ _ => trivial) deepestLink [] (originOf path) path.parts ?_ (fun _ _ => trivial)
  · exact (kept.1 _ ends).2
  · rintro path ⟨searchable, plain, settled⟩
    refine ⟨searchable.imp_left isAbsolute_above, plain.above, ?_⟩
    rw [spot_above]
    exact settled.above (List.dropLast_prefix _)
  · rintro path name ⟨searchable, plain, settled⟩ busy going - unseen
    refine ⟨searchable, plain.down busy going, ?_⟩
    rw [spot_down, climb, if_neg going]
    refine settled.concat busy going ?_
    -- what is seen from the root would have been seen along the path
    cases seen : w.linkAt? (Path.ofLocation (w.spot path)) name with
    | none => rfl
    | some target =>
      obtain ⟨place, walked, stepped⟩ := exists_step_of_linkAt? seen
      rw [linkAt?_of_walk (walk_of_isPlain possible plain searchable walked) stepped] at unseen
      cases unseen
  · exact ⟨.inl rfl, isPlain_nil (by decide), w.isSettled_nil⟩
  · unfold originOf
    split
    · exact ⟨.inl rfl, isPlain_nil (by decide), w.isSettled_nil⟩
    next relative =>
      exact ⟨.inr (searchable.resolve_left relative), isPlain_nil (by decide),
        possible.isSettled⟩

end Settled

end World

end SignatureIndex
