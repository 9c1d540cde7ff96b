import SignatureIndex.Proofs.SearchOrder

/-!
# The nearest directory

A project and a settings file are looked for in the same way.  The path from which the search starts
is resolved, and from there the search goes up, directory by directory, as far as the root.  The
first directory that has what is looked for ends the search.  Only a directory about which nothing
can be asked, because its path is too long or leads through a directory that may not be searched,
stops it before that.

Where the way from a path is clear, what the path resolves to is settled, and so is every directory
above it.  Each of them resolves to itself.  So it makes no difference from which directory between
the place that was resolved and the one that was found the search starts.
-/

namespace SignatureIndex

namespace Path

/-! ## The directories above a path -/

/-- Whether one path is another or lies above it. -/
def IsAtOrAbove (upper lower : Path) : Prop :=
  upper.anchor = lower.anchor ∧ upper.parts <+: lower.parts

variable {path upper lower middle : Path}

theorem IsAtOrAbove.refl (path : Path) : path.IsAtOrAbove path := ⟨rfl, List.prefix_rfl⟩

theorem IsAtOrAbove.trans (first : upper.IsAtOrAbove middle) (second : middle.IsAtOrAbove lower) :
    upper.IsAtOrAbove lower :=
  ⟨first.1.trans second.1, first.2.trans second.2⟩

theorem IsAtOrAbove.antisymm (above : upper.IsAtOrAbove lower) (below : lower.IsAtOrAbove upper) :
    upper = lower := by
  obtain ⟨anchor, parts⟩ := upper
  obtain ⟨sameAnchor, front⟩ := above
  have sameParts := front.eq_of_length_le below.2.length_le
  exact congrArg₂ Path.mk sameAnchor sameParts

private theorem isAtOrAbove_parent (path : Path) : path.parent.IsAtOrAbove path :=
  ⟨rfl, List.dropLast_prefix _⟩

/-- What lies strictly above a path lies at its parent or above. -/
theorem IsAtOrAbove.parent (above : upper.IsAtOrAbove lower) (strict : upper ≠ lower) :
    upper.IsAtOrAbove lower.parent := by
  refine ⟨above.1, ?_⟩
  have shorter : upper.parts.length < lower.parts.length := by
    apply Nat.lt_of_le_of_ne above.2.length_le
    intro same
    exact strict (congrArg₂ Path.mk above.1 (above.2.eq_of_length same))
  apply List.prefix_of_prefix_length_le above.2 (List.dropLast_prefix _)
  rw [List.length_dropLast]
  omega

theorem mem_selfAndParents_iff : upper ∈ path.selfAndParents ↔ upper.IsAtOrAbove path := by
  rw [selfAndParents, List.mem_map]
  constructor
  · rintro ⟨dropped, -, rfl⟩
    exact ⟨rfl, List.take_prefix _ _⟩
  · rintro ⟨sameAnchor, front⟩
    -- as many names are dropped as the path has more
    have shorter := front.length_le
    refine ⟨path.parts.length - upper.parts.length, List.mem_range.mpr (by omega), ?_⟩
    have kept : path.parts.length - (path.parts.length - upper.parts.length) =
        upper.parts.length := by omega
    rw [kept, ← List.prefix_iff_eq_take.mp front, ← sameAnchor]

/-- The directories above a path come in order, the nearest first. -/
theorem pairwise_selfAndParents (path : Path) :
    path.selfAndParents.Pairwise fun lower upper => upper.IsAtOrAbove lower ∧ upper ≠ lower := by
  rw [selfAndParents, List.pairwise_map]
  apply List.pairwise_lt_range.imp_of_mem
  intro fewer more _ listed less
  have within := List.mem_range.mp listed
  refine ⟨⟨rfl, List.take_prefix_take_left (by omega)⟩, ?_⟩
  intro same
  have lengths := congrArg (fun other : Path => other.parts.length) same
  simp only [List.length_take] at lengths
  omega

/-- What comes before a directory on the way up from a path is what lies strictly below the
directory. -/
theorem mem_before_iff {before after : List Path}
    (parts : path.selfAndParents = before ++ upper :: after) :
    lower ∈ before ↔ lower.IsAtOrAbove path ∧ upper.IsAtOrAbove lower ∧ lower ≠ upper := by
  have order := path.pairwise_selfAndParents
  rw [parts, List.pairwise_append, List.pairwise_cons] at order
  obtain ⟨-, ⟨afterAbove, -⟩, beforeBelow⟩ := order
  constructor
  · intro among
    obtain ⟨above, strict⟩ := beforeBelow lower among upper List.mem_cons_self
    exact ⟨mem_selfAndParents_iff.mp (parts ▸ List.mem_append_left _ among), above, strict.symm⟩
  · rintro ⟨within, above, strict⟩
    have among := mem_selfAndParents_iff.mpr within
    rw [parts] at among
    rcases List.mem_append.mp among with among | among
    · exact among
    rcases List.mem_cons.mp among with same | among
    · exact absurd same strict
    · -- what comes after the directory lies above it
      exact absurd ((afterAbove lower among).1.antisymm above) strict

/-! ## Going up -/

/-- Whether a search that goes up from a path ends at a directory with an answer: all nearer
directories have been answered with no. -/
structure EndsAt (ask : Path → Except FileError Bool) (answer : Except FileError Bool)
    (path directory : Path) : Prop where
  above : directory.IsAtOrAbove path
  answered : ask directory = answer
  nearer : ∀ other : Path, other.IsAtOrAbove path → directory.IsAtOrAbove other →
    other ≠ directory → ask other = .ok false

variable {ask : Path → Except FileError Bool} {answer : Except FileError Bool} {directory : Path}
    {e : FileError}

theorem endsAt_iff : EndsAt ask answer path directory ↔ ∃ before after,
    path.selfAndParents = before ++ directory :: after ∧ (∀ other ∈ before, ask other = .ok false) ∧
      ask directory = answer := by
  constructor
  · intro ends
    obtain ⟨before, after, parts⟩ := List.append_of_mem (mem_selfAndParents_iff.mpr ends.above)
    refine ⟨before, after, parts, fun other among => ?_, ends.answered⟩
    obtain ⟨within, above, strict⟩ := (mem_before_iff parts).mp among
    exact ends.nearer other within above strict
  · rintro ⟨before, after, parts, passed, answered⟩
    refine ⟨mem_selfAndParents_iff.mp (parts ▸ List.mem_append_right _ List.mem_cons_self),
      answered, ?_⟩
    intro other within above strict
    exact passed other ((mem_before_iff parts).mpr ⟨within, above, strict⟩)

private theorem findM?_selfAndParents_eq_some_iff :
    path.selfAndParents.findM? ask = .ok (some directory) ↔
    EndsAt ask (.ok true) path directory := by
  rw [findM?_eq_some_iff, endsAt_iff]
  constructor
  · rintro ⟨before, _, after, parts, passed, answered, rfl⟩
    exact ⟨before, after, parts, passed, answered⟩
  · rintro ⟨before, after, parts, passed, answered⟩
    exact ⟨before, directory, after, parts, passed, answered, rfl⟩

private theorem findM?_selfAndParents_eq_none_iff :
    path.selfAndParents.findM? ask = .ok none ↔ ∀ other : Path, other.IsAtOrAbove path →
    ask other = .ok false := by
  simp only [findM?_eq_none_iff, mem_selfAndParents_iff]

private theorem findM?_selfAndParents_eq_error_iff :
    path.selfAndParents.findM? ask = .error e ↔ ∃ stop, EndsAt ask (.error e) path stop := by
  simp only [findM?_eq_error_iff, endsAt_iff]
  constructor
  · rintro ⟨before, stop, after, parts, passed, failed⟩
    exact ⟨stop, before, after, parts, passed, failed⟩
  · rintro ⟨stop, before, after, parts, passed, failed⟩
    exact ⟨before, stop, after, parts, passed, failed⟩

/-- A search ends at the same directory wherever it starts between its end and its start. -/
theorem EndsAt.between (ends : EndsAt ask answer path directory)
    (above : directory.IsAtOrAbove middle) (below : middle.IsAtOrAbove path) :
    EndsAt ask answer middle directory where
  above := above
  answered := ends.answered
  nearer other within := ends.nearer other (within.trans below)

/-! ## Longer paths -/

theorem child_of_relative {text : String} (relative : (ofString text).isAbsolute = false)
    (path : Path) : path.child text = ⟨path.anchor, path.parts ++ (ofString text).parts⟩ := by
  rw [child, join, if_neg (Bool.eq_false_iff.mp relative)]

/-- With a name that stands for itself a path goes on by that name. -/
theorem child_of_name {name : String} (filled : name ≠ "") (going : name ≠ ".")
    (whole : '/' ∉ name.toList) (path : Path) :
    path.child name = ⟨path.anchor, path.parts ++ [name]⟩ := by
  have text := ofString_of_name filled going whole
  rw [child_of_relative (by rw [text]; rfl), text]

theorem holdsNull_append (anchor : Anchor) (names more : List String) :
    holdsNull ⟨anchor, names ++ more⟩ = (holdsNull ⟨anchor, names⟩ || more.any hasNull) :=
  List.any_append

private theorem exists_intercalate_append (names more : List String) :
    ∃ rest, "/".intercalate (names ++ more) = "/".intercalate names ++ rest := by
  by_cases named : names = []
  · exact ⟨"/".intercalate more, by rw [named]; rfl⟩
  by_cases longer : more = []
  · exact ⟨"", by rw [longer, List.append_nil, String.append_empty]⟩
  · exact ⟨"/" ++ "/".intercalate more, by
      rw [String.intercalate_append_of_ne_nil named longer, String.append_assoc]⟩

end Path

namespace System

variable (system : System)

private theorem foldr_size (size : Char → Nat) (chars : List Char) (bytes : Nat) :
    chars.foldr (fun c bytes => size c + bytes) bytes =
      chars.foldr (fun c bytes => size c + bytes) 0 + bytes := by
  induction chars with
  | nil => exact (Nat.zero_add bytes).symm
  | cons c chars ih => rw [List.foldr_cons, List.foldr_cons, ih, Nat.add_assoc]

private theorem byteCount_append (text more : String) :
    system.byteCount (text ++ more) = system.byteCount text + system.byteCount more := by
  rw [byteCount, String.toList_append, List.foldr_append, foldr_size]
  rfl

/-- Every character has a byte. -/
theorem byteCount_pos {text : String} (filled : text ≠ "") : 0 < system.byteCount text := by
  obtain ⟨c, rest, chars⟩ := List.exists_cons_of_ne_nil (mt String.toList_eq_nil_iff.mp filled)
  rw [byteCount, chars, List.foldr_cons]
  have size : 0 < (if system.isStandIn c then 1 else c.utf8Size) := by
    split
    · exact Nat.one_pos
    · exact Char.utf8Size_pos c
  omega

/-- With more names a path is written with no fewer bytes. -/
theorem byteCount_toString_le (anchor : Anchor) (names more : List String) :
    system.byteCount (Path.mk anchor names).toString ≤
      system.byteCount (Path.mk anchor (names ++ more)).toString := by
  obtain ⟨rest, longer⟩ := Path.exists_intercalate_append names more
  simp only [Path.toString, longer, ← String.append_assoc]
  generalize anchor.text ++ "/".intercalate names = text
  by_cases empty : text = ""
  · -- no path is written with no bytes at all
    subst empty
    rw [String.empty_append, if_pos (String.isEmpty_iff.mpr rfl)]
    split
    · exact Nat.le_refl _
    next filled =>
      have one : system.byteCount "." ≤ 1 := by
        change (if system.isStandIn '.' then 1 else 1) + 0 ≤ 1
        split <;> exact Nat.le_refl _
      exact one.trans (system.byteCount_pos (mt String.isEmpty_iff.mpr filled))
  · have filled : (text ++ rest).isEmpty = false := by
      rw [Bool.eq_false_iff, ne_eq, String.isEmpty_iff, String.append_eq_empty_iff]
      exact fun both => empty both.1
    rw [filled, Bool.eq_false_iff.mpr (mt String.isEmpty_iff.mp empty)]
    simp [byteCount_append]

end System

namespace World

variable {w : World}

/-! ## Following more names -/

section Longer

variable {links : Nat} {follow : Location → List String → Except FileError Location}
    {place middle goal : Location} {first second : List String} {path : Path} {e : FileError}

/-- Whether more names lead on from where other names lead, and nowhere if those lead nowhere. -/
def LeadsOn (w : World) (walk : Location → List String → Except FileError Location)
    (second : List String) (place : Location) (first : List String) : Prop :=
  (∃ e, walk place first = .error e ∧ walk place (first ++ second) = .error e) ∨
    ∃ middle left, walk place first = .ok middle ∧ walk place (first ++ second) =
      w.walk left middle second

private theorem leadsOn_walkWith (whole : w.walk links = w.walkWith follow)
    (turn : ∀ place first, w.LeadsOn follow second place first) (place : Location)
    (first : List String) :
    w.LeadsOn (w.walk links) second place first := by
  induction first generalizing place with
  | nil =>
    refine .inr ⟨place, links, ?_, rfl⟩
    rw [whole, walkWith]
  | cons name names ih =>
    -- the first name is followed in the same way, whatever comes after the others
    unfold LeadsOn at ih ⊢
    rw [List.cons_append]
    simp only [whole, walkWith] at ih ⊢
    cases w.step place name with
    | error e => exact .inl ⟨e, rfl, rfl⟩
    | ok next =>
      rcases next with next | target
      · exact ih next
      · dsimp only
        rw [← List.append_assoc]
        exact turn _ _

theorem leadsOn_walk (links : Nat) (place : Location) (first : List String) :
    w.LeadsOn (w.walk links) second place first := by
  induction links generalizing place first with
  | zero => exact leadsOn_walkWith rfl (fun _ _ => .inl ⟨_, rfl, rfl⟩) place first
  | succ links ih => exact leadsOn_walkWith rfl ih place first

private theorem hasDirectory_of_walk (some : second ≠ [])
    (walked : w.walk links place second = .ok goal) :
    w.hasDirectory place = true := by
  obtain ⟨name, names, rfl⟩ := List.exists_cons_of_ne_nil some
  apply Bool.of_not_eq_false
  intro noDirectory
  have stopped : w.step place name = .error .notADirectory := by
    rw [step, noDirectory]
    rfl
  cases links <;> simp [walk, walkWith, stopped] at walked

/-- A path that leads on from another one leads through a directory. -/
theorem isDirectory_of_locate_append (some : second ≠ [])
    (located : w.locate ⟨path.anchor, path.parts ++ second⟩ = .ok goal) :
    w.isDirectory path = .ok true := by
  have free := holdsNull_of_locate located
  rw [Path.holdsNull_append, Bool.or_eq_false_iff] at free
  unfold locate at located
  split at located
  · cases located
  split at located
  · cases located
  next short =>
  have shorter : ¬longestPath < w.system.byteCount (toString path) := fun long =>
    short (Nat.lt_of_lt_of_le long (w.system.byteCount_toString_le path.anchor path.parts second))
  rcases w.leadsOn_walk mostLinks (w.startOf path) path.parts with
    ⟨e, -, nowhere⟩ | ⟨middle, left, here, later⟩
  · cases located.symm.trans nowhere
  have isDirectory := hasDirectory_of_walk some (later.symm.trans located)
  have reached : w.locate path = .ok middle := by
    unfold locate
    rw [if_neg (Bool.eq_false_iff.mp free.1), if_neg shorter, here]
  rw [World.isDirectory, reach, reached]
  exact congrArg Except.ok isDirectory

/-- What lies beyond a path about which nothing can be asked cannot be asked about either. -/
theorem bars_append (free : ∀ name ∈ second, Path.hasNull name = false) (bars : w.Bars path e) :
    w.Bars ⟨path.anchor, path.parts ++ second⟩ .nameTooLong ∨
      w.Bars ⟨path.anchor, path.parts ++ second⟩ e := by
  obtain ⟨kind, stopped⟩ := bars
  unfold locate at stopped
  split at stopped
  · -- a null character would have been another reason
    cases stopped
    rcases kind with never | never <;> cases never
  next freePath =>
  have freeWhole : Path.holdsNull ⟨path.anchor, path.parts ++ second⟩ = false := by
    rw [Path.holdsNull_append, Bool.or_eq_false_iff, List.any_eq_false]
    exact ⟨Bool.eq_false_iff.mpr freePath, fun name among => Bool.eq_false_iff.mp (free name among)⟩
  by_cases long :
    longestPath < w.system.byteCount (toString (Path.mk path.anchor (path.parts ++ second)))
  · exact .inl ⟨.inl rfl, by rw [locate, freeWhole, if_neg Bool.false_ne_true, if_pos long]⟩
  split at stopped
  next longPath =>
    -- with more names the path is no shorter
    have longer := w.system.byteCount_toString_le path.anchor path.parts second
    exact absurd (Nat.lt_of_lt_of_le longPath longer) long
  have leads : w.LeadsOn (w.walk mostLinks) second (w.startOf path) path.parts := leadsOn_walk _ _ _
  rcases leads with ⟨reason, here, later⟩ | ⟨middle, left, here, -⟩
  · rw [Except.error.inj (here.symm.trans stopped)] at later
    refine .inr ⟨kind, ?_⟩
    rw [locate, freeWhole, if_neg Bool.false_ne_true, if_neg long]
    exact later
  · cases here.symm.trans stopped

theorem isDirectory_eq_ok_true_iff :
    w.isDirectory path = .ok true ↔ ∃ location, w.locate path = .ok location ∧
    w.hasDirectory location = true := by
  unfold isDirectory reach
  cases w.locate path with
  | ok location => simp [Except.map]
  | error e => cases absent : e.isAbsence <;> simp [absent, Except.map]

private theorem not_isDirectory_of_isFile (isFile : w.isFile path = .ok true) :
    w.isDirectory path ≠ .ok true := by
  intro isDirectory
  obtain ⟨location, located, stands⟩ := isDirectory_eq_ok_true_iff.mp isDirectory
  rw [World.isFile, fileAt, reach, located] at isFile
  unfold hasDirectory at stands
  cases here : w.node? location with
  | none => simp [here] at stands
  | some node => cases node <;>
      simp [here, Node.isDirectory, Node.isFile, Except.map] at stands isFile

end Longer

/-! ## Places that resolve to themselves -/

variable {path origin directory : Path}

/-- Where the way from a path is clear, what the path resolves to is settled. -/
theorem isSettled_of_resolve (possible : w.IsPossible) (clear : w.IsClear path)
    (resolved : w.resolve path = .ok origin) :
    origin.anchor = .root ∧ w.IsSettled origin.parts := by
  obtain ⟨reached, ends, told, -⟩ := exists_of_resolve_eq_ok resolved
  obtain ⟨within, arrives⟩ := clear.ends
  have ends : w.endOf path = .ok reached := by
    rcases ends with ends | ends
    · exact ends
    · cases arrives.symm.trans ends
  obtain ⟨plain, settled⟩ := isSettled_of_endOf possible clear.searchable ends
  obtain ⟨absolute, parts⟩ := eq_of_fromRoot_eq_ok told
  refine ⟨?_, parts ▸ settled⟩
  unfold fromRoot at told
  split at told
  next rooted =>
    cases told
    cases anchor : reached.anchor with
    | root => rfl
    | doubleRoot => exact absurd anchor plain.anchor
    | here => simp [Path.isAbsolute, anchor] at rooted
  split at told
  · cases told
  · cases told
    rfl

/-- What lies above the place that a path resolves to resolves to itself. -/
theorem resolve_of_isAtOrAbove (possible : w.IsPossible) (clear : w.IsClear path)
    (resolved : w.resolve path = .ok origin) (above : directory.IsAtOrAbove origin) :
    w.resolve directory = .ok directory := by
  obtain ⟨root, settled⟩ := isSettled_of_resolve possible clear resolved
  have free := holdsNull_of_resolve resolved
  obtain ⟨anchor, parts⟩ := directory
  obtain ⟨sameAnchor, front⟩ := above
  obtain rfl : anchor = .root := sameAnchor.trans root
  refine resolve_of_isSettled (settled.above front) (Bool.eq_false_iff.mpr fun null => ?_)
  obtain ⟨name, among, null⟩ := List.any_eq_true.mp null
  rw [Path.holdsNull, List.any_eq_false] at free
  exact free name (front.subset among) null

/-- A path that leads into a circle of links is kept as written, and so it may end at a link. -/
example : let w : World :=
  ⟨[(["a"], .link "a"), (["b"], .link "c"), (["c"], .directory)], [], "/", []⟩
    w.resolve ⟨.root, ["a", "..", "b"]⟩ = .ok ⟨.root, ["b"]⟩ ∧
      w.resolve ⟨.root, ["b"]⟩ = .ok ⟨.root, ["c"]⟩ := by decide +kernel

end World

/-! ## Searches for the nearest directory -/

/-- Whether a search is one for the nearest directory about which a question is answered with yes,
among the origin of the search and the directories above it.  That there is none is a fault of its
own.  The search stops at a directory about which nothing can be asked.  Where the way from the
start is clear, the search finds the same from anywhere between the directory that was found and the
place that the start resolves to. -/
structure FindsNearest (w : World) (origin : Path → Except FileError Path)
    (ask : Path → Except FileError Bool) (result : Path → Path) (absent : Path → Fault)
    (search : Path → Except Fault Path) : Prop where
  found : ∀ start goal, search start = .ok goal ↔ ∃ top directory, origin start = .ok top ∧
    Path.EndsAt ask (.ok true) top directory ∧ goal = result directory
  failed : ∀ start fault, search start = .error fault ↔
    (∃ e, origin start = .error e ∧ fault = .file e) ∨ ∃ top, origin start = .ok top ∧
      ((∀ directory : Path, directory.IsAtOrAbove top → ask directory = .ok false) ∧
        fault = absent top ∨ ∃ stop e, Path.EndsAt ask (.error e) top stop ∧
          (e = .nameTooLong ∨ e = .permissionDenied) ∧ fault = .file e)
  again : w.IsPossible → ∀ start goal directory between : Path, w.IsClear start →
    w.resolve start = .ok goal → search start = .ok (result directory) →
    directory.IsAtOrAbove between → between.IsAtOrAbove goal →
    search between = .ok (result directory)

section Search

variable {w : World} {origin : Path → Except FileError Path} {ask : Path → Except FileError Bool}
  {result : Path → Path} {absent : Path → Fault} {search : Path → Except Fault Path}

section Runs

variable (runs : ∀ start, search start =
    match origin start with
    | .error e => .error (.file e)
    | .ok top =>
      match top.selfAndParents.findM? ask with
      | .error e => .error (.file e)
      | .ok (some directory) => .ok (result directory)
      | .ok none => .error (absent top))
include runs

private theorem eq_ok_iff_of_runs {start goal : Path} : search start = .ok goal ↔
    ∃ top directory, origin start = .ok top ∧ Path.EndsAt ask (.ok true) top directory ∧
    goal = result directory := by
  rw [runs]
  constructor
  · intro succeeded
    split at succeeded
    · cases succeeded
    next top here =>
    split at succeeded
    · cases succeeded
    next directory above =>
      cases succeeded
      exact ⟨top, directory, here, Path.findM?_selfAndParents_eq_some_iff.mp above, rfl⟩
    · cases succeeded
  · rintro ⟨top, directory, here, ends, rfl⟩
    rw [here]
    dsimp only
    rw [Path.findM?_selfAndParents_eq_some_iff.mpr ends]

private theorem eq_error_iff_of_runs
    (stops : ∀ directory e, ask directory = .error e → e = .nameTooLong ∨ e = .permissionDenied)
    {start : Path} {fault : Fault} : search start = .error fault ↔
    (∃ e, origin start = .error e ∧ fault = .file e) ∨ ∃ top, origin start = .ok top ∧
      ((∀ directory : Path, directory.IsAtOrAbove top → ask directory = .ok false) ∧
        fault = absent top ∨ ∃ stop e, Path.EndsAt ask (.error e) top stop ∧
          (e = .nameTooLong ∨ e = .permissionDenied) ∧ fault = .file e) := by
  rw [runs]
  constructor
  · intro stopped
    split at stopped
    next e nowhere =>
      cases stopped
      exact .inl ⟨e, nowhere, rfl⟩
    -- the origin is known, and the way up from it is asked directory by directory
    next top here =>
    refine .inr ⟨top, here, ?_⟩
    split at stopped
    next e unanswered =>
      cases stopped
      obtain ⟨stop, ends⟩ := Path.findM?_selfAndParents_eq_error_iff.mp unanswered
      exact .inr ⟨stop, e, ends, stops stop e ends.answered, rfl⟩
    · cases stopped
    next none =>
      cases stopped
      exact .inl ⟨Path.findM?_selfAndParents_eq_none_iff.mp none, rfl⟩
  · rintro (⟨e, nowhere, rfl⟩ | ⟨top, here, ⟨none, rfl⟩ | ⟨stop, e, ends, -, rfl⟩⟩)
    · rw [nowhere]
    · rw [here]
      dsimp only
      rw [Path.findM?_selfAndParents_eq_none_iff.mpr none]
    · rw [here]
      dsimp only
      rw [Path.findM?_selfAndParents_eq_error_iff.mpr ⟨stop, ends⟩]

/-- A search that goes up from its origin is one for the nearest directory, if from anywhere between
a directory that is found and the place that the start resolves to its origin lies between them. -/
theorem findsNearest_of_runs
    (stops : ∀ directory e, ask directory = .error e → e = .nameTooLong ∨ e = .permissionDenied)
    (told : Function.Injective result)
    (restarts : w.IsPossible → ∀ start goal top directory between : Path, w.IsClear start →
      w.resolve start = .ok goal → origin start = .ok top →
      Path.EndsAt ask (.ok true) top directory → directory.IsAtOrAbove between →
      between.IsAtOrAbove goal →
        ∃ next, origin between = .ok next ∧ directory.IsAtOrAbove next ∧ next.IsAtOrAbove top) :
    FindsNearest w origin ask result absent search where
  found _ _ := eq_ok_iff_of_runs runs
  failed _ _ := eq_error_iff_of_runs runs stops
  again := by
    intro possible start goal directory between clear resolved succeeded above below
    obtain ⟨top, same, here, ends, equal⟩ := (eq_ok_iff_of_runs runs).mp succeeded
    obtain rfl := told equal
    -- the directory is still the nearest one, seen from the new origin
    obtain ⟨next, there, aboveNext, belowTop⟩ :=
      restarts possible start goal top directory between clear resolved here ends above below
    exact (eq_ok_iff_of_runs runs).mpr ⟨next, directory, there,
      ends.between aboveNext belowTop, rfl⟩

end Runs

end Search

namespace SearchPath

variable {w : World} {start goal : Path} {marker : String}

theorem findsNearest_projectRoot (w : World) (marker : String) :
    FindsNearest w w.resolve (fun directory => w.isDirectory (directory.child marker)) id
      (fun top => .problem (.projectRootNotFound top marker)) (projectRoot w · marker) := by
  refine findsNearest_of_runs (fun start => ?_)
    (fun _ _ failed => (World.isDirectory_eq_error_iff.mp failed).1) Function.injective_id ?_
  · rfl
  · intro possible start goal top directory between clear resolved here ends above below
    obtain rfl := Except.ok.inj (resolved.symm.trans here)
    exact ⟨between, World.resolve_of_isAtOrAbove possible clear resolved below, above, below⟩

/-- With a marker that goes on from where it stands, what is found is a directory. -/
theorem isDirectory_of_projectRoot (relative : (Path.ofString marker).isAbsolute = false)
    (found : projectRoot w start marker = .ok goal) : w.isDirectory goal = .ok true := by
  obtain ⟨top, directory, -, ends, rfl⟩ :=
    ((findsNearest_projectRoot w marker).found start goal).mp found
  obtain ⟨location, located, isDirectory⟩ := World.isDirectory_eq_ok_true_iff.mp ends.answered
  rw [Path.child_of_relative relative] at located
  by_cases named : (Path.ofString marker).parts = []
  · -- the marker is the directory itself
    rw [named, List.append_nil] at located
    exact World.isDirectory_eq_ok_true_iff.mpr ⟨location, located, isDirectory⟩
  · exact World.isDirectory_of_locate_append named located

end SearchPath

namespace Settings

variable {w : World} {start goal top : Path} {e : FileError}

theorem child_fileName (path : Path) :
    path.child fileName = ⟨path.anchor, path.parts ++ [fileName]⟩ :=
  Path.child_of_name (by decide) (by decide) (by decide) path

theorem parent_child_fileName (path : Path) : (path.child fileName).parent = path := by
  rw [child_fileName, Path.parent, List.dropLast_concat]

theorem searchStart_eq_ok_iff : searchStart w start = .ok top ↔ ∃ goal, w.resolve start = .ok goal ∧
    (w.isFile goal = .ok true ∧ top = goal.parent ∨ w.isFile goal = .ok false ∧ top = goal) := by
  rw [searchStart, bind_eq_ok_iff]
  apply exists_congr
  intro goal
  apply and_congr_right
  intro resolved
  rw [bind_eq_ok_iff]
  constructor
  · rintro ⟨isFile, asked, begins⟩
    cases isFile with
    | true => exact .inl ⟨asked, (Except.ok.inj begins).symm⟩
    | false => exact .inr ⟨asked, (Except.ok.inj begins).symm⟩
  · rintro (⟨asked, rfl⟩ | ⟨asked, rfl⟩)
    · exact ⟨true, asked, rfl⟩
    · exact ⟨false, asked, rfl⟩

private theorem nearest_eq (w : World) (start : Path) :
    nearest w start = (searchStart w start).bind fun top =>
    (top.selfAndParents.findM? fun directory => w.isFile (directory.child fileName)).map
      (Option.map (·.child fileName)) := by
  unfold nearest
  simp only [findM?_map]
  rfl

theorem find_eq (w : World) (start : Path) : find w (some start) =
    match searchStart w start with
    | .error e => .error (.file e)
    | .ok top =>
      match top.selfAndParents.findM? fun directory => w.isFile (directory.child fileName) with
      | .error e => .error (.file e)
      | .ok (some directory) => .ok (directory.child fileName)
      | .ok none => .error (.file .notFound) := by
  rw [find, nearest_eq, Option.getD_some]
  cases searchStart w start with
  | error e => rfl
  | ok top =>
    dsimp only [Except.bind]
    cases top.selfAndParents.findM? fun directory => w.isFile (directory.child fileName) with
    | error e => rfl
    | ok directory? => cases directory? <;> rfl

theorem isDirectory_of_isFile_child (file : w.isFile (start.child fileName) = .ok true) :
    w.isDirectory start = .ok true := by
  obtain ⟨location, located⟩ := World.exists_locate_of_isFile file
  rw [child_fileName] at located
  exact World.isDirectory_of_locate_append (List.cons_ne_nil _ _) located

private theorem exists_isFile_child_of_bars (bars : w.Bars start e) :
    ∃ reason, w.isFile (start.child fileName) = .error reason := by
  have free : ∀ name ∈ [fileName], Path.hasNull name = false := by decide
  rw [child_fileName]
  rcases World.bars_append free bars with bars | bars
  · exact ⟨_, World.isFile_eq_error_iff.mpr bars⟩
  · exact ⟨_, World.isFile_eq_error_iff.mpr bars⟩

/-- A search for settings that starts again begins between the directory that was found and the one
in which the first search began. -/
theorem exists_searchStart {goal directory between : Path} (possible : w.IsPossible)
    (clear : w.IsClear start) (resolved : w.resolve start = .ok goal)
    (began : searchStart w start = .ok top)
    (ends : Path.EndsAt (fun directory => w.isFile (directory.child fileName))
      (.ok true) top directory)
    (above : directory.IsAtOrAbove between) (below : between.IsAtOrAbove goal) :
    ∃ next, searchStart w between = .ok next ∧ directory.IsAtOrAbove next ∧
    next.IsAtOrAbove top := by
  have resolvesToSelf := World.resolve_of_isAtOrAbove possible clear resolved below
  have isDirectory := isDirectory_of_isFile_child ends.answered
  obtain ⟨_, same, begins⟩ := searchStart_eq_ok_iff.mp began
  obtain rfl := Except.ok.inj (resolved.symm.trans same)
  -- the search began where the start resolves to, unless that is a file
  have within (other : between ≠ goal ∨ w.isFile goal = .ok false) : between.IsAtOrAbove top := by
    rcases begins with ⟨isFile, rfl⟩ | ⟨-, rfl⟩
    · rcases other with other | noFile
      · exact below.parent other
      · cases isFile.symm.trans noFile
    · exact below
  -- if the place in between is a file, the new search begins above it, as the first one did
  cases asked : w.isFile between with
  | ok isFile =>
    cases isFile with
    | true =>
      refine ⟨between.parent,
        searchStart_eq_ok_iff.mpr ⟨between, resolvesToSelf, .inl ⟨asked, rfl⟩⟩, ?_, ?_⟩
      · -- no file is the directory that was found
        apply above.parent
        rintro rfl
        exact World.not_isDirectory_of_isFile asked isDirectory
      · by_cases same : between = goal
        · subst same
          rcases begins with ⟨-, rfl⟩ | ⟨noFile, -⟩
          · exact .refl _
          · cases asked.symm.trans noFile
        · exact (Path.isAtOrAbove_parent between).trans (within (.inl same))
    | false =>
      refine ⟨between, searchStart_eq_ok_iff.mpr ⟨between, resolvesToSelf, .inr ⟨asked, rfl⟩⟩,
        above, within ?_⟩
      by_cases same : between = goal
      · exact .inr (same ▸ asked)
      · exact .inl same
  | error e =>
    -- the first search would have stopped there before it found anything
    obtain ⟨reason, unanswered⟩ := exists_isFile_child_of_bars (World.isFile_eq_error_iff.mp asked)
    by_cases same : between = directory
    · subst same
      cases unanswered.symm.trans ends.answered
    have other : between ≠ goal ∨ w.isFile goal = .ok false := by
      refine .inl ?_
      rintro rfl
      rcases begins with ⟨isFile, -⟩ | ⟨noFile, -⟩
      · cases asked.symm.trans isFile
      · cases asked.symm.trans noFile
    cases unanswered.symm.trans (ends.nearer between (within other) above same)

private theorem findsNearest_find (w : World) :
    FindsNearest w (searchStart w) (fun directory => w.isFile (directory.child fileName))
      (·.child fileName) (fun _ => .file .notFound) fun start => find w (some start) := by
  refine findsNearest_of_runs (find_eq w) (fun _ _ failed =>
    (World.isFile_eq_error_iff.mp failed).1)
    (Function.LeftInverse.injective parent_child_fileName) ?_
  intro possible start goal top directory between clear resolved began ends above below
  exact exists_searchStart possible clear resolved began ends above below

end Settings

/-- The project and the settings file that go with a path.

Each is what a search for the nearest directory finds, starting from where the path resolves to, and
for the settings file from the directory of a file.  The result is a directory, or stands in one,
unless a project is marked by something that does not stand in it. -/
theorem finds_nearest (w : World) :
    (∀ marker, FindsNearest w w.resolve (fun directory => w.isDirectory (directory.child marker)) id
      (fun top => .problem (.projectRootNotFound top marker)) (SearchPath.projectRoot w · marker)) ∧
    (∀ marker start project, (Path.ofString marker).isAbsolute = false →
      SearchPath.projectRoot w start marker = .ok project → w.isDirectory project = .ok true) ∧
    FindsNearest w (Settings.searchStart w) (fun directory =>
      w.isFile (directory.child Settings.fileName))
      (·.child Settings.fileName) (fun _ => .file .notFound)
      (fun start => Settings.find w (some start)) ∧
    (∀ start top, Settings.searchStart w start = .ok top ↔ ∃ goal, w.resolve start = .ok goal ∧
      (w.isFile goal = .ok true ∧ top = goal.parent ∨ w.isFile goal = .ok false ∧ top = goal)) ∧
    (∀ start file, Settings.find w (some start) = .ok file → w.isDirectory file.parent = .ok true) ∧
    Settings.find w none = Settings.find w (some Path.here) := by
  refine ⟨SearchPath.findsNearest_projectRoot w, fun marker start project =>
    SearchPath.isDirectory_of_projectRoot, Settings.findsNearest_find w, fun start top =>
    Settings.searchStart_eq_ok_iff, ?_, rfl⟩
  intro start file found
  obtain ⟨top, directory, -, ends, rfl⟩ :=
    ((Settings.findsNearest_find w).found start file).mp found
  rw [Settings.parent_child_fileName]
  exact Settings.isDirectory_of_isFile_child ends.answered

/-- What is found at a location is listed. -/
theorem World.mem_entries_of_link {w : World} {location : Location} {target : String}
    (stands : w.node? location = some (.link target)) : (location, .link target) ∈ w.entries := by
  unfold node? at stands
  split at stands
  · cases stands
  obtain ⟨before, after, parts, -⟩ := List.lookup_eq_some_iff.mp stands
  rw [parts]
  exact List.mem_append_right _ List.mem_cons_self

/-- A world in which whoever looks stands at the root is possible if no link has a null character in
its target. -/
theorem World.isPossible_of_links {w : World} (here : w.workingDirectory = [])
    (free : ∀ location target, (location, Node.link target) ∈ w.entries →
      Path.hasNull target = false) :
    w.IsPossible := by
  refine ⟨?_, here ▸ nofun, fun front isFront => ?_⟩
  · rintro (⟨name, among, -⟩ | ⟨location, target, stands, null⟩)
    · rw [here] at among
      cases among
    · exact absurd null (Bool.eq_false_iff.mp (free location target (mem_entries_of_link stands)))
  · rw [here] at isFront
    rw [List.prefix_nil.mp isFront]
    rfl

/-- A project with settings, and in it a file with the name of the mark, a directory and a link to
that directory. -/
def hillside : World where
  entries := [
    (["p"], .directory), (["p", "_build"], .directory), (["p", "erlsym.toml"], .file []),
    (["p", "src"], .directory),
    (["p", "src", "_build"], .file []), (["p", "src", "deep"], .directory),
    (["p", "src", "deep", "m.erl"], .file []),
    (["s"], .link "p/src/deep")]
  workingDirectory := []
  system := .ofHome "/"
  programDirectories := []

private theorem hillside.isPossible : hillside.IsPossible := by
  apply World.isPossible_of_links rfl
  intro location target among
  simp only [hillside, List.mem_cons, Prod.mk.injEq, reduceCtorEq, and_false, Node.link.injEq,
    List.not_mem_nil, or_false, false_or] at among
  rw [among.2]
  decide

/-- Nothing keeps whoever stands at the root from going along a path that ends. -/
theorem hillside.isClear {path reached : Path} (ends : hillside.endOf path = .ok reached) :
    hillside.IsClear path where
  ends := ⟨reached, ends⟩
  searchable := .inr fun _ _ => rfl

/-- By way of a link the search goes up from where the link leads to, and so it does from a
directory in between and from a file. -/
theorem finds_nearest_hillside :
    SearchPath.projectRoot hillside ⟨.root, ["p", "src"]⟩ "_build" = .ok ⟨.root, ["p"]⟩ ∧
    hillside.isDirectory ⟨.root, ["p"]⟩ = .ok true ∧
    Settings.find hillside (some ⟨.root, ["p", "src", "deep"]⟩) =
      .ok ⟨.root, ["p", "erlsym.toml"]⟩ := by
  obtain ⟨projects, directories, settings, -, -, -⟩ := finds_nearest hillside
  have project : SearchPath.projectRoot hillside ⟨.here, ["s"]⟩ "_build" = .ok ⟨.root, ["p"]⟩ :=
    Traced.eq_ok_of_toOption (by decide +kernel)
  have file : Settings.find hillside (some ⟨.here, ["s", "m.erl"]⟩) =
      .ok (Path.child ⟨.root, ["p"]⟩ Settings.fileName) :=
    Traced.eq_ok_of_toOption (by decide +kernel)
  have place : Path.child ⟨.root, ["p"]⟩ Settings.fileName = ⟨.root, ["p", "erlsym.toml"]⟩ := by
    decide
  have through : hillside.endOf ⟨.here, ["s"]⟩ = .ok ⟨.here, ["p", "src", "deep"]⟩ :=
    by decide +kernel
  have beyond :
      hillside.endOf ⟨.here, ["s", "m.erl"]⟩ = .ok ⟨.here, ["p", "src", "deep", "m.erl"]⟩ :=
    by decide +kernel
  refine ⟨?_, ?_, place ▸ ?_⟩
  · exact (projects "_build").again hillside.isPossible ⟨.here, ["s"]⟩ ⟨.root, ["p", "src", "deep"]⟩
      ⟨.root, ["p"]⟩ _ (hillside.isClear through)
        (Traced.eq_ok_of_toOption (by decide +kernel)) project
      ⟨rfl, by decide⟩ ⟨rfl, by decide⟩
  · exact directories "_build" ⟨.here, ["s"]⟩ ⟨.root, ["p"]⟩ (by decide) project
  · exact settings.again hillside.isPossible ⟨.here, ["s", "m.erl"]⟩
      ⟨.root, ["p", "src", "deep", "m.erl"]⟩ ⟨.root, ["p"]⟩ _ (hillside.isClear beyond)
      (Traced.eq_ok_of_toOption (by decide +kernel)) file ⟨rfl, by decide⟩ ⟨rfl, by decide⟩

namespace Resolver.rough

/-- No dots and no empty text start with a letter. -/
theorem named_longName : Path.isIdle longName = false ∧ longName ≠ ".." := by
  have start : longName.toList.head? = some 'a' := by
    rw [toList_longName]
    rfl
  have other (text : String) (differs : text.toList.head? ≠ some 'a') : longName ≠ text := by
    rintro rfl
    exact differs start
  refine ⟨?_, other ".." (by decide)⟩
  simp [Path.isIdle, other "" (by decide), other "." (by decide)]

private theorem isSettled_longName : rough.IsSettled ["p", "src", longName] := by
  refine World.isSettled_of_nodes (fun name among => ?_) fun front isFront target stands => ?_
  · simp only [List.mem_cons, List.not_mem_nil, or_false] at among
    rcases among with rfl | rfl | rfl
    · decide
    · decide
    · exact named_longName
  · -- the only link has a name of its own
    have among := World.mem_entries_of_link stands
    simp only [rough, Node.ofText, List.mem_cons, Prod.mk.injEq, reduceCtorEq, and_false,
      List.not_mem_nil, Node.link.injEq, or_false, false_or] at among
    rw [among.1] at isFront
    exact absurd isFront (by simp)

/-- A project is not found from a place with too long a name in it, although there is one. -/
theorem projectRoot_longName :
    rough.resolve ⟨.root, ["p", "src", longName]⟩ = .ok ⟨.root, ["p", "src", longName]⟩ ∧
    Path.IsAtOrAbove ⟨.root, ["p"]⟩ ⟨.root, ["p", "src", longName]⟩ ∧
    rough.isDirectory (Path.child ⟨.root, ["p"]⟩ "_build") = .ok true ∧
    SearchPath.projectRoot rough ⟨.root, ["p", "src", longName]⟩ "_build" =
      .error (.file .nameTooLong) := by
  have free : Path.holdsNull ⟨.root, ["p", "src", longName]⟩ = false := by
    simp only [Path.holdsNull, List.any_cons, hasNull_longName]
    decide
  have resolved := World.resolve_of_isSettled isSettled_longName free
  refine ⟨resolved, ⟨rfl, List.prefix_append ["p"] _⟩, rfl, ?_⟩
  apply ((SearchPath.findsNearest_projectRoot rough "_build").failed _ _).mpr
  have stopped : rough.isDirectory (Path.child ⟨.root, ["p", "src", longName]⟩ "_build") =
      .error .nameTooLong := by
    have beyond : rough.Bars ⟨.root, ["p", "src", longName]⟩ .nameTooLong :=
      ⟨.inl rfl, locate_longName⟩
    rw [Path.child_of_name (by decide) (by decide) (by decide), World.isDirectory_eq_error_iff]
    exact (World.bars_append (by decide) beyond).elim id id
  refine .inr ⟨_, resolved,
    .inr ⟨⟨.root, ["p", "src", longName]⟩, _, ⟨.refl _, stopped, ?_⟩, .inl rfl, rfl⟩⟩
  intro other within above strict
  exact absurd (within.antisymm above) strict

end Resolver.rough

end SignatureIndex
