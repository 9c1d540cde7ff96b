import SignatureIndex.Proofs.Expansion
import SignatureIndex.Proofs.Scanning

/-!
# The course of a scan

The items that a scan goes through unfold to an expansion, in which a file is entered exactly where
it has not been seen before.  A file that is entered stands in the expansion with all that it holds,
so every file that is reached gives its attributes once, at the first form that asks for it.
-/

namespace SignatureIndex.World

variable {w : World} {options : ScanOptions}

/-- The items of the file at a path unfold to an expansion: they become its steps one by one, and
where a file is entered, so do the items of that file.  Whether a file is entered or passed is left
open. -/
inductive Unfolds (w : World) (options : ScanOptions) : Path → List Item → Expansion → Prop
  | done (path) : Unfolds w options path [] .done
  | kept {path content items rest} : Unfolds w options path items rest →
      Unfolds w options path (.kept content :: items) (.kept content rest)
  | entered {path kind name span items target location sheet inner rest} :
      w.firstFile (options.candidates kind name path) = .ok (some (target, location)) →
      (w.sheet target).outcome = .ok (some location, sheet) → sheet.unfinished = none →
      Unfolds w options target sheet.items inner → Unfolds w options path items rest →
      Unfolds w options path (.inclusion kind name span :: items)
        (.entered target location inner rest)
  | passed {path kind name span items target location rest} :
      w.firstFile (options.candidates kind name path) = .ok (some (target, location)) →
      Unfolds w options path items rest →
      Unfolds w options path (.inclusion kind name span :: items) (.passed target location rest)

/-- A scan of items has an expansion: the items unfold to it, it enters every file where it is not
yet seen, and it gives the attributes and the files of the scan. -/
theorem exists_expansion_of_scanItems {depth : Option Nat} {path : Path} {seen : List Location}
    {items : List Item} {scan : Scan}
    (scanned : (w.scanItems options depth path seen items).outcome = .ok scan) :
    ∃ expansion, Unfolds w options path items expansion ∧ expansion.Fresh seen ∧
      (∀ here, (expansion.contributions here).map Prod.snd = scan.attributes) ∧
      expansion.reached = scan.reached := by
  induction depth, path, seen, items using scanItems_induction w options
    generalizing scan with
  | done depth path seen =>
    rw [scanItems_nil] at scanned
    cases scanned
    exact ⟨.done, .done path, trivial, fun _ => rfl, rfl⟩
  | kept depth path seen content items ih =>
    rw [scanItems_kept, Traced.outcome_bind_eq_ok_iff] at scanned
    obtain ⟨rest, scanned, same⟩ := scanned
    cases same
    obtain ⟨expansion, unfolds, fresh, attributes, reached⟩ := ih scanned
    exact ⟨.kept content expansion, .kept unfolds, fresh,
      fun here => congrArg (content :: ·) (attributes here), reached⟩
  | malformed =>
    rw [scanItems_malformed] at scanned
    cases scanned
  | unanswered depth path seen kind name span items e failed =>
    rw [scanItems_of_error failed] at scanned
    cases scanned
  | absent depth path seen kind name span items absent =>
    rw [scanItems_of_none absent] at scanned
    cases scanned
  | deep depth path seen kind name span items target location found new deep =>
    rw [scanItems_of_deep found new deep] at scanned
    cases scanned
  | entered depth path seen kind name span items target location inside found new deeper ihInner
      ihRest =>
    simp only [scanItems_of_new found new deeper, Traced.outcome_bind_eq_ok_iff] at scanned
    obtain ⟨⟨location?, sheet⟩, read, inner, scannedInner, _, finished, outer,
        scannedOuter, same⟩ :=
      scanned
    cases same
    obtain ⟨first, unfoldsFirst, freshFirst, attributesFirst, reachedFirst⟩ :=
      ihInner sheet scannedInner
    obtain ⟨rest, unfoldsRest, freshRest, attributesRest, reachedRest⟩ := ihRest inner scannedOuter
    -- the file that is read is the one that was found
    obtain ⟨place, rfl, known⟩ := exists_location_of_sheet read
    obtain rfl : place = location := by
      simpa using known.symm.trans (knownFileAt_of_firstFile found)
    refine ⟨.entered target place first rest,
      .entered found read (outcome_finish_eq_ok_iff.mp finished) unfoldsFirst unfoldsRest,
      ⟨new, freshFirst, reachedFirst ▸ freshRest⟩, fun here => ?_, ?_⟩
    · rw [Expansion.contributions, List.map_append, attributesFirst, attributesRest]
    · rw [Expansion.reached_entered, reachedFirst, reachedRest]
      rfl
  | passed depth path seen kind name span items target location found old ih =>
    rw [scanItems_of_seen found old] at scanned
    obtain ⟨expansion, unfolds, fresh, attributes, reached⟩ := ih scanned
    exact ⟨.passed target location expansion, .passed found unfolds, ⟨old, fresh⟩,
      attributes, reached⟩

/-! ## What each file contributes -/

/-- A file that is not entered again contributes what stands in it. -/
theorem contributed_of_unfolds {path : Path} {items : List Item} {expansion : Expansion}
    (unfolds : Unfolds w options path items expansion) {here : Location}
    (unreached : here ∉ expansion.reached) :
    Expansion.contributed here (expansion.contributions here) = items.filterMap Item.kept? := by
  induction unfolds with
  | done => rfl
  | kept _ ih =>
    rw [Expansion.contributions, Expansion.contributed_cons_self, ih unreached]
    rfl
  | passed _ _ ih => exact ih unreached
  | @entered path kind name span items target location sheet inner rest _ _ _ _ _ _ ih =>
    rw [Expansion.reached_entered, List.mem_cons, List.mem_append, not_or, not_or] at unreached
    obtain ⟨other, notInner, notRest⟩ := unreached
    rw [Expansion.contributions, Expansion.contributed_append,
      Expansion.contributed_of_not_reached other notInner, List.nil_append, ih notRest]
    rfl

/-- Every file that is entered contributes what stands in it, and nothing else. -/
theorem exists_sheet_of_mem_files {path : Path} {items : List Item} {expansion : Expansion}
    (unfolds : Unfolds w options path items expansion) {here : Location}
    (once : (here :: expansion.reached).Nodup) {file : Path × Location}
    (among : file ∈ expansion.files) :
    ∃ sheet, (w.sheet file.1).outcome = .ok (some file.2, sheet) ∧
      Expansion.contributed file.2 (expansion.contributions here) = sheet.ownAttributes := by
  induction unfolds generalizing here with
  | done => cases among
  | kept _ ih =>
    obtain ⟨sheet, read, same⟩ := ih once among
    refine ⟨sheet, read, ?_⟩
    have other : file.2 ≠ here := by
      -- a file that is entered is not the one at hand
      rintro rfl
      exact (List.nodup_cons.mp once).1 (List.mem_map_of_mem among)
    rw [Expansion.contributions, Expansion.contributed_cons_of_ne other, same]
  | passed _ _ ih => exact ih once among
  | @entered path kind name span items target location sheet inner rest _ read
      _ unfoldsInner _ ihInner
      ihRest =>
    -- the file at hand, the one that is entered, those entered from it and those after it are apart
    simp only [Expansion.reached_entered, List.nodup_cons, List.nodup_append, List.mem_cons,
      List.mem_append, not_or] at once
    obtain ⟨⟨notTarget, notInner, notRest⟩, ⟨targetNotInner, targetNotRest⟩, onceInner, onceRest,
      apart⟩ := once
    rw [Expansion.contributions]
    simp only [Expansion.contributed_append]
    rcases List.mem_cons.mp among with rfl | among
    · -- the file that is entered here
      refine ⟨sheet, read, ?_⟩
      rw [contributed_of_unfolds unfoldsInner targetNotInner,
        Expansion.contributed_of_not_reached (Ne.symm notTarget) targetNotRest, List.append_nil]
      rfl
    rcases List.mem_append.mp among with among | among
    · -- a file that is entered from there
      have within : file.2 ∈ inner.reached := List.mem_map_of_mem among
      obtain ⟨own, readOwn, same⟩ := ihInner (List.nodup_cons.mpr ⟨targetNotInner, onceInner⟩) among
      refine ⟨own, readOwn, ?_⟩
      rw [same, Expansion.contributed_of_not_reached ?_ ?_, List.append_nil]
      · rintro rfl
        exact notInner within
      · exact fun later => apart _ within _ later rfl
    · -- a file that is entered later
      have within : file.2 ∈ rest.reached := List.mem_map_of_mem among
      obtain ⟨own, readOwn, same⟩ := ihRest (List.nodup_cons.mpr ⟨notRest, onceRest⟩) among
      refine ⟨own, readOwn, ?_⟩
      rw [same, Expansion.contributed_of_not_reached ?_ ?_, List.nil_append]
      · intro sameFile
        exact targetNotRest (sameFile ▸ within)
      · exact fun earlier => apart _ earlier _ within rfl

/-- A form that asks for a file names a path that leads to it. -/
theorem knownFileAt_of_mem_visits {path : Path} {items : List Item} {expansion : Expansion}
    (unfolds : Unfolds w options path items expansion) {visit : Visit}
    (among : visit ∈ expansion.visits) :
    w.knownFileAt visit.target = .ok (some visit.location) := by
  induction unfolds with
  | done => cases among
  | kept _ ih => exact ih among
  | passed found _ ih =>
    rcases List.mem_cons.mp among with rfl | among
    · exact knownFileAt_of_firstFile found
    · exact ih among
  | entered found _ _ _ _ ihInner ihRest =>
    rcases List.mem_cons.mp among with rfl | among
    · exact knownFileAt_of_firstFile found
    rcases List.mem_append.mp among with among | among
    · exact ihInner among
    · exact ihRest among

/-- The files that are entered are listed in the world. -/
theorem mem_locations_of_mem_reached {path : Path} {items : List Item} {expansion : Expansion}
    (unfolds : Unfolds w options path items expansion) {location : Location}
    (among : location ∈ expansion.reached) : location ∈ w.locations := by
  induction unfolds with
  | done => cases among
  | kept _ ih => exact ih among
  | passed _ _ ih => exact ih among
  | entered found _ _ _ _ ihInner ihRest =>
    rw [Expansion.reached_entered, List.mem_cons, List.mem_append] at among
    rcases among with rfl | among | among
    · exact (resolve_of_knownFileAt (knownFileAt_of_firstFile found)).2
    · exact ihInner among
    · exact ihRest among

/-! ## The course of a scan -/

/-- How a scan goes that starts from the file at `path`, which stands at `root`. -/
structure Course (w : World) (options : ScanOptions) (path : Path) (root : Location) (sheet : Sheet)
    (expansion : Expansion) (attributes : List Attribute) : Prop where
  read : (w.sheet path).outcome = .ok (some root, sheet)
  unfolds : Unfolds w options path sheet.items expansion
  attributes_eq : attributes = (expansion.contributions root).map Prod.snd
  /-- A form is entered exactly if it does not ask for the root, and no form before it asks for the
  same file. -/
  first : ∀ before visit after, expansion.visits = before ++ visit :: after →
    (visit.isEntered = true ↔ visit.location ∉ root :: before.map Visit.location)
  once : (root :: expansion.reached).Nodup
  /-- Every file that is reached contributes its own attributes. -/
  own : ∀ file ∈ (path, root) :: expansion.files, ∃ sheet,
    (w.sheet file.1).outcome = .ok (some file.2, sheet) ∧
      Expansion.contributed file.2 (expansion.contributions root) = sheet.ownAttributes
  /-- What tells files apart is where their paths resolve to. -/
  resolved : w.resolve path = .ok (Path.ofLocation root) ∧
    ∀ visit ∈ expansion.visits, w.resolve visit.target = .ok (Path.ofLocation visit.location)
  listed : ∀ location ∈ root :: expansion.reached, location ∈ w.locations

/-- A scan goes as the items of its file unfold, if every file is entered where it has not been
seen. -/
theorem course_of_fresh {path : Path} {root : Location} {sheet : Sheet} {expansion : Expansion}
    (read : (w.sheet path).outcome = .ok (some root, sheet))
    (unfolds : Unfolds w options path sheet.items expansion) (fresh : expansion.Fresh [root]) :
    Course w options path root sheet expansion ((expansion.contributions root).map Prod.snd) := by
  obtain ⟨once, new⟩ := Expansion.nodup_reached fresh
  have onceAll : (root :: expansion.reached).Nodup :=
    List.nodup_cons.mpr ⟨fun among => new root among (by simp), once⟩
  obtain ⟨resolvedRoot, listedRoot⟩ := resolve_of_knownFileAt (knownFileAt_of_sheet read)
  constructor
  case read => exact read
  case unfolds => exact unfolds
  case attributes_eq => rfl
  case first => exact fun before visit after parts => Expansion.isEntered_iff fresh parts
  case once => exact onceAll
  case own =>
    intro file among
    rcases List.mem_cons.mp among with rfl | among
    · exact ⟨sheet, read, contributed_of_unfolds unfolds (List.nodup_cons.mp onceAll).1⟩
    · exact exists_sheet_of_mem_files unfolds onceAll among
  case resolved =>
    exact ⟨resolvedRoot, fun visit among =>
      (resolve_of_knownFileAt (knownFileAt_of_mem_visits unfolds among)).1⟩
  case listed =>
    intro location among
    rcases List.mem_cons.mp among with rfl | among
    · exact listedRoot
    · exact mem_locations_of_mem_reached unfolds among

/-- A scan that gives attributes has a course. -/
theorem exists_course_of_scan {path : Path} {attributes : List Attribute}
    (scanned : (w.scan options path).outcome = .ok attributes) :
    ∃ root sheet expansion, Course w options path root sheet expansion attributes := by
  -- the root is read first, and its items unfold
  simp only [scan, Traced.outcome_bind_eq_ok_iff] at scanned
  obtain ⟨⟨location?, sheet⟩, read, scan, scannedItems, _, finished, same⟩ := scanned
  cases same
  obtain ⟨root, rfl, -⟩ := exists_location_of_sheet read
  obtain ⟨expansion, unfolds, fresh, attributes, -⟩ := exists_expansion_of_scanItems scannedItems
  exact ⟨root, sheet, expansion, attributes root ▸ course_of_fresh read unfolds fresh⟩

/-- A scan of any include graph ends: it never goes deeper than there are files.  If it gives
attributes, then every file that it reaches contributes its own attributes once, in their order, at
the first form that asks for it. -/
theorem course_of_scan (w : World) (options : ScanOptions) (path : Path) :
    (∀ limit, w.locations.length ≤ limit →
      w.scan { options with depth := some limit } path =
        w.scan { options with depth := none } path ∧
        (w.scan { options with depth := some limit } path).outcome ≠ .error .nesting) ∧
      ∀ attributes, (w.scan options path).outcome = .ok attributes →
        ∃ root sheet expansion, Course w options path root sheet expansion attributes := by
  constructor
  · -- the root is seen at the start, so at most the other files are left to enter
    intro limit enough
    have unlimited : w.scan { options with depth := some limit } path =
        w.scan { options with depth := none } path := by
      refine bind_congr fun ⟨location?, sheet⟩ => ?_
      have within : (w.unseen location?.toList).length ≤ limit :=
        Nat.le_trans (List.length_filter_le _ _) enough
      dsimp only
      rw [scanItems_of_enough within (some limit) none]
      rfl
    refine ⟨unlimited, unlimited ▸ ?_⟩
    refine Traced.outcome_bind_ne_error (outcome_sheet_ne_nesting path) fun ⟨_, sheet⟩ => ?_
    refine Traced.outcome_bind_ne_error (outcome_scanItems_ne_nesting _ _ _) fun scan => ?_
    exact Traced.outcome_bind_ne_error (outcome_finish_ne_nesting sheet _) fun _ => nofun
  · exact fun attributes scanned => exists_course_of_scan scanned

/-- Two files that include each other, the second also by a link to it. -/
def circle : World where
  entries := [
    (["a.erl"], .ofText "-include(\"b.hrl\").\n-spec f() -> t().\n-include(\"c.hrl\").\n"),
    (["b.hrl"], .ofText "-include(\"a.erl\").\n-type t() :: ok.\n"),
    (["c.hrl"], .link "b.hrl")]
  workingDirectory := []
  system := .ofHome "/"
  programDirectories := []

namespace circle

def specification : Attribute := ⟨"spec", "f() -> t()", ⟨"/a.erl", 2, 1, 2, 16⟩⟩

def naming : Attribute := ⟨"type", "t() :: ok", ⟨"/b.hrl", 2, 1, 2, 15⟩⟩

def first : Sheet := ⟨⟨.root, ["a.erl"]⟩,
  [.inclusion .file "b.hrl" ⟨"/a.erl", 1, 1, 1, 17⟩, .kept specification,
    .inclusion .file "c.hrl" ⟨"/a.erl", 3, 1, 3, 17⟩], none⟩

def second : Sheet := ⟨⟨.root, ["b.hrl"]⟩,
  [.inclusion .file "a.erl" ⟨"/b.hrl", 1, 1, 1, 17⟩, .kept naming], none⟩

end circle

theorem outcome_scan_circle :
    (circle.scan .default ⟨.root, ["a.erl"]⟩).outcome =
      .ok [circle.naming, circle.specification] := by
  have readFirst : (circle.sheet ⟨.root, ["a.erl"]⟩).outcome =
      .ok (some ["a.erl"], circle.first) := Traced.eq_ok_of_toOption (by decide +kernel)
  have readSecond : (circle.sheet ⟨.root, ["b.hrl"]⟩).outcome =
      .ok (some ["b.hrl"], circle.second) := Traced.eq_ok_of_toOption (by decide +kernel)
  have toSecond :
      circle.firstFile (ScanOptions.default.candidates .file "b.hrl" ⟨.root, ["a.erl"]⟩) =
      .ok (some (⟨.root, ["b.hrl"]⟩, ["b.hrl"])) := Traced.eq_ok_of_toOption (by decide +kernel)
  have toLink : circle.firstFile (ScanOptions.default.candidates .file "c.hrl" ⟨.root, ["a.erl"]⟩) =
      .ok (some (⟨.root, ["c.hrl"]⟩, ["b.hrl"])) := Traced.eq_ok_of_toOption (by decide +kernel)
  have back : circle.firstFile (ScanOptions.default.candidates .file "a.erl" ⟨.root, ["b.hrl"]⟩) =
      .ok (some (⟨.root, ["a.erl"]⟩, ["a.erl"])) := Traced.eq_ok_of_toOption (by decide +kernel)
  have inner : (circle.scanItems .default (some 979) ⟨.root, ["b.hrl"]⟩ [["b.hrl"], ["a.erl"]]
      circle.second.items).outcome = .ok ⟨[circle.naming], []⟩ := by
    rw [circle.second, scanItems_of_seen back (by decide), scanItems_kept, scanItems_nil]
    rfl
  have outer : (circle.scanItems .default (some 980) ⟨.root, ["a.erl"]⟩ [["a.erl"], ["b.hrl"]]
      (circle.first.items.drop 1)).outcome = .ok ⟨[circle.specification], []⟩ := by
    rw [circle.first, List.drop_one, List.tail_cons, scanItems_kept,
      scanItems_of_seen toLink (by decide), scanItems_nil]
    rfl
  have whole : (circle.scanItems .default (some 980) ⟨.root, ["a.erl"]⟩ [["a.erl"]]
      circle.first.items).outcome = .ok ⟨[circle.naming, circle.specification], [["b.hrl"]]⟩ := by
    rw [circle.first, scanItems_of_new toSecond (by decide) rfl]
    simp only [Traced.outcome_bind_eq_ok_iff]
    exact ⟨_, readSecond, _, inner, (), rfl, _, outer, rfl⟩
  rw [scan]
  simp only [Traced.outcome_bind_eq_ok_iff]
  exact ⟨_, readFirst, _, whole, (), rfl, rfl⟩

theorem course_of_scan_circle : ∃ root sheet expansion,
    Course circle .default ⟨.root, ["a.erl"]⟩ root sheet expansion
      [circle.naming, circle.specification] :=
  (course_of_scan circle .default ⟨.root, ["a.erl"]⟩).2 _ outcome_scan_circle

end SignatureIndex.World
