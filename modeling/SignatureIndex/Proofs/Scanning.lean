import SignatureIndex.Proofs.Following
import SignatureIndex.Proofs.Outcomes

/-!
# Scanning, step by step

A scan goes on from each kind of item in one way.  From a form that asks for a file there are five:
the world gives no answer, the file is not there, it has been reached before, it lies too deep, or
it is entered.  These are the cases of an induction along a scan.

Entering a file leaves fewer files to enter, so a limit on the depth of inclusion never bites if it
is at least the number of files, and without a limit nothing is ever too deep.
-/

namespace SignatureIndex.World

variable {w : World} {options : ScanOptions}

/-- A file that is found is at one of the places where it was looked for, and known there. -/
theorem known_of_firstFile {paths : List Path} {target : Path} {location : Location}
    (found : w.firstFile paths = .ok (some (target, location))) :
    target ∈ paths ∧ w.knownFileAt target = .ok (some location) := by
  obtain ⟨path, among, found⟩ := exists_of_findSomeM?_eq_some found
  rw [bind_eq_ok_iff] at found
  obtain ⟨place?, known, same⟩ := found
  obtain ⟨place, rfl, same⟩ := Option.map_eq_some_iff.mp (Except.ok.inj same)
  cases same
  exact ⟨among, known⟩

theorem knownFileAt_of_firstFile {paths : List Path} {target : Path} {location : Location}
    (found : w.firstFile paths = .ok (some (target, location))) :
    w.knownFileAt target = .ok (some location) := (known_of_firstFile found).2

/-- A file is read as a sheet if its bytes can be read and decoded, it is known where it is, and
its comments can be blanked out. -/
theorem outcome_sheet_eq_ok_iff {path : Path} {location? : Option Location} {sheet : Sheet} :
    (w.sheet path).outcome = .ok (location?, sheet) ↔ ∃ bytes source,
      w.readBytes path = .ok bytes ∧ Source.read path bytes = .ok source ∧
        w.knownFileAt path = .ok location? ∧ Sheet.ofSource source = .ok sheet := by
  unfold World.sheet
  constructor
  · intro read
    split at read
    · next reason _ => cases reason <;> cases read
    next bytes bytesRead =>
      simp only [Traced.outcome_bind_eq_ok_iff, Traced.outcome_ofSource_eq_ok_iff,
        Traced.outcome_ofFile_eq_ok_iff, Traced.outcome_pure] at read
      obtain ⟨source, sourceRead, place?, known, other, sheetOf, same⟩ := read
      cases same
      exact ⟨bytes, source, bytesRead, sourceRead, known, sheetOf⟩
  · rintro ⟨bytes, source, bytesRead, sourceRead, known, sheetOf⟩
    simp only [bytesRead, Traced.outcome_bind_eq_ok_iff, Traced.outcome_ofSource_eq_ok_iff,
      Traced.outcome_ofFile_eq_ok_iff]
    exact ⟨source, sourceRead, location?, known, sheet, sheetOf, rfl⟩

/-- A file that was read is a file that is known. -/
theorem exists_location_of_sheet {path : Path} {location? : Option Location} {sheet : Sheet}
    (read : (w.sheet path).outcome = .ok (location?, sheet)) :
    ∃ location, location? = some location ∧ w.knownFileAt path = .ok (some location) := by
  obtain ⟨bytes, -, bytesRead, -, known, -⟩ := outcome_sheet_eq_ok_iff.mp read
  have file := isFile_of_readBytes bytesRead
  rw [isFile, (fileAt_of_knownFileAt known).1] at file
  -- what could be read is a file, so its location is known
  cases location? with
  | none => cases file
  | some location => exact ⟨location, rfl, known⟩

theorem knownFileAt_of_sheet {path : Path} {location : Location} {sheet : Sheet}
    (read : (w.sheet path).outcome = .ok (some location, sheet)) :
    w.knownFileAt path = .ok (some location) := by
  obtain ⟨place, same, known⟩ := exists_location_of_sheet read
  exact same ▸ known

/-! ## The ways a scan goes on -/

section Equations

variable {depth : Option Nat} {path : Path} {seen : List Location} {kind : IncludeKind}
    {name : String} {span : Span} {items : List Item}

theorem scanItems_nil : w.scanItems options depth path seen [] = pure ⟨[], []⟩ := by
  rw [scanItems.eq_def]

theorem scanItems_kept {content : Attribute} :
    w.scanItems options depth path seen (.kept content :: items) =
      (do
        let scan ← w.scanItems options depth path seen items
        pure ⟨content :: scan.attributes, scan.reached⟩) := by
  rw [scanItems.eq_def]

theorem scanItems_malformed :
    w.scanItems options depth path seen (.malformedInclusion kind span :: items) =
      Traced.problem (.source (.malformedInclude kind.name span)) := by
  rw [scanItems.eq_def]

theorem scanItems_of_error {e : FileError}
    (failed : w.firstFile (options.candidates kind name path) = .error e) :
    w.scanItems options depth path seen (.inclusion kind name span :: items) =
      Traced.fail (.file e) := by
  rw [scanItems.eq_def]
  simp only [failed]

theorem scanItems_of_none (absent : w.firstFile (options.candidates kind name path) = .ok none) :
    w.scanItems options depth path seen (.inclusion kind name span :: items) =
      Traced.problem
        (.source (.includeNotFound name (options.candidates kind name path) span)) := by
  rw [scanItems.eq_def]
  simp only [absent]

variable {target : Path} {location : Location}
  (found : w.firstFile (options.candidates kind name path) = .ok (some (target, location)))
include found

theorem scanItems_of_seen (old : location ∈ seen) :
    w.scanItems options depth path seen (.inclusion kind name span :: items) =
      w.scanItems options depth path seen items := by
  rw [scanItems.eq_def]
  simp only [found,
    dif_neg (show ¬(location ∈ w.locations ∧ location ∉ seen) from fun new => new.2 old)]

theorem scanItems_of_deep (new : location ∉ seen) (deep : ScanOptions.inner? depth = none) :
    w.scanItems options depth path seen (.inclusion kind name span :: items) =
      Traced.fail .nesting := by
  have listed := (resolve_of_knownFileAt (knownFileAt_of_firstFile found)).2
  rw [scanItems.eq_def]
  simp only [found, dif_pos (And.intro listed new), deep]

theorem scanItems_of_new (new : location ∉ seen) {inside : Option Nat}
    (deeper : ScanOptions.inner? depth = some inside) :
    w.scanItems options depth path seen (.inclusion kind name span :: items) =
      (do
        let (_, sheet) ← w.sheet target
        let inner ← w.scanItems options inside target (location :: seen) sheet.items
        finish options sheet inner.attributes
        let outer ← w.scanItems options depth path (seen ++ location :: inner.reached) items
        pure ⟨inner.attributes ++ outer.attributes,
          location :: inner.reached ++ outer.reached⟩) := by
  have listed := (resolve_of_knownFileAt (knownFileAt_of_firstFile found)).2
  rw [scanItems.eq_def]
  simp only [found, dif_pos (And.intro listed new), deeper]

end Equations

/-- Induction along a scan, in the cases that the equations above tell apart. -/
theorem scanItems_induction (w : World) (options : ScanOptions)
    {motive : Option Nat → Path → List Location → List Item → Prop}
    (done : ∀ depth path seen, motive depth path seen [])
    (kept : ∀ depth path seen content items, motive depth path seen items →
      motive depth path seen (.kept content :: items))
    (malformed : ∀ depth path seen kind span items,
      motive depth path seen (.malformedInclusion kind span :: items))
    (unanswered : ∀ depth path seen kind name span items e,
      w.firstFile (options.candidates kind name path) = .error e →
      motive depth path seen (.inclusion kind name span :: items))
    (absent : ∀ depth path seen kind name span items,
      w.firstFile (options.candidates kind name path) = .ok none →
      motive depth path seen (.inclusion kind name span :: items))
    (deep : ∀ depth path seen kind name span items target location,
      w.firstFile (options.candidates kind name path) = .ok (some (target, location)) →
      location ∉ seen → ScanOptions.inner? depth = none →
      motive depth path seen (.inclusion kind name span :: items))
    (entered : ∀ depth path seen kind name span items target location inside,
      w.firstFile (options.candidates kind name path) = .ok (some (target, location)) →
      location ∉ seen → ScanOptions.inner? depth = some inside →
      (∀ sheet : Sheet, motive inside target (location :: seen) sheet.items) →
      (∀ inner : Scan, motive depth path (seen ++ location :: inner.reached) items) →
      motive depth path seen (.inclusion kind name span :: items))
    (passed : ∀ depth path seen kind name span items target location,
      w.firstFile (options.candidates kind name path) = .ok (some (target, location)) →
      location ∈ seen → motive depth path seen items →
      motive depth path seen (.inclusion kind name span :: items))
    (depth : Option Nat) (path : Path) (seen : List Location) (items : List Item) :
    motive depth path seen items := by
  refine scanItems.induct w options motive done kept malformed unanswered absent ?_ ?_ ?_
    depth path seen items
  · intro depth path seen kind name span items _ target location found new
    exact deep depth path seen kind name span items target location found new.2
  · intro depth path seen kind name span items _ target location found new inside deeper _
    exact entered depth path seen kind name span items target location inside found new.2 deeper
  · -- a file that is found is listed, so it is passed over only if it has been reached
    intro depth path seen kind name span items _ target location found old
    have listed := (resolve_of_knownFileAt (knownFileAt_of_firstFile found)).2
    exact passed depth path seen kind name span items target location found
      (Decidable.of_not_not fun new => old ⟨listed, new⟩)

theorem outcome_finish_eq_ok_iff {sheet : Sheet} {attributes : List Attribute} :
    (finish options sheet attributes).outcome = .ok () ↔ sheet.unfinished = none := by
  unfold finish
  split
  · next span unfinished => simp [unfinished, Traced.problem, Traced.fail]
  · next finished => split <;> simp [finished]

/-! ## Depth -/

/-- A limit on the depth does not bite if it is at least the number of files that are left to
enter. -/
theorem scanItems_of_enough {limit : Nat} {path : Path} {seen : List Location} {items : List Item}
    (enough : (w.unseen seen).length ≤ limit) (first second : Option Nat) :
    w.scanItems { options with depth := first } (some limit) path seen items =
      w.scanItems { options with depth := second } none path seen items := by
  generalize chosen : some limit = depth
  induction depth, path, seen, items
    using scanItems_induction w { options with depth := first }
    generalizing limit with
  | done => rw [scanItems_nil, scanItems_nil]
  | kept depth path seen content items ih => rw [scanItems_kept, scanItems_kept, ih enough chosen]
  | malformed => rw [scanItems_malformed, scanItems_malformed]
  | unanswered depth path seen kind name span items e failed =>
    have same : w.firstFile (ScanOptions.candidates { options with depth :=
        second } kind name path) = .error e := failed
    rw [scanItems_of_error failed, scanItems_of_error same]
  | absent depth path seen kind name span items absent =>
    have same : w.firstFile (ScanOptions.candidates { options with depth :=
        second } kind name path) = .ok none := absent
    rw [scanItems_of_none absent, scanItems_of_none same]
    rfl
  | deep depth path seen kind name span items target location found new deep =>
    -- a file is left to enter, so the limit is not zero
    subst chosen
    have listed := (resolve_of_knownFileAt (knownFileAt_of_firstFile found)).2
    have fewer := w.length_unseen_cons_lt listed new
    cases limit with
    | zero => omega
    | succ limit => cases deep
  | entered depth path seen kind name span items target location inside found new deeper ihInner
      ihRest =>
    subst chosen
    have listed := (resolve_of_knownFileAt (knownFileAt_of_firstFile found)).2
    have fewer := w.length_unseen_cons_lt listed new
    cases limit with
    | zero => cases deeper
    | succ limit =>
      cases deeper
      have same : w.firstFile (ScanOptions.candidates { options with depth :=
          second } kind name path) = .ok (some (target, location)) := found
      have unlimited : ScanOptions.inner? none = some none := rfl
      -- the sheet, what it includes, and the items after it are the same one by one
      rw [scanItems_of_new found new rfl, scanItems_of_new same new unlimited]
      refine bind_congr fun ⟨_, sheet⟩ => ?_
      dsimp only
      rw [ihInner sheet (by omega) rfl]
      refine bind_congr fun inner => bind_congr fun _ => ?_
      have notMore := w.length_unseen_append_le seen (location :: inner.reached)
      rw [ihRest inner (by omega) rfl]
  | passed depth path seen kind name span items target location found old ih =>
    have same : w.firstFile (ScanOptions.candidates { options with depth :=
        second } kind name path) = .ok (some (target, location)) := found
    rw [scanItems_of_seen found old, scanItems_of_seen same old, ih enough chosen]

theorem outcome_sheet_ne_nesting (path : Path) : (w.sheet path).outcome ≠ .error .nesting := by
  have notSource {α : Type} (outcome : Except SourceProblem α) :
      (Traced.ofSource outcome).outcome ≠ .error .nesting := by
    cases outcome <;> exact nofun
  have notFile {α : Type} (outcome : Except FileError α) :
      (Traced.ofFile outcome).outcome ≠ .error .nesting := by
    cases outcome <;> exact nofun
  unfold World.sheet
  split
  · next reason _ => cases reason <;> exact nofun
  · refine Traced.outcome_bind_ne_error (notSource _) fun source => ?_
    refine Traced.outcome_bind_ne_error (notFile _) fun location => ?_
    exact Traced.outcome_bind_ne_error (notSource _) fun sheet => nofun

theorem outcome_finish_ne_nesting (sheet : Sheet) (attributes : List Attribute) :
    (finish options sheet attributes).outcome ≠ .error .nesting := by
  unfold finish
  split
  · exact nofun
  · split <;> exact nofun

/-- Without a limit on the depth no scan goes too deep. -/
theorem outcome_scanItems_ne_nesting (path : Path) (seen : List Location) (items : List Item) :
    (w.scanItems options none path seen items).outcome ≠ .error .nesting := by
  generalize unlimited : none = depth
  induction depth, path, seen, items using scanItems_induction w options with
  | done =>
    rw [scanItems_nil]
    exact nofun
  | kept depth path seen content items ih =>
    rw [scanItems_kept]
    exact Traced.outcome_bind_ne_error (ih unlimited) fun scan => nofun
  | malformed =>
    rw [scanItems_malformed]
    exact nofun
  | unanswered depth path seen kind name span items e failed =>
    rw [scanItems_of_error failed]
    exact nofun
  | absent depth path seen kind name span items absent =>
    rw [scanItems_of_none absent]
    exact nofun
  | deep depth path seen kind name span items target location found new deep =>
    -- without a limit there is always a next depth
    subst unlimited
    cases deep
  | entered depth path seen kind name span items target location inside found new deeper ihInner
      ihRest =>
    subst unlimited
    cases deeper
    rw [scanItems_of_new found new rfl]
    refine Traced.outcome_bind_ne_error (outcome_sheet_ne_nesting target) fun ⟨_, sheet⟩ => ?_
    refine Traced.outcome_bind_ne_error (ihInner sheet rfl) fun inner => ?_
    refine Traced.outcome_bind_ne_error (outcome_finish_ne_nesting sheet _) fun _ => ?_
    exact Traced.outcome_bind_ne_error (ihRest inner rfl) fun outer => nofun
  | passed depth path seen kind name span items target location found old ih =>
    rw [scanItems_of_seen found old]
    exact ih unlimited

end SignatureIndex.World
