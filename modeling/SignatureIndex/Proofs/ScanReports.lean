import SignatureIndex.Proofs.Completions
import SignatureIndex.Proofs.Unwinding
import SignatureIndex.Proofs.Verbosity

/-!
# What a verbose scan reports

A verbose scan reports each file when it comes to its end, and nothing else.  So every file that is
reached is reported once, after all files that it has opened, and with as many attributes as it came
to.

A scan that stops reports the files that it has come to the end of.  The file in which the fault
arises is not among them, and neither are the files that include it on the way: none of these has
come to its end.
-/

namespace SignatureIndex

namespace Traced

variable {α β : Type} {first : Traced α} {next : α → Traced β}

theorem events_bind_of_ok {value : α} (succeeds : first.outcome = .ok value) :
    (first >>= next).events = first.events ++ (next value).events := by
  rw [bind_eq, Traced.bind, succeeds]

theorem events_bind_of_error {fault : Fault} (failed : first.outcome = .error fault) :
    (first >>= next).events = first.events := by
  rw [bind_eq, Traced.bind, failed]

private theorem events_bind_eq_nil (silent : first.events = [])
    (later : ∀ value, (next value).events = []) :
    (first >>= next).events = [] := by
  cases outcome : first.outcome with
  | error fault => exact (events_bind_of_error outcome).trans silent
  | ok value => rw [events_bind_of_ok outcome, silent, later, List.append_nil]

theorem events_bind_pure (first : Traced α) (map : α → β) :
    (first >>= fun value => pure (map value)).events = first.events := by
  cases outcome : first.outcome with
  | error fault => exact events_bind_of_error outcome
  | ok value => exact (events_bind_of_ok outcome).trans (List.append_nil _)

end Traced

namespace World

variable {w : World} {options : ScanOptions} {depth : Option Nat} {path : Path}
    {seen now : List Location} {items more : List Item} {expansion : Expansion}
    {location : Location} {sheet : Sheet} {fault : Fault}

/-! ## What is reported on the way -/

theorem events_sheet (w : World) (path : Path) : (w.sheet path).events = [] := by
  have ofSource {α : Type} (outcome : Except SourceProblem α) :
      (Traced.ofSource outcome).events = [] := by
    cases outcome <;> rfl
  have ofFile {α : Type} (outcome : Except FileError α) : (Traced.ofFile outcome).events = [] := by
    cases outcome <;> rfl
  unfold World.sheet
  split
  · rfl
  · apply Traced.events_bind_eq_nil (ofSource _)
    intro source
    apply Traced.events_bind_eq_nil (ofFile _)
    intro location
    exact Traced.events_bind_eq_nil (ofSource _) fun sheet => rfl

private theorem sheet_eq_pure {result : Option Location × Sheet}
    (read : (w.sheet path).outcome = .ok result) :
    w.sheet path = pure result := by
  have silent := w.events_sheet path
  generalize w.sheet path = operation at read silent
  obtain ⟨events, outcome⟩ := operation
  cases read
  cases silent
  rfl

private theorem path_of_sheet {location? : Option Location}
    (read : (w.sheet path).outcome = .ok (location?, sheet)) :
    sheet.path = path := by
  obtain ⟨location, source, clean, -, opens, rfl⟩ := outcome_sheet_eq_ok_iff_opens.mp read
  obtain ⟨bytes, -, sourceRead⟩ := opens.read
  cases decoded : (Encoding.ofBytes bytes).decode bytes with
  | error rest => cases (Source.read_of_fault decoded).symm.trans sourceRead
  | ok text =>
    cases (Source.read_of_decode decoded).symm.trans sourceRead
    rfl

/-- A file that opens is reported by its items, and by itself if it comes to its end. -/
theorem scanFile_eq (read : (w.sheet path).outcome = .ok (some location, sheet)) :
    w.scanFile options depth path seen = (do
      let scan ← w.scanItems options depth path (location :: seen) sheet.items
      finish options sheet scan.attributes
      pure scan) := by
  rw [scanFile, sheet_eq_pure read, pure_bind]
  rfl

section Verbose

variable (verbose : options.verbose = true)
include verbose

private theorem finish_of_finished (finished : sheet.unfinished = none)
    (attributes : List Attribute) : finish options sheet attributes =
      Traced.report .info .scanner s!"scanned {sheet.path}: {attributes.length} attribute(s)" := by
  rw [finish, finished]
  exact if_pos verbose

/-- A file that a scan comes to the end of is reported after all that is reported in it. -/
theorem events_scanFile_of_unfolds (read : (w.sheet path).outcome = .ok (some location, sheet))
    (finished : sheet.unfinished = none) (opener : Option Location)
    (unfolds : Unfolds w options path sheet.items expansion)
    (fresh : expansion.Fresh (location :: seen)) (fits : expansion.Fits depth) :
    (w.scanFile options depth path seen).events =
      (w.scanItems options depth path (location :: seen) sheet.items).events ++
        [Completion.event ⟨opener, path, location, expansion⟩] := by
  have scanned := (outcome_scanItems_eq_ok_iff unfolds fresh).mpr ⟨fits, rfl⟩
  rw [scanFile_eq read, Traced.events_bind_of_ok scanned, Traced.events_bind_pure,
    finish_of_finished verbose finished, path_of_sheet read]
  rfl

/-- Behind items that a scan gets past, it reports what it would report of the rest. -/
theorem events_scanItems_append (unfolds : Unfolds w options path items expansion)
    (fresh : expansion.Fresh seen) (fits : expansion.Fits depth) (here : Location)
    (more : List Item) :
    (w.scanItems options depth path seen (items ++ more)).events =
      (expansion.completions here).map Completion.event ++
        (w.scanItems options depth path (seen ++ expansion.reached) more).events := by
  -- the induction is on how the items unfold; a file that is entered counts as seen for the items
  -- after it
  induction unfolds generalizing seen depth here more with
  | done path =>
    rw [Expansion.reached_done, List.append_nil]
    rfl
  | kept _ ih =>
    rw [List.cons_append, scanItems_kept, Traced.events_bind_pure]
    exact ih fresh fits here more
  | passed found _ ih =>
    rw [List.cons_append, scanItems_of_seen found fresh.1]
    exact ih fresh.2 fits here more
  | @entered path kind name span items target location sheet inner rest found read finished
      unfoldsInner _ ihInner
      ihRest =>
    obtain ⟨new, freshInner, freshRest⟩ := fresh
    obtain ⟨⟨inside, deeper, fitsInner⟩, fitsRest⟩ := fits
    have scanned := (outcome_scanItems_eq_ok_iff unfoldsInner freshInner).mpr ⟨fitsInner, rfl⟩
    have entered := outcome_scanFile_eq_ok_iff.mpr ⟨location, sheet, read, scanned, finished⟩
    have whole := ihInner freshInner fitsInner location []
    have later := ihRest freshRest fitsRest here more
    rw [List.append_nil, scanItems_nil] at whole
    have inside :=
      events_scanFile_of_unfolds verbose read finished (some here) unfoldsInner freshInner fitsInner
    rw [List.cons_append, scanItems_eq_bind_scanFile found new deeper,
      Traced.events_bind_of_ok entered, Traced.events_bind_pure, inside, whole, later]
    simp [Expansion.completions, Traced.pure_eq]

theorem events_scanItems_of_unfolds (unfolds : Unfolds w options path items expansion)
    (fresh : expansion.Fresh seen) (fits : expansion.Fits depth) (here : Location) :
    (w.scanItems options depth path seen items).events =
      (expansion.completions here).map Completion.event := by
  have whole := events_scanItems_append verbose unfolds fresh fits here []
  rw [List.append_nil, scanItems_nil] at whole
  exact whole.trans (List.append_nil _)

end Verbose

/-! ## What the reports tell of a scan -/

/-- Whether completions account for a scan that starts from the file at `path`, which stands at
`root`, and comes to these attributes. -/
structure Accounts (w : World) (options : ScanOptions) (path : Path) (root : Location)
    (expansion : Expansion) (attributes : List Attribute) (records : List Completion) : Prop where
  /-- The root comes last, with all attributes. -/
  last : ∃ others record, records = others ++ [record] ∧ record.path = path ∧
    record.location = root ∧ record.count = attributes.length ∧ record.opener = none ∧
    ∀ other ∈ others, other.opener ≠ none
  /-- Every file comes once, whatever path leads to it. -/
  once : (records.map Completion.location).Nodup ∧
    ∀ record ∈ records, w.resolve record.path = .ok (Path.ofLocation record.location)
  /-- Every file that one of them asks for is among them. -/
  asked : ∀ record ∈ records, ∀ kind name, w.HasInclusion record.path kind name → ∃ target location,
    w.firstFile (options.candidates kind name record.path) = .ok (some (target, location)) ∧
      location ∈ records.map Completion.location
  /-- A file comes after the files that it has opened. -/
  after : ∀ before record later, records = before ++ record :: later →
    ∀ inner ∈ records, inner.opener = some record.location → inner ∈ before
  /-- A file comes to its own attributes and to those that the files it has opened come to. -/
  counted : ∀ record ∈ records, ∃ sheet, (w.sheet record.path).outcome =
    .ok (some record.location, sheet) ∧ record.count = sheet.ownAttributes.length +
      Completion.total (Expansion.openedBy record.location records)
  /-- A file is opened by the form that enters it. -/
  opened : ∀ outer target location, (outer, ⟨target, location, true⟩) ∈ expansion.forms root ↔
    ∃ record ∈ records, record.opener = some outer ∧ record.path = target ∧
    record.location = location
  /-- It is entered by the first form, depth first, that asks for it. -/
  first : ∀ before outer visit later, expansion.forms root = before ++ (outer, visit) :: later →
    (visit.isEntered = true ↔ visit.location ∉ root :: before.map fun form => form.2.location)
  /-- The forms are those of the files themselves. -/
  stands : ∀ outer visit, (outer, visit) ∈ expansion.forms root →
    ∃ record ∈ records, record.location = outer ∧
    ∃ kind name, w.HasInclusion record.path kind name ∧
      w.firstFile (options.candidates kind name record.path) =
        .ok (some (visit.target, visit.location))

section Accounting

variable {root : Location} (read : (w.sheet path).outcome = .ok (some root, sheet))
  (unfolds : Unfolds w options path sheet.items expansion)
include read unfolds

/-- The completions of a scan, the root last. -/
theorem exists_sheet_of_mem_records {record : Completion}
    (among : record ∈ expansion.completionsFrom path root) :
    ∃ sheet, (w.sheet record.path).outcome = .ok (some record.location, sheet) ∧
      Unfolds w options record.path sheet.items record.held := by
  rcases Expansion.mem_completionsFrom.mp among with among | rfl
  · obtain ⟨sheet, read, -, unfolds⟩ := exists_sheet_of_mem_completions unfolds among
    exact ⟨sheet, read, unfolds⟩
  · exact ⟨sheet, read, unfolds⟩

/-- The completions of a scan account for it, if every file is entered where it has not been
seen. -/
theorem accounts_of_fresh (fresh : expansion.Fresh [root]) :
    Accounts w options path root expansion expansion.attributes
      (expansion.completionsFrom path root) := by
  have course := course_of_fresh read unfolds fresh
  have perm := Expansion.perm_completionsFrom path root expansion
  constructor
  case last =>
    -- only the file that the scan starts from has no opener
    refine ⟨_, _, rfl, rfl, rfl, rfl, rfl, fun other among => ?_⟩
    obtain ⟨outer, -, opens⟩ := Expansion.exists_opener_of_mem_completions among
    rw [opens]
    exact Option.some_ne_none outer
  case once =>
    refine ⟨perm.nodup_iff.mpr course.once, fun record among => ?_⟩
    obtain ⟨sheet, recordRead, -⟩ := exists_sheet_of_mem_records read unfolds among
    exact (resolve_of_knownFileAt (knownFileAt_of_sheet recordRead)).1
  case asked =>
    intro record among kind name asks
    obtain ⟨own, recordRead, recordUnfolds⟩ := exists_sheet_of_mem_records read unfolds among
    obtain ⟨location?, other, span, otherRead, listed⟩ := asks
    cases otherRead.symm.trans recordRead
    obtain ⟨visit, inside, found⟩ := exists_mem_asks_of_inclusion recordUnfolds listed
    refine ⟨visit.target, visit.location, found, perm.mem_iff.mpr ?_⟩
    exact Expansion.mem_of_mem_forms fresh
      (Expansion.mem_forms_iff_exists_asks.mpr ⟨record, among, rfl, inside⟩)
  case after =>
    exact fun before record later parts inner among opens =>
      Expansion.mem_before_of_opener course.once parts among opens
  case counted =>
    intro record among
    obtain ⟨own, recordRead, recordUnfolds⟩ := exists_sheet_of_mem_records read unfolds among
    refine ⟨own, recordRead, ?_⟩
    rw [Expansion.openedBy_completionsFrom course.once among]
    exact length_attributes_of_unfolds recordUnfolds record.location
  case opened =>
    intro outer target location
    rw [Expansion.mem_forms_iff_exists_completion]
    simp [or_and_right, exists_or]
  case first =>
    intro before outer visit later parts
    have visits : expansion.visits = before.map Prod.snd ++ visit :: later.map Prod.snd := by
      rw [← Expansion.map_snd_forms root, parts, List.map_append, List.map_cons]
    rw [course.first _ _ _ visits, List.map_map]
    rfl
  case stands =>
    intro outer visit among
    have standing : ∃ record ∈ expansion.completionsFrom path root,
        outer = record.location ∧ visit ∈ record.held.asks :=
      Expansion.mem_forms_iff_exists_asks.mp among
    obtain ⟨record, inside, rfl, asks⟩ := standing
    obtain ⟨own, recordRead, recordUnfolds⟩ := exists_sheet_of_mem_records read unfolds inside
    obtain ⟨kind, name, span, listed, found⟩ := exists_inclusion_of_mem_asks recordUnfolds asks
    exact ⟨record, inside, rfl, kind, name, ⟨_, own, span, recordRead, listed⟩, found⟩

end Accounting

/-- A verbose scan that gives attributes reports the files that it comes to the end of, and nothing
else. -/
theorem exists_accounts_of_scan (verbose : options.verbose = true) {attributes : List Attribute}
    (scanned : (w.scan options path).outcome = .ok attributes) : ∃ root sheet expansion,
      Course w options path root sheet expansion attributes ∧
        (w.scan options path).events = (expansion.completionsFrom path root).map Completion.event ∧
        Accounts w options path root expansion attributes
          (expansion.completionsFrom path root) := by
  rw [scan_eq_map_scanFile, map_eq_pure_bind] at scanned ⊢
  obtain ⟨scan, scannedFile, same⟩ := Traced.outcome_bind_eq_ok_iff.mp scanned
  obtain ⟨root, sheet, read, scannedItems, finished⟩ := outcome_scanFile_eq_ok_iff.mp scannedFile
  obtain ⟨expansion, unfolds, fresh, -, -⟩ := exists_expansion_of_scanItems scannedItems
  obtain ⟨fits, rfl⟩ := (outcome_scanItems_eq_ok_iff unfolds fresh).mp scannedItems
  cases same
  have course := course_of_fresh read unfolds fresh
  rw [Expansion.map_snd_contributions] at course
  refine ⟨root, sheet, expansion, course, ?_, accounts_of_fresh read unfolds fresh⟩
  rw [Traced.events_bind_pure,
    events_scanFile_of_unfolds verbose read finished none unfolds fresh fits,
    events_scanItems_of_unfolds verbose unfolds fresh fits root, Expansion.completionsFrom,
    List.map_append,
    List.map_singleton]

/-! ## What the reports tell of a scan that stops -/

/-- Whether completions are those of different files, each of which its path leads to and none of
which had been seen. -/
structure AreNew (w : World) (seen : List Location) (records : List Completion) : Prop where
  once : (records.map Completion.location).Nodup
  known : ∀ record ∈ records, w.knownFileAt record.path = .ok (some record.location)
  unseen : ∀ record ∈ records, record.location ∉ seen

theorem areNew_nil (w : World) (seen : List Location) : w.AreNew seen [] := ⟨.nil, nofun, nofun⟩

theorem areNew_completions (unfolds : Unfolds w options path items expansion)
    (fresh : expansion.Fresh seen) (here : Location) :
    w.AreNew seen (expansion.completions here) := by
  obtain ⟨once, new⟩ := Expansion.nodup_reached fresh
  constructor
  case once => exact (Expansion.perm_completions here expansion).nodup_iff.mpr once
  case known =>
    intro record among
    obtain ⟨sheet, read, -⟩ := exists_sheet_of_mem_completions unfolds among
    exact knownFileAt_of_sheet read
  case unseen => exact fun record among => new _ (Expansion.mem_reached_of_mem_completions among)

theorem AreNew.of_cons {records : List Completion} (new : w.AreNew (location :: seen) records) :
    w.AreNew seen records :=
  ⟨new.once, new.known, fun record among old =>
    new.unseen record among (List.mem_cons_of_mem _ old)⟩

/-- A file that counts as seen is not among files that are new. -/
theorem AreNew.unreported {records : List Completion} (new : w.AreNew (location :: seen) records)
    (known : w.knownFileAt path = .ok (some location)) :
    ∀ record ∈ records, w.knownFileAt path ≠ .ok (some record.location) := by
  intro record among same
  cases same.symm.trans known
  exact new.unseen record among List.mem_cons_self

/-- Files that had been seen earlier come before ones that had not. -/
theorem AreNew.append {first second : List Completion} (new : w.AreNew seen first)
    (within : ∀ record ∈ first, record.location ∈ now) (newer : w.AreNew now second)
    (grown : ∀ place ∈ seen, place ∈ now) : w.AreNew seen (first ++ second) := by
  have unseen : ∀ record ∈ second, record.location ∉ seen :=
    fun record among old => newer.unseen record among (grown _ old)
  constructor
  case once =>
    rw [List.map_append, List.nodup_append]
    refine ⟨new.once, newer.once, ?_⟩
    rintro _ early place late rfl
    obtain ⟨record, among, rfl⟩ := List.mem_map.mp early
    obtain ⟨other, amongLater, same⟩ := List.mem_map.mp late
    exact newer.unseen other amongLater (same ▸ within record among)
  case known =>
    intro record among
    exact (List.mem_append.mp among).elim (new.known record) (newer.known record)
  case unseen =>
    intro record among
    exact (List.mem_append.mp among).elim (new.unseen record) (unseen record)

section Stopped

variable (verbose : options.verbose = true)
include verbose

/-- Before a scan of a file stops in some items, it has reported the files that it has come to the
end of.  They count as seen then, so what is reported of these items comes to other files. -/
theorem Reaches.exists_records {later : List Completion}
    (reaches : w.Reaches options depth path seen items now)
    (failed : (w.scanItems options depth path now items).outcome = .error fault)
    (reports : (w.scanItems options depth path now items).events = later.map Completion.event)
    (newer : w.AreNew now later) : ∃ earlier,
      (w.scanFile options depth path seen).events = (earlier ++ later).map Completion.event ∧
        w.AreNew seen (earlier ++ later) ∧
        (∀ record ∈ earlier ++ later, w.knownFileAt path ≠ .ok (some record.location)) ∧
        ∀ record ∈ earlier, record.location ∈ now := by
  obtain ⟨location, source, clean, before, opens, parts, passes⟩ := reaches
  have stopped := passes.outcome_scanItems_append_eq_error_iff.mpr failed
  have read := outcome_sheet_eq_ok_iff_opens.mpr ⟨location, source, clean, rfl, opens, rfl⟩
  obtain ⟨expansion, unfolds, fresh, fits, rfl⟩ := passes
  have within : ∀ record ∈ expansion.completions location,
      record.location ∈ (location :: seen) ++ expansion.reached :=
    fun record among => List.mem_append_right _ (Expansion.mem_reached_of_mem_completions among)
  have new : w.AreNew (location :: seen) (expansion.completions location ++ later) :=
    (areNew_completions unfolds fresh location).append within newer fun place =>
    List.mem_append_left _
  refine ⟨expansion.completions location, ?_, new.of_cons, new.unreported opens.known, within⟩
  rw [← parts] at stopped
  rw [scanFile_eq read, Traced.events_bind_of_error stopped, parts,
    events_scanItems_append verbose unfolds fresh fits location items, reports, List.map_append]

/-- A scan that stops at an item of the file itself has reported what it has come to the end of
before. -/
theorem Reaches.exists_records_of_fail (reaches : w.Reaches options depth path seen items now)
    (failed : w.scanItems options depth path now items = Traced.fail fault) : ∃ records,
      (w.scanFile options depth path seen).events = records.map Completion.event ∧
        w.AreNew seen records ∧ ∀ record ∈ records, w.knownFileAt path ≠
          .ok (some record.location) := by
  have outcome := congrArg Traced.outcome failed
  have silent : (w.scanItems options depth path now items).events = List.map Completion.event [] :=
    congrArg Traced.events failed
  obtain ⟨earlier, events, new, unreported, -⟩ :=
    reaches.exists_records verbose outcome silent (w.areNew_nil now)
  exact ⟨_, events, new, unreported⟩

/-- A scan that gets through all items of a file and is left with something visible reports what it
has entered. -/
theorem Opens.exists_records_of_unfinished {source : Source} {clean : List Char} {first : Nat}
    (opens : w.Opens path location source clean)
    (passes : w.Passes options depth path (location :: seen) (itemsOf source clean) now)
    (visible : Text.IsFirstVisible clean (clean.length - (Form.split clean).2.length) first) :
      ∃ records, (w.scanFile options depth path seen).events = records.map Completion.event ∧
        w.AreNew seen records ∧ ∀ record ∈ records, w.knownFileAt path ≠
          .ok (some record.location) := by
  have read := outcome_sheet_eq_ok_iff_opens.mpr ⟨location, source, clean, rfl, opens, rfl⟩
  have unfinished := opens.unfinished?_eq_some_iff.mpr ⟨first, visible, rfl⟩
  obtain ⟨expansion, unfolds, fresh, fits, rfl⟩ := passes
  have scanned := (outcome_scanItems_eq_ok_iff unfolds fresh).mpr ⟨fits, rfl⟩
  have new := areNew_completions unfolds fresh location
  refine ⟨expansion.completions location, ?_, new.of_cons, new.unreported opens.known⟩
  rw [scanFile_eq read, Traced.events_bind_of_ok scanned, Traced.events_bind_pure,
    finish, unfinished, events_scanItems_of_unfolds verbose unfolds fresh fits location]
  exact List.append_nil _

/-- A scan that stops in the file itself does not report it. -/
theorem Fails.exists_records (fails : w.Fails options depth path seen fault)
    (own : ∀ inside target now other, w.Enters options depth path seen inside target now →
      ¬w.Fails options inside target now other) : ∃ records,
      (w.scanFile options depth path seen).events = records.map Completion.event ∧
        w.AreNew seen records ∧ ∀ record ∈ records, w.knownFileAt path ≠
          .ok (some record.location) := by
  cases fails with
  | rejected rejects =>
    -- nothing has been entered before the file is read
    have failed := outcome_sheet_eq_error_iff.mpr rejects
    exact ⟨[], (Traced.events_bind_of_error failed).trans (w.events_sheet path),
      w.areNew_nil seen, nofun⟩
  | malformed reaches => exact reaches.exists_records_of_fail verbose scanItems_malformed
  | absent reaches absent =>
    exact reaches.exists_records_of_fail verbose
      (scanItems_of_none (firstFile_eq_none_iff.mpr absent))
  | unanswered reaches parts absent unknown =>
    have stopped := firstFile_eq_error_iff.mpr ⟨_, _, _, parts, absent, unknown⟩
    exact reaches.exists_records_of_fail verbose (scanItems_of_error stopped)
  | deep reaches found new deep =>
    exact reaches.exists_records_of_fail verbose (scanItems_of_deep found new deep)
  | included reaches found new deeper fails =>
    exact absurd fails (own _ _ _ _ ⟨_, _, _, _, _, reaches, found, new, deeper⟩)
  | unfinished opens passes visible =>
    exact opens.exists_records_of_unfinished verbose passes visible

/-- A scan that stops in a file that it has come to enter reports what it has come to the end of
before, and then what the scan of that file reports. -/
theorem Enters.exists_records {inside : Option Nat} {target : Path} {chain : List Path}
    {later : List Completion} (enters : w.Enters options depth path seen inside target now)
    (deeper : w.Unwinds options inside target now fault chain)
    (reports : (w.scanFile options inside target now).events = later.map Completion.event)
    (newer : w.AreNew now later)
    (unreported : ∀ file ∈ chain, ∀ record ∈ later,
      w.knownFileAt file ≠ .ok (some record.location)) :
    ∃ records, (w.scanFile options depth path seen).events = records.map Completion.event ∧
      w.AreNew seen records ∧ ∀ file ∈ path :: chain, ∀ record ∈ records, w.knownFileAt file ≠
        .ok (some record.location) := by
  obtain ⟨kind, name, span, items, location, reaches, found, new, inner⟩ := enters
  have failed := outcome_scanFile_eq_error_iff_fails.mpr deeper.fails
  have stops : w.StopsAt options depth path now (.inclusion kind name span) fault :=
    deeper.fails.stopsAt found new inner
  have events : (w.scanItems options depth path now (.inclusion kind name span :: items)).events =
      later.map Completion.event := by
    rw [scanItems_eq_bind_scanFile found new inner, Traced.events_bind_of_error failed, reports]
  -- the scan stops before the items after the form, so only that file adds to what was reported
  obtain ⟨earlier, whole, areNew, outside, within⟩ :=
    reaches.exists_records verbose (stops items) events newer
  refine ⟨earlier ++ later, whole, areNew, fun file among record reported => ?_⟩
  rcases List.mem_cons.mp among with rfl | among
  · exact outside record reported
  rcases List.mem_append.mp reported with early | late
  · -- what was reported before the file was entered had been seen then, unlike the files that
    -- follow
    intro known
    rcases deeper.known file among with rfl | ⟨place, unseen, elsewhere⟩
    · cases known.symm.trans (knownFileAt_of_firstFile found)
      exact new (within record early)
    · cases known.symm.trans elsewhere
      exact unseen (within record early)
  · exact unreported file among record late

/-- A scan that stops reports no file that it is in. -/
theorem Unwinds.exists_records {chain : List Path}
    (unwinds : w.Unwinds options depth path seen fault chain) :
    ∃ records, (w.scanFile options depth path seen).events = records.map Completion.event ∧
      w.AreNew seen records ∧ ∀ file ∈ chain, ∀ record ∈ records, w.knownFileAt file ≠
        .ok (some record.location) := by
  -- the induction follows the files that the scan is in, down to the one in which the fault arises
  induction unwinds with
  | arises fails own =>
    obtain ⟨records, events, new, unreported⟩ := fails.exists_records verbose own
    refine ⟨records, events, new, fun file among => ?_⟩
    obtain rfl := List.mem_singleton.mp among
    exact unreported
  | included enters deeper ih =>
    obtain ⟨later, reports, newer, unreported⟩ := ih
    exact enters.exists_records verbose deeper reports newer unreported

end Stopped

/-- A verbose scan that gives attributes reports every file that it reaches once, when it comes to
the end of the file: after all files that the forms of the file have opened, and with the number of
its own attributes and of those that the files it has opened come to.  A form opens a file if it is
the first, depth first, that asks for it; the root comes last, with all attributes.  A scan that
stops has come to the end of some files, each of which is reported once, and is in some others, the
root first and the one in which the fault arises last, none of which is reported. -/
theorem reports_of_scan (w : World) (options : ScanOptions) (path : Path)
    (verbose : options.verbose = true) :
    (∀ attributes, (w.scan options path).outcome = .ok attributes → ∃ root sheet expansion,
      Course w options path root sheet expansion attributes ∧
        (w.scan options path).events = (expansion.completionsFrom path root).map Completion.event ∧
        Accounts w options path root expansion attributes (expansion.completionsFrom path root)) ∧
    ∀ fault, (w.scan options path).outcome = .error fault → ∃ records chain,
      (w.scan options path).events = records.map Completion.event ∧ w.AreNew [] records ∧
        w.Unwinds options options.depth path [] fault chain ∧
        (∀ other others, w.Unwinds options options.depth path [] other others → others = chain) ∧
        ∀ file ∈ chain, ∀ record ∈ records, w.knownFileAt file ≠ .ok (some record.location) := by
  constructor
  · exact fun attributes scanned => exists_accounts_of_scan verbose scanned
  · intro fault failed
    have fails := outcome_scanFile_eq_error_iff_fails.mp (outcome_scan_eq_error_iff.mp failed)
    obtain ⟨chain, unwinds⟩ := fails.exists_unwinds
    obtain ⟨records, events, new, unreported⟩ := unwinds.exists_records verbose
    refine ⟨records, chain, ?_, new, unwinds, fun other others again =>
      (unwinds.unique again).symm, unreported⟩
    rw [scan_eq_map_scanFile, map_eq_pure_bind, Traced.events_bind_pure, events]

/-- Everything as usual, except that finished files are reported. -/
def telling : ScanOptions := { ScanOptions.default with verbose := true }

theorem reports_of_scan_circle : telling.verbose = true ∧
    (∃ root sheet expansion,
      Course circle telling ⟨.root, ["a.erl"]⟩ root sheet expansion [circle.naming,
        circle.specification] ∧ (circle.scan telling ⟨.root, ["a.erl"]⟩).events =
          (expansion.completionsFrom ⟨.root, ["a.erl"]⟩ root).map Completion.event ∧
        Accounts circle telling ⟨.root, ["a.erl"]⟩ root expansion [circle.naming,
          circle.specification] (expansion.completionsFrom ⟨.root, ["a.erl"]⟩ root)) ∧
    ∃ (records : List Completion) (chain : List Path),
      (dangling.scan telling ⟨.root, ["a.erl"]⟩).events = records.map Completion.event ∧
      dangling.Unwinds telling (some 980) ⟨.root, ["a.erl"]⟩ [] dangling.firstFault chain ∧
      ∀ file ∈ chain, ∀ record ∈ records, dangling.knownFileAt file ≠
        .ok (some record.location) := by
  -- whether files are reported has no part in what a scan comes to
  have scanned : (circle.scan telling ⟨.root, ["a.erl"]⟩).outcome =
      .ok [circle.naming, circle.specification] :=
    (concurs_scan true _).outcome_eq.symm.trans outcome_scan_circle
  have failed : (dangling.scan telling ⟨.root, ["a.erl"]⟩).outcome = .error dangling.firstFault :=
    (concurs_scan true _).outcome_eq.symm.trans outcome_scan_dangling
  obtain ⟨records, chain, events, -, unwinds, -, unreported⟩ :=
    (reports_of_scan dangling telling ⟨.root, ["a.erl"]⟩ rfl).2 _ failed
  exact ⟨rfl, (reports_of_scan circle telling ⟨.root, ["a.erl"]⟩ rfl).1 _ scanned,
    records, chain, events, unwinds, unreported⟩

end World

end SignatureIndex
