import SignatureIndex.Proofs.Hindrances
import SignatureIndex.Proofs.Terminators
import SignatureIndex.Proofs.Unfolding

/-!
# Which fault comes first

A scan stops at the first thing that is wrong.  A file is looked at as a whole before its forms are
gone through: it must be there, its bytes must stand for characters, and every string and quoted
atom must be closed, wherever it stands.  Then the forms are gone through one by one, and a form
that asks for a file that has not been seen has whatever is wrong with that file come before the
forms after it.  A last form without its dot comes last of all.

The fault that a scan stops with is told by a relation that says, for each kind of fault, what must
have gone well before.  It relates a scan to one fault at most, and to none exactly if the scan
gives attributes.
-/

namespace SignatureIndex

/-- Whether a mark opens the first string or quoted atom of a text that is never closed: what comes
before it falls into lexemes, and the text after it has no mark to match it. -/
structure Lexeme.LeavesOpen (text front : List Char) (mark : Char) (back : List Char) : Prop where
  parts : text = front ++ mark :: back
  closed : (ofText text).1.flatMap Lexeme.text = front
  isMark : isMark mark = true
  unclosed : close? mark back = none

private theorem Lexeme.leavesOpen_iff {text front : List Char} {mark : Char} {back : List Char} :
    LeavesOpen text front mark back ↔
      (ofText text).2 = mark :: back ∧ (ofText text).1.flatMap Lexeme.text = front := by
  have whole := flatMap_text_ofText text
  constructor
  · intro opens
    rw [opens.closed] at whole
    have same := whole.trans opens.parts
    exact ⟨List.append_cancel_left same, opens.closed⟩
  · rintro ⟨left, closed⟩
    rw [left, closed] at whole
    have unmatched : Lexeme.next? mark back = none := by
      clear closed whole
      fun_induction ofText text with
      | case1 => cases left
      | case2 c cs none =>
        cases left
        exact none
      | case3 c cs lexeme rest found _ lexemes unmatched deeper ih =>
        rw [deeper] at ih
        exact ih left
    -- whatever is no mark starts a lexeme
    unfold Lexeme.next? at unmatched
    split at unmatched
    next isMark => exact ⟨whole.symm, closed, isMark, Option.map_eq_none_iff.mp unmatched⟩
    · split at unmatched
      · cases unmatched
      · split at unmatched <;> cases unmatched

namespace World

/-! ## The order of faults -/

/-- What can be wrong with a file as a whole. -/
inductive Rejects (w : World) (path : Path) : Fault → Prop
  | unread {reason} : w.readBytes path = .error reason →
      Rejects w path (Fault.ofUnreadable path reason)
  | undecoded {bytes rest} : w.readBytes path = .ok bytes →
      (Encoding.ofBytes bytes).decode bytes = .error rest →
      Rejects w path (.problem (.source (.undecodable path (Encoding.ofBytes bytes)
        (byteSpan path bytes (bytes.length - rest.length)))))
  /-- Nobody can tell where the file is. -/
  | unplaced {bytes source e} : w.readBytes path = .ok bytes → Source.read path bytes = .ok source →
      w.knownFileAt path = .error e → Rejects w path (.file e)
  | openQuote {bytes source location? front mark back} : w.readBytes path = .ok bytes →
      Source.read path bytes = .ok source → w.knownFileAt path = .ok location? →
      Lexeme.LeavesOpen source.content front mark back →
      Rejects w path (.problem (.source (.openQuote
        (source.span front.length (front.length + 1 : Nat)))))

/-- What a file is when its forms are gone through: where it is, what it holds, and what its
comments leave of that. -/
structure Opens (w : World) (path : Path) (location : Location) (source : Source)
    (clean : List Char) : Prop where
  known : w.knownFileAt path = .ok (some location)
  read : ∃ bytes, w.readBytes path = .ok bytes ∧ Source.read path bytes = .ok source
  blanked : blankComments source.content = .ok clean

/-- The items of the forms of a file, in order. -/
def itemsOf (source : Source) (clean : List Char) : List Item :=
  (Form.split clean).1.filterMap (Item.ofForm? source)

/-- Whether a scan of the file at a path gets past some items without a fault, and which files have
been seen then. -/
def Passes (w : World) (options : ScanOptions) (depth : Option Nat) (path : Path)
    (seen : List Location) (items : List Item) (now : List Location) : Prop :=
  ∃ expansion, Unfolds w options path items expansion ∧ expansion.Fresh seen ∧
    expansion.Fits depth ∧ now = seen ++ expansion.reached

/-- Whether a scan of the file at a path gets to where some of its items are left, and which files
have been seen then.  The file itself counts as seen. -/
def Reaches (w : World) (options : ScanOptions) (depth : Option Nat) (path : Path)
    (seen : List Location) (items : List Item) (now : List Location) : Prop :=
  ∃ location source clean before, w.Opens path location source clean ∧
    itemsOf source clean = before ++ items ∧
    w.Passes options depth path (location :: seen) before now

/-- The fault that a scan of the file at a path stops with, given how deep inclusion may still go
and the files that have been seen. -/
inductive Fails (w : World) (options : ScanOptions) :
    Option Nat → Path → List Location → Fault → Prop
  /-- Something is wrong with the file as a whole. -/
  | rejected {depth path seen fault} : w.Rejects path fault → Fails w options depth path seen fault
  | malformed {depth path seen kind span items now} :
      w.Reaches options depth path seen (.malformedInclusion kind span :: items) now →
      Fails w options depth path seen (.problem (.source (.malformedInclude kind.name span)))
  /-- None of the places where an included file is looked for has a file. -/
  | absent {depth path seen kind name span items now} :
      w.Reaches options depth path seen (.inclusion kind name span :: items) now →
      (∀ candidate ∈ options.candidates kind name path, w.isFile candidate = .ok false) →
      Fails w options depth path seen
        (.problem (.source (.includeNotFound name (options.candidates kind name path) span)))
  /-- One of these places cannot be asked about, and none before it has a file. -/
  | unanswered {depth path seen kind name span items now before candidate after e} :
      w.Reaches options depth path seen (.inclusion kind name span :: items) now →
      options.candidates kind name path = before ++ candidate :: after →
      (∀ other ∈ before, w.isFile other = .ok false) → w.knownFileAt candidate = .error e →
      Fails w options depth path seen (.file e)
  /-- A file that has not been seen lies too deep. -/
  | deep {depth path seen kind name span items now target location} :
      w.Reaches options depth path seen (.inclusion kind name span :: items) now →
      w.firstFile (options.candidates kind name path) = .ok (some (target, location)) →
      location ∉ now →
      ScanOptions.inner? depth = none → Fails w options depth path seen .nesting
  /-- A scan of a file that has not been seen stops. -/
  | included {depth path seen kind name span items now target location inside fault} :
      w.Reaches options depth path seen (.inclusion kind name span :: items) now →
      w.firstFile (options.candidates kind name path) = .ok (some (target, location)) →
      location ∉ now →
      ScanOptions.inner? depth = some inside → Fails w options inside target now fault →
      Fails w options depth path seen fault
  /-- All forms have been gone through, and something visible is left over. -/
  | unfinished {depth path seen location source clean now first} :
      w.Opens path location source clean →
      w.Passes options depth path (location :: seen) (itemsOf source clean) now →
      Text.IsFirstVisible clean (clean.length - (Form.split clean).2.length) first →
      Fails w options depth path seen
        (.problem (.source (.openForm (source.span first source.content.length))))

variable {w : World} {options : ScanOptions} {depth : Option Nat} {path : Path}
    {seen : List Location} {fault : Fault}

/-! ## A file as a whole -/

private theorem ofSource_eq_error_iff {source : Source} {problem : SourceProblem} :
    Sheet.ofSource source = .error problem ↔ ∃ front mark back,
      Lexeme.LeavesOpen source.content front mark back ∧
        problem = .openQuote (source.span front.length (front.length + 1 : Nat)) := by
  have whole := congrArg List.length (Lexeme.flatMap_text_ofText source.content)
  rw [List.length_append] at whole
  simp only [Lexeme.leavesOpen_iff]
  unfold Sheet.ofSource blankComments
  dsimp only
  cases left : (Lexeme.ofText source.content).2 with
  | nil => simp
  | cons mark back =>
    rw [left] at whole
    have place : source.content.length - (mark :: back).length =
        ((Lexeme.ofText source.content).1.flatMap Lexeme.text).length := by omega
    simp only [List.isEmpty_cons, Bool.false_eq_true, if_false, place, Except.error.injEq,
      List.cons.injEq]
    constructor
    · rintro rfl
      exact ⟨_, mark, back, ⟨⟨rfl, rfl⟩, rfl⟩, rfl⟩
    · rintro ⟨_, _, _, ⟨⟨rfl, rfl⟩, rfl⟩, rfl⟩
      rfl

theorem outcome_sheet_eq_error_iff :
    (w.sheet path).outcome = .error fault ↔ w.Rejects path fault := by
  unfold World.sheet
  -- the bytes are read and decoded, then the file is placed, and then its comments are blanked
  constructor
  · intro failed
    split at failed
    next reason unread =>
      cases failed
      exact .unread unread
    next bytes bytesRead =>
    simp only [Traced.outcome_bind_eq_error_iff, Traced.outcome_ofSource_eq_error_iff,
      Traced.outcome_ofFile_eq_error_iff, Traced.outcome_ofSource_eq_ok_iff,
      Traced.outcome_ofFile_eq_ok_iff] at failed
    rcases failed with
      ⟨problem, unread, rfl⟩ | ⟨source, read, ⟨e, unknown, rfl⟩ | ⟨location?, known,
      ⟨problem, wrong, rfl⟩ | ⟨sheet, -, failed⟩⟩⟩
    · cases decoded : (Encoding.ofBytes bytes).decode bytes with
      | error rest =>
        rw [Source.read_of_fault decoded] at unread
        cases unread
        exact .undecoded bytesRead decoded
      | ok text =>
        rw [Source.read_of_decode decoded] at unread
        cases unread
    · exact .unplaced bytesRead read unknown
    · obtain ⟨front, mark, back, opens, rfl⟩ := ofSource_eq_error_iff.mp wrong
      exact .openQuote bytesRead read known opens
    · cases failed
  · intro rejects
    cases rejects with
    | unread unread => simp only [unread, Traced.fail]
    | undecoded bytesRead failed =>
      simp only [bytesRead, Source.read_of_fault failed]
      rfl
    | unplaced bytesRead read unknown =>
      simp only [bytesRead, read, unknown]
      rfl
    | openQuote bytesRead read known opens =>
      have wrong := ofSource_eq_error_iff.mpr ⟨_, _, _, opens, rfl⟩
      simp only [bytesRead, read, known, Traced.outcome_bind_eq_error_iff,
        Traced.outcome_ofSource_eq_error_iff, Traced.outcome_ofFile_eq_ok_iff,
        Traced.outcome_ofSource_eq_ok_iff]
      exact .inr ⟨_, rfl, .inr ⟨_, rfl, .inl ⟨_, wrong, rfl⟩⟩⟩

theorem outcome_sheet_eq_ok_iff_opens {location? : Option Location} {sheet : Sheet} :
    (w.sheet path).outcome = .ok (location?, sheet) ↔ ∃ location source clean,
      location? = some location ∧ w.Opens path location source clean ∧
        sheet = ⟨source.path, itemsOf source clean,
          Sheet.unfinished? source (Form.split clean).2⟩ := by
  constructor
  · intro read
    obtain ⟨location, rfl, known⟩ := exists_location_of_sheet read
    obtain ⟨bytes, source, bytesRead, sourceRead, -, sheetOf⟩ := outcome_sheet_eq_ok_iff.mp read
    unfold Sheet.ofSource at sheetOf
    split at sheetOf
    · cases sheetOf
    next clean blanked =>
      cases sheetOf
      exact ⟨location, source, clean, rfl, ⟨known, ⟨bytes, bytesRead, sourceRead⟩, blanked⟩, rfl⟩
  · rintro ⟨location, source, clean, rfl, ⟨known, ⟨bytes, bytesRead, sourceRead⟩, blanked⟩, rfl⟩
    refine outcome_sheet_eq_ok_iff.mpr ⟨bytes, source, bytesRead, sourceRead, known, ?_⟩
    rw [Sheet.ofSource, blanked]
    rfl

/-- A scan of the file at a path, given how deep inclusion may still go and the files that have been
seen. -/
def scanFile (w : World) (options : ScanOptions) (depth : Option Nat) (path : Path)
    (seen : List Location) :
    Traced Scan := do
  let (location, sheet) ← w.sheet path
  let scan ← w.scanItems options depth path (location.toList ++ seen) sheet.items
  finish options sheet scan.attributes
  pure scan

/-- A scan gives the attributes that the scan of its file comes to, before anything else has been
seen. -/
theorem scan_eq_map_scanFile (w : World) (options : ScanOptions) (path : Path) :
    w.scan options path = Scan.attributes <$> w.scanFile options options.depth path [] := by
  simp only [scan, scanFile, map_bind, map_pure, List.append_nil]

theorem outcome_scan_eq_error_iff : (w.scan options path).outcome = .error fault ↔
    (w.scanFile options options.depth path []).outcome = .error fault := by
  rw [scan_eq_map_scanFile, map_eq_pure_bind, Traced.outcome_bind_eq_error_iff]
  simp

theorem outcome_scanFile_eq_ok_iff {scan : Scan} :
    (w.scanFile options depth path seen).outcome = .ok scan ↔
    ∃ location sheet, (w.sheet path).outcome = .ok (some location, sheet) ∧
      (w.scanItems options depth path (location :: seen) sheet.items).outcome = .ok scan ∧
      sheet.unfinished = none := by
  simp only [scanFile, Traced.outcome_bind_eq_ok_iff, Traced.outcome_pure]
  constructor
  · rintro ⟨⟨location?, sheet⟩, read, _, scanned, ⟨⟩, finished, same⟩
    cases same
    obtain ⟨location, rfl, -⟩ := exists_location_of_sheet read
    exact ⟨location, sheet, read, scanned, outcome_finish_eq_ok_iff.mp finished⟩
  · rintro ⟨location, sheet, read, scanned, finished⟩
    exact ⟨(some location, sheet), read, scan, scanned, (),
      outcome_finish_eq_ok_iff.mpr finished, rfl⟩

/-- A form that asks for a file that has not been seen has that file scanned before the items after
it. -/
theorem scanItems_eq_bind_scanFile {kind : IncludeKind} {name : String} {span : Span}
    {items : List Item} {target : Path} {location : Location} {inside : Option Nat}
    (found : w.firstFile (options.candidates kind name path) = .ok (some (target, location)))
    (new : location ∉ seen) (deeper : ScanOptions.inner? depth = some inside) :
    w.scanItems options depth path seen (.inclusion kind name span :: items) =
      (do
        let inner ← w.scanFile options inside target seen
        let outer ← w.scanItems options depth path (seen ++ location :: inner.reached) items
        pure ⟨inner.attributes ++ outer.attributes,
          location :: inner.reached ++ outer.reached⟩) := by
  rw [scanItems_of_new found new deeper, scanFile, bind_assoc]
  apply Traced.bind_congr_of_outcome
  rintro ⟨location?, sheet⟩ read
  -- the file that is read is the one that was found
  obtain ⟨place, rfl, known⟩ := exists_location_of_sheet read
  obtain rfl : place = location := by
    simpa using known.symm.trans (knownFileAt_of_firstFile found)
  simp only [bind_assoc, pure_bind, Option.toList_some, List.singleton_append]

section Passing

variable {items more : List Item} {now later : List Location}

theorem Passes.nil : w.Passes options depth path seen [] seen :=
  ⟨.done, .done path, trivial, trivial, (List.append_nil seen).symm⟩

theorem Passes.append (first : w.Passes options depth path seen items now)
    (second : w.Passes options depth path now more later) :
    w.Passes options depth path seen (items ++ more) later := by
  obtain ⟨front, unfoldsFront, freshFront, fitsFront, rfl⟩ := first
  obtain ⟨back, unfoldsBack, freshBack, fitsBack, rfl⟩ := second
  refine ⟨front.append back, unfoldsFront.append unfoldsBack, ?_, ?_, ?_⟩
  · exact Expansion.fresh_append_iff.mpr ⟨freshFront, freshBack⟩
  · exact Expansion.fits_append_iff.mpr ⟨fitsFront, fitsBack⟩
  · rw [Expansion.reached_append, List.append_assoc]

/-- Items that a scan gets through are passed. -/
theorem passes_of_scanItems {scan : Scan}
    (scanned : (w.scanItems options depth path seen items).outcome = .ok scan) :
    w.Passes options depth path seen items (seen ++ scan.reached) := by
  obtain ⟨expansion, unfolds, fresh, -, reached⟩ := exists_expansion_of_scanItems scanned
  obtain ⟨fits, -⟩ := (outcome_scanItems_eq_ok_iff unfolds fresh).mp scanned
  exact ⟨expansion, unfolds, fresh, fits, reached ▸ rfl⟩

theorem Passes.exists_scan (passes : w.Passes options depth path seen items now) :
    ∃ scan, (w.scanItems options depth path seen items).outcome = .ok scan ∧
    now = seen ++ scan.reached := by
  obtain ⟨expansion, unfolds, fresh, fits, rfl⟩ := passes
  exact ⟨_, (outcome_scanItems_eq_ok_iff unfolds fresh).mpr ⟨fits, rfl⟩, rfl⟩

/-- Behind items that a scan gets past, it fails as a scan of the rest does. -/
theorem Passes.outcome_scanItems_append_eq_error_iff (passes :
    w.Passes options depth path seen items now) :
    (w.scanItems options depth path seen (items ++ more)).outcome = .error fault ↔
      (w.scanItems options depth path now more).outcome = .error fault := by
  obtain ⟨expansion, unfolds, fresh, fits, rfl⟩ := passes
  -- the induction is on how the items unfold, and more files have been seen after each of them
  induction unfolds generalizing seen with
  | done path => rw [Expansion.reached_done, List.append_nil, List.nil_append]
  | kept _ ih =>
    rw [List.cons_append, scanItems_kept, Traced.outcome_bind_eq_error_iff]
    simpa using ih fresh fits
  | passed found _ ih =>
    rw [List.cons_append, scanItems_of_seen found fresh.1]
    exact ih fresh.2 fits
  | @entered path kind name span items target location sheet inner rest found read finished
      unfoldsInner _ _ ih =>
    obtain ⟨new, freshInner, freshRest⟩ := fresh
    obtain ⟨⟨inside, deeper, fitsInner⟩, fitsRest⟩ := fits
    have scanned := (outcome_scanItems_eq_ok_iff unfoldsInner freshInner).mpr ⟨fitsInner, rfl⟩
    have entered := outcome_scanFile_eq_ok_iff.mpr ⟨location, sheet, read, scanned, finished⟩
    have rest := ih freshRest fitsRest
    rw [List.append_assoc, List.cons_append] at rest
    rw [List.cons_append, scanItems_eq_bind_scanFile found new deeper,
      Expansion.reached_entered, ← rest]
    -- the file is scanned to its end, so only the items after it can fail
    simp [Traced.outcome_bind_eq_error_iff, -Traced.outcome_bind, -bind_pure_comp, entered]

theorem Passes.kept {content : Attribute} : w.Passes options depth path now [.kept content] now :=
  ⟨.kept content .done, .kept (.done path), trivial, trivial, (List.append_nil now).symm⟩

section Inclusion

variable {kind : IncludeKind} {name : String} {span : Span} {target : Path} {location : Location}
  (found : w.firstFile (options.candidates kind name path) = .ok (some (target, location)))
include found

theorem Passes.passed (old : location ∈ now) :
    w.Passes options depth path now [.inclusion kind name span] now :=
  ⟨.passed target location .done, .passed found (.done path), ⟨old, trivial⟩, trivial,
    (List.append_nil now).symm⟩

/-- A form that asks for a file that has not been seen is passed with all that the file holds. -/
theorem Passes.entered (new : location ∉ now) {inside : Option Nat}
    (deeper : ScanOptions.inner? depth = some inside) {inner : Scan}
    (scanned : (w.scanFile options inside target now).outcome = .ok inner) :
    w.Passes options depth path now [.inclusion kind name span]
      (now ++ location :: inner.reached) := by
  have whole : (w.scanItems options depth path now [.inclusion kind name span]).outcome =
      .ok ⟨inner.attributes, location :: inner.reached⟩ := by
    rw [scanItems_eq_bind_scanFile found new deeper]
    simp only [Traced.outcome_bind_eq_ok_iff]
    exact ⟨inner, scanned, ⟨[], []⟩, by rw [scanItems_nil]; rfl, by simp⟩
  exact passes_of_scanItems whole

end Inclusion

theorem Reaches.start {location : Location} {source : Source} {clean : List Char}
    (opens : w.Opens path location source clean) :
    w.Reaches options depth path seen (itemsOf source clean) (location :: seen) :=
  ⟨location, source, clean, [], opens, rfl, .nil⟩

/-- A scan that gets to some items gets to those behind the ones that it gets past. -/
theorem Reaches.next (reaches : w.Reaches options depth path seen (items ++ more) now)
    (passes : w.Passes options depth path now items later) :
    w.Reaches options depth path seen more later := by
  obtain ⟨location, source, clean, before, opens, parts, passed⟩ := reaches
  exact ⟨location, source, clean, before ++ items, opens, by
    rw [parts, List.append_assoc], passed.append passes⟩

end Passing

/-! ## Looking for a file -/

theorem knownFileAt_eq_none_iff : w.knownFileAt path = .ok none ↔ w.isFile path = .ok false := by
  unfold knownFileAt isFile
  cases w.fileAt path with
  | error e => simp [bind, Except.bind, Except.map]
  | ok found =>
    cases found with
    | none => simp [bind, Except.bind, Except.map]
    | some location => simp [bind_eq_ok_iff, Except.map]

theorem firstFile_eq_none_iff {paths : List Path} :
    w.firstFile paths = .ok none ↔ ∀ candidate ∈ paths, w.isFile candidate = .ok false := by
  rw [firstFile, findSomeM?_eq_none_iff]
  simp [bind_eq_ok_iff, knownFileAt_eq_none_iff]

/-- Looking for a file fails at the first place that cannot be asked about, if there is no file
before it. -/
theorem firstFile_eq_error_iff {paths : List Path} {e : FileError} : w.firstFile paths = .error e ↔
    ∃ before candidate after, paths = before ++ candidate :: after ∧
      (∀ other ∈ before, w.isFile other = .ok false) ∧ w.knownFileAt candidate = .error e := by
  rw [firstFile, findSomeM?_eq_error_iff]
  simp [bind_eq_ok_iff, bind_eq_error_iff, knownFileAt_eq_none_iff]

/-! ## The fault that a scan stops with -/

/-- A form is left open exactly if something visible comes after the last of the forms. -/
theorem Opens.unfinished?_eq_some_iff {location : Location} {source : Source} {clean : List Char}
    {span : Span} (opens : w.Opens path location source clean) :
    Sheet.unfinished? source (Form.split clean).2 = some span ↔ ∃ first,
      Text.IsFirstVisible clean (clean.length - (Form.split clean).2.length) first ∧
        span = source.span first source.content.length := by
  have left : (Form.split clean).2 = clean.drop (clean.length - (Form.split clean).2.length) :=
    List.suffix_iff_eq_drop.mp ⟨_, Form.written_split clean⟩
  rw [← Sheet.unfinished?_drop_eq_some_iff (length_blankComments opens.blanked), ← left]

/-- A scan of a file fails as the file as a whole does, or its forms, or what is left over after
them. -/
theorem outcome_scanFile_eq_error_iff :
    (w.scanFile options depth path seen).outcome = .error fault ↔
    w.Rejects path fault ∨ ∃ location source clean, w.Opens path location source clean ∧
      ((w.scanItems options depth path (location :: seen) (itemsOf source clean)).outcome =
        .error fault ∨
        ∃ now first, w.Passes options depth path (location :: seen) (itemsOf source clean) now ∧
          Text.IsFirstVisible clean (clean.length - (Form.split clean).2.length) first ∧
          fault = .problem (.source (.openForm (source.span first source.content.length)))) := by
  simp only [scanFile, Traced.outcome_bind_eq_error_iff, outcome_sheet_eq_error_iff]
  refine or_congr_right ?_
  constructor
  · rintro ⟨⟨location?, sheet⟩, read, failed⟩
    obtain ⟨location, source, clean, rfl, opens, rfl⟩ := outcome_sheet_eq_ok_iff_opens.mp read
    refine ⟨location, source, clean, opens, ?_⟩
    rcases failed with failed | ⟨scan, scanned, failed | ⟨-, -, failed⟩⟩
    · exact .inl failed
    · -- all forms have been passed, so what is left over is an open form
      obtain ⟨span, unfinished, rfl⟩ := outcome_finish_eq_error_iff.mp failed
      obtain ⟨first, visible, rfl⟩ := opens.unfinished?_eq_some_iff.mp unfinished
      exact .inr ⟨_, first, passes_of_scanItems scanned, visible, rfl⟩
    · cases failed
  · rintro ⟨location, source, clean, opens, failed | ⟨now, first, passes, visible, rfl⟩⟩
    · exact ⟨_, outcome_sheet_eq_ok_iff_opens.mpr ⟨location, source, clean, rfl, opens, rfl⟩,
        .inl failed⟩
    · obtain ⟨scan, scanned, -⟩ := passes.exists_scan
      refine ⟨_, outcome_sheet_eq_ok_iff_opens.mpr ⟨location, source, clean, rfl, opens, rfl⟩,
        .inr ⟨scan, scanned, .inl ?_⟩⟩
      exact outcome_finish_eq_error_iff.mpr
        ⟨_, opens.unfinished?_eq_some_iff.mpr ⟨first, visible, rfl⟩, rfl⟩

/-- A scan that has got to some items and fails in them stops with the fault that comes first. -/
theorem fails_of_scanItems {now : List Location} {items : List Item}
    (reaches : w.Reaches options depth path seen items now)
    (failed : (w.scanItems options depth path now items).outcome = .error fault) :
    w.Fails options depth path seen fault := by
  -- the induction follows the scan: it gets further in the file at hand, or it starts in an
  -- included file
  induction depth, path, now, items using scanItems_induction w options generalizing seen fault with
  | done depth path now =>
    rw [scanItems_nil] at failed
    cases failed
  | kept depth path now content items ih =>
    rw [scanItems_kept, Traced.outcome_bind_eq_error_iff] at failed
    rcases failed with failed | ⟨scan, -, failed⟩
    · exact ih (reaches.next .kept) failed
    · cases failed
  | malformed depth path now kind span items =>
    rw [scanItems_malformed] at failed
    cases failed
    exact .malformed reaches
  | unanswered depth path now kind name span items e stopped =>
    rw [scanItems_of_error stopped] at failed
    cases failed
    obtain ⟨before, candidate, after, parts, absent, unknown⟩ := firstFile_eq_error_iff.mp stopped
    exact .unanswered reaches parts absent unknown
  | absent depth path now kind name span items absent =>
    rw [scanItems_of_none absent] at failed
    cases failed
    exact .absent reaches (firstFile_eq_none_iff.mp absent)
  | deep depth path now kind name span items target location found new deep =>
    rw [scanItems_of_deep found new deep] at failed
    cases failed
    exact .deep reaches found new deep
  | entered depth path now kind name span items target location inside found new deeper
      ihInner ihRest =>
    rw [scanItems_eq_bind_scanFile found new deeper] at failed
    simp only [Traced.outcome_bind_eq_error_iff] at failed
    rcases failed with failed | ⟨inner, entered, failed | ⟨outer, -, failed⟩⟩
    · -- the included file comes before the items after it
      refine .included reaches found new deeper ?_
      rcases outcome_scanFile_eq_error_iff.mp failed with
        rejected | ⟨place, source, clean, opens, failed |
        ⟨later, first, passes, visible, rfl⟩⟩
      · exact .rejected rejected
      · obtain rfl : place = location := by
          simpa using opens.known.symm.trans (knownFileAt_of_firstFile found)
        exact ihInner ⟨target, itemsOf source clean, none⟩ (.start opens) failed
      · exact .unfinished opens passes visible
    · exact ihRest inner (reaches.next (.entered found new deeper entered)) failed
    · cases failed
  | passed depth path now kind name span items target location found old ih =>
    rw [scanItems_of_seen found old] at failed
    exact ih (reaches.next (.passed found old)) failed

/-- What happens to items that a scan gets to happens to the scan. -/
theorem Reaches.outcome_scanFile_eq_error {items : List Item} {now : List Location}
    (reaches : w.Reaches options depth path seen items now)
    (failed : (w.scanItems options depth path now items).outcome = .error fault) :
    (w.scanFile options depth path seen).outcome = .error fault := by
  obtain ⟨location, source, clean, before, opens, parts, passes⟩ := reaches
  refine outcome_scanFile_eq_error_iff.mpr (.inr ⟨location, source, clean, opens, .inl ?_⟩)
  rw [parts]
  exact passes.outcome_scanItems_append_eq_error_iff.mpr failed

theorem outcome_scanFile_eq_error_iff_fails :
    (w.scanFile options depth path seen).outcome = .error fault ↔
    w.Fails options depth path seen fault := by
  constructor
  · intro failed
    rcases outcome_scanFile_eq_error_iff.mp failed with
      rejected |
      ⟨location, source, clean, opens, failed | ⟨now, first, passes, visible, rfl⟩⟩
    · exact .rejected rejected
    · exact fails_of_scanItems (.start opens) failed
    · exact .unfinished opens passes visible
  · intro fails
    -- the induction is on how deep the file lies in which the fault arises
    induction fails with
    | rejected rejected => exact outcome_scanFile_eq_error_iff.mpr (.inl rejected)
    | malformed reaches =>
      exact reaches.outcome_scanFile_eq_error (by rw [scanItems_malformed]; rfl)
    | absent reaches absent =>
      apply reaches.outcome_scanFile_eq_error
      rw [scanItems_of_none (firstFile_eq_none_iff.mpr absent)]
      rfl
    | unanswered reaches parts absent unknown =>
      apply reaches.outcome_scanFile_eq_error
      rw [scanItems_of_error (firstFile_eq_error_iff.mpr ⟨_, _, _, parts, absent, unknown⟩)]
      rfl
    | deep reaches found new deep =>
      apply reaches.outcome_scanFile_eq_error
      rw [scanItems_of_deep found new deep]
      rfl
    | included reaches found new deeper _ ih =>
      apply reaches.outcome_scanFile_eq_error
      rw [scanItems_eq_bind_scanFile found new deeper]
      exact Traced.outcome_bind_eq_error_iff.mpr (.inl ih)
    | unfinished opens passes visible =>
      exact outcome_scanFile_eq_error_iff.mpr
        (.inr ⟨_, _, _, opens, .inr ⟨_, _, passes, visible, rfl⟩⟩)

/-! ## What the fault tells -/

/-- A form that a scan gets to stands in the file. -/
theorem Reaches.hasInclusion {kind : IncludeKind} {name : String} {span : Span} {items : List Item}
    {now : List Location}
    (reaches : w.Reaches options depth path seen (.inclusion kind name span :: items) now) :
    w.HasInclusion path kind name := by
  obtain ⟨location, source, clean, before, opens, parts, -⟩ := reaches
  refine ⟨_, _, span, outcome_sheet_eq_ok_iff_opens.mpr ⟨location, source, clean, rfl, opens, rfl⟩,
    ?_⟩
  dsimp only
  rw [parts]
  exact List.mem_append_right _ List.mem_cons_self

/-- An included file that is not found is missed in some file, however deep, and in all places. -/
theorem Fails.exists_including {name : String} {searched : List Path} {span : Span}
    (fails : w.Fails options depth path seen
      (.problem (.source (.includeNotFound name searched span)))) :
    ∃ kind including, w.HasInclusion including kind name ∧
      searched = options.candidates kind name including ∧
      ∀ candidate ∈ searched, w.isFile candidate = .ok false := by
  -- an including file passes the fault on, and all other faults look different
  generalize missed : Fault.problem (.source (.includeNotFound name searched span)) = fault at fails
  induction fails with
  | rejected rejects =>
    cases rejects with
    | @unread reason _ => cases reason <;> cases missed
    | undecoded | unplaced | openQuote => cases missed
  | malformed | unanswered | deep | unfinished => cases missed
  | @absent _ path _ kind _ _ _ _ reaches absent =>
    cases missed
    exact ⟨kind, path, reaches.hasInclusion, rfl, absent⟩
  | included _ _ _ _ _ ih => exact ih missed

/-- What can be in the way of a scan that has nothing to do with sources. -/
inductive Hampers (w : World) (options : ScanOptions) (path : Path) : Fault → Prop
  | null : path.holdsNull = true → Hampers w options path (.file .nullCharacter)
  /-- No machine can be in such a world. -/
  | impossible {e} : ¬w.IsPossible → e = .nullCharacter ∨ e = .tooManyLinks →
      Hampers w options path (.file e)
  /-- The path of a place is too long, or it leads through a directory that may not be searched. -/
  | barred {place e} : w.Bars place e → Hampers w options path (.file e)
  | adrift : isLost w.workingDirectory = true → Hampers w options path (.file .notFound)
  | nesting {limit} : options.depth = some limit → Hampers w options path .nesting

private theorem hampers_of_knownFileAt {place : Path} {e : FileError}
    (unknown : w.knownFileAt place = .error e) : w.Hampers options path (.file e) := by
  rcases eq_of_knownFileAt_eq_error unknown with bars | ⟨rfl, lost, -⟩ | ⟨fault, impossible⟩
  · exact .barred bars
  · exact .adrift lost
  · exact .impossible impossible fault

private theorem source_or_hampers_of_scan (failed : (w.scan options path).outcome = .error fault) :
    (∃ problem, fault = .problem (.source problem)) ∨ w.Hampers options path fault := by
  cases stops_of_scan failed with
  | source => exact .inl ⟨_, rfl⟩
  | null null => exact .inr (.null null)
  | unknown unknown => exact .inr (hampers_of_knownFileAt unknown)
  | unanswered _ _ stopped =>
    obtain ⟨place, -, unknown⟩ := exists_of_firstFile_eq_error stopped
    exact .inr (hampers_of_knownFileAt unknown)
  | deep limited => exact .inr (.nesting limited)

/-- A scan stops with the fault that comes first, and gives attributes exactly if there is none.  If
an included file is not found, the notes tell all places in which it was looked for, in order.
In a world that a machine can be in, where no path is too long and every directory may be searched,
where the path of the scan holds no null character, nobody has removed the working directory and
inclusion may go as deep as it likes, every fault is a problem with a source. -/
theorem scan_stops_first (w : World) (options : ScanOptions) (path : Path) :
    (∀ fault, (w.scan options path).outcome = .error fault ↔
      w.Fails options options.depth path [] fault) ∧
    ((∃ attributes, (w.scan options path).outcome = .ok attributes) ↔
      ∀ fault, ¬w.Fails options options.depth path [] fault) ∧
    (∀ name searched span,
      w.Fails options options.depth path []
        (.problem (.source (.includeNotFound name searched span))) →
      ∃ kind including, w.HasInclusion including kind name ∧
        (∀ candidate ∈ options.candidates kind name including, w.isFile candidate = .ok false) ∧
        (Problem.source (.includeNotFound name searched span)).notes =
          (options.candidates kind name including).map fun place => s!"searched {place}") ∧
    ∀ fault, w.Fails options options.depth path [] fault →
      (∃ problem, fault = .problem (.source problem)) ∨ w.Hampers options path fault := by
  have stops (fault : Fault) :
      (w.scan options path).outcome = .error fault ↔ w.Fails options options.depth path [] fault :=
    outcome_scan_eq_error_iff.trans outcome_scanFile_eq_error_iff_fails
  refine ⟨stops, ?_, ?_, ?_⟩
  · simp only [← stops]
    cases (w.scan options path).outcome with
    | error fault => simp
    | ok attributes => simp
  · intro name searched span fails
    obtain ⟨kind, including, asks, rfl, absent⟩ := fails.exists_including
    exact ⟨kind, including, asks, absent, rfl⟩
  · intro fault fails
    exact source_or_hampers_of_scan ((stops fault).mpr fails)

/-- A file with a malformed inclusion behind the inclusion of a file that asks for one that is not
there. -/
def dangling : World where
  entries := [
    (["a.erl"], .ofText "-include(\"b.hrl\").\n-include(oops).\n"),
    (["b.hrl"], .ofText "-include(\"c.hrl\").\n")]
  workingDirectory := []
  system := .ofHome "/"
  programDirectories := []

/-- The fault that comes first stands in the file that is included. -/
def dangling.firstFault : Fault :=
  .problem (.source (.includeNotFound "c.hrl" [⟨.root, ["c.hrl"]⟩] ⟨"/b.hrl", 1, 1, 1, 17⟩))

theorem outcome_scan_dangling :
    (dangling.scan .default ⟨.root, ["a.erl"]⟩).outcome = .error dangling.firstFault := by
  have readFirst :
      (dangling.sheet ⟨.root, ["a.erl"]⟩).outcome = .ok (some ["a.erl"], ⟨⟨.root, ["a.erl"]⟩,
      [.inclusion .file "b.hrl" ⟨"/a.erl", 1, 1, 1, 17⟩,
        .malformedInclusion .file ⟨"/a.erl", 2, 1, 2, 14⟩],
      none⟩) := Traced.eq_ok_of_toOption (by decide +kernel)
  have readSecond :
      (dangling.sheet ⟨.root, ["b.hrl"]⟩).outcome = .ok (some ["b.hrl"], ⟨⟨.root, ["b.hrl"]⟩,
      [.inclusion .file "c.hrl" ⟨"/b.hrl", 1, 1, 1, 17⟩], none⟩) :=
    Traced.eq_ok_of_toOption (by decide +kernel)
  have toSecond :
      dangling.firstFile (ScanOptions.default.candidates .file "b.hrl" ⟨.root, ["a.erl"]⟩) =
      .ok (some (⟨.root, ["b.hrl"]⟩, ["b.hrl"])) := Traced.eq_ok_of_toOption (by decide +kernel)
  have missing :
      dangling.firstFile (ScanOptions.default.candidates .file "c.hrl" ⟨.root, ["b.hrl"]⟩) =
      .ok none := Traced.eq_ok_of_toOption (by decide +kernel)
  rw [scan, Traced.outcome_bind_eq_error_iff]
  refine .inr ⟨_, readFirst, Traced.outcome_bind_eq_error_iff.mpr (.inl ?_)⟩
  rw [scanItems_eq_bind_scanFile toSecond (by decide) rfl,
    Traced.outcome_bind_eq_error_iff, scanFile, Traced.outcome_bind_eq_error_iff]
  refine .inl (.inr ⟨_, readSecond, Traced.outcome_bind_eq_error_iff.mpr (.inl ?_)⟩)
  have places : ScanOptions.default.candidates .file "c.hrl" ⟨.root, ["b.hrl"]⟩ =
      [⟨.root, ["c.hrl"]⟩] := by
    decide
  rw [scanItems_of_none missing, places]
  rfl

theorem scan_stops_first_dangling :
    dangling.Fails .default (some 980) ⟨.root, ["a.erl"]⟩ [] dangling.firstFault ∧
      ∃ kind including, dangling.HasInclusion including kind "c.hrl" ∧
        ["searched /c.hrl"] =
          (ScanOptions.default.candidates kind "c.hrl" including).map fun place =>
          s!"searched {place}" := by
  obtain ⟨stops, -, tells, -⟩ := scan_stops_first dangling .default ⟨.root, ["a.erl"]⟩
  have fails := (stops _).mp outcome_scan_dangling
  obtain ⟨kind, including, asks, -, notes⟩ := tells _ _ _ fails
  exact ⟨fails, kind, including, asks, Eq.trans (by decide) notes⟩

/-- The first form of a module asks for a file that is in none of the places where it is looked for,
and still the scan of the module has no problem with a source: the name of the file is too long to
ask about it. -/
theorem outcome_scan_longName :
    (Resolver.rough.sheet (Resolver.rough.location "c").source).outcome =
      .ok (some ["p", "src", "c.erl"], ⟨(Resolver.rough.location "c").source,
        [.inclusion .file Resolver.longName ⟨"/p/src/c.erl", 1, 1, 1, 268⟩], none⟩) ∧
    (∀ candidate ∈
        ScanOptions.default.candidates .file Resolver.longName (Resolver.rough.location "c").source,
      Resolver.rough.isFile candidate ≠ .ok true) ∧
    (Resolver.rough.scan .default (Resolver.rough.location "c").source).outcome =
      .error (.file .nameTooLong) := by
  have unanswered := Resolver.rough.firstFile_longName .default
  refine ⟨Resolver.rough.outcome_sheet_longName, ?_, ?_⟩
  · intro candidate among
    have beside :
        candidate = (Resolver.rough.location "c").source.parent.child Resolver.longName := by
      rw [ScanOptions.candidates, ScanOptions.default, List.map_nil, List.append_nil] at among
      exact List.mem_singleton.mp among
    have place : (Resolver.rough.location "c").source.parent.child Resolver.longName =
        ⟨.root, ["p", "src", Resolver.longName]⟩ := Resolver.rough.child_longName
    rw [beside, place, isFile, fileAt, reach, Resolver.rough.locate_longName]
    intro found
    cases found
  · rw [scan, Traced.outcome_bind_eq_error_iff]
    refine .inr ⟨_, Resolver.rough.outcome_sheet_longName, ?_⟩
    rw [Traced.outcome_bind_eq_error_iff]
    exact .inl (congrArg Traced.outcome (scanItems_of_error unanswered))

end World

end SignatureIndex
