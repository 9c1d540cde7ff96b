import SignatureIndex.Proofs.InclusionForms

/-!
# Including a file and pasting it

A form that asks for a header has the attributes of the header read in its place.  The text of the
header can be pasted there instead.  If no other form asks for the header, it does not matter that a
scan has not seen it, and the attributes are the same in the same order.
-/

namespace SignatureIndex

namespace World

variable {w : World} {options : ScanOptions} {path : Path}

/-- Reading a file as a sheet, given the text that it holds. -/
theorem outcome_sheet_eq_ok_iff_of_holds {bytes : List UInt8} {content : List Char}
    {location? : Option Location} {sheet : Sheet} (read : w.readBytes path = .ok bytes)
    (holds : Source.Holds bytes content) :
    (w.sheet path).outcome = .ok (location?, sheet) ↔ w.knownFileAt path = .ok location? ∧
      Sheet.ofSource ⟨path, Encoding.ofBytes bytes, content⟩ = .ok sheet := by
  have sourceRead := Source.read_of_holds path holds
  rw [outcome_sheet_eq_ok_iff]
  constructor
  · rintro ⟨other, source, otherRead, otherSource, known, sheetOf⟩
    obtain rfl := Except.ok.inj (read.symm.trans otherRead)
    obtain rfl := Except.ok.inj (sourceRead.symm.trans otherSource)
    exact ⟨known, sheetOf⟩
  · rintro ⟨known, sheetOf⟩
    exact ⟨bytes, _, read, sourceRead, known, sheetOf⟩

/-- Of the forms that a scan of the file at a path meets, in whatever file they stand, exactly one
asks for the file at a location. -/
def AsksOnce (w : World) (options : ScanOptions) (path : Path) (location : Location) : Prop :=
  ∃ location? sheet expansion, (w.sheet path).outcome = .ok (location?, sheet) ∧
    Unfolds w options path sheet.items expansion ∧ expansion.Fresh location?.toList ∧
    (expansion.visits.map Visit.location).count location = 1

/-- A file at a path that asks for a header in one of its forms.  The text `before` the form is a
complete row of forms in lines of their own, the text `after` it starts with a blank if there is
any, and the text `inner` of the header is complete too.  The header is another file, no other form
that a scan meets asks for it, and it asks for no file itself. -/
structure Inclusion (w : World) (options : ScanOptions) (path : Path) where
  root : Location
  bytes : List UInt8
  before : List Char
  way : IncludeKind
  name : List Char
  after : List Char
  target : Path
  header : Location
  headerBytes : List UInt8
  inner : List Char
  located : w.locate path = .ok root
  stands : w.node? root = some (.file bytes)
  holds : Source.Holds bytes (Form.including before way name after)
  unmarked : Text.doubleMark ∉ name
  completeBefore : Form.IsComplete before
  line : before = [] ∨ before.getLast? = some '\n'
  apart : after.head?.all Text.isBlank = true
  found : w.firstFile (options.candidates way (String.ofList name) path) =
    .ok (some (target, header))
  other : header ≠ root
  headerRead : w.readBytes target = .ok headerBytes
  headerHolds : Source.Holds headerBytes inner
  completeInner : Form.IsComplete inner
  asksNothing : Item.AsksNothing inner
  once : w.AsksOnce options path header

theorem readBytes_of_stands {place : Location} {bytes : List UInt8}
    (located : w.locate path = .ok place) (stands : w.node? place = some (.file bytes))
    (allowed : w.system.refuses .read place = false) :
    w.readBytes path = .ok bytes := by
  simp [readBytes, readable, located, bind, Except.bind, stands, allowed]

/-- What has been read could be read. -/
theorem allowed_of_sheet {place : Location} {location? : Option Location} {sheet : Sheet}
    (located : w.locate path = .ok place) (read : (w.sheet path).outcome = .ok (location?, sheet)) :
    w.system.refuses .read place = false := by
  refine Bool.eq_false_iff.mpr fun refused => ?_
  have unread : ∃ e, w.readBytes path = .error e := by
    cases stands : w.node? place with
    | none => exact ⟨.notFound, by simp [readBytes, readable, located, bind, Except.bind, stands]⟩
    | some node =>
      exact ⟨.permissionDenied, by
        simp [readBytes, readable, located, bind, Except.bind, stands, refused]⟩
  obtain ⟨e, unread⟩ := unread
  rw [World.sheet, unread] at read
  cases read

/-- The world in which a file holds other bytes. -/
def replaceFile (w : World) (place : Location) (bytes : List UInt8) : World :=
  w.rewrite fun location old => if location = place then bytes else old

namespace Inclusion

variable (inclusion : Inclusion w options path)

/-- The file as it is. -/
def source : Source := ⟨path, Encoding.ofBytes inclusion.bytes,
  Form.including inclusion.before inclusion.way inclusion.name inclusion.after⟩

/-- The file with the text of the header in the place of the form. -/
def pasted (bytes : List UInt8) : Source := ⟨path, Encoding.ofBytes bytes,
  Form.pasted inclusion.before inclusion.inner inclusion.after⟩

/-- What the file is read as. -/
theorem exists_items {location? : Option Location} {sheet : Sheet} {expansion : Expansion}
    (read : (w.sheet path).outcome = .ok (location?, sheet))
    (unfolds : Unfolds w options path sheet.items expansion) (finished : sheet.unfinished = none) :
    location? = some inclusion.root ∧ w.knownFileAt path = .ok (some inclusion.root) ∧
      ∃ span offset later, sheet.items =
        Item.ofTexts inclusion.source 0 (Form.cutText inclusion.before).1 ++
          .inclusion inclusion.way (String.ofList inclusion.name) span :: later ∧
        Sheet.part? inclusion.source offset inclusion.after = some (later, none) := by
  have readBytes :=
    readBytes_of_stands inclusion.located inclusion.stands (allowed_of_sheet inclusion.located read)
  obtain ⟨-, sheetOf⟩ := (outcome_sheet_eq_ok_iff_of_holds readBytes inclusion.holds).mp read
  obtain ⟨-, whole⟩ := Sheet.ofSource_eq_ok_iff.mp sheetOf
  obtain ⟨place, rfl, known⟩ := exists_location_of_sheet read
  obtain rfl : place = inclusion.root := by
    have file := fileAt_eq_ok_some (fileAt_of_knownFileAt known).1
    exact Except.ok.inj (file.1.symm.trans inclusion.located)
  rw [finished] at whole
  have includable := Form.isIncludable_of_including inclusion.completeBefore inclusion.line
    inclusion.unmarked whole (not_mem_malformed_of_unfolds unfolds inclusion.way)
  obtain ⟨span, parts⟩ := Form.exists_part?_including inclusion.completeBefore inclusion.line
    inclusion.source includable inclusion.apart
  obtain ⟨⟨later, left⟩, readAfter, same⟩ := Option.map_eq_some_iff.mp (parts.symm.trans whole)
  obtain ⟨items, rfl⟩ := Prod.mk.inj same
  exact ⟨rfl, known, span, _, later, items.symm, readAfter⟩

/-- What the file is read as with the header pasted. -/
theorem outcome_sheet_pasted {bytes : List UInt8} {later : List Item}
    (known : w.knownFileAt path = .ok (some inclusion.root))
    (allowed : w.system.refuses .read inclusion.root = false)
    (holds : Source.Holds bytes (inclusion.pasted bytes).content)
    (readAfter : Sheet.part? (inclusion.pasted bytes)
      (inclusion.before.length + inclusion.inner.length + 1) inclusion.after = some (later, none)) :
    ((w.replaceFile inclusion.root bytes).sheet path).outcome = .ok (some inclusion.root, ⟨path,
      Item.ofTexts (inclusion.pasted bytes) 0 (Form.cutText inclusion.before).1 ++
        (Item.ofTexts (inclusion.pasted bytes) inclusion.before.length
          (Form.cutText inclusion.inner).1 ++ later), none⟩) := by
  have read : (w.replaceFile inclusion.root bytes).readBytes path = .ok bytes := by
    refine readBytes_of_stands ((locate_rewrite path).trans inclusion.located) ?_ allowed
    rw [replaceFile, node?_rewrite, inclusion.stands, Option.map_some, Node.rewrite, if_pos rfl]
  have parts : Sheet.part? (inclusion.pasted bytes) 0 (inclusion.pasted bytes).content = _ :=
    Form.part?_pasted inclusion.completeBefore inclusion.line _ inclusion.completeInner
  rw [readAfter] at parts
  rw [outcome_sheet_eq_ok_iff_of_holds read holds]
  exact ⟨(knownFileAt_rewrite path).trans known, Sheet.ofSource_eq_ok_iff.mpr ⟨rfl, parts⟩⟩

/-- The header is read as attributes alone. -/
theorem exists_kept_of_header : ∃ kept : List Attribute,
    (∀ sheet, (w.sheet inclusion.target).outcome = .ok (some inclusion.header, sheet) →
      sheet.items = kept.map .kept) ∧
    ∀ source offset, List.Forall₂ Item.SameText (kept.map .kept)
      (Item.ofTexts source offset (Form.cutText inclusion.inner).1) := by
  obtain ⟨kept, items⟩ := Item.exists_map_kept inclusion.asksNothing
    ⟨inclusion.target, Encoding.ofBytes inclusion.headerBytes, inclusion.inner⟩ 0
  refine ⟨kept, fun sheet read => ?_, fun source offset => ?_⟩
  · have sheetOf :=
      (outcome_sheet_eq_ok_iff_of_holds inclusion.headerRead inclusion.headerHolds).mp read
    obtain ⟨-, whole⟩ := Sheet.ofSource_eq_ok_iff.mp sheetOf.2
    rw [Sheet.part?, if_pos (Form.isComplete_iff.mp inclusion.completeInner).1] at whole
    exact (Prod.mk.inj (Option.some.inj whole)).1.symm.trans items
  · rw [← items]
    exact Item.ofTexts_sameText _ _ _ _ _

end Inclusion

/-- Pasting the text of a header in the place of the one form that asks for it leaves a scan with
the same attributes in the same order. -/
theorem exists_outcome_scan_pasted (w : World) (options : ScanOptions) (path : Path)
    (inclusion : Inclusion w options path) {attributes : List Attribute}
    (scanned : (w.scan options path).outcome = .ok attributes) {bytes : List UInt8}
    (holds : Source.Holds bytes (Form.pasted inclusion.before inclusion.inner inclusion.after)) :
    ∃ others, ((w.replaceFile inclusion.root bytes).scan options path).outcome = .ok others ∧
      List.Forall₂ Attribute.SameText attributes others := by
  obtain ⟨location?, sheet, expansion, read, unfolds, fresh, once⟩ := inclusion.once
  obtain ⟨fits, finished, rfl⟩ := (outcome_scan_eq_ok_iff read unfolds fresh).mp scanned
  obtain ⟨rfl, known, span, offset, later, items, readAfter⟩ :=
    inclusion.exists_items read unfolds finished
  obtain ⟨laterNew, readAfterNew, sameAfter⟩ := Item.exists_part?_sameText readAfter
    (inclusion.pasted bytes) (inclusion.before.length + inclusion.inner.length + 1)
  obtain ⟨kept, inside, sameInner⟩ := inclusion.exists_kept_of_header
  rw [items] at unfolds
  obtain ⟨expansionNew, unfoldsNew, freshNew, fitsNew, same⟩ :=
    exists_unfolds_pasted inclusion.found
    (by simpa using inclusion.other) inside unfolds fresh fits once
    (Item.ofTexts_sameText _ (inclusion.pasted bytes) 0 0 _)
    (sameInner (inclusion.pasted bytes) inclusion.before.length) sameAfter
  -- the file itself is never entered, so all that is entered is read as before
  have unreached : inclusion.root ∉ expansionNew.reached := by
    intro among
    exact (Expansion.nodup_reached freshNew).2 _ among (by simp)
  have unfoldsThere :=
    unfolds_rewrite (fun location old => if location = inclusion.root then bytes else old)
    (fun location different => funext fun old => if_neg different) unfoldsNew unreached
  have allowed := allowed_of_sheet inclusion.located read
  have readNew := inclusion.outcome_sheet_pasted known allowed holds readAfterNew
  exact ⟨expansionNew.attributes,
    (outcome_scan_eq_ok_iff readNew unfoldsThere freshNew).mpr ⟨fitsNew, rfl, rfl⟩, same⟩

namespace pair

def before : List Char := "-type a() :: b.\n".toList

def after : List Char := "\n-spec f() -> t().\n".toList

/-- A type with a dot in it, and a comment that the text ends in. -/
def inner : List Char := "-type t() :: 'x. '. % y.".toList

def bytes : List UInt8 :=
  Text.Utf8.encode (String.ofList (Form.including before .file "b.hrl".toList after))

def pasted : List UInt8 := Text.Utf8.encode (String.ofList (Form.pasted before inner after))

end pair

/-- A file and a header that it asks for. -/
def pair : World where
  entries := [(["a.erl"], .file pair.bytes), (["b.hrl"], .ofText (String.ofList pair.inner))]
  workingDirectory := []
  system := .ofHome "/"
  programDirectories := []

namespace pair

def naming : Attribute := ⟨"type", "a() :: b", ⟨"/a.erl", 1, 1, 1, 14⟩⟩

def named : Attribute := ⟨"type", "t() :: 'x. '", ⟨"/b.hrl", 1, 1, 1, 18⟩⟩

def specification : Attribute := ⟨"spec", "f() -> t()", ⟨"/a.erl", 3, 1, 3, 16⟩⟩

def expansion : Expansion :=
  .kept naming (.entered ⟨.root, ["b.hrl"]⟩ ["b.hrl"] (.kept named .done)
    (.kept specification .done))

theorem unfolds : ∃ sheet : Sheet, (pair.sheet ⟨.root, ["a.erl"]⟩).outcome =
    .ok (some ["a.erl"], sheet) ∧ sheet.unfinished = none ∧
    Unfolds pair .default ⟨.root, ["a.erl"]⟩ sheet.items expansion := by
  have found : pair.firstFile (ScanOptions.default.candidates .file "b.hrl" ⟨.root, ["a.erl"]⟩) =
      .ok (some (⟨.root, ["b.hrl"]⟩, ["b.hrl"])) := Traced.eq_ok_of_toOption (by decide +kernel)
  have header : (pair.sheet ⟨.root, ["b.hrl"]⟩).outcome =
      .ok (some ["b.hrl"], ⟨⟨.root, ["b.hrl"]⟩, [.kept named], none⟩) :=
    Traced.eq_ok_of_toOption (by decide +kernel)
  refine ⟨⟨⟨.root, ["a.erl"]⟩, [.kept naming, .inclusion .file "b.hrl" ⟨"/a.erl", 2, 1, 2, 17⟩,
    .kept specification], none⟩, Traced.eq_ok_of_toOption (by decide +kernel), rfl, ?_⟩
  exact .kept (.entered found header rfl (.kept (.done _)) (.kept (.done _)))

private theorem asksOnce : pair.AsksOnce .default ⟨.root, ["a.erl"]⟩ ["b.hrl"] := by
  obtain ⟨sheet, read, -, unfolds⟩ := unfolds
  exact ⟨_, sheet, expansion, read, unfolds, by
    simp [expansion, Expansion.Fresh], by decide +kernel⟩

def inclusion : Inclusion pair .default ⟨.root, ["a.erl"]⟩ where
  root := ["a.erl"]
  bytes := bytes
  before := before
  way := .file
  name := "b.hrl".toList
  after := after
  target := ⟨.root, ["b.hrl"]⟩
  header := ["b.hrl"]
  headerBytes := Text.Utf8.encode (String.ofList inner)
  inner := inner
  located := Traced.eq_ok_of_toOption (by decide +kernel)
  stands := rfl
  holds := by decide +kernel
  unmarked := by decide
  completeBefore := Form.isComplete_iff.mpr (by decide +kernel)
  line := by decide +kernel
  apart := by decide +kernel
  found := Traced.eq_ok_of_toOption (by decide +kernel)
  other := by decide +kernel
  headerRead := rfl
  headerHolds := by decide +kernel
  completeInner := Form.isComplete_iff.mpr (by decide +kernel)
  asksNothing := by decide +kernel
  once := asksOnce

end pair

theorem exists_outcome_scan_pasted_pair :
    ∃ others, ((pair.replaceFile ["a.erl"] pair.pasted).scan .default ⟨.root, ["a.erl"]⟩).outcome =
      .ok others ∧
      List.Forall₂ Attribute.SameText [pair.naming, pair.named, pair.specification] others := by
  have scanned : (pair.scan .default ⟨.root, ["a.erl"]⟩).outcome =
      .ok [pair.naming, pair.named, pair.specification] := by
    obtain ⟨sheet, read, finished, unfolds⟩ := pair.unfolds
    rw [outcome_scan_eq_ok_iff read unfolds (by simp [pair.expansion, Expansion.Fresh])]
    refine ⟨?_, finished, rfl⟩
    exact ⟨⟨some 979, rfl, trivial⟩, trivial⟩
  have holds : Source.Holds pair.pasted (Form.pasted pair.before pair.inner pair.after) := by
    decide +kernel
  exact exists_outcome_scan_pasted pair .default ⟨.root, ["a.erl"]⟩ pair.inclusion scanned holds

end World

end SignatureIndex
