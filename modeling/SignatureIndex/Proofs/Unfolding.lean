import Mathlib.Data.List.Forall2
import SignatureIndex.Proofs.Course
import SignatureIndex.Proofs.Rewriting

/-!
# Expansions in a row

Items that fall into two rows unfold row by row, and a scan of them gives attributes exactly if
their expansion enters what has not been seen and is not too deep.  Neither depends on where items
stand, on files that no form asks for, or on the file that the scan starts from, which is never
entered.  So a row of items can be taken out of an expansion and put into another one.
-/

namespace SignatureIndex

/-- Attributes with the same text, in whatever place. -/
def Attribute.SameText (first second : Attribute) : Prop :=
  second.kind = first.kind ∧ second.text = first.text

/-- Items that do the same, in whatever place. -/
inductive Item.SameText : Item → Item → Prop
  | kept {content other} : content.SameText other → SameText (.kept content) (.kept other)
  | inclusion (kind name span place) :
      SameText (.inclusion kind name span) (.inclusion kind name place)
  | malformed (kind span place) :
      SameText (.malformedInclusion kind span) (.malformedInclusion kind place)

namespace Expansion

variable {first second expansion other : Expansion} {seen : List Location} {depth : Option Nat}

/-- One expansion after another. -/
def append : Expansion → Expansion → Expansion
  | done, next => next
  | kept content rest, next => kept content (rest.append next)
  | entered target location inner rest, next => entered target location inner (rest.append next)
  | passed target location rest, next => passed target location (rest.append next)

/-- The attributes in the order in which they are met. -/
def attributes : Expansion → List Attribute
  | done => []
  | kept content rest => content :: rest.attributes
  | entered _ _ inner rest => inner.attributes ++ rest.attributes
  | passed _ _ rest => rest.attributes

/-- Whether files are entered no deeper than a limit allows, if there is one. -/
def Fits : Option Nat → Expansion → Prop
  | _, done => True
  | depth, kept _ rest => rest.Fits depth
  | depth, entered _ _ inner rest =>
    (∃ inside, ScanOptions.inner? depth = some inside ∧ inner.Fits inside) ∧ rest.Fits depth
  | depth, passed _ _ rest => rest.Fits depth

@[simp] theorem reached_append (first second : Expansion) :
    (first.append second).reached = first.reached ++ second.reached := by
  induction first with
  | done => rfl
  | kept content rest ih => exact ih
  | passed target location rest ih => exact ih
  | entered target location inner rest _ ih =>
    rw [append, reached_entered, reached_entered, ih, List.cons_append, List.append_assoc]

@[simp] theorem visits_append (first second : Expansion) :
    (first.append second).visits = first.visits ++ second.visits := by
  induction first with
  | done => rfl
  | kept content rest ih => exact ih
  | passed target location rest ih => exact congrArg (List.cons _) ih
  | entered target location inner rest _ ih =>
    rw [append, visits, visits, ih, List.cons_append, List.append_assoc]

@[simp] theorem attributes_append (first second : Expansion) :
    (first.append second).attributes = first.attributes ++ second.attributes := by
  induction first with
  | done => rfl
  | kept content rest ih => exact congrArg (List.cons content) ih
  | passed target location rest ih => exact ih
  | entered target location inner rest _ ih =>
    rw [append, attributes, attributes, ih, List.append_assoc]

theorem fresh_append_iff :
    (first.append second).Fresh seen ↔ first.Fresh seen ∧ second.Fresh (seen ++ first.reached) := by
  induction first generalizing seen with
  | done => simp [append, Fresh]
  | kept content rest ih => exact ih
  | passed target location rest ih => simp only [append, Fresh, ih, and_assoc, reached_passed]
  | entered target location inner rest _ ih =>
    simp only [append, Fresh, ih, and_assoc, reached_entered, List.append_assoc, List.cons_append]

theorem fits_append_iff : (first.append second).Fits depth ↔
    first.Fits depth ∧ second.Fits depth := by
  induction first with
  | done => simp [append, Fits]
  | kept content rest ih => exact ih
  | passed target location rest ih => exact ih
  | entered target location inner rest _ ih => simp only [append, Fits, ih, and_assoc]

/-- Whether a file has been seen does not matter where no form asks for it. -/
theorem fresh_of_unvisited {header : Location} {others : List Location}
    (unvisited : header ∉ expansion.visits.map Visit.location)
    (same : ∀ location, location ≠ header → (location ∈ others ↔ location ∈ seen))
    (fresh : expansion.Fresh seen) : expansion.Fresh others := by
  induction expansion generalizing seen others with
  | done => trivial
  | kept content rest ih => exact ih unvisited same fresh
  | passed target location rest ih =>
    rw [visits, List.map_cons, List.mem_cons, not_or] at unvisited
    exact ⟨(same location (Ne.symm unvisited.1)).mpr fresh.1, ih unvisited.2 same fresh.2⟩
  | entered target location inner rest ihInner ihRest =>
    obtain ⟨unseen, freshInner, freshRest⟩ := fresh
    simp only [visits, List.map_cons, List.map_append, List.mem_cons, List.mem_append, not_or]
      at unvisited
    obtain ⟨notHere, notInner, notRest⟩ := unvisited
    refine ⟨?_, ihInner notInner ?_ freshInner, ihRest notRest ?_ freshRest⟩
    · rwa [same location (Ne.symm notHere)]
    · intro place different
      rw [List.mem_cons, List.mem_cons, same place different]
    · intro place different
      rw [List.mem_append, List.mem_append, same place different]

/-! ### Other places -/

/-- Expansions that differ only in where their own attributes stand. -/
inductive SameText : Expansion → Expansion → Prop
  | done : SameText .done .done
  | kept {content other rest restOther} : Attribute.SameText content other →
      SameText rest restOther → SameText (.kept content rest) (.kept other restOther)
  | entered {target location inner rest restOther} : SameText rest restOther →
      SameText (.entered target location inner rest) (.entered target location inner restOther)
  | passed {target location rest restOther} : SameText rest restOther →
      SameText (.passed target location rest) (.passed target location restOther)

namespace SameText

private theorem reached_eq (same : SameText expansion other) :
    other.reached = expansion.reached := by
  induction same with
  | done => rfl
  | kept _ _ ih => exact ih
  | entered _ ih => rw [reached_entered, reached_entered, ih]
  | passed _ ih => exact ih

theorem fresh (same : SameText expansion other) (fresh : expansion.Fresh seen) :
    other.Fresh seen := by
  induction same generalizing seen with
  | done => exact fresh
  | kept _ _ ih => exact ih fresh
  | entered _ ih => exact ⟨fresh.1, fresh.2.1, ih fresh.2.2⟩
  | passed _ ih => exact ⟨fresh.1, ih fresh.2⟩

theorem fits (same : SameText expansion other) (fits : expansion.Fits depth) :
    other.Fits depth := by
  induction same with
  | done => exact fits
  | kept _ _ ih => exact ih fits
  | entered _ ih => exact ⟨fits.1, ih fits.2⟩
  | passed _ ih => exact ih fits

theorem attributes (same : SameText expansion other) :
    List.Forall₂ Attribute.SameText expansion.attributes other.attributes := by
  induction same with
  | done => exact .nil
  | kept here _ ih => exact .cons here ih
  | @entered target location inner rest restOther _ ih =>
    exact List.rel_append (List.forall₂_same.mpr fun content _ => ⟨rfl, rfl⟩) ih
  | passed _ ih => exact ih

end SameText

end Expansion

namespace World

variable {w : World} {options : ScanOptions} {path : Path} {items : List Item}
    {expansion : Expansion}

/-! ## Unfolding -/

theorem Unfolds.append {first second : List Item} {front back : Expansion}
    (unfoldsFirst : Unfolds w options path first front)
    (unfoldsSecond : Unfolds w options path second back) :
    Unfolds w options path (first ++ second) (front.append back) := by
  induction unfoldsFirst with
  | done => exact unfoldsSecond
  | kept _ ih => exact .kept (ih unfoldsSecond)
  | passed found _ ih => exact .passed found (ih unfoldsSecond)
  | entered found read finished inner _ _ ih =>
    exact .entered found read finished inner (ih unfoldsSecond)

private theorem exists_append_of_unfolds {first second : List Item}
    (unfolds : Unfolds w options path (first ++ second) expansion) :
    ∃ front back, expansion = front.append back ∧ Unfolds w options path first front ∧
      Unfolds w options path second back := by
  induction first generalizing expansion with
  | nil => exact ⟨.done, expansion, rfl, .done path, unfolds⟩
  | cons item items ih =>
    cases unfolds with
    | kept later =>
      obtain ⟨front, back, rfl, unfoldsFirst, unfoldsSecond⟩ := ih later
      exact ⟨.kept _ front, back, rfl, .kept unfoldsFirst, unfoldsSecond⟩
    | passed found later =>
      obtain ⟨front, back, rfl, unfoldsFirst, unfoldsSecond⟩ := ih later
      exact ⟨.passed _ _ front, back, rfl, .passed found unfoldsFirst, unfoldsSecond⟩
    | entered found read finished inner later =>
      obtain ⟨front, back, rfl, unfoldsFirst, unfoldsSecond⟩ := ih later
      exact ⟨.entered _ _ _ front, back, rfl, .entered found read finished inner unfoldsFirst,
        unfoldsSecond⟩

theorem not_mem_malformed_of_unfolds (unfolds : Unfolds w options path items expansion)
    (kind : IncludeKind) (span : Span) : .malformedInclusion kind span ∉ items := by
  induction unfolds with
  | done => exact List.not_mem_nil
  | kept _ ih => simpa using ih
  | passed _ _ ih => simpa using ih
  | entered _ _ _ _ _ _ ih => simpa using ih

/-- Items that do the same unfold to the same but for places. -/
theorem exists_sameText_of_unfolds (unfolds : Unfolds w options path items expansion)
    {others : List Item} (same : List.Forall₂ Item.SameText items others) :
    ∃ other, Unfolds w options path others other ∧ expansion.SameText other := by
  induction unfolds generalizing others with
  | done path =>
    cases same
    exact ⟨.done, .done path, .done⟩
  | kept _ ih =>
    obtain _ | ⟨here, later⟩ := same
    cases here with
    | kept here =>
      obtain ⟨other, unfolds, same⟩ := ih later
      exact ⟨_, .kept unfolds, .kept here same⟩
  | passed found _ ih =>
    obtain _ | ⟨here, later⟩ := same
    cases here with
    | inclusion =>
      obtain ⟨other, unfolds, same⟩ := ih later
      exact ⟨_, .passed found unfolds, .passed same⟩
  | entered found read finished inner _ _ ih =>
    obtain _ | ⟨here, later⟩ := same
    cases here with
    | inclusion =>
      obtain ⟨other, unfolds, same⟩ := ih later
      exact ⟨_, .entered found read finished inner unfolds, .entered same⟩

/-- An expansion is one of the scan of its items exactly if it is not too deep. -/
theorem outcome_scanItems_eq_ok_iff {depth : Option Nat} {seen : List Location} {scan : Scan}
    (unfolds : Unfolds w options path items expansion) (fresh : expansion.Fresh seen) :
    (w.scanItems options depth path seen items).outcome = .ok scan ↔
      expansion.Fits depth ∧ scan = ⟨expansion.attributes, expansion.reached⟩ := by
  -- the induction is on how the items unfold; only files that are entered use up the depth
  induction unfolds generalizing depth seen scan with
  | done path =>
    rw [scanItems_nil]
    simp [Expansion.Fits, Expansion.attributes, eq_comm]
  | @kept path content items rest _ ih =>
    rw [scanItems_kept, Traced.outcome_bind_eq_ok_iff]
    simp only [ih fresh, Traced.outcome_pure, Except.ok.injEq, Expansion.Fits, Expansion.attributes,
      Expansion.reached_kept]
    constructor
    · rintro ⟨_, ⟨fits, rfl⟩, rfl⟩
      exact ⟨fits, rfl⟩
    · rintro ⟨fits, rfl⟩
      exact ⟨_, ⟨fits, rfl⟩, rfl⟩
  | passed found _ ih =>
    rw [scanItems_of_seen found fresh.1, ih fresh.2]
    rfl
  | @entered path kind name span items target location sheet inner rest found read finished _ _
      ihInner ihRest =>
    obtain ⟨new, freshInner, freshRest⟩ := fresh
    cases deeper : ScanOptions.inner? depth with
    | none =>
      rw [scanItems_of_deep found new deeper]
      simp [Traced.fail, Expansion.Fits, deeper]
    | some inside =>
      simp only [scanItems_of_new found new deeper, Traced.outcome_bind_eq_ok_iff, read,
        Except.ok.injEq, Expansion.Fits, deeper, Option.some.injEq]
      constructor
      · rintro ⟨_, rfl, scanInner, scannedInner, _, -, scanRest, scannedRest, same⟩
        obtain ⟨fitsInner, rfl⟩ := (ihInner freshInner).mp scannedInner
        obtain ⟨fitsRest, rfl⟩ := (ihRest freshRest).mp scannedRest
        cases same
        exact ⟨⟨⟨inside, rfl, fitsInner⟩, fitsRest⟩, by simp [Expansion.attributes]⟩
      · rintro ⟨⟨⟨_, rfl, fitsInner⟩, fitsRest⟩, rfl⟩
        refine ⟨_, rfl, _, (ihInner freshInner).mpr ⟨fitsInner, rfl⟩, (), ?_, _,
          (ihRest freshRest).mpr ⟨fitsRest, rfl⟩, ?_⟩
        · exact outcome_finish_eq_ok_iff.mpr finished
        · simp [Expansion.attributes]

/-- A scan of a file gives the attributes of its expansion, if that is not too deep and the file
does not end in an open form. -/
theorem outcome_scan_eq_ok_iff {location? : Option Location} {sheet : Sheet}
    {attributes : List Attribute} (read : (w.sheet path).outcome = .ok (location?, sheet))
    (unfolds : Unfolds w options path sheet.items expansion)
    (fresh : expansion.Fresh location?.toList) :
    (w.scan options path).outcome = .ok attributes ↔
      expansion.Fits options.depth ∧ sheet.unfinished = none ∧
      attributes = expansion.attributes := by
  simp only [World.scan, Traced.outcome_bind_eq_ok_iff, read, Except.ok.injEq]
  constructor
  · rintro ⟨_, rfl, scan, scanned, _, finished, same⟩
    obtain ⟨fits, rfl⟩ := (outcome_scanItems_eq_ok_iff unfolds fresh).mp scanned
    cases same
    exact ⟨fits, outcome_finish_eq_ok_iff.mp finished, rfl⟩
  · rintro ⟨fits, finished, rfl⟩
    exact ⟨_, rfl, _, (outcome_scanItems_eq_ok_iff unfolds fresh).mpr ⟨fits, rfl⟩, (),
      outcome_finish_eq_ok_iff.mpr finished, rfl⟩

/-- A change to a file that is not entered leaves an expansion as it is. -/
theorem unfolds_rewrite (change : Location → List UInt8 → List UInt8) {root : Location}
    (elsewhere : ∀ location, location ≠ root → change location = id)
    (unfolds : Unfolds w options path items expansion) (unreached : root ∉ expansion.reached) :
    Unfolds (w.rewrite change) options path items expansion := by
  induction unfolds with
  | done path => exact .done path
  | kept _ ih => exact .kept (ih unreached)
  | passed found _ ih => exact .passed (by rwa [firstFile_rewrite]) (ih unreached)
  | @entered path kind name span items target location sheet inner rest found read
      finished _ _ ihInner
      ihRest =>
    rw [Expansion.reached_entered, List.mem_cons, List.mem_append, not_or, not_or] at unreached
    obtain ⟨other, notInner, notRest⟩ := unreached
    refine .entered (by rwa [firstFile_rewrite]) ?_ finished (ihInner notInner) (ihRest notRest)
    rw [sheet_rewrite, read]
    intro place bytes located _
    have file := fileAt_eq_ok_some (fileAt_of_knownFileAt (knownFileAt_of_firstFile found)).1
    obtain rfl : place = location := Except.ok.inj (located.symm.trans file.1)
    rw [elsewhere place (Ne.symm other)]
    rfl

/-! ## Attributes in the place of a file -/

/-- The form that enters a file, if no other form asks for it, and what comes before and after. -/
theorem exists_entered_of_unfolds {first second : List Item} {kind : IncludeKind} {name : String}
    {span : Span} {target : Path} {header : Location} {seen : List Location} {expansion : Expansion}
    (found : w.firstFile (options.candidates kind name path) = .ok (some (target, header)))
    (new : header ∉ seen)
    (unfolds : Unfolds w options path (first ++ .inclusion kind name span :: second) expansion)
    (fresh : expansion.Fresh seen) (once : (expansion.visits.map Visit.location).count header = 1) :
    ∃ front inner back sheet, expansion = front.append (.entered target header inner back) ∧
      (w.sheet target).outcome = .ok (some header, sheet) ∧
      Unfolds w options path first front ∧ Unfolds w options target sheet.items inner ∧
      Unfolds w options path second back ∧ header ∉ back.visits.map Visit.location := by
  obtain ⟨front, rest, rfl, unfoldsFirst, unfoldsRest⟩ := exists_append_of_unfolds unfolds
  have freshParts := Expansion.fresh_append_iff.mp fresh
  rw [Expansion.visits_append, List.map_append, List.count_append] at once
  cases unfoldsRest with
  | passed foundHere later =>
    -- a file that is passed has been asked for before
    have same := Option.some.inj (Except.ok.inj (foundHere.symm.trans found))
    obtain ⟨rfl, rfl⟩ := Prod.mk.inj same
    have old := (Expansion.mem_visits_iff_mem_reached freshParts.1 _).mpr freshParts.2.1
    have earlier := List.count_pos_iff.mpr ((List.mem_append.mp old).resolve_left new)
    rw [Expansion.visits, List.map_cons, List.count_cons_self] at once
    omega
  | @entered _ _ _ _ _ _ _ sheet inner back foundHere read finished unfoldsInner later =>
    have same := Option.some.inj (Except.ok.inj (foundHere.symm.trans found))
    obtain ⟨rfl, rfl⟩ := Prod.mk.inj same
    rw [Expansion.visits, List.map_cons, List.count_cons_self, List.map_append, List.count_append]
      at once
    exact ⟨front, inner, back, sheet, rfl, read, unfoldsFirst, unfoldsInner, later,
      List.count_eq_zero.mp (by omega)⟩

/-- Attributes unfold to themselves, wherever they stand. -/
theorem of_unfolds_map_kept {attributes : List Attribute} {expansion : Expansion}
    (unfolds : Unfolds w options path (attributes.map .kept) expansion) :
    expansion.reached = [] ∧ (∀ seen, expansion.Fresh seen) ∧ (∀ depth, expansion.Fits depth) ∧
      ∀ elsewhere, Unfolds w options elsewhere (attributes.map .kept) expansion := by
  induction attributes generalizing expansion with
  | nil =>
    cases unfolds
    exact ⟨rfl, fun _ => trivial, fun _ => trivial, fun elsewhere => .done elsewhere⟩
  | cons content attributes ih =>
    cases unfolds with
    | kept later =>
      obtain ⟨reached, fresh, fits, anywhere⟩ := ih later
      exact ⟨reached, fresh, fits, fun elsewhere => .kept (anywhere elsewhere)⟩

/-- In the place of the one form that enters a file of attributes, the attributes unfold to the
same. -/
theorem exists_unfolds_pasted {kind : IncludeKind} {name : String} {span : Span} {target : Path}
    {header : Location} {first second firstNew innerNew secondNew : List Item}
    {kept : List Attribute} {seen : List Location} {depth : Option Nat} {expansion : Expansion}
    (found : w.firstFile (options.candidates kind name path) = .ok (some (target, header)))
    (new : header ∉ seen)
    (inside : ∀ sheet, (w.sheet target).outcome = .ok (some header, sheet) →
      sheet.items = kept.map .kept)
    (unfolds : Unfolds w options path (first ++ .inclusion kind name span :: second) expansion)
    (fresh : expansion.Fresh seen) (fits : expansion.Fits depth)
    (once : (expansion.visits.map Visit.location).count header = 1)
    (sameFirst : List.Forall₂ Item.SameText first firstNew)
    (sameInner : List.Forall₂ Item.SameText (kept.map .kept) innerNew)
    (sameSecond : List.Forall₂ Item.SameText second secondNew) :
    ∃ other, Unfolds w options path (firstNew ++ (innerNew ++ secondNew)) other ∧ other.Fresh seen ∧
      other.Fits depth ∧ List.Forall₂ Attribute.SameText expansion.attributes other.attributes := by
  obtain ⟨front, inner, back, sheet, rfl, read, unfoldsFirst, unfoldsInner,
      unfoldsSecond, notBack⟩ :=
    exists_entered_of_unfolds found new unfolds fresh once
  rw [inside sheet read] at unfoldsInner
  obtain ⟨reachedInner, freshInner, fitsInner, anywhere⟩ := of_unfolds_map_kept unfoldsInner
  obtain ⟨frontNew, unfoldsFirstNew, likeFront⟩ := exists_sameText_of_unfolds unfoldsFirst sameFirst
  obtain ⟨innerLike, unfoldsInnerNew, likeInner⟩ :=
    exists_sameText_of_unfolds (anywhere path) sameInner
  obtain ⟨backNew, unfoldsSecondNew, likeBack⟩ :=
    exists_sameText_of_unfolds unfoldsSecond sameSecond
  obtain ⟨freshFront, -, -, freshBack⟩ := Expansion.fresh_append_iff.mp fresh
  obtain ⟨fitsFront, -, fitsBack⟩ := Expansion.fits_append_iff.mp fits
  refine ⟨frontNew.append (innerLike.append backNew),
    unfoldsFirstNew.append (unfoldsInnerNew.append unfoldsSecondNew), ?_, ?_, ?_⟩
  · rw [Expansion.fresh_append_iff, Expansion.fresh_append_iff, likeFront.reached_eq,
      likeInner.reached_eq, reachedInner, List.append_nil]
    refine ⟨likeFront.fresh freshFront, likeInner.fresh (freshInner _), likeBack.fresh ?_⟩
    -- only the header has not been seen now, and no form after it asks for it
    refine Expansion.fresh_of_unvisited notBack (fun location different => ?_) freshBack
    rw [reachedInner]
    simp [different]
  · rw [Expansion.fits_append_iff, Expansion.fits_append_iff]
    exact ⟨likeFront.fits fitsFront, likeInner.fits (fitsInner depth), likeBack.fits fitsBack⟩
  · rw [Expansion.attributes_append, Expansion.attributes_append, Expansion.attributes_append]
    exact List.rel_append likeFront.attributes
      (List.rel_append likeInner.attributes likeBack.attributes)

end World

end SignatureIndex
