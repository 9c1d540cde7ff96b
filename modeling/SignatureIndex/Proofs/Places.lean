import SignatureIndex.Proofs.Adjacency
import SignatureIndex.Proofs.Course
import SignatureIndex.Proofs.Positions
import SignatureIndex.Proofs.Rewriting

/-!
# Where attributes stand

The span of an attribute tells where it stands in the file that it was read from: from its dash up
to the character before the dot that ends its form.  What stands there, without comments, is the
dash, the kind and the text of the attribute.  Forms come one after the other, so spans in one file
never meet.
-/

namespace SignatureIndex

/-! ## Where forms stand -/

namespace Form

/-- A form that has been placed stands behind the forms before it. -/
theorem exists_parts_of_mem_place {offset : Nat} {texts : List (List Char)} {form : Form}
    (among : form ∈ place offset texts) : ∃ before after,
      texts = before ++ form.text :: after ∧ form.offset = offset + (written before []).length := by
  induction texts generalizing offset with
  | nil => cases among
  | cons text texts ih =>
    rw [place] at among
    rcases List.mem_cons.mp among with rfl | among
    · exact ⟨[], texts, rfl, rfl⟩
    · obtain ⟨before, after, rfl, place⟩ := ih among
      refine ⟨text :: before, after, rfl, ?_⟩
      simp only [written, List.flatMap_cons, List.append_nil, List.length_append,
        List.length_singleton] at place ⊢
      omega

theorem pairwise_place (offset : Nat) (texts : List (List Char)) :
    (place offset texts).Pairwise fun first second =>
      first.offset + first.text.length < second.offset := by
  induction texts generalizing offset with
  | nil => exact .nil
  | cons text texts ih =>
    refine List.pairwise_cons.mpr ⟨fun form among => ?_, ih _⟩
    obtain ⟨before, -, -, place⟩ := exists_parts_of_mem_place among
    dsimp only
    omega

/-- After the dot of a form comes a blank, if anything does. -/
theorem head?_after_cut {afterDot : Bool} {lexemes : List Lexeme} {before after : List (List Char)}
    {text : List Char} (parts : (cut afterDot lexemes).1 = before ++ text :: after) :
    (written after (cut afterDot lexemes).2).head?.all Text.isBlank = true := by
  induction lexemes generalizing afterDot before text with
  | nil => simp [cut] at parts
  | cons lexeme lexemes ih =>
    rw [cut_cons] at parts ⊢
    split at parts
    next terminates =>
      rw [if_pos terminates]
      cases before with
      | nil =>
        -- the dot is the one at hand, and the other lexemes come after it
        obtain ⟨-, rfl⟩ := List.cons.inj parts
        rw [written_cut]
        simp only [Bool.and_eq_true] at terminates
        have ends := terminates.2
        cases lexemes with
        | nil => rfl
        | cons next lexemes =>
          cases next with
          | plain c => exact ends
          | quoted written => cases ends
          | literal written => cases ends
          | comment written => cases ends
      | cons first before =>
        obtain ⟨-, later⟩ := List.cons.inj parts
        exact ih later
    next goesOn =>
      rw [if_neg goesOn]
      have deeper := @ih (lexeme == .plain '.')
      revert parts deeper
      generalize cut (lexeme == .plain '.') lexemes = cutting
      obtain ⟨forms, rest⟩ := cutting
      intro parts deeper
      cases forms with
      | nil => simp [prepend] at parts
      | cons form forms =>
        -- a lexeme that is put before the first form leaves everything after it alone
        cases before with
        | nil =>
          obtain ⟨-, rfl⟩ := List.cons.inj parts
          exact @deeper [] form rfl
        | cons first before =>
          obtain ⟨-, later⟩ := List.cons.inj parts
          exact @deeper (form :: before) text (congrArg (form :: ·) later)

/-- A form of a text without comments stands at its offset, with its dot after it and then a blank
or nothing. -/
theorem exists_parts_of_mem_split {content clean : List Char} {form : Form}
    (blanked : blankComments content = .ok clean) (among : form ∈ (split clean).1) :
    ∃ front back, clean = front ++ (form.text ++ '.' :: back) ∧ front.length = form.offset ∧
      back.head?.all Text.isBlank = true := by
  have whole := written_split clean
  rw [split_of_blankComments blanked] at among whole
  obtain ⟨before, after, parts, place⟩ := exists_parts_of_mem_place among
  refine ⟨written before [], written after (cutText content).2, ?_, by omega, head?_after_cut parts⟩
  rw [← whole, map_text_place, parts]
  simp [written]

private theorem pairwise_split (clean : List Char) :
    (split clean).1.Pairwise fun first second => first.offset + first.text.length < second.offset :=
  pairwise_place _ _

end Form

/-- What is visible in a text without its comments stands in the text itself. -/
theorem getElem?_of_blankComments {content clean : List Char}
    (blanked : blankComments content = .ok clean) {place : Nat} {c : Char}
    (kept : clean[place]? = some c) (visible : c ≠ ' ') : content[place]? = some c := by
  obtain ⟨closed, rfl⟩ := Form.closed_of_blankComments blanked
  have whole := Lexeme.flatMap_text_ofText content
  rw [closed, List.append_nil] at whole
  rw [← whole]
  generalize (Lexeme.ofText content).1 = lexemes at kept
  induction lexemes generalizing place with
  | nil => cases kept
  | cons lexeme lexemes ih =>
    rw [List.flatMap_cons, List.getElem?_append, Lexeme.length_blanked] at kept
    rw [List.flatMap_cons, List.getElem?_append]
    split at kept
    next here =>
      rw [if_pos here]
      cases lexeme with
      | comment written =>
        -- nothing of a comment is left to see
        rw [Lexeme.blanked] at kept
        have blank := List.eq_of_mem_replicate (List.mem_of_getElem? kept)
        exact absurd blank visible
      | quoted written => exact kept
      | literal written => exact kept
      | plain c => exact kept
    next later =>
      rw [if_neg later]
      exact ih kept

/-! ## What an attribute says about its file -/

namespace Item

private theorem exists_blanks_of_head? {text kind rest : List Char}
    (headed : head? text = some (kind, rest)) : ∃ blanks, Text.isAllBlank blanks = true ∧
    text = '-' :: (blanks ++ (kind ++ rest)) := by
  unfold head? at headed
  split at headed
  next text =>
    split at headed
    next c cs started =>
      split at headed
      · cases headed
        refine ⟨text.takeWhile Text.isBlank, List.all_takeWhile, ?_⟩
        rw [List.cons_append, List.takeWhile_append_dropWhile, ← started,
          List.takeWhile_append_dropWhile]
      · cases headed
    · cases headed
  · cases headed

/-- A form that is kept is a dash, a kind and a text, after whatever blanks it starts with. -/
theorem exists_parts_of_ofForm? {source : Source} {form : Form} {attr : Attribute}
    (made : ofForm? source form = some (.kept attr)) : ∃ front blanks rest,
      form.text = front ++ '-' :: (blanks ++ (attr.kind.toList ++ rest)) ∧
      Text.isAllBlank blanks = true ∧ Text.trim rest = attr.text.toList ∧
      attr.span = source.span (form.offset + front.length : Nat)
        (form.offset + form.text.length : Nat) := by
  unfold ofForm? at made
  dsimp only at made
  split at made
  · cases made
  next kind rest headed =>
  split at made
  · cases made
    obtain ⟨blanks, blank, parts⟩ := exists_blanks_of_head? headed
    have whole : form.text.takeWhile Text.isBlank ++ Text.trimStart form.text = form.text :=
      List.takeWhile_append_dropWhile
    have lengths := congrArg List.length whole
    rw [List.length_append] at lengths
    refine ⟨form.text.takeWhile Text.isBlank, blanks, rest, ?_, blank, ?_, ?_⟩
    · rw [String.toList_ofList, ← parts, whole]
    · rw [String.toList_ofList]
    · have start : form.offset + form.text.length - (Text.trimStart form.text).length =
          form.offset + (form.text.takeWhile Text.isBlank).length := by omega
      rw [start]
  · split at made <;> cases made

end Item

/-- What the span of an attribute says about the file at a path, given the text of the file, that
text without its comments, and the offsets that the span stands for.  The first is that of a dash,
and right after the last is the dot that ends a form.  Between them stands the attribute. -/
structure Attribute.Stands (attr : Attribute) (path : Path) (content clean : List Char)
    (first last : Nat) : Prop where
  file : attr.span.file = toString path
  start : Source.offsetAt? content attr.span.startLine attr.span.startColumn = some first
  stop : Source.offsetAt? content attr.span.endLine attr.span.endColumn = some last
  ordered : first ≤ last
  dash : content[first]? = some '-'
  dot : content[last + 1]? = some '.'
  form : ∃ form ∈ (Form.split clean).1,
    form.offset ≤ first ∧ form.offset + form.text.length = last + 1
  /-- The dot is the last character, or a blank comes after it. -/
  ends : clean[last + 2]?.all Text.isBlank = true
  written : ∃ blanks rest,
    (clean.take (last + 1)).drop first = '-' :: (blanks ++ (attr.kind.toList ++ rest)) ∧
      Text.isAllBlank blanks = true ∧ Text.trim rest = attr.text.toList

private theorem Attribute.stands_of_ofForm? {source : Source} {clean : List Char} {form : Form}
    {attr : Attribute} (blanked : blankComments source.content = .ok clean)
    (among : form ∈ (Form.split clean).1)
    (made : Item.ofForm? source form = some (.kept attr)) : ∃ first last,
      attr.Stands source.path source.content clean first last ∧
      attr.span = source.span first (last + 1 : Nat) ∧
      form.offset ≤ first ∧ form.offset + form.text.length = last + 1 := by
  obtain ⟨ahead, back, whole, placed, ends⟩ := Form.exists_parts_of_mem_split blanked among
  obtain ⟨front, blanks, rest, text, blank, trimmed, span⟩ := Item.exists_parts_of_ofForm? made
  have lengthText := congrArg List.length text
  have lengthClean := congrArg List.length whole
  rw [length_blankComments blanked] at lengthClean
  simp only [List.length_append, List.length_cons] at lengthText lengthClean
  obtain ⟨last, stop⟩ : ∃ last, form.offset + form.text.length = last + 1 :=
    Nat.exists_eq_succ_of_ne_zero (by omega)
  -- blanks before the dash are part of the form, but not of the span
  have ordered : form.offset + front.length ≤ last := by omega
  rw [stop] at span
  obtain ⟨readStart, readStop⟩ := Source.offsetAt?_span ordered
    (show last < source.content.length by omega)
  have dash : clean[form.offset + front.length]? = some '-' := by
    rw [whole, text, ← placed, List.getElem?_append_right (Nat.le_add_right _ _)]
    simp
  -- the dot of the form, and what comes after it
  have fromDot (further : Nat) : clean[last + 1 + further]? = ('.' :: back)[further]? := by
    rw [whole, ← stop, ← placed, Nat.add_assoc, List.getElem?_append_right (Nat.le_add_right _ _),
      Nat.add_sub_cancel_left, List.getElem?_append_right (Nat.le_add_right _ _),
      Nat.add_sub_cancel_left]
  refine ⟨form.offset + front.length, last, ?_, span, Nat.le_add_right _ _, stop⟩
  constructor
  case file => rw [span]; rfl
  case start => rw [span]; exact readStart
  case stop => rw [span]; exact readStop
  case ordered => exact ordered
  case dash => exact getElem?_of_blankComments blanked dash (by decide)
  case dot => exact getElem?_of_blankComments blanked (fromDot 0) (by decide)
  case form => exact ⟨form, among, Nat.le_add_right _ _, stop⟩
  case ends => rw [fromDot 1, ← ends]; simp [List.head?_eq_getElem?]
  case written =>
    refine ⟨blanks, rest, ?_, blank, trimmed⟩
    rw [← stop, ← placed, whole, List.take_length_add_append, List.take_left,
      List.drop_length_add_append, text, List.drop_left]

private theorem Sheet.stands_of_ofSource {source : Source} {sheet : Sheet}
    (read : ofSource source = .ok sheet) : ∃ clean, blankComments source.content = .ok clean ∧
      (∀ attr ∈ sheet.ownAttributes, ∃ first last,
        attr.Stands source.path source.content clean first last) ∧
      sheet.ownAttributes.Pairwise fun earlier later => earlier.span.Before later.span := by
  unfold ofSource at read
  split at read
  · cases read
  next clean blanked =>
  cases read
  -- an attribute that is kept is the item of its form
  have kept (form : Form) (attr : Attribute) :
      (Item.ofForm? source form).bind Item.kept? = some attr ↔
        Item.ofForm? source form = some (.kept attr) := by
    cases Item.ofForm? source form with
    | none => simp
    | some item => cases item <;> simp [Item.kept?]
  refine ⟨clean, blanked, ?_, ?_⟩
  · intro attr among
    rw [ownAttributes, List.filterMap_filterMap] at among
    obtain ⟨form, listed, made⟩ := List.mem_filterMap.mp among
    obtain ⟨first, last, stands, -⟩ :=
      Attribute.stands_of_ofForm? blanked listed ((kept _ _).mp made)
    exact ⟨first, last, stands⟩
  · -- forms stand apart, and the span of an attribute lies within its form
    rw [ownAttributes, List.filterMap_filterMap, List.pairwise_filterMap]
    refine (Form.pairwise_split clean).imp_of_mem ?_
    intro one other listed listedOther apart attr made attrOther madeOther
    obtain ⟨first, last, stands, span, -, stop⟩ :=
      Attribute.stands_of_ofForm? blanked listed ((kept _ _).mp made)
    obtain ⟨next, final, standsOther, spanOther, start, stopOther⟩ :=
      Attribute.stands_of_ofForm? blanked listedOther ((kept _ _).mp madeOther)
    have ordered := stands.ordered
    have orderedOther := standsOther.ordered
    rw [span, spanOther]
    exact Source.span_before (by omega) (by omega)

namespace World

variable {w : World} {options : ScanOptions} {path : Path}

private theorem exists_content_of_sheet {location? : Option Location} {sheet : Sheet}
    (read : (w.sheet path).outcome = .ok (location?, sheet)) : ∃ bytes content,
      w.knownFileAt path = .ok location? ∧ w.readBytes path = .ok bytes ∧
        Source.Holds bytes content ∧ Sheet.ofSource ⟨path, Encoding.ofBytes bytes, content⟩ =
          .ok sheet := by
  obtain ⟨bytes, source, bytesRead, sourceRead, known, sheetOf⟩ := outcome_sheet_eq_ok_iff.mp read
  cases decoded : (Encoding.ofBytes bytes).decode bytes with
  | error rest =>
    rw [Source.read_of_fault decoded] at sourceRead
    cases sourceRead
  | ok text =>
    rw [Source.read_of_decode decoded] at sourceRead
    cases sourceRead
    exact ⟨bytes, _, known, bytesRead, ⟨text, decoded, rfl⟩, sheetOf⟩

/-- Whether attributes stand in the file at a location, one after the other: each where its span
says, in the text that the file holds and in what its comments leave of it. -/
def StandIn (w : World) (location : Location) (attributes : List Attribute) : Prop :=
  ∃ file bytes content clean,
    w.knownFileAt file = .ok (some location) ∧ w.readBytes file = .ok bytes ∧
    Source.Holds bytes content ∧ blankComments content = .ok clean ∧
    (∀ attr ∈ attributes, ∃ first last, attr.Stands file content clean first last) ∧
    attributes.Pairwise fun earlier later => earlier.span.Before later.span

/-- Every attribute that a scan gives comes from a file, and what comes from one file stands there,
where the spans say and one attribute after the other. -/
theorem standIn_of_scan {attributes : List Attribute}
    (scanned : (w.scan options path).outcome = .ok attributes) :
    ∃ entries : List (Location × Attribute), entries.map Prod.snd = attributes ∧
      ∀ location ∈ entries.map Prod.fst,
        w.StandIn location (Expansion.contributed location entries) := by
  obtain ⟨root, sheet, expansion, course⟩ := exists_course_of_scan scanned
  refine ⟨expansion.contributions root, course.attributes_eq.symm, fun location among => ?_⟩
  obtain ⟨entry, listed, rfl⟩ := List.mem_map.mp among
  -- the attribute stands in the root or in a file that was entered
  obtain ⟨file, entered⟩ : ∃ file, (file, entry.1) ∈ (path, root) :: expansion.files := by
    rcases Expansion.mem_of_mem_contributions listed with same | reached
    · exact ⟨path, same ▸ List.mem_cons_self⟩
    · obtain ⟨⟨file, location⟩, within, rfl⟩ := List.mem_map.mp reached
      exact ⟨file, List.mem_cons_of_mem _ within⟩
  obtain ⟨own, read, contributed⟩ := course.own _ entered
  obtain ⟨bytes, content, known, bytesRead, holds, sheetOf⟩ := exists_content_of_sheet read
  obtain ⟨clean, blanked, stands, apart⟩ := Sheet.stands_of_ofSource sheetOf
  rw [contributed]
  exact ⟨file, bytes, content, clean, known, bytesRead, holds, blanked, stands, apart⟩

theorem standIn_of_scan_circle :
    ∃ entries : List (Location × Attribute),
      entries.map Prod.snd = [circle.naming, circle.specification] ∧
      ∀ location ∈ entries.map Prod.fst,
        circle.StandIn location (Expansion.contributed location entries) :=
  standIn_of_scan outcome_scan_circle

end World

end SignatureIndex
