import SignatureIndex.Proofs.Adjacency
import SignatureIndex.Proofs.Positions

/-!
# Passages

A source file can be printed passage by passage, each from the start of a line: attributes, other
forms with a dot after each, and comments.  Dots, percent signs, marks and dollars may stand in any
of them, as long as the lexemes of a form are whole and none of its dots ends it before its time.
Then each passage is cut by itself, and the items of the file are the attributes that were printed.
-/

namespace SignatureIndex

/-- Whether a lexeme is neither a comment nor a literal that the end of the text cuts off. -/
def Lexeme.isClosed : Lexeme → Bool
  | comment _ => false
  | literal written => isLiteralBody (written.drop 1)
  | quoted _ | plain _ => true

private theorem stopsAt_of_isClosed {lexeme : Lexeme} (closed : lexeme.isClosed = true)
    (text : List Char) : lexeme.stopsAt text = true := by
  cases lexeme with
  | comment written => cases closed
  | quoted written => rfl
  | plain c => rfl
  | literal written =>
    rw [Lexeme.isClosed] at closed
    rw [Lexeme.stopsAt, closed, Bool.or_true]

private theorem flatMap_hushed_of_isClosed {lexemes : List Lexeme}
    (closed : ∀ lexeme ∈ lexemes, lexeme.isClosed = true) :
    lexemes.flatMap Lexeme.hushed = lexemes := by
  induction lexemes with
  | nil => rfl
  | cons lexeme lexemes ih =>
    have alone : lexeme.hushed = [lexeme] := by
      have here := closed lexeme (by simp)
      cases lexeme with
      | comment written => cases here
      | quoted | literal | plain => rfl
    rw [List.flatMap_cons, alone, ih fun other among => closed other (by simp [among])]
    rfl

namespace Form

/-- Whether a form ends somewhere in a row of lexemes: at a dot of its own, after no other such dot,
and before a blank or the end. -/
def HasEnd (lexemes : List Lexeme) : Prop :=
  ∃ before after, lexemes = before ++ .plain '.' :: after ∧
    before.getLast? ≠ some (.plain '.') ∧ endsBefore after = true

theorem fst_prepend_eq_nil_iff {text : List Char} {cutting : List (List Char) × List Char} :
    (prepend text cutting).1 = [] ↔ cutting.1 = [] := by
  obtain ⟨_ | ⟨form, forms⟩, rest⟩ := cutting <;> simp [prepend]

private theorem cut_of_endless (afterDot : Bool) {lexemes : List Lexeme}
    (endless : ∀ before after, lexemes = before ++ .plain '.' :: after →
      endsInDot afterDot before = false → endsBefore after = false) :
    (cut afterDot lexemes).1 = [] := by
  induction lexemes generalizing afterDot with
  | nil => rfl
  | cons lexeme lexemes ih =>
    rw [cut_cons]
    split
    · next terminates =>
      simp only [Bool.and_eq_true, beq_iff_eq, Bool.not_eq_true'] at terminates
      obtain ⟨⟨rfl, notAfter⟩, ends⟩ := terminates
      rw [endless [] lexemes rfl notAfter] at ends
      cases ends
    · rw [fst_prepend_eq_nil_iff]
      apply ih
      intro before after parts notDot
      apply endless (lexeme :: before) after
      · rw [parts, List.cons_append]
      · rwa [endsInDot_cons]

theorem fst_cut_eq_nil_iff {lexemes : List Lexeme} : (cut false lexemes).1 = [] ↔
    ¬HasEnd lexemes := by
  constructor
  · rintro none ⟨before, after, rfl, notDot, ends⟩
    rw [cut_append false before _ fun isDot => absurd isDot notDot,
      endsInDot_eq_false_iff.mpr notDot, join, List.append_eq_nil_iff, fst_prepend_eq_nil_iff,
      cut_cons, ends] at none
    exact absurd none.2 (by simp)
  · intro endless
    apply cut_of_endless
    intro before after parts notDot
    cases ends : endsBefore after with
    | false => rfl
    | true => exact absurd ⟨before, after, parts, endsInDot_eq_false_iff.mp notDot, ends⟩ endless

instance (lexemes : List Lexeme) : Decidable (HasEnd lexemes) :=
  decidable_of_iff (¬(cut false lexemes).1 = []) (by rw [fst_cut_eq_nil_iff, Classical.not_not])

/-- Whether a text can be written before the dot of a form and read back. -/
structure IsPrintable (text : List Char) : Prop where
  trimmed : Text.trim text = text
  noReturn : '\r' ∉ text
  closed : (Lexeme.ofText text).2 = [] ∧ ∀ lexeme ∈ (Lexeme.ofText text).1, lexeme.isClosed = true
  endless : ¬HasEnd (Lexeme.ofText text).1
  noDot : (Lexeme.ofText text).1.getLast? ≠ some (.plain '.')

instance (text : List Char) : Decidable (IsPrintable text) :=
  decidable_of_iff (Text.trim text = text ∧ '\r' ∉ text ∧
      ((Lexeme.ofText text).2 = [] ∧ ∀ lexeme ∈ (Lexeme.ofText text).1, lexeme.isClosed = true) ∧
      ¬HasEnd (Lexeme.ofText text).1 ∧ (Lexeme.ofText text).1.getLast? ≠ some (.plain '.')) <| by
    constructor
    · rintro ⟨trimmed, noReturn, closed, endless, noDot⟩
      exact ⟨trimmed, noReturn, closed, endless, noDot⟩
    · intro printable
      exact ⟨printable.trimmed, printable.noReturn, printable.closed, printable.endless,
        printable.noDot⟩

variable {front text : List Char}

/-- The lexemes of a printed form, whose text comes after characters that stand for themselves. -/
theorem ofText_printed (plain : ∀ c ∈ front, Lexeme.isMark c = false ∧ c ≠ '$' ∧ c ≠ '%')
    (printable : IsPrintable text) :
    Lexeme.ofText (front ++ text ++ ['.', '\n']) =
      (front.map .plain ++ (Lexeme.ofText text).1 ++ [.plain '.', .plain '\n'], []) := by
  obtain ⟨unmatched, closed⟩ := printable.closed
  have read := ofText_append_plain plain (Prod.ext rfl unmatched : Lexeme.ofText text = (_, []))
  have final : Lexeme.ofText ['.', '\n'] = ([.plain '.', .plain '\n'], []) :=
    ofText_plain (by simp [Lexeme.isMark, Text.doubleMark, Text.apostrophe])
  rw [ofText_append read, final]
  intro last isLast
  apply stopsAt_of_isClosed
  rcases List.mem_append.mp (List.mem_of_getLast? isLast) with among | among
  · obtain ⟨c, -, rfl⟩ := List.mem_map.mp among
    rfl
  · exact closed last among

/-- A printed form is cut at its dot and nowhere else. -/
theorem cutText_printed (plain : ∀ c ∈ front, Lexeme.isMark c = false ∧ c ≠ '$' ∧ c ≠ '%')
    (noDot : '.' ∉ front) (printable : IsPrintable text) :
    cutText (front ++ text ++ ['.', '\n']) = ([front ++ text], ['\n']) := by
  obtain ⟨unmatched, closed⟩ := printable.closed
  -- no lexeme is a comment, so clearing changes nothing
  have cleared : Lexeme.ofCleared (front ++ text ++ ['.', '\n']) =
      front.map .plain ++ (Lexeme.ofText text).1 ++ [.plain '.', .plain '\n'] := by
    unfold Lexeme.ofCleared
    rw [ofText_printed plain printable]
    apply flatMap_hushed_of_isClosed
    intro lexeme among
    simp only [List.mem_append, List.mem_map, List.mem_cons] at among
    rcases among with (⟨c, -, rfl⟩ | among) | rfl | rfl | among
    · rfl
    · exact closed lexeme among
    · rfl
    · rfl
    · cases among
  have frontLast : (front.map Lexeme.plain).getLast? ≠ some (.plain '.') := by
    intro isLast
    obtain ⟨c, among, same⟩ := List.mem_map.mp (List.mem_of_getLast? isLast)
    exact noDot (Lexeme.plain.inj same ▸ among)
  have whole := Lexeme.flatMap_text_ofText text
  rw [unmatched, List.append_nil] at whole
  -- the text has no end of a form in it, neither by itself nor behind the front
  have inside : cut false (Lexeme.ofText text).1 = ([], text) := by
    have none := fst_cut_eq_nil_iff.mpr printable.endless
    have written := written_cut false (Lexeme.ofText text).1
    rw [none, whole] at written
    exact Prod.ext none written
  have before : cut false (front.map .plain ++ (Lexeme.ofText text).1) = ([], front ++ text) := by
    rw [cut_append false _ _ fun isDot => absurd isDot frontLast,
      endsInDot_eq_false_iff.mpr frontLast, cut_map_plain false noDot, inside]
    rfl
  have last : (front.map Lexeme.plain ++ (Lexeme.ofText text).1).getLast? ≠ some (.plain '.') := by
    rw [List.getLast?_append]
    intro isLast
    cases ends : (Lexeme.ofText text).1.getLast? with
    | none =>
      rw [ends] at isLast
      exact frontLast isLast
    | some lexeme =>
      rw [ends] at isLast
      exact printable.noDot (ends.trans isLast)
  rw [cutText, cleared, cut_append false _ _ fun isDot => absurd isDot last,
    endsInDot_eq_false_iff.mpr last, before]
  simp [join, prepend, cut, endsBefore, Lexeme.text, Text.isBlank]

end Form

/-! ## Passages -/

/-- A part of a source file that starts and ends a line. -/
inductive Passage where
  /-- An attribute. -/
  | declaration (kind text : List Char)
  /-- A form that is no attribute. -/
  | form (text : List Char)
  | comment (text : List Char)

namespace Passage

/-- The form that a passage is, without its dot. -/
def form? : Passage → Option (List Char)
  | declaration kind text => some ('-' :: kind ++ [' '] ++ text)
  | form text => some text
  | comment _ => none

def written : Passage → List Char
  | declaration kind text => '-' :: kind ++ [' '] ++ text ++ ['.', '\n']
  | form text => text ++ ['.', '\n']
  | comment text => '%' :: text ++ ['\n']

/-- Whether a name is one of an attribute that stays where it is. -/
def IsKind (kind : List Char) : Prop :=
  kind.head?.any Char.isLower = true ∧ kind.tail.all isNameChar = true ∧
    String.ofList kind ≠ IncludeKind.file.name ∧ String.ofList kind ≠ IncludeKind.library.name

instance (kind : List Char) : Decidable (IsKind kind) := inferInstanceAs (Decidable (_ ∧ _))

/-- Whether a passage is read back as it was written. -/
def IsProper : Passage → Prop
  | declaration kind text => IsKind kind ∧ Form.IsPrintable text
  | form text => Item.head? (Text.trimStart text) = none ∧ Form.IsPrintable text
  | comment text => '\n' ∉ text

instance : (passage : Passage) → Decidable passage.IsProper
  | declaration _ _ | form _ => inferInstanceAs (Decidable (_ ∧ _))
  | comment text => inferInstanceAs (Decidable ('\n' ∉ text))

/-- The attribute that is written on a line, from its first column on and up to its dot. -/
def attribute? (file : String) (line : Nat) : Passage → Option Attribute
  | declaration kind text =>
    let form := '-' :: kind ++ [' '] ++ text
    let last := Source.walkedTo line 1 (form.length - 1) form
    some ⟨String.ofList kind, String.ofList text, ⟨file, line, 1, last.1, last.2⟩⟩
  | form _ | comment _ => none

/-- The attributes of passages that are written from a line on. -/
def attributes (file : String) (line : Nat) : List Passage → List Attribute
  | [] => []
  | passage :: passages =>
    (passage.attribute? file line).toList ++
      attributes file (line + passage.written.count '\n') passages

end Passage

section Heads

variable {kind text : List Char}

theorem Passage.IsKind.exists_cons (isKind : IsKind kind) :
    ∃ c cs, kind = c :: cs ∧ c.isLower = true ∧ ∀ d ∈ cs, isNameChar d = true := by
  obtain ⟨lower, name, -⟩ := isKind
  cases kind with
  | nil => cases lower
  | cons c cs => exact ⟨c, cs, rfl, by simpa using lower, by simpa using name⟩

/-- What stands before the text of an attribute stands for itself, and there is no dot in it. -/
theorem Passage.IsKind.plain_of_mem (isKind : IsKind kind) {c : Char}
    (among : c ∈ '-' :: kind ++ [' ']) :
    (Lexeme.isMark c = false ∧ c ≠ '$' ∧ c ≠ '%') ∧ c ≠ '.' := by
  obtain ⟨d, cs, rfl, lower, name⟩ := isKind.exists_cons
  refine plain_of_mem_head (fun other within => ?_) (by decide) among
  rcases List.mem_cons.mp within with rfl | within
  · exact isNameChar_of_isLower lower
  · exact name other within

/-- An attribute is recognised by what stands before its text. -/
theorem head?_attribute (isKind : Passage.IsKind kind) :
    Item.head? ('-' :: kind ++ [' '] ++ text) = some (kind, ' ' :: text) := by
  obtain ⟨c, cs, rfl, lower, name⟩ := isKind.exists_cons
  have notBlank : Text.isBlank c = false :=
    isBlank_of_bars (bars_of_isInert (isInert_of_isLower lower))
  have rest : ('-' :: c :: cs) ++ [' '] ++ text = '-' :: c :: (cs ++ ' ' :: text) := by simp
  rw [rest, Item.head?, List.dropWhile_cons_of_neg (by simp [notBlank])]
  simp only [lower, if_true]
  rw [List.takeWhile_append_of_pos name, List.dropWhile_append_of_pos name]
  have stop : isNameChar ' ' = false := by decide
  rw [List.takeWhile_cons_of_neg (by simp [stop]), List.dropWhile_cons_of_neg (by simp [stop]),
    List.append_nil]

/-- An attribute contributes itself, up to the place of its dot. -/
theorem ofForm?_declaration (isKind : Passage.IsKind kind) (trimmed : Text.trim text = text)
    (source : Source) (offset : Nat) :
    Item.ofForm? source ⟨offset, '-' :: kind ++ [' '] ++ text⟩ =
      some (.kept ⟨String.ofList kind, String.ofList text,
        source.span offset (offset + ('-' :: kind ++ [' '] ++ text).length : Nat)⟩) := by
  have notInclusion : Item.includeKind? (String.ofList kind) = none := by
    rw [Item.includeKind?, if_neg isKind.2.2.1, if_neg isKind.2.2.2]
  have stripped : Text.trimStart ('-' :: kind ++ [' '] ++ text) = '-' :: kind ++ [' '] ++ text :=
    rfl
  have spaced : Text.trim (' ' :: text) = text := trimmed
  simp only [Item.ofForm?, stripped, head?_attribute isKind, notInclusion, spaced,
    Nat.add_sub_cancel_right]

end Heads

namespace Passage

variable {passage : Passage}

private theorem exists_written (passage : Passage) :
    ∃ front, passage.written = front ++ ['\n'] := by
  cases passage with
  | declaration kind text =>
    exact ⟨'-' :: kind ++ [' '] ++ text ++ ['.'], (List.append_assoc _ ['.'] ['\n']).symm⟩
  | form text => exact ⟨text ++ ['.'], (List.append_assoc _ ['.'] ['\n']).symm⟩
  | comment text => exact ⟨'%' :: text, rfl⟩

theorem exists_ofText_written (proper : passage.IsProper) :
    ∃ lexemes, Lexeme.ofText passage.written = (lexemes ++ [.plain '\n'], []) := by
  cases passage with
  | declaration kind text =>
    have plain c among := (@Passage.IsKind.plain_of_mem _ proper.1 c among).1
    refine ⟨('-' :: kind ++ [' ']).map .plain ++ (Lexeme.ofText text).1 ++ [.plain '.'], ?_⟩
    rw [List.append_assoc]
    exact Form.ofText_printed plain proper.2
  | form text =>
    refine ⟨(Lexeme.ofText text).1 ++ [.plain '.'], ?_⟩
    rw [List.append_assoc]
    exact @Form.ofText_printed [] text nofun proper.2
  | comment text =>
    have read := ofText_of_next? (@next?_comment ['\n'] text proper rfl)
    rw [ofText_feed] at read
    exact ⟨[.comment ('%' :: text)], read⟩

/-- A passage is cut into its form, if it is one, and blanks. -/
theorem exists_cutText_written (proper : passage.IsProper) :
    ∃ blanks, Text.isAllBlank blanks = true ∧
      Form.cutText passage.written = (passage.form?.toList, blanks) := by
  cases passage with
  | declaration kind text =>
    have plain c among := (@Passage.IsKind.plain_of_mem _ proper.1 c among).1
    have noDot : '.' ∉ '-' :: kind ++ [' '] := fun among => (proper.1.plain_of_mem among).2 rfl
    exact ⟨['\n'], by decide, Form.cutText_printed plain noDot proper.2⟩
  | form text => exact ⟨['\n'], by decide, @Form.cutText_printed [] text nofun nofun proper.2⟩
  | comment text =>
    have read := ofText_of_next? (@next?_comment ['\n'] text proper rfl)
    have cleared : Lexeme.ofCleared ('%' :: text ++ ['\n']) =
        (List.replicate ('%' :: text).length ' ' ++ ['\n']).map .plain := by
      rw [ofText_feed] at read
      rw [List.map_append, List.map_replicate]
      exact congrArg (·.1.flatMap Lexeme.hushed) read
    refine ⟨List.replicate ('%' :: text).length ' ' ++ ['\n'], ?_, ?_⟩
    · simp [Text.isAllBlank, Text.isBlank]
    · rw [written, Form.cutText, cleared]
      apply Form.cut_map_plain
      simp

private theorem isComplete_written (proper : passage.IsProper) :
    Form.IsComplete passage.written := by
  obtain ⟨lexemes, read⟩ := exists_ofText_written proper
  obtain ⟨blanks, blank, cut⟩ := exists_cutText_written proper
  exact Form.isComplete_iff.mpr ⟨by rw [read], by rwa [cut]⟩

/-- Nothing at the end of a passage goes on in what follows. -/
theorem partsFrom_written (proper : passage.IsProper) (text : List Char) :
    Form.PartsFrom passage.written text := by
  obtain ⟨lexemes, read⟩ := exists_ofText_written proper
  refine Form.partsFrom_of_last ?_ (by decide : '\n' ≠ '.') text
  rw [read, List.getLast?_concat]

/-- A passage contributes its attribute, in the line where it starts. -/
theorem ofTexts_written (proper : passage.IsProper) {source : Source} {front back : List Char}
    {line : Nat} (parts : source.content = front ++ passage.written ++ back)
    (starts : Source.walkedTo 1 1 front.length front = (line, 1)) :
    Item.ofTexts source front.length (Form.cutText passage.written).1 =
      (passage.attribute? (toString source.path) line).toList.map .kept := by
  obtain ⟨blanks, -, cut⟩ := exists_cutText_written proper
  rw [cut]
  cases passage with
  | declaration kind text =>
    obtain ⟨isKind, printable⟩ := proper
    -- places in the passage are counted from where it starts
    have place (steps : Nat) (within : steps ≤ ('-' :: kind ++ [' '] ++ text).length) :
        source.position (front.length + steps) =
          Source.walkedTo line 1 steps ('-' :: kind ++ [' '] ++ text) := by
      rw [Source.position, parts, List.append_assoc, Source.walkedTo_append, starts, written,
        List.append_assoc, Source.walkedTo_append_left within]
    have begin : source.position front.length = (line, 1) := (place 0 (Nat.zero_le _)).trans rfl
    have last : max front.length (front.length + ('-' :: kind ++ [' '] ++ text).length - 1) =
        front.length + (('-' :: kind ++ [' '] ++ text).length - 1) := by
      simp only [List.cons_append, List.length_cons]
      omega
    simp only [form?, Option.toList_some, Item.ofTexts, Form.place, List.filterMap_cons,
      List.filterMap_nil, ofForm?_declaration isKind printable.trimmed,
      Source.span_natCast, last, begin,
      place _ (Nat.sub_le _ 1)]
    rfl
  | form text =>
    have noItem : Item.ofForm? source ⟨front.length, text⟩ = none := by
      simp only [Item.ofForm?, proper.1]
    simp only [form?, Option.toList_some, Item.ofTexts, Form.place, List.filterMap_cons, noItem,
      List.filterMap_nil]
    rfl
  | comment text => rfl

/-- Passages contribute their attributes, in the lines where they start, and leave no form open. -/
theorem part?_passages {passages : List Passage} (proper : ∀ passage ∈ passages, passage.IsProper)
    {source : Source} {front : List Char} {line : Nat}
    (parts : source.content = front ++ passages.flatMap written)
    (starts : Source.walkedTo 1 1 front.length front = (line, 1)) :
    Sheet.part? source front.length (passages.flatMap written) =
      some ((attributes (toString source.path) line passages).map .kept, none) := by
  induction passages generalizing front line with
  | nil => exact Sheet.part?_nil front.length
  | cons passage passages ih =>
    have here := proper passage (by simp)
    rw [List.flatMap_cons] at parts ⊢
    have startsRest :
        Source.walkedTo 1 1 (front ++ passage.written).length (front ++ passage.written) =
        (line + passage.written.count '\n', 1) := by
      obtain ⟨inside, feed⟩ := passage.exists_written
      rw [List.length_append, Source.walkedTo_append, starts, feed, Source.walkedTo_feed]
    have later := ih (fun other among => proper other (by simp [among]))
      (parts.trans (List.append_assoc _ _ _).symm) startsRest
    rw [← List.append_assoc] at parts
    rw [Sheet.part?_append (isComplete_written here) (partsFrom_written here _),
      ← List.length_append, later, ofTexts_written here parts starts, attributes, List.map_append]
    rfl

end Passage

/-- The sheet of a source file that is printed from passages. -/
theorem Sheet.ofSource_of_printed {source : Source} {passages : List Passage}
    (printed : source.content = passages.flatMap Passage.written)
    (proper : ∀ passage ∈ passages, passage.IsProper) :
    Sheet.ofSource source = .ok ⟨source.path,
      (Passage.attributes (toString source.path) 1 passages).map .kept, none⟩ := by
  have starts : Source.walkedTo 1 1 ([] : List Char).length [] = (1, 1) := rfl
  have whole := Passage.part?_passages proper printed starts
  rw [← printed] at whole
  exact ofSource_eq_ok_iff.mpr ⟨rfl, whole⟩

end SignatureIndex
