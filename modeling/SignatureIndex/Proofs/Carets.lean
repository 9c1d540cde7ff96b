import SignatureIndex.Diagnostic.Renderer
import SignatureIndex.Proofs.Numerals
import SignatureIndex.Proofs.Spellings

/-!
# Where the carets stand

A label on one line of a file is shown in four rows: the place, a blank row that holds only a bar,
the source line after a bar, and a row of carets after a bar.  The bars of the blank row and of the
caret row always stand in the sixth column, while the bar of the source row stands behind a line
number that takes four columns at least.  So the first two bars, and with them the carets, stand
left of where they belong: by two columns as long as the line number has at most four digits, and by
one more for every further digit.
-/

namespace SignatureIndex

namespace Text

/-- The rows that the line feeds of a text divide it into. -/
def rows (text : String) : List String := (pieces '\n' text.toList).map String.ofList

private theorem rows_of_not_mem {text : String} (whole : '\n' ∉ text.toList) :
    rows text = [text] := by
  rw [rows, pieces_of_not_mem whole, List.map_singleton, String.ofList_toList]

/-- Texts that are put one below the other keep their rows. -/
theorem rows_intercalate {parts : List String} (some : parts ≠ []) :
    rows ("\n".intercalate parts) = parts.flatMap rows := by
  induction parts with
  | nil => exact absurd rfl some
  | cons part parts ih =>
    cases parts with
    | nil => simp
    | cons next parts =>
      have later := ih (List.cons_ne_nil _ _)
      have below : ("\n".intercalate (part :: next :: parts)).toList =
          part.toList ++ '\n' :: ("\n".intercalate (next :: parts)).toList := by
        simp
      rw [List.flatMap_cons, ← later, rows, below, pieces_append, List.map_append, rows, rows]

end Text

/-- No line of a file that is shown holds a line feed. -/
theorem World.not_mem_of_mem_linesOf {w : World} {filename line : String}
    (among : line ∈ w.linesOf filename) : '\n' ∉ line.toList := by
  intro feed
  simp only [linesOf] at among
  split at among
  · obtain ⟨piece, isPiece, rfl⟩ := List.mem_map.mp among
    rw [String.toList_ofList] at feed
    exact absurd (Text.not_isBreak_of_mem_splitAtBreaks isPiece feed) (by decide)
  · cases among

namespace Renderer

variable {r : Renderer} {w : World} {span : Span} {line bar source caret : String} {shift : Nat}

/-! ## What a renderer remembers -/

/-- Whether all that a renderer remembers of files is what it has read of them, be it in a world
that has changed since. -/
def Remembers (r : Renderer) : Prop := ∀ entry ∈ r.known, ∃ w : World, entry.2 = w.linesOf entry.1

private theorem remembers_new (coloured : Bool) : (new coloured).Remembers := nofun

theorem Remembers.linesOf (remembers : r.Remembers) (w : World) (filename : String) :
    ∃ w' : World, (r.linesOf w filename).1 = w'.linesOf filename := by
  unfold Renderer.linesOf
  split
  next lines found =>
    -- the file has been looked at before, in whatever world
    obtain ⟨before, after, parts, -⟩ := List.lookup_eq_some_iff.mp found
    exact remembers (filename, lines) (by simp [parts])
  · exact ⟨w, rfl⟩

/-- What is shown of a file is not changed by what is looked at besides. -/
theorem fst_linesOf_snd (r : Renderer) (w : World) (filename other : String) :
    ((r.linesOf w other).2.linesOf w filename).1 = (r.linesOf w filename).1 := by
  cases found : r.known.lookup other with
  | some lines => simp [Renderer.linesOf, found]
  | none =>
    by_cases same : filename = other
    · subst same
      simp [Renderer.linesOf, found]
    · have missed : (filename == other) = false := by simpa using same
      simp only [Renderer.linesOf, found, List.lookup_cons, missed]
      cases r.known.lookup filename <;> rfl

private theorem labelRows_snd_linesOf (r : Renderer) (w : World) (filename : String)
    (colour : Colour) (lines : List String) (label : Label) :
    (r.linesOf w filename).2.labelRows colour lines label = r.labelRows colour lines label := by
  unfold Renderer.linesOf
  split <;> rfl

/-- The rows of labels are those of each label by itself. -/
theorem fst_labelsRows (r : Renderer) (w : World) (colour : Colour) (labels : List Label) :
    (r.labelsRows w colour labels).1 =
      labels.flatMap fun label => r.labelRows colour (r.linesOf w label.span.file).1 label := by
  induction labels generalizing r with
  | nil => rfl
  | cons label labels ih =>
    simp only [labelsRows, List.flatMap_cons, ih, labelRows_snd_linesOf, fst_linesOf_snd]

theorem of_lineNumbered? {lines : List String} {number : Int}
    (shown : lineNumbered? lines number = some line) :
    1 ≤ number ∧ line ∈ lines := by
  unfold lineNumbered? at shown
  split at shown
  next counted => exact ⟨counted, List.mem_of_getElem? shown⟩
  · cases shown

/-! ## The rows of a label -/

/-- The column of the first bar of a row, counted from zero. -/
def barColumn (row : String) : Nat := row.toList.idxOf '|'

/-- The column, counted from zero, in which a row that ends with a line shows the character with
this number, counted from one. -/
def shownColumn (row line : String) (number : Nat) : Nat := row.length - line.length + (number - 1)

private theorem getElem?_shownColumn (front line : String) (number : Nat) :
    (front ++ line).toList[shownColumn (front ++ line) line number]? =
      line.toList[number - 1]? := by
  have column : shownColumn (front ++ line) line number = front.toList.length + (number - 1) := by
    rw [shownColumn, String.length_append, Nat.add_sub_cancel, String.length_toList]
  rw [String.toList_append, column, List.getElem?_append_right (Nat.le_add_right _ _),
    Nat.add_sub_cancel_left]

/-- Whether the bars of a blank row and of a caret row, and the carets in it, stand so many columns
left of where a source row between the two has its bar and shows the characters of a span. -/
structure StandsLeftBy (shift : Nat) (span : Span) (line bar source caret : String) : Prop where
  /-- The source row shows the line, and on it the characters of the span. -/
  shows : (∃ front, source = front ++ line) ∧ ∀ number : Nat, span.startColumn ≤ number →
    number ≤ span.endColumn → ∃ c, line.toList[number - 1]? = some c ∧
    source.toList[shownColumn source line number]? = some c
  bars : barColumn bar + shift = barColumn source ∧ barColumn caret + shift = barColumn source
  carets : ∀ column : Nat, caret.toList[column]? = some '^' ↔ ∃ number : Nat,
    span.startColumn ≤ number ∧ number ≤ span.endColumn ∧
    column + shift = shownColumn source line number

section Plain

variable (plain : r.coloured = false)
include plain

theorem painted_of_plain (colour : Colour) (text : String) : r.painted colour text = text := by
  simp [painted, paint, plain]

theorem toList_bar : r.bar.toList = List.replicate 5 ' ' ++ ['|'] := by
  rw [bar, painted_of_plain plain]
  rfl

theorem toList_sourceRow (span : Span) (line : String) : (r.sourceRow span line).toList =
    List.replicate 2 ' ' ++ (List.replicate (4 - (toString span.startLine).length) ' ' ++
      (toString span.startLine).toList) ++ [' ', '|', ' '] ++ line.toList := by
  simp [sourceRow, painted_of_plain plain, alignRight]

theorem toList_caretRow (colour : Colour) (span : Span) : (r.caretRow colour span).toList =
    List.replicate 5 ' ' ++ '|' :: List.replicate ((span.startColumn - 1).toNat + 1) ' ' ++
      List.replicate (max 1 (span.endColumn - span.startColumn + 1)).toNat '^' := by
  simp [caretRow, painted_of_plain plain, repeated, toList_bar plain, List.replicate_succ]

private theorem barColumn_bar : barColumn r.bar = 5 := by
  rw [barColumn, toList_bar plain]
  decide

private theorem barColumn_caretRow (colour : Colour) (span : Span) :
    barColumn (r.caretRow colour span) = 5 := by
  rw [barColumn, toList_caretRow plain, List.append_assoc, List.idxOf_append, if_neg (by simp),
    List.cons_append, List.idxOf_cons_self, List.length_replicate]

/-- The carets of a row stand in the columns of their span, behind a bar and a blank. -/
theorem getElem?_caretRow_eq_caret_iff (colour : Colour) (starts : 1 ≤ span.startColumn)
    (ordered : span.startColumn ≤ span.endColumn) {column : Nat} :
    (r.caretRow colour span).toList[column]? = some '^' ↔
      span.startColumn + 6 ≤ column ∧ column ≤ span.endColumn + 6 := by
  have noCaret :
      '^' ∉ List.replicate 5 ' ' ++ '|' :: List.replicate ((span.startColumn - 1).toNat + 1)
      ' ' := by simp
  rw [toList_caretRow plain, List.getElem?_append]
  simp only [List.length_append, List.length_replicate, List.length_cons]
  split
  next before =>
    constructor
    · intro found
      exact absurd (List.mem_of_getElem? found) noCaret
    · omega
  next behind =>
    rw [List.getElem?_replicate]
    split <;> simp <;> omega

section Numbered

variable (counted : 1 ≤ span.startLine)
include counted

omit plain in
theorem isDigit_of_mem_lineNumber {c : Char} (among : c ∈ (toString span.startLine).toList) :
    c.isDigit = true := by
  obtain ⟨number, same⟩ := Int.eq_ofNat_of_zero_le (show 0 ≤ span.startLine by omega)
  rw [same] at among
  exact Text.isDigit_of_mem_toString among

private theorem barColumn_sourceRow (line : String) :
    barColumn (r.sourceRow span line) = max 4 (toString span.startLine).length + 3 := by
  have noBar : '|' ∉ (toString span.startLine).toList := fun among =>
    absurd (isDigit_of_mem_lineNumber counted among) (by decide)
  have noBarBefore : '|' ∉ List.replicate (4 - (toString span.startLine).length) ' ' ++
      (toString span.startLine).toList := by
    rw [List.mem_append, not_or]
    exact ⟨by simp, noBar⟩
  have behind : List.idxOf '|' ([' ', '|', ' '] ++ line.toList) = 1 := rfl
  rw [barColumn, toList_sourceRow plain, List.append_assoc, List.append_assoc, List.idxOf_append,
    if_neg (by simp), List.idxOf_append, if_neg noBarBefore, behind]
  simp only [List.length_append, List.length_replicate, String.length_toList]
  omega

end Numbered

private theorem length_sourceRow (span : Span) (line : String) :
    (r.sourceRow span line).length = max 4 (toString span.startLine).length + 5 + line.length := by
  rw [← String.length_toList, toList_sourceRow plain]
  simp only [List.length_append, List.length_replicate, String.length_toList, List.length_cons,
    List.length_nil]
  omega

/-- The bars and carets of a label stand left of where they belong by the columns of its line number
but two. -/
theorem standsLeftBy_iff (colour : Colour) (counted : 1 ≤ span.startLine)
    (starts : 1 ≤ span.startColumn) (ordered : span.startColumn ≤ span.endColumn)
    (within : span.endColumn ≤ line.length) :
    StandsLeftBy shift span line r.bar (r.sourceRow span line) (r.caretRow colour span) ↔
      shift + 2 = max 4 (toString span.startLine).length := by
  have length := length_sourceRow plain span line
  have shownIn (number : Nat) : shownColumn (r.sourceRow span line) line number =
      max 4 (toString span.startLine).length + 5 + (number - 1) := by
    rw [shownColumn, length]
    omega
  constructor
  · -- the bar of the blank row alone tells how far it is from that of the source row
    intro stands
    have bars := stands.bars.1
    rw [barColumn_bar plain, barColumn_sourceRow plain counted] at bars
    omega
  · intro same
    refine ⟨⟨⟨_, rfl⟩, ?_⟩, ⟨?_, ?_⟩, ?_⟩
    · intro number first last
      have among : number - 1 < line.toList.length := by rw [String.length_toList]; omega
      have there := List.getElem?_eq_getElem among
      exact ⟨_, there, (getElem?_shownColumn _ line number).trans there⟩
    · rw [barColumn_bar plain, barColumn_sourceRow plain counted]
      omega
    · rw [barColumn_caretRow plain, barColumn_sourceRow plain counted]
      omega
    · intro column
      rw [getElem?_caretRow_eq_caret_iff plain colour starts ordered]
      simp only [shownIn]
      -- the caret of a character stands six columns right of the number of the character
      constructor
      · intro between
        exact ⟨column - 6, by omega, by omega, by omega⟩
      · rintro ⟨number, first, last, place⟩
        omega

/-- The rows of a label on one line are rows of the text. -/
theorem exists_rows_labelRows {lines : List String} {label : Label} (colour : Colour)
    (oneLine : label.span.startLine = label.span.endLine)
    (shown : lineNumbered? lines label.span.startLine = some line) (whole : '\n' ∉ line.toList) :
    ∃ after, (r.labelRows colour lines label).flatMap Text.rows =
      Text.rows (r.placeRow label.span) ++ [r.bar, r.sourceRow label.span line,
        r.caretRow colour label.span] ++ after := by
  have counted := (of_lineNumbered? shown).1
  have noFeed : '\n' ∉ (toString label.span.startLine).toList := fun among =>
    absurd (isDigit_of_mem_lineNumber counted among) (by decide)
  have barWhole : '\n' ∉ r.bar.toList := by
    rw [toList_bar plain]
    decide
  have sourceWhole : '\n' ∉ (r.sourceRow label.span line).toList := by
    rw [toList_sourceRow plain]
    simp only [List.mem_append, not_or]
    exact ⟨⟨⟨by decide, by simp, noFeed⟩, by decide⟩, whole⟩
  have caretWhole : '\n' ∉ (r.caretRow colour label.span).toList := by
    rw [toList_caretRow plain]
    simp
  refine ⟨(if label.message.isEmpty then [] else [r.messageRow colour label.message]).flatMap
    Text.rows, ?_⟩
  simp only [labelRows, shown, if_pos oneLine, List.flatMap_cons, List.flatMap_append,
    List.flatMap_nil, Text.rows_of_not_mem barWhole, Text.rows_of_not_mem sourceWhole,
    Text.rows_of_not_mem caretWhole]
  simp

end Plain

/-- A label on one line is shown below all that is shown of the labels before it.  Its bars and its
carets stand left of where they belong by as many columns as its line number takes but two, and the
line number takes four at least. -/
theorem rows_render {d : Diagnostic} {label : Label} {earlier later : List Label}
    (plain : r.coloured = false) (remembers : r.Remembers)
    (labels : d.labels = earlier ++ label :: later)
    (oneLine : label.span.startLine = label.span.endLine)
    (shown : lineNumbered? (r.linesOf w label.span.file).1 label.span.startLine = some line)
    (starts : 1 ≤ label.span.startColumn) (ordered : label.span.startColumn ≤ label.span.endColumn)
    (within : label.span.endColumn ≤ line.length) :
    ∃ bar source caret after,
      Text.rows (r.render w d).1 =
        Text.rows (r.render w { d with labels := earlier, notes := [] }).1 ++
        Text.rows (r.placeRow label.span) ++ [bar, source, caret] ++ after ∧
      ∀ shift, StandsLeftBy shift label.span line bar source caret ↔
        shift + 2 = max 4 (toString label.span.startLine).length := by
  have counted := (of_lineNumbered? shown).1
  have whole : '\n' ∉ line.toList := by
    obtain ⟨w', known⟩ := remembers.linesOf w label.span.file
    exact World.not_mem_of_mem_linesOf (known ▸ (of_lineNumbered? shown).2)
  obtain ⟨after, labelled⟩ := exists_rows_labelRows plain d.severity.colour oneLine shown whole
  refine ⟨_, _, _, after ++ (later.flatMap fun label => r.labelRows d.severity.colour
    (r.linesOf w label.span.file).1 label).flatMap Text.rows ++
      (d.notes.map r.noteRow).flatMap Text.rows, ?_,
    fun shift => standsLeftBy_iff plain d.severity.colour counted starts ordered within⟩
  -- both texts start with the headline and the rows of the earlier labels
  simp only [render, fst_labelsRows, labels]
  rw [Text.rows_intercalate (by simp), Text.rows_intercalate (by simp)]
  simp only [List.flatMap_append, List.flatMap_cons, List.cons_append, labelled, List.map_nil,
    List.append_nil, List.append_assoc]
  rfl

/-- A world with one file of one line. -/
def oneLiner : World := ⟨[(["m.erl"], .ofText "f() -> ok.\n")], [], "/", []⟩

/-- What there is to tell about the first three characters of the file. -/
def firstThree : Label := ⟨⟨"m.erl", 1, 1, 1, 3⟩, ""⟩

theorem rows_render_oneLiner :
    lineNumbered? ((new false).linesOf oneLiner "m.erl").1 1 = some "f() -> ok." ∧
      ∃ bar source caret after,
        Text.rows ((new false).render oneLiner ⟨.error, "E301", "bad", [firstThree], []⟩).1 =
          Text.rows ((new false).render oneLiner ⟨.error, "E301", "bad", [], []⟩).1 ++
            Text.rows ((new false).placeRow firstThree.span) ++ [bar, source, caret] ++ after ∧
        StandsLeftBy 2 firstThree.span "f() -> ok." bar source caret := by
  have shown : lineNumbered? ((new false).linesOf oneLiner "m.erl").1 1 = some "f() -> ok." := by
    decide +kernel
  obtain ⟨bar, source, caret, after, rows, stands⟩ :=
    rows_render (d := ⟨.error, "E301", "bad", [firstThree], []⟩)
    rfl (remembers_new false) (List.nil_append _).symm rfl shown (by decide) (by decide) (by decide)
  exact ⟨shown, bar, source, caret, after, rows, (stands 2).mpr (by decide)⟩

/-- The carets of the first three characters of a line start in the column of its bar. -/
theorem not_standsLeftBy_zero_oneLiner :
    Text.rows ((new false).render oneLiner ⟨.error, "E301", "bad", [firstThree], []⟩).1 =
        ["error[E301]: bad", "  --> m.erl:1:1", "     |", "     1 | f() -> ok.", "     | ^^^"] ∧
      ¬StandsLeftBy 0 firstThree.span "f() -> ok." "     |" "     1 | f() -> ok." "     | ^^^" := by
  constructor
  · decide +kernel
  · intro stands
    exact absurd stands.bars.1 (by decide)

end Renderer

end SignatureIndex
