import SignatureIndex.Proofs.Carets

/-!
# What colours and memory leave alone

A row of a diagnostic is a row of stretches, some of them painted.  Each painted stretch switches
its colour on, and off again before anything else is written.  So when all sequences that change the
colour are deleted, what is left is the row as it is shown without colours, as long as no part of
the diagnostic holds an escape character itself.

What a renderer remembers of a file is what it would read again.  So diagnostics that are shown by
one renderer are shown as each would be by a renderer of its own, whatever has been shown before.
-/

namespace SignatureIndex

namespace Text

variable {front back text parameters : List Char}

/-! ## Deleting what changes the colour -/

/-- What comes after a sequence, if an escape character has begun one here: a bracket, and anything
up to an `m`. -/
def afterColour? : List Char → Option (List Char)
  | '[' :: text =>
    match text.dropWhile (· ≠ 'm') with
    | [] => none
    | _ :: after => some after
  | _ => none

private theorem length_of_afterColour? {after : List Char} (ends : afterColour? text = some after) :
    after.length < text.length := by
  unfold afterColour? at ends
  split at ends
  next text =>
    split at ends
    · cases ends
    next rest =>
      cases ends
      have shorter := (List.dropWhile_suffix (l := text) fun c => decide (c ≠ 'm')).length_le
      rw [rest, List.length_cons] at shorter
      rw [List.length_cons]
      omega
  · cases ends

/-- A text without the sequences that change the colour. -/
def withoutColours : List Char → List Char
  | [] => []
  | c :: text =>
    if c = '\x1b' then
      match _ends : afterColour? text with
      | some after => withoutColours after
      | none => c :: withoutColours text
    else c :: withoutColours text
termination_by text => text.length
decreasing_by
  · exact Nat.lt_trans (length_of_afterColour? _ends) (Nat.lt_succ_self _)
  · exact Nat.lt_succ_self _
  · exact Nat.lt_succ_self _

theorem withoutColours_append_of_free (free : '\x1b' ∉ front) :
    withoutColours (front ++ back) = front ++ withoutColours back := by
  induction front with
  | nil => rfl
  | cons c front ih =>
    obtain ⟨other, free⟩ := not_or.mp (mt List.mem_cons.mpr free)
    rw [List.cons_append, withoutColours, if_neg (Ne.symm other), ih free, List.cons_append]

private theorem withoutColours_sequence (free : 'm' ∉ parameters) :
    withoutColours ('\x1b' :: '[' :: (parameters ++ 'm' :: back)) = withoutColours back := by
  have ends : afterColour? ('[' :: (parameters ++ 'm' :: back)) = some back := by
    have passed : ∀ c ∈ parameters, decide (c ≠ 'm') = true := by
      intro c among
      rw [decide_eq_true_iff]
      rintro rfl
      exact free among
    have rest : (parameters ++ 'm' :: back).dropWhile (fun c => decide (c ≠ 'm')) =
        'm' :: back := by
      rw [List.dropWhile_append_of_pos passed, List.dropWhile_cons_of_neg (by decide)]
    simp only [afterColour?, rest]
  rw [withoutColours, if_pos rfl]
  split
  next after there => rw [Option.some.inj (ends.symm.trans there)]
  next none => cases ends.symm.trans none

/-- Whether each sequence that switches a colour on is followed by the one that switches all colours
off, with no other sequence in between. -/
def SwitchesOff (text : List Char) : Prop :=
  ∀ front parameters rest : List Char,
  text = front ++ '\x1b' :: '[' :: (parameters ++ 'm' :: rest) →
    'm' ∉ parameters → parameters ≠ ['0'] →
    ∃ between after, rest = between ++ Colour.reset.sequence.toList ++ after ∧ '\x1b' ∉ between

private theorem switchesOff_nil : SwitchesOff [] := by
  intro front parameters rest same
  cases front <;> cases same

theorem switchesOff_append_of_free (free : '\x1b' ∉ front) (off : SwitchesOff back) :
    SwitchesOff (front ++ back) := by
  intro before parameters rest same noEnd notReset
  rcases List.append_eq_append_iff.mp same with ⟨later, rfl, later_eq⟩ | ⟨between, rfl, between_eq⟩
  · exact off later parameters rest later_eq noEnd notReset
  · cases between with
    | nil => exact off [] parameters rest between_eq.symm noEnd notReset
    | cons c between =>
      -- no sequence begins in the front
      obtain ⟨rfl, -⟩ := List.cons.inj between_eq
      exact absurd (List.mem_append_right _ List.mem_cons_self) free

private theorem eq_of_append_cons {first second x y : List Char} {c : Char} (inFirst : c ∉ first)
    (inSecond : c ∉ second) (same : first ++ c :: x = second ++ c :: y) :
    first = second ∧ x = y := by
  induction first generalizing second with
  | nil =>
    cases second with
    | nil => exact ⟨rfl, (List.cons.inj same).2⟩
    | cons d second => exact absurd ((List.cons.inj same).1 ▸ List.mem_cons_self) inSecond
  | cons d first ih =>
    cases second with
    | nil => exact absurd ((List.cons.inj same).1 ▸ List.mem_cons_self) inFirst
    | cons e second =>
      obtain ⟨rfl, tails⟩ := List.cons.inj same
      obtain ⟨rfl, rest⟩ := ih (fun later => inFirst (List.mem_cons_of_mem _ later))
        (fun later => inSecond (List.mem_cons_of_mem _ later)) tails
      exact ⟨rfl, rest⟩

/-- Whether a text holds neither an escape character nor a line feed. -/
def IsPlain (text : String) : Prop := '\x1b' ∉ text.toList ∧ '\n' ∉ text.toList

instance (text : String) : Decidable (IsPlain text) := inferInstanceAs (Decidable (_ ∧ _))

theorem isPlain_append {text more : String} : IsPlain (text ++ more) ↔
    IsPlain text ∧ IsPlain more := by
  simp only [IsPlain, String.toList_append, List.mem_append, not_or]
  exact and_and_and_comm

theorem isPlain_replicate {c : Char} (count : Nat) (visible : c ≠ '\x1b') (inside : c ≠ '\n') :
    IsPlain (String.ofList (List.replicate count c)) := by
  simp [IsPlain, visible.symm, inside.symm]

theorem isPlain_toString_int (value : Int) : IsPlain (toString value) := by
  have digits (number : Nat) : IsPlain (toString number) :=
    ⟨fun among => absurd (isDigit_of_mem_toString among) (by decide),
      fun among => absurd (isDigit_of_mem_toString among) (by decide)⟩
  cases value with
  | ofNat number => exact digits number
  | negSucc number => exact isPlain_append.mpr ⟨by decide, digits (number + 1)⟩

end Text

namespace Colour

/-- What tells the colour in its sequence. -/
def parameters : Colour → List Char
  | .red => ['1', ';', '3', '1']
  | .yellow => ['1', ';', '3', '3']
  | .cyan => ['1', ';', '3', '6']
  | .blue => ['1', ';', '3', '4']
  | .bold => ['1']
  | .reset => ['0']

theorem toList_sequence (colour : Colour) :
    colour.sequence.toList = '\x1b' :: '[' :: colour.parameters ++ ['m'] := by
  cases colour <;> decide

theorem free_parameters (colour : Colour) : 'm' ∉ colour.parameters ∧ '\x1b' ∉ colour.parameters ∧
    '\n' ∉ colour.parameters := by
  cases colour <;> decide

private theorem withoutColours_sequence (colour : Colour) (back : List Char) :
    Text.withoutColours (colour.sequence.toList ++ back) = Text.withoutColours back := by
  have parts :
      colour.sequence.toList ++ back = '\x1b' :: '[' :: (colour.parameters ++ 'm' :: back) := by
    rw [toList_sequence]
    simp
  rw [parts, Text.withoutColours_sequence colour.free_parameters.1]

/-- A sequence may stand before what switches colours off, if it is followed by the one that
does. -/
theorem switchesOff_sequence {colour : Colour} {back : List Char} (off : Text.SwitchesOff back)
    (followed : colour ≠ .reset → ∃ between after,
      back = between ++ Colour.reset.sequence.toList ++ after ∧
      '\x1b' ∉ between) : Text.SwitchesOff (colour.sequence.toList ++ back) := by
  intro front parameters rest same noEnd notReset
  have parts :
      colour.sequence.toList ++ back = '\x1b' :: ('[' :: (colour.parameters ++ ['m']) ++ back) := by
    rw [toList_sequence]
    simp
  rw [parts] at same
  cases front with
  | nil =>
    -- the sequence that begins here is that of the colour
    have both : parameters ++ 'm' :: rest = colour.parameters ++ 'm' :: back := by
      simpa using same.symm
    obtain ⟨rfl, rfl⟩ := Text.eq_of_append_cons noEnd colour.free_parameters.1 both
    apply followed
    rintro rfl
    exact notReset rfl
  | cons c front =>
    have tail := (List.cons.inj same).2
    have free : '\x1b' ∉ '[' :: (colour.parameters ++ ['m']) := by
      simp [colour.free_parameters.2.1]
    exact Text.switchesOff_append_of_free free off front parameters rest tail noEnd notReset

end Colour

/-! ## Rows of stretches -/

/-- A part of a row, painted or not. -/
inductive Stretch where
  | bare (text : String)
  | painted (colour : Colour) (text : String)

namespace Stretch

def text : Stretch → String
  | .bare text => text
  | .painted _ text => text

/-- How a stretch is written, with colours or without. -/
def written (coloured : Bool) : Stretch → List Char
  | .bare text => text.toList
  | .painted colour text =>
    if coloured then colour.sequence.toList ++ text.toList ++
      Colour.reset.sequence.toList else text.toList

/-- How stretches are written one after the other. -/
def row (coloured : Bool) (stretches : List Stretch) : List Char :=
  stretches.flatMap (written coloured)

variable {stretch : Stretch} {stretches : List Stretch} {rest : List Char}

private theorem withoutColours_written (free : '\x1b' ∉ stretch.text.toList) :
    Text.withoutColours (stretch.written true ++ rest) = stretch.written false ++
      Text.withoutColours rest := by
  cases stretch with
  | bare text => exact Text.withoutColours_append_of_free free
  | painted colour text =>
    have inside : '\x1b' ∉ text.toList := free
    have parts : (painted colour text).written true ++ rest =
        colour.sequence.toList ++ (text.toList ++ (Colour.reset.sequence.toList ++ rest)) := by
      simp only [written, if_true, List.append_assoc]
    rw [parts, Colour.withoutColours_sequence, Text.withoutColours_append_of_free inside,
      Colour.withoutColours_sequence]
    rfl

private theorem withoutColours_row (free : ∀ stretch ∈ stretches, '\x1b' ∉ stretch.text.toList) :
    Text.withoutColours (row true stretches ++ rest) = row false stretches ++
      Text.withoutColours rest := by
  induction stretches with
  | nil => rfl
  | cons stretch stretches ih =>
    obtain ⟨here, later⟩ := List.forall_mem_cons.mp free
    simp only [row, List.flatMap_cons, List.append_assoc] at ih ⊢
    rw [withoutColours_written here, ih later]

/-- Deleting the sequences of rows that stand one below the other leaves the rows without
colours. -/
theorem withoutColours_rows {rows : List (List Stretch)}
    (free : ∀ stretches ∈ rows, ∀ stretch ∈ stretches, '\x1b' ∉ stretch.text.toList) :
    Text.withoutColours (['\n'].intercalate (rows.map (row true))) =
      ['\n'].intercalate (rows.map (row false)) := by
  have ending : Text.withoutColours [] = [] := by rw [Text.withoutColours]
  induction rows with
  | nil => exact ending
  | cons first rows ih =>
    obtain ⟨here, later⟩ := List.forall_mem_cons.mp free
    cases rows with
    | nil =>
      have whole :
          Text.withoutColours (row true first ++ []) = row false first ++ Text.withoutColours [] :=
        withoutColours_row here
      rw [ending, List.append_nil, List.append_nil] at whole
      simpa only [List.map_cons, List.map_nil, List.intercalate_singleton] using whole
    | cons next rows =>
      have feed (below : List Char) :
          Text.withoutColours (['\n'] ++ below) = ['\n'] ++ Text.withoutColours below :=
        Text.withoutColours_append_of_free (by decide)
      rw [List.map_cons, List.map_cons, List.intercalate_cons_cons, ← List.map_cons,
        List.append_assoc, withoutColours_row here, feed, ih later]
      simp [List.intercalate_cons_cons]

private theorem not_mem_row {coloured : Bool}
    (whole : ∀ stretch ∈ stretches, '\n' ∉ stretch.text.toList) :
    '\n' ∉ row coloured stretches := by
  intro feed
  obtain ⟨stretch, among, inside⟩ := List.mem_flatMap.mp feed
  have apart (colour : Colour) : '\n' ∉ colour.sequence.toList := by
    cases colour <;> decide
  have here := whole stretch among
  cases stretch with
  | bare text => exact here inside
  | painted colour text =>
    cases coloured with
    | false => exact here inside
    | true =>
      simp only [written, if_true, List.mem_append] at inside
      exact inside.elim (Or.rec (apart colour) here) (apart .reset)

private theorem switchesOff_row (free : ∀ stretch ∈ stretches, '\x1b' ∉ stretch.text.toList) :
    Text.SwitchesOff (row true stretches) := by
  induction stretches with
  | nil => exact Text.switchesOff_nil
  | cons stretch stretches ih =>
    obtain ⟨here, later⟩ := List.forall_mem_cons.mp free
    have off := ih later
    cases stretch with
    | bare text => exact Text.switchesOff_append_of_free here off
    | painted colour text =>
      have inside : '\x1b' ∉ text.toList := here
      have parts : row true (painted colour text :: stretches) =
          colour.sequence.toList ++
            (text.toList ++ (Colour.reset.sequence.toList ++ row true stretches)) := by
        simp only [row, List.flatMap_cons, written, if_true, List.append_assoc]
      rw [parts]
      -- the sequence of the colour is followed by the text and the reset, which needs no reset
      -- itself
      apply Colour.switchesOff_sequence
      · apply Text.switchesOff_append_of_free inside
        exact Colour.switchesOff_sequence off fun other => absurd rfl other
      · intro _
        exact ⟨text.toList, row true stretches, by rw [List.append_assoc], inside⟩

end Stretch

/-- Whether nothing that is shown of a diagnostic holds an escape character or a line feed, if these
are the lines of the files that it is about. -/
structure Diagnostic.IsPlain (lines : String → List String) (d : Diagnostic) : Prop where
  code : Text.IsPlain d.code
  message : Text.IsPlain d.message
  labels : ∀ label ∈ d.labels, Text.IsPlain label.message ∧ Text.IsPlain label.span.file ∧
    ∀ line, Renderer.lineNumbered? (lines label.span.file) label.span.startLine = some line →
    Text.IsPlain line
  notes : ∀ note ∈ d.notes, Text.IsPlain note

namespace Renderer

variable {r : Renderer} {w : World} {d : Diagnostic} {lines : String → List String}
    {stretch : Stretch} {stretches : List Stretch}

/-! ## The stretches of a diagnostic -/

def barStretches : List Stretch := [.bare "  ", .painted .blue "   |"]

def headlineStretches (d : Diagnostic) : List Stretch :=
  [.painted d.severity.colour (d.severity.name ++ "[" ++ d.code ++ "]"),
    .painted .bold (": " ++ d.message)]

def placeStretches (span : Span) : List Stretch :=
  [.bare "  ", .painted .blue "-->", .bare (" " ++ toString span)]

def sourceStretches (span : Span) (line : String) : List Stretch :=
  [.bare "  ", .painted .blue (alignRight 4 (toString span.startLine) ++ " |"), .bare (" " ++ line)]

def caretStretches (colour : Colour) (span : Span) : List Stretch :=
  barStretches ++ [.bare (" " ++ repeated ' ' (span.startColumn - 1)),
    .painted colour (repeated '^' (max 1 (span.endColumn - span.startColumn + 1)))]

def messageStretches (colour : Colour) (message : String) : List Stretch :=
  barStretches ++ [.bare "   ", .painted colour message]

def noteStretches (note : String) : List Stretch :=
  [.bare "  ", .painted .blue "=", .bare (" note: " ++ note)]

/-- The rows of a label, given the lines of its file. -/
def labelLayout (colour : Colour) (lines : List String) (label : Label) : List (List Stretch) :=
  placeStretches label.span ::
    match lineNumbered? lines label.span.startLine with
    | none => []
    | some line =>
      [barStretches, sourceStretches label.span line] ++
        (if label.span.startLine = label.span.endLine then [caretStretches colour label.span]
          else []) ++
        (if label.message.isEmpty then [] else [messageStretches colour label.message])

/-- The rows of a diagnostic, given the lines of all files. -/
def layout (lines : String → List String) (d : Diagnostic) : List (List Stretch) :=
  headlineStretches d ::
    (d.labels.flatMap fun label => labelLayout d.severity.colour (lines label.span.file) label) ++
      d.notes.map noteStretches

theorem toList_painted (r : Renderer) (colour : Colour) (text : String) :
    (r.painted colour text).toList = (Stretch.painted colour text).written r.coloured := by
  cases coloured : r.coloured <;> simp [painted, paint, Stretch.written, coloured]

private theorem toList_labelRows (r : Renderer) (colour : Colour) (lines : List String)
    (label : Label) : (r.labelRows colour lines label).map String.toList =
      (labelLayout colour lines label).map (Stretch.row r.coloured) := by
  have bar : r.bar.toList = Stretch.row r.coloured barStretches := by
    simp [Renderer.bar, barStretches, Stretch.row, toList_painted, Stretch.written]
  have place :
      (r.placeRow label.span).toList = Stretch.row r.coloured (placeStretches label.span) := by
    simp [placeRow, placeStretches, Stretch.row, toList_painted, Stretch.written]
  have source (line : String) :
      (r.sourceRow label.span line).toList =
        Stretch.row r.coloured (sourceStretches label.span line) := by
    simp [sourceRow, sourceStretches, Stretch.row, toList_painted, Stretch.written]
  have caret : (r.caretRow colour label.span).toList =
      Stretch.row r.coloured (caretStretches colour label.span) := by
    simp [caretRow, caretStretches, Stretch.row, bar, toList_painted, Stretch.written]
  have message :
      (r.messageRow colour label.message).toList =
        Stretch.row r.coloured (messageStretches colour label.message) := by
    simp [messageRow, messageStretches, Stretch.row, bar, toList_painted, Stretch.written]
  cases shown : lineNumbered? lines label.span.startLine with
  | none => simp only [labelRows, labelLayout, shown, List.map_cons, List.map_nil, place]
  | some line =>
    simp only [labelRows, labelLayout, shown, List.map_cons, List.map_append, List.map_nil,
      place, bar, source, apply_ite (List.map _), caret, message]

/-- The text of a diagnostic is that of its rows, and it depends on the colours and on the lines of
its files alone. -/
theorem toList_render (r : Renderer) (w : World) (d : Diagnostic) : (r.render w d).1.toList =
    ['\n'].intercalate
      ((layout (fun file => (r.linesOf w file).1) d).map (Stretch.row r.coloured)) := by
  have headline : (r.headline d).toList = Stretch.row r.coloured (headlineStretches d) := by
    simp [Renderer.headline, headlineStretches, Stretch.row, toList_painted]
  have note (note : String) :
      (r.noteRow note).toList = Stretch.row r.coloured (noteStretches note) := by
    simp [noteRow, noteStretches, Stretch.row, toList_painted, Stretch.written]
  rw [render, String.toList_intercalate]
  simp only [fst_labelsRows, layout, List.map_append, List.map_cons, List.map_flatMap, List.map_map,
    Function.comp_def, headline, note, toList_labelRows]
  rfl

private theorem fst_linesOf (r : Renderer) (w : World) (filename : String) :
    (r.linesOf w filename).1 = (r.known.lookup filename).getD (w.linesOf filename) := by
  unfold Renderer.linesOf
  cases r.known.lookup filename <;> rfl

/-! ## Plain diagnostics -/

/-- Whether no stretch holds an escape character or a line feed. -/
def ArePlain (stretches : List Stretch) : Prop := ∀ stretch ∈ stretches, Text.IsPlain stretch.text

theorem arePlain_cons {stretch : Stretch} :
    ArePlain (stretch :: stretches) ↔ Text.IsPlain stretch.text ∧ ArePlain stretches :=
  List.forall_mem_cons

theorem arePlain_nil : ArePlain [] := nofun

theorem arePlain_append {more : List Stretch} : ArePlain (stretches ++ more) ↔
    ArePlain stretches ∧ ArePlain more :=
  List.forall_mem_append

theorem arePlain_barStretches : ArePlain barStretches := by
  simp only [barStretches, arePlain_cons, Stretch.text]
  exact ⟨by decide, by decide, arePlain_nil⟩

private theorem arePlain_headlineStretches (code : Text.IsPlain d.code)
    (message : Text.IsPlain d.message) : ArePlain (headlineStretches d) := by
  have severity : Text.IsPlain d.severity.name := by
    cases d.severity <;> decide
  simp only [headlineStretches, arePlain_cons, Stretch.text, Text.isPlain_append]
  exact ⟨⟨⟨⟨severity, by decide⟩, code⟩, by decide⟩, ⟨by decide, message⟩, arePlain_nil⟩

private theorem arePlain_placeStretches {span : Span} (file : Text.IsPlain span.file) :
    ArePlain (placeStretches span) := by
  have written : toString span =
      span.file ++ ":" ++ toString span.startLine ++ ":" ++ toString span.startColumn := rfl
  have place : Text.IsPlain (toString span) := by
    rw [written]
    simp only [Text.isPlain_append]
    exact ⟨⟨⟨⟨file, by decide⟩, Text.isPlain_toString_int _⟩, by decide⟩,
      Text.isPlain_toString_int _⟩
  simp only [placeStretches, arePlain_cons, Stretch.text, Text.isPlain_append]
  exact ⟨by decide, by decide, ⟨by decide, place⟩, arePlain_nil⟩

private theorem arePlain_sourceStretches {line : String} (span : Span) (shown : Text.IsPlain line) :
    ArePlain (sourceStretches span line) := by
  simp only [sourceStretches, alignRight, arePlain_cons, Stretch.text, Text.isPlain_append]
  exact ⟨by decide,
    ⟨⟨Text.isPlain_replicate _ (by decide) (by decide), Text.isPlain_toString_int _⟩, by decide⟩,
    ⟨by decide, shown⟩, arePlain_nil⟩

private theorem arePlain_caretStretches (colour : Colour) (span : Span) :
    ArePlain (caretStretches colour span) := by
  simp only [caretStretches, repeated, arePlain_append, arePlain_cons, Stretch.text,
    Text.isPlain_append]
  exact ⟨arePlain_barStretches, ⟨by decide, Text.isPlain_replicate _ (by decide) (by decide)⟩,
    Text.isPlain_replicate _ (by decide) (by decide), arePlain_nil⟩

private theorem arePlain_messageStretches {message : String} (colour : Colour)
    (plain : Text.IsPlain message) : ArePlain (messageStretches colour message) := by
  simp only [messageStretches, arePlain_append, arePlain_cons, Stretch.text]
  exact ⟨arePlain_barStretches, by decide, plain, arePlain_nil⟩

private theorem arePlain_noteStretches {note : String} (plain : Text.IsPlain note) :
    ArePlain (noteStretches note) := by
  simp only [noteStretches, arePlain_cons, Stretch.text, Text.isPlain_append]
  exact ⟨by decide, by decide, ⟨by decide, plain⟩, arePlain_nil⟩

private theorem arePlain_of_mem_labelLayout {colour : Colour} {label : Label} {shown : List String}
    (message : Text.IsPlain label.message) (file : Text.IsPlain label.span.file)
    (source : ∀ line, lineNumbered? shown label.span.startLine = some line → Text.IsPlain line)
    (among : stretches ∈ labelLayout colour shown label) : ArePlain stretches := by
  unfold labelLayout at among
  rcases List.mem_cons.mp among with rfl | among
  · exact arePlain_placeStretches file
  split at among
  · cases among
  next line found =>
  simp only [List.mem_append, List.mem_cons, List.not_mem_nil, or_false, List.mem_ite_nil_right,
    List.mem_ite_nil_left] at among
  rcases among with ((rfl | rfl) | ⟨-, rfl⟩) | ⟨-, rfl⟩
  · exact arePlain_barStretches
  · exact arePlain_sourceStretches _ (source line found)
  · exact arePlain_caretStretches _ _
  · exact arePlain_messageStretches _ message

private theorem arePlain_of_mem_layout (plain : d.IsPlain lines)
    (among : stretches ∈ layout lines d) : ArePlain stretches := by
  rcases List.mem_append.mp among with among | among
  · rcases List.mem_cons.mp among with rfl | among
    · exact arePlain_headlineStretches plain.code plain.message
    · obtain ⟨label, labelled, inLabel⟩ := List.mem_flatMap.mp among
      obtain ⟨message, file, source⟩ := plain.labels label labelled
      exact arePlain_of_mem_labelLayout message file source inLabel
  · obtain ⟨note, noted, rfl⟩ := List.mem_map.mp among
    exact arePlain_noteStretches (plain.notes note noted)

/-- Colours add nothing to a diagnostic but sequences, and no row leaves a colour switched on. -/
theorem render_coloured {known : List (String × List String)}
    (plain : d.IsPlain fun file => (known.lookup file).getD (w.linesOf file)) :
    Text.withoutColours ((mk true known).render w d).1.toList =
      ((mk false known).render w d).1.toList ∧ ∀ row ∈ Text.rows ((mk true known).render w d).1,
      Text.SwitchesOff row.toList := by
  simp only [Text.rows, toList_render, fst_linesOf]
  have arePlain (stretches : List Stretch)
      (among : stretches ∈ layout (fun file => (known.lookup file).getD (w.linesOf file)) d) :
      ArePlain stretches :=
    arePlain_of_mem_layout plain among
  constructor
  · exact Stretch.withoutColours_rows fun stretches among stretch inside =>
      (arePlain stretches among stretch inside).1
  · rw [Text.pieces_intercalate]
    · intro row among
      obtain ⟨_, written, rfl⟩ := List.mem_map.mp among
      obtain ⟨stretches, inLayout, rfl⟩ := List.mem_map.mp written
      rw [String.toList_ofList]
      exact Stretch.switchesOff_row fun stretch inside =>
        (arePlain stretches inLayout stretch inside).1
    · simp [layout]
    · intro row among
      obtain ⟨stretches, inLayout, rfl⟩ := List.mem_map.mp among
      exact Stretch.not_mem_row fun stretch inside => (arePlain stretches inLayout stretch inside).2

/-- What there is to tell about the first three characters of the file and about a line that it does
not have. -/
def twoPlaces : Diagnostic :=
  ⟨.error, "E301", "bad", [⟨⟨"m.erl", 1, 1, 1, 3⟩, "here"⟩, ⟨⟨"m.erl", 9, 1, 9, 1⟩, ""⟩],
    ["see above"]⟩

theorem render_coloured_oneLiner :
    Text.withoutColours ((new true).render oneLiner twoPlaces).1.toList =
        ("error[E301]: bad\n  --> m.erl:1:1\n     |\n     1 | f() -> ok.\n     | ^^^\n" ++
          "     |   here\n  --> m.erl:9:1\n  = note: see above").toList ∧
      ∀ row ∈ Text.rows ((new true).render oneLiner twoPlaces).1, Text.SwitchesOff row.toList := by
  have shown : oneLiner.linesOf "m.erl" = ["f() -> ok."] := by decide +kernel
  have plain : twoPlaces.IsPlain fun file =>
      (List.lookup file []).getD (oneLiner.linesOf file) := by
    refine ⟨by decide, by decide, ?_, by decide⟩
    intro label among
    simp only [twoPlaces, List.mem_cons, List.not_mem_nil, or_false] at among
    rcases among with rfl | rfl
    · refine ⟨by decide, by decide, fun line found => ?_⟩
      dsimp only [List.lookup, Option.getD] at found
      rw [shown] at found
      cases found
      decide
    · refine ⟨by decide, by decide, fun line found => ?_⟩
      dsimp only [List.lookup, Option.getD] at found
      rw [shown] at found
      cases found
  obtain ⟨same, off⟩ := render_coloured plain
  refine ⟨same.trans ?_, off⟩
  decide +kernel

/-! ## One renderer for many diagnostics -/

/-- Shows diagnostics one after the other, all with the same renderer. -/
def renderEach (r : Renderer) (w : World) : List Diagnostic → List String × Renderer
  | [] => ([], r)
  | d :: ds =>
    let (text, known) := r.render w d
    let (texts, after) := known.renderEach w ds
    (text :: texts, after)

/-- Whether what a renderer remembers is what it would read, file by file, and each file has been
read once. -/
structure Mirrors (w : World) (r : Renderer) : Prop where
  same : ∀ entry ∈ r.known, entry.2 = w.linesOf entry.1
  once : (r.known.map Prod.fst).Nodup

theorem mirrors_new (w : World) (coloured : Bool) : (new coloured).Mirrors w :=
  ⟨nofun, List.nodup_nil⟩

private theorem Mirrors.fst_linesOf (mirrors : r.Mirrors w) (filename : String) :
    (r.linesOf w filename).1 = w.linesOf filename := by
  unfold Renderer.linesOf
  split
  next lines found =>
    obtain ⟨before, after, parts, -⟩ := List.lookup_eq_some_iff.mp found
    exact mirrors.same (filename, lines) (by simp [parts])
  · rfl

/-- What a renderer shows is told by its colours, as long as it remembers what it would read. -/
theorem Mirrors.fst_render (mirrors : r.Mirrors w) (d : Diagnostic) :
    (r.render w d).1 = ((new r.coloured).render w d).1 := by
  apply String.toList_inj.mp
  rw [toList_render, toList_render]
  simp only [mirrors.fst_linesOf, (mirrors_new w r.coloured).fst_linesOf]
  rfl

/-- Whether one renderer is what becomes of another when it reads files. -/
structure HasRead (w : World) (r : Renderer) (filenames : List String)
    (after : Renderer) : Prop where
  coloured_eq : after.coloured = r.coloured
  mirrors : r.Mirrors w → after.Mirrors w
  knows : ∀ filename, filename ∈ after.known.map Prod.fst ↔ filename ∈ r.known.map Prod.fst ∨
    filename ∈ filenames

theorem HasRead.refl (w : World) (r : Renderer) : HasRead w r [] r := ⟨rfl, id, by simp⟩

theorem HasRead.trans {middle after : Renderer} {filenames more : List String}
    (first : HasRead w r filenames middle) (second : HasRead w middle more after) :
    HasRead w r (filenames ++ more) after where
  coloured_eq := second.coloured_eq.trans first.coloured_eq
  mirrors := second.mirrors ∘ first.mirrors
  knows filename := by rw [second.knows, first.knows, List.mem_append, or_assoc]

private theorem hasRead_linesOf (r : Renderer) (w : World) (filename : String) :
    HasRead w r [filename] (r.linesOf w filename).2 := by
  unfold Renderer.linesOf
  split
  next lines found =>
    obtain ⟨before, after, parts, -⟩ := List.lookup_eq_some_iff.mp found
    refine ⟨rfl, id, fun other => ?_⟩
    rw [List.mem_singleton]
    apply (or_iff_left_of_imp _).symm
    rintro rfl
    exact List.mem_map.mpr ⟨(other, lines), by simp [parts], rfl⟩
  next none =>
    refine ⟨rfl, fun mirrors => ⟨List.forall_mem_cons.mpr ⟨rfl, mirrors.same⟩, ?_⟩, fun other => ?_⟩
    · -- a file that is not found has not been read
      refine List.nodup_cons.mpr ⟨fun among => ?_, mirrors.once⟩
      obtain ⟨entry, listed, named⟩ := List.mem_map.mp among
      exact absurd named.symm (by simpa using List.lookup_eq_none_iff.mp none entry listed)
    · rw [List.map_cons, List.mem_cons, List.mem_singleton, or_comm]

private theorem hasRead_labelsRows (r : Renderer) (w : World) (colour : Colour)
    (labels : List Label) : HasRead w r (labels.map fun label => label.span.file)
    (r.labelsRows w colour labels).2 := by
  induction labels generalizing r with
  | nil => exact .refl w r
  | cons label labels ih => exact (hasRead_linesOf r w label.span.file).trans (ih _)

theorem hasRead_render (r : Renderer) (w : World) (d : Diagnostic) :
    HasRead w r (d.labels.map fun label => label.span.file) (r.render w d).2 :=
  hasRead_labelsRows r w d.severity.colour d.labels

private theorem hasRead_renderEach (r : Renderer) (w : World) (ds : List Diagnostic) :
    HasRead w r (ds.flatMap fun d => d.labels.map fun label => label.span.file)
      (r.renderEach w ds).2 := by
  induction ds generalizing r with
  | nil => exact .refl w r
  | cons d ds ih => exact (hasRead_render r w d).trans (ih _)

private theorem Mirrors.fst_renderEach (mirrors : r.Mirrors w) (ds : List Diagnostic) :
    (r.renderEach w ds).1 = ds.map fun d => ((new r.coloured).render w d).1 := by
  induction ds generalizing r with
  | nil => rfl
  | cons d ds ih =>
    have read := hasRead_render r w d
    have cut : (r.renderEach w (d :: ds)).1 =
        (r.render w d).1 :: ((r.render w d).2.renderEach w ds).1 := rfl
    rw [cut, List.map_cons, ← mirrors.fst_render, ih (read.mirrors mirrors), read.coloured_eq]

/-- One renderer shows diagnostics as renderers of their own would.  Each is shown as it is by
itself, in whatever order and whatever has been shown before.  What is remembered are the files of
all labels, each once and with the lines that would be read again. -/
theorem renderEach_new (w : World) (coloured : Bool) (ds : List Diagnostic) :
    ((new coloured).renderEach w ds).1 = ds.map (fun d => ((new coloured).render w d).1) ∧
    (∀ others, ds.Perm others →
      (ds.zip ((new coloured).renderEach w ds).1).Perm
        (others.zip ((new coloured).renderEach w others).1)) ∧
    (∀ d, (((new coloured).renderEach w ds).2.render w d).1 = ((new coloured).render w d).1) ∧
    (∀ entry ∈ ((new coloured).renderEach w ds).2.known, entry.2 = w.linesOf entry.1) ∧
    (((new coloured).renderEach w ds).2.known.map Prod.fst).Nodup ∧
    ∀ filename, filename ∈ ((new coloured).renderEach w ds).2.known.map Prod.fst ↔
      ∃ d ∈ ds, ∃ label ∈ d.labels, label.span.file = filename := by
  have read := hasRead_renderEach (new coloured) w ds
  have mirrors := read.mirrors (mirrors_new w coloured)
  have texts (ds : List Diagnostic) : ((new coloured).renderEach w ds).1 =
      ds.map fun d => ((new coloured).render w d).1 := (mirrors_new w coloured).fst_renderEach ds
  refine ⟨texts ds, fun others reordered => ?_, fun d => ?_, mirrors.same, mirrors.once,
    fun filename => ?_⟩
  · -- a diagnostic and its text go together, in whatever order
    have pairs (ds : List Diagnostic) : ds.zip (ds.map fun d => ((new coloured).render w d).1) =
        ds.map fun d => (d, ((new coloured).render w d).1) := by
      induction ds with
      | nil => rfl
      | cons d ds ih => rw [List.map_cons, List.zip_cons_cons, ih, List.map_cons]
    rw [texts, texts, pairs, pairs]
    exact reordered.map _
  · rw [mirrors.fst_render, read.coloured_eq]
    rfl
  · rw [read.knows]
    simp [new, List.mem_flatMap, List.mem_map]

/-- What there is to tell about a file that is not there. -/
def goneFile : Diagnostic := ⟨.warning, "E302", "gone", [⟨⟨"gone.erl", 1, 1, 1, 1⟩, "there"⟩], []⟩

/-- Of two diagnostics either may be shown first. -/
theorem renderEach_new_oneLiner :
    [twoPlaces, goneFile].Perm [goneFile, twoPlaces] ∧
      ([twoPlaces, goneFile].zip ((new true).renderEach oneLiner [twoPlaces, goneFile]).1).Perm
        ([goneFile, twoPlaces].zip ((new true).renderEach oneLiner [goneFile, twoPlaces]).1) ∧
      ∀ filename, filename ∈
        ((new true).renderEach oneLiner [twoPlaces, goneFile]).2.known.map Prod.fst ↔
        filename = "m.erl" ∨ filename = "gone.erl" := by
  obtain ⟨-, reordered, -, -, -, files⟩ := renderEach_new oneLiner true [twoPlaces, goneFile]
  have swapped : [twoPlaces, goneFile].Perm [goneFile, twoPlaces] := .swap _ _ _
  refine ⟨swapped, reordered _ swapped, fun filename => (files filename).trans ?_⟩
  simp [twoPlaces, goneFile, eq_comm]

end Renderer

end SignatureIndex
