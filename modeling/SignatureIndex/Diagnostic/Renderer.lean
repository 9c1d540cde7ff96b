import SignatureIndex.Diagnostic.Basic
import SignatureIndex.Text.Lines
import SignatureIndex.World.Walk

/-!
# Rendering diagnostics

A diagnostic is shown as rows: a headline, then for each label the place and, if the file can be
read, the line it starts on between bars, with carets below the stretch if it ends on that line, and
at the end the notes.  Colours are switched on and off around the parts; without colours nothing
else changes.

A renderer remembers the lines of every file it has looked at.
-/

namespace SignatureIndex

/-- The sequences that change the colour of a terminal. -/
inductive Colour where
  | red
  | yellow
  | cyan
  | blue
  | bold
  | reset
  deriving DecidableEq, Repr

def Colour.sequence : Colour → String
  | .red => "\x1b[1;31m"
  | .yellow => "\x1b[1;33m"
  | .cyan => "\x1b[1;36m"
  | .blue => "\x1b[1;34m"
  | .bold => "\x1b[1m"
  | .reset => "\x1b[0m"

def Severity.colour : Severity → Colour
  | .error => .red
  | .warning => .yellow
  | .note => .cyan

/-- The lines of a file as a renderer shows them.  What is no file has no lines, and bytes that
stand for no character are shown as the replacement character. -/
def World.linesOf (w : World) (filename : String) : List String :=
  let path := Path.ofString filename
  match w.readBytes path with
  | .ok bytes =>
    (Text.lines (Text.unifyNewlines (Text.Utf8.decodeLenient bytes))).map String.ofList
  | .error _ => []

/-- Shows diagnostics, with or without colours, and remembers the files it has read. -/
structure Renderer where
  coloured : Bool
  known : List (String × List String)

namespace Renderer

/-- A renderer that has read nothing. -/
def new (coloured : Bool) : Renderer := ⟨coloured, []⟩

/-- The lines of a file, and the renderer that remembers them. -/
def linesOf (r : Renderer) (w : World) (filename : String) : List String × Renderer :=
  match r.known.lookup filename with
  | some lines => (lines, r)
  | none =>
    let lines := w.linesOf filename
    (lines, { r with known := (filename, lines) :: r.known })

/-- What to write to change the colour, if there are colours. -/
def paint (r : Renderer) (colour : Colour) : String := if r.coloured then colour.sequence else ""

def painted (r : Renderer) (colour : Colour) (text : String) : String :=
  r.paint colour ++ text ++ r.paint .reset

def alignRight (width : Nat) (text : String) : String :=
  String.ofList (List.replicate (width - text.length) ' ') ++ text

/-- The same character over and over; a count below zero gives none. -/
def repeated (c : Char) (count : Int) : String := String.ofList (List.replicate count.toNat c)

def bar (r : Renderer) : String := "  " ++ r.painted .blue "   |"

/-- The first row: severity, code and message. -/
def headline (r : Renderer) (d : Diagnostic) : String :=
  r.painted d.severity.colour (d.severity.name ++ "[" ++ d.code ++ "]") ++
    r.painted .bold (": " ++ d.message)

def placeRow (r : Renderer) (span : Span) : String :=
  "  " ++ r.painted .blue "-->" ++ " " ++ toString span

def sourceRow (r : Renderer) (span : Span) (line : String) : String :=
  "  " ++ r.painted .blue (alignRight 4 (toString span.startLine) ++ " |") ++ " " ++ line

def caretRow (r : Renderer) (colour : Colour) (span : Span) : String :=
  r.bar ++ " " ++ repeated ' ' (span.startColumn - 1) ++
    r.painted colour (repeated '^' (max 1 (span.endColumn - span.startColumn + 1)))

def messageRow (r : Renderer) (colour : Colour) (message : String) : String :=
  r.bar ++ "   " ++ r.painted colour message

def noteRow (r : Renderer) (note : String) : String :=
  "  " ++ r.painted .blue "=" ++ " note: " ++ note

/-- The line of a number, counted from one. -/
def lineNumbered? (lines : List String) (number : Int) : Option String :=
  if 1 ≤ number then lines[number.toNat - 1]? else none

/-- The rows of a label, given the lines of its file. -/
def labelRows (r : Renderer) (colour : Colour) (lines : List String) (label : Label) :
    List String :=
  let span := label.span
  r.placeRow span ::
    match lineNumbered? lines span.startLine with
    | none => []
    | some line =>
      [r.bar, r.sourceRow span line] ++
        -- A stretch that goes on below its first line gets no carets.
        (if span.startLine = span.endLine then [r.caretRow colour span] else []) ++
        (if label.message.isEmpty then [] else [r.messageRow colour label.message])

/-- The rows of labels in order, and the renderer that has read their files. -/
def labelsRows (r : Renderer) (w : World) (colour : Colour) :
    List Label → List String × Renderer
  | [] => ([], r)
  | label :: labels =>
    let (lines, known) := r.linesOf w label.span.file
    let (rows, after) := known.labelsRows w colour labels
    (r.labelRows colour lines label ++ rows, after)

/-- The text of a diagnostic, and the renderer that has read the files it is about. -/
def render (r : Renderer) (w : World) (d : Diagnostic) : String × Renderer :=
  let (rows, after) := r.labelsRows w d.severity.colour d.labels
  ("\n".intercalate (r.headline d :: rows ++ d.notes.map r.noteRow), after)

end Renderer

end SignatureIndex
