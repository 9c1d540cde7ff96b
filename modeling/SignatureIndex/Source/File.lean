import SignatureIndex.Path
import SignatureIndex.Source.Encoding
import SignatureIndex.Span

/-!
# Source files

A source file is its characters, with every pair of a carriage return and a line feed read as a line
feed.  Offsets into it are turned into lines and columns.  Positions are numbered by line feeds
alone, while the lines that are shown end at every kind of line break.
-/

namespace SignatureIndex

/-- A source file that has been read. -/
structure Source where
  path : Path
  encoding : Encoding
  content : List Char

namespace Source

/-- Reads a source file from its bytes, or gives the bytes from the first that stand for no
character. -/
def ofBytes (path : Path) (bytes : List UInt8) : Except (List UInt8) Source :=
  let encoding := Encoding.ofBytes bytes
  (encoding.decode bytes).map fun text => ⟨path, encoding, Text.joinCrLf text⟩

def lines (source : Source) : List String := (Text.lines source.content).map String.ofList

/-- The line of a number, counted from one; there is nothing on any other line. -/
def lineAt (source : Source) (number : Int) : String :=
  if 1 ≤ number then source.lines[number.toNat - 1]?.getD "" else ""

/-- The characters between the last line feed of a text and its end. -/
def sinceLineFeed (text : List Char) : Nat := (text.reverse.takeWhile (· ≠ '\n')).length

def lineStart (content : List Char) (offset : Nat) : Nat :=
  let before := content.take offset
  before.length - sinceLineFeed before

/-- The line and the column at which one arrives so many characters after a given line and column.
Past the end of the text the last line goes on. -/
def walkedTo (line column : Nat) : (steps : Nat) → List Char → Nat × Nat
  | 0, _ => (line, column)
  | steps, [] => (line, column + steps)
  | steps + 1, c :: cs =>
    if c = '\n' then walkedTo (line + 1) 1 steps cs else walkedTo line (column + 1) steps cs

/-- The line and the column of an offset, both counted from one. -/
def position (source : Source) (offset : Nat) : Nat × Nat := walkedTo 1 1 offset source.content

/-- The line and the column of any integer.  What comes before the text is on line zero, in columns
counted from the start of the last line. -/
def positionAt (source : Source) (offset : Int) : Int × Int :=
  if 0 ≤ offset then
    let (line, column) := source.position offset.toNat
    (line, column)
  else (0, offset - lineStart source.content source.content.length + 1)

/-- The span of the characters from one offset up to another.  It covers at least the first. -/
def span (source : Source) (first stop : Int) : Span :=
  let start := source.positionAt first
  let final := source.positionAt (max first (stop - 1))
  ⟨toString source.path, start.1, start.2, final.1, final.2⟩

/-- Every line feed on the way begins a line. -/
theorem fst_walkedTo (line column steps : Nat) (cs : List Char) :
    (walkedTo line column steps cs).1 = line + (cs.take steps).count '\n' := by
  fun_induction walkedTo line column steps cs with
  | case1 => simp
  | case2 => simp
  | case3 line column steps cs ih =>
    rw [ih, List.take_succ_cons, List.count_cons_self]
    omega
  | case4 line column steps c cs other ih => simp [ih, other]

/-- Columns are counted from one. -/
theorem one_le_snd_walkedTo {column : Nat} (counted : 1 ≤ column) (line steps : Nat)
    (cs : List Char) : 1 ≤ (walkedTo line column steps cs).2 := by
  fun_induction walkedTo line column steps cs with
  | case1 => exact counted
  | case2 => simp only; omega
  | case3 line column steps cs ih => exact ih (Nat.le_refl 1)
  | case4 line column steps c cs other ih => exact ih (by omega)

/-- The line of an offset is one more than the line feeds before it. -/
theorem fst_position (source : Source) (offset : Nat) :
    (source.position offset).1 = (source.content.take offset).count '\n' + 1 := by
  rw [position, fst_walkedTo, Nat.add_comm]

/-- Columns are counted from one. -/
theorem one_le_column (source : Source) (offset : Nat) : 1 ≤ (source.position offset).2 :=
  one_le_snd_walkedTo (Nat.le_refl 1) 1 offset source.content

end Source

/-- The place of a byte in bytes that are no text: its line, and its column in bytes. -/
def byteSpan (path : Path) (bytes : List UInt8) (offset : Nat) : Span :=
  let before := bytes.take offset
  let line : Nat := before.count 10 + 1
  let column : Nat := (before.reverse.takeWhile (· ≠ 10)).length + 1
  ⟨toString path, line, column, line, column⟩

end SignatureIndex
