import SignatureIndex.Text.Lines
import SignatureIndex.Text.Utf8

/-!
# The encoding of a source file

A source file is UTF-8 unless a comment in one of its first two lines names another encoding, as in
`%% coding: latin-1`.  Only the first such note of a line counts, and a note that names no known
encoding is passed over.
-/

namespace SignatureIndex

/-- How the bytes of a source file stand for characters. -/
inductive Encoding where
  | utf8
  | latin1
  deriving DecidableEq, Repr

namespace Encoding

def name : Encoding → String
  | .utf8 => "utf-8"
  | .latin1 => "latin-1"

/-- The encoding that a note names, in lower case. -/
def named? (note : String) : Option Encoding :=
  if note = "utf-8" ∨ note = "utf8" then some .utf8
  else if note = "latin-1" ∨ note = "latin1" ∨ note = "iso-8859-1" then some .latin1
  else none

def isNameChar (c : Char) : Bool := c.isAlphanum || c == '_' || c == '-' || c == '.'

/-- The blanks of ASCII that can stand within a line. -/
def isInlineBlank (c : Char) : Bool := c == ' ' || c == '\t' || c == '\x0b' || c == '\x0c'

def afterStart? (start text : List Char) : Option (List Char) :=
  if start.isPrefixOf text then some (text.drop start.length) else none

def noteHere? (text : List Char) : Option (List Char) :=
  match afterStart? "coding".toList text with
  | none => none
  | some text =>
    match text.dropWhile isInlineBlank with
    | [] => none
    | mark :: text =>
      if mark = ':' ∨ mark = '=' then
        let name := (text.dropWhile isInlineBlank).takeWhile isNameChar
        if name.isEmpty then none else some name
      else none

def note? : List Char → Option (List Char)
  | [] => none
  | c :: cs => (noteHere? (c :: cs)).or (note? cs)

def ofLine? (line : List UInt8) : Option Encoding :=
  -- Nothing is decoded yet, so every byte is looked at as the character of its number.
  let comment := (line.map fun b => Char.ofNat b.toNat).dropWhile (· ≠ '%')
  match note? comment with
  | some name => named? (String.ofList (name.map Char.toLower))
  | none => none

def ofBytes (bytes : List UInt8) : Encoding :=
  (((Text.byteLines bytes).take 2).findSome? ofLine?).getD .utf8

/-- The characters of bytes in an encoding, or the bytes from the first that stand for none. -/
def decode (encoding : Encoding) (bytes : List UInt8) : Except (List UInt8) (List Char) :=
  match encoding with
  | .utf8 => Text.Utf8.decode bytes
  | .latin1 => .ok (bytes.map fun b => Char.ofNat b.toNat)

end Encoding

end SignatureIndex
