import SignatureIndex.Declaration.Basic
import SignatureIndex.Problem.Source
import SignatureIndex.Source.Form

/-!
# Items of a source file

A form that starts with a dash and a lower-case word is an attribute, or asks for another file to be
read in its place; every other form is passed over.  A *sheet* is a source file as a row of such
items, with a note of where a form without a dot starts if the file ends in one.
-/

namespace SignatureIndex

def isNameChar (c : Char) : Bool := c.isAlphanum || c == '_' || c == '@'

/-- The two ways of including a file. -/
inductive IncludeKind where
  /-- By a path. -/
  | file
  /-- By a path that may start with the name of an application. -/
  | library
  deriving DecidableEq, Repr

def IncludeKind.name : IncludeKind → String
  | .file => "include"
  | .library => "include_lib"

/-- What a form contributes. -/
inductive Item where
  | kept (content : Attribute)
  | inclusion (kind : IncludeKind) (name : String) (span : Span)
  | malformedInclusion (kind : IncludeKind) (span : Span)
  deriving DecidableEq, Repr

namespace Item

/-- The kind and the text of an attribute, from a form without blanks at its start. -/
def head? : List Char → Option (List Char × List Char)
  | '-' :: text =>
    match text.dropWhile Text.isBlank with
    | c :: cs =>
      if c.isLower then some (c :: cs.takeWhile isNameChar, cs.dropWhile isNameChar) else none
    | [] => none
  | _ => none

/-- The name of the file to include: a string that is not empty, in parentheses. -/
def includedName? (text : List Char) : Option (List Char) :=
  match Text.trimStart text with
  | '(' :: text =>
    match Text.trimStart text with
    | mark :: text =>
      if mark ≠ Text.doubleMark then none
      else
        let name := text.takeWhile (· ≠ Text.doubleMark)
        match name, Text.trim ((text.dropWhile (· ≠ Text.doubleMark)).drop 1) with
        | _ :: _, [')'] => some name
        | _, _ => none
    | [] => none
  | _ => none

/-- The kind of inclusion that an attribute of a kind is, if it is one. -/
def includeKind? (kind : String) : Option IncludeKind :=
  if kind = IncludeKind.file.name then some .file
  else if kind = IncludeKind.library.name then some .library
  else none

/-- What a form of a source file contributes, if anything. -/
def ofForm? (source : Source) (form : Form) : Option Item :=
  let stripped := Text.trimStart form.text
  match head? stripped with
  | none => none
  | some (kind, text) =>
    let kind := String.ofList kind
    -- The span starts at the dash, not at the blanks before it.
    let stop : Nat := form.offset + form.text.length
    let start : Nat := stop - stripped.length
    let span := source.span start stop
    match includeKind? kind with
    | none => some (.kept ⟨kind, String.ofList (Text.trim text), span⟩)
    | some way =>
      match includedName? text with
      | some name => some (.inclusion way (String.ofList name) span)
      | none => some (.malformedInclusion way span)

end Item

/-- A source file as a row of items. -/
structure Sheet where
  path : Path
  items : List Item
  /-- The form without a dot that the file ends in. -/
  unfinished : Option Span
  deriving DecidableEq, Repr

namespace Sheet

/-- The place of what is left over after the last form, unless that is blank. -/
def unfinished? (source : Source) (rest : List Char) : Option Span :=
  let stripped := Text.trimStart rest
  let stop : Nat := source.content.length
  let start : Nat := stop - stripped.length
  if stripped.isEmpty then none else some (source.span start stop)

/-- The items of a source file, unless a string or quoted atom in it is never closed. -/
def ofSource (source : Source) : Except SourceProblem Sheet :=
  match blankComments source.content with
  | .error offset => .error (.openQuote (source.span offset (offset + 1)))
  | .ok clean =>
    let (forms, rest) := Form.split clean
    .ok ⟨source.path, forms.filterMap (Item.ofForm? source), unfinished? source rest⟩

end Sheet

/-- Reads a source file from its bytes, or tells which of them stands for no character. -/
def Source.read (path : Path) (bytes : List UInt8) : Except SourceProblem Source :=
  match Source.ofBytes path bytes with
  | .error rest =>
    .error (.undecodable path (Encoding.ofBytes bytes)
      (byteSpan path bytes (bytes.length - rest.length)))
  | .ok source => .ok source

namespace Source

variable {path : Path} {bytes : List UInt8}

/-- Reading bytes that all stand for characters. -/
theorem read_of_decode {text : List Char}
    (decoded : (Encoding.ofBytes bytes).decode bytes = .ok text) :
    Source.read path bytes = .ok ⟨path, Encoding.ofBytes bytes, Text.joinCrLf text⟩ := by
  simp only [Source.read, Source.ofBytes, decoded, Except.map]

/-- Reading bytes of which some stand for no character. -/
theorem read_of_fault {rest : List UInt8}
    (failed : (Encoding.ofBytes bytes).decode bytes = .error rest) :
    Source.read path bytes = .error (.undecodable path (Encoding.ofBytes bytes)
      (byteSpan path bytes (bytes.length - rest.length))) := by
  simp only [Source.read, Source.ofBytes, failed, Except.map]

end Source

end SignatureIndex
