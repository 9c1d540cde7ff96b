import SignatureIndex.Numeral

/-!
# The texts of a TOML document

Comments, keys and strings.  A reader takes the characters that are left and gives what it read with
the characters after it, or a flaw that says what is wrong and where.

A string is read in two steps: first up to its closing mark, then its escapes are replaced.  A
backslash takes the character after it along in the first step, so an escaped mark closes nothing.
-/

namespace SignatureIndex.Toml

/-- What a document can get wrong. -/
inductive Reason where
  | statement
  | endOfStatement
  | controlCharacter
  | unterminatedString
  | escape
  | key
  | equalsSign
  | header
  | value
  | date
  | array
  | inlineTable
  | redefinition
  /-- An integer has too many digits. -/
  | longNumeral (digits : Nat)
  /-- Values are nested too deeply. -/
  | nesting
  deriving DecidableEq, Repr

def Reason.message : Reason → String
  | .statement => "Invalid statement"
  | .endOfStatement => "Expected newline or end of document after a statement"
  | .controlCharacter => "Found invalid character"
  | .unterminatedString => "Unterminated string"
  | .escape => "Invalid escape in a string"
  | .key => "Invalid initial character for a key part"
  | .equalsSign => "Expected '=' after a key in a key/value pair"
  | .header => "Expected a closing bracket at the end of a declaration"
  | .value => "Invalid value"
  | .date => "Invalid date or datetime"
  | .array => "Unclosed array"
  | .inlineTable => "Unclosed inline table"
  | .redefinition => "Cannot overwrite a value"
  | .longNumeral digits => (NumeralFlaw.tooLong Numeral.mostDigits digits).message
  | .nesting => "Values are nested too deeply"

/-- What is wrong with a document, and the characters from there on. -/
structure Flaw where
  reason : Reason
  rest : List Char
  deriving DecidableEq, Repr

def isSpace (c : Char) : Bool := c == ' ' || c == '\t'

def skipSpace (cs : List Char) : List Char := cs.dropWhile isSpace

/-- Control characters other than the tab never stand in a document. -/
def isControl (c : Char) : Bool := (c.toNat < 32 || c.toNat == 127) && c != '\t'

def skipComment (cs : List Char) : Except Flaw (List Char) :=
  match cs with
  | '#' :: comment =>
    if (comment.takeWhile (· ≠ '\n')).any isControl then .error ⟨.controlCharacter, cs⟩
    else .ok (comment.dropWhile (· ≠ '\n'))
  | _ => .ok cs

/-- The characters after any number of blanks, line feeds and comments. -/
def skipLoose (inComment : Bool) : List Char → Except Flaw (List Char)
  | [] => .ok []
  | c :: cs =>
    if c = '\n' then skipLoose false cs
    else if inComment then
      if isControl c then .error ⟨.controlCharacter, c :: cs⟩ else skipLoose true cs
    else if isSpace c then skipLoose false cs
    else if c = '#' then skipLoose true cs
    else .ok (c :: cs)

/-! ## Strings -/

def untilMark? (escapes : Bool) (mark : Char) : List Char → Option (List Char × List Char)
  | [] => none
  | [c] => if c = mark then some ([], []) else none
  | c :: d :: cs =>
    if c = mark then some ([], d :: cs)
    else if escapes ∧ c = '\\' then
      (untilMark? escapes mark cs).map fun (body, rest) => (c :: d :: body, rest)
    else (untilMark? escapes mark (d :: cs)).map fun (body, rest) => (c :: body, rest)

def untilMarks? (escapes : Bool) (mark : Char) : List Char → Option (List Char × List Char)
  | [] => none
  | [_] => none
  | c :: d :: cs =>
    if c = mark ∧ d = mark ∧ cs.head? = some mark then some ([], cs.drop 1)
    else if escapes ∧ c = '\\' then
      (untilMarks? escapes mark cs).map fun (body, rest) => (c :: d :: body, rest)
    else (untilMarks? escapes mark (d :: cs)).map fun (body, rest) => (c :: body, rest)

def hexDigit? (c : Char) : Option Nat :=
  if c.isDigit then some (c.toNat - '0'.toNat)
  else if 'a' ≤ c ∧ c ≤ 'f' then some (c.toNat - 'a'.toNat + 10)
  else if 'A' ≤ c ∧ c ≤ 'F' then some (c.toNat - 'A'.toNat + 10)
  else none

def shortEscape? (c : Char) : Option Char :=
  if c = 'b' then some '\x08'
  else if c = 't' then some '\t'
  else if c = 'n' then some '\n'
  else if c = 'f' then some '\x0c'
  else if c = 'r' then some '\r'
  else if c = Text.doubleMark ∨ c = '\\' then some c
  else none

/-- How far the replacement of escapes has come. -/
inductive EscapeState where
  /-- Outside every escape. -/
  | plain
  /-- After a backslash. -/
  | backslash
  /-- Within the hexadecimal digits of a character. -/
  | digits (left value : Nat)
  /-- Between a backslash and the line feed that it hides. -/
  | lineEnd
  /-- Among the blanks at the start of the line after a hidden line feed. -/
  | lineStart
  deriving DecidableEq, Repr

/-- Replaces escapes.  Only a string of several lines may hide its line feeds. -/
def unescape (block : Bool) (state : EscapeState) : List Char → Option (List Char)
  | [] => if state = .plain ∨ state = .lineStart then some [] else none
  | c :: cs =>
    match state with
    | .plain =>
      if c = '\\' then unescape block .backslash cs
      else (unescape block .plain cs).map (c :: ·)
    | .lineStart =>
      if isSpace c ∨ c = '\n' then unescape block .lineStart cs
      else if c = '\\' then unescape block .backslash cs
      else (unescape block .plain cs).map (c :: ·)
    | .lineEnd =>
      if c = '\n' then unescape block .lineStart cs
      else if isSpace c then unescape block .lineEnd cs
      else none
    | .backslash =>
      if block ∧ c = '\n' then unescape block .lineStart cs
      else if block ∧ isSpace c then unescape block .lineEnd cs
      else if c = 'u' then unescape block (.digits 4 0) cs
      else if c = 'U' then unescape block (.digits 8 0) cs
      else
        match shortEscape? c with
        | some meant => (unescape block .plain cs).map (meant :: ·)
        | none => none
    | .digits left value =>
      match hexDigit? c with
      | none => none
      | some digit =>
        let value := 16 * value + digit
        -- A surrogate or a number past the last code point is no character.
        if left ≤ 1 then
          if value.isValidChar then (unescape block .plain cs).map (Char.ofNat value :: ·)
          else none
        else unescape block (.digits (left - 1) value) cs

/-- Reads a string of one line, after its opening mark. -/
def lineString (mark : Char) (cs : List Char) : Except Flaw (String × List Char) :=
  let escapes := mark == Text.doubleMark
  match untilMark? escapes mark cs with
  | none => .error ⟨.unterminatedString, cs⟩
  | some (body, rest) =>
    if body.any isControl then .error ⟨.controlCharacter, cs⟩
    else if escapes then
      match unescape false .plain body with
      | some text => .ok (String.ofList text, rest)
      | none => .error ⟨.escape, cs⟩
    else .ok (String.ofList body, rest)

/-- Reads a string of several lines, after its opening marks.  A line feed right after them does not
count, and up to two marks may stand right before the closing three. -/
def blockString (mark : Char) (cs : List Char) : Except Flaw (String × List Char) :=
  let escapes := mark == Text.doubleMark
  let cs := if cs.head? = some '\n' then cs.drop 1 else cs
  match untilMarks? escapes mark cs with
  | none => .error ⟨.unterminatedString, cs⟩
  | some (body, rest) =>
    let further := min 2 (rest.takeWhile (· = mark)).length
    let text? := if escapes then unescape true .plain body else some body
    if body.any fun c => isControl c && c != '\n' then .error ⟨.controlCharacter, cs⟩
    else
      match text? with
      | some text =>
        .ok (String.ofList (text ++ List.replicate further mark), rest.drop further)
      | none => .error ⟨.escape, cs⟩

/-! ## Keys -/

/-- What a key can be made of without marks around it. -/
def isBareKeyChar (c : Char) : Bool := c.isAlphanum || c == '-' || c == '_'

def keyPart (cs : List Char) : Except Flaw (String × List Char) :=
  match cs with
  | [] => .error ⟨.key, cs⟩
  | c :: rest =>
    if isBareKeyChar c then
      .ok (String.ofList (cs.takeWhile isBareKeyChar), cs.dropWhile isBareKeyChar)
    else if c = Text.doubleMark ∨ c = Text.apostrophe then lineString c rest
    else .error ⟨.key, cs⟩

/-- Reads at most so many parts of a key with dots between them. -/
def keyParts : (most : Nat) → List Char → Except Flaw (List String × List Char)
  | 0, cs => .error ⟨.key, cs⟩
  | most + 1, cs => do
    let (part, cs) ← keyPart cs
    match skipSpace cs with
    | '.' :: cs => do
      let (parts, cs) ← keyParts most (skipSpace cs)
      .ok (part :: parts, cs)
    | cs => .ok ([part], cs)

/-- Reads a key, and the blanks after it. -/
def key (cs : List Char) : Except Flaw (List String × List Char) := keyParts (cs.length + 1) cs

end SignatureIndex.Toml
