import SignatureIndex.Source.Lexeme

/-!
# Bracketed groups

The arguments of a declaration stand between brackets and are separated by commas.  Commas and
brackets that stand inside strings, quoted atoms or further brackets do not count; the first are
blanked out before the rest is counted.  The double angle brackets of binaries count as brackets
too, but they never end a group.
-/

namespace SignatureIndex

namespace Blanking

/-- The number of characters before the mark that closes a quoted part.  A backslash takes the
character after it along, but no part goes on past a line feed with a backslash before it. -/
def payload? (mark : Char) : List Char → Option Nat
  | [] => none
  | [c] => if c = mark ∧ c ≠ '\\' then some 0 else none
  | c :: d :: cs =>
    if c = '\\' then if d = '\n' then none else (payload? mark cs).map (· + 2)
    else if c = mark then some 0
    else (payload? mark (d :: cs)).map (· + 1)

/-- Blanks out quoted parts, where `inside` characters up to and with the closing mark are left of
the part that the text starts in. -/
def blankFrom (inside : Nat) : List Char → List Char
  | [] => []
  | c :: cs =>
    match inside with
    | 0 =>
      if Lexeme.isMark c then
        match payload? c cs with
        | some count => c :: blankFrom (count + 1) cs
        -- A mark without a match stands for itself.
        | none => c :: blankFrom 0 cs
      else c :: blankFrom 0 cs
    | 1 => c :: blankFrom 0 cs
    | inside + 2 => ' ' :: blankFrom (inside + 1) cs

end Blanking

/-- A text with blanks in place of everything between the marks of strings and quoted atoms.  A mark
without a match stays, and so does what comes after it. -/
def blankQuoted (text : List Char) : List Char := Blanking.blankFrom 0 text

/-- Blanking moves nothing. -/
theorem length_blankFrom (inside : Nat) (text : List Char) :
    (Blanking.blankFrom inside text).length = text.length := by
  induction text generalizing inside with
  | nil => simp [Blanking.blankFrom]
  | cons c cs ih =>
    unfold Blanking.blankFrom
    split
    · split
      · split <;> simp [ih]
      · simp [ih]
    · simp [ih]
    · simp [ih]

/-- Blanking moves nothing. -/
theorem length_blankQuoted (text : List Char) : (blankQuoted text).length = text.length :=
  length_blankFrom 0 text

/-- The items of a group, stripped of blanks, and the text after its closing bracket. -/
structure Group where
  items : List (List Char)
  rest : List Char
  deriving DecidableEq, Repr

namespace Group

/-- What opens a bracket of its own depth. -/
def isOpen (c : Char) : Bool := c == '(' || c == '[' || c == '\x7b'

def isClose (c : Char) : Bool := c == ')' || c == ']' || c == '\x7d'

/-- Puts characters before the first of some items. -/
def extend (text : List Char) (group : Group) : Group :=
  match group.items with
  | [] => ⟨[text], group.rest⟩
  | item :: items => ⟨(text ++ item) :: items, group.rest⟩

/-- Splits the rest of a group at its commas, at some depth of brackets.  Each place holds the
character of the blanked text, which counts, and the one of the text itself, which is kept. -/
def splitFrom (depth : Int) : List (Char × Char) → Option Group
  | [] => none
  | [(mark, _)] => if isClose mark ∧ depth = 1 then some ⟨[[]], []⟩ else none
  | (mark, c) :: (mark', c') :: places =>
    if mark = '<' ∧ mark' = '<' then
      (splitFrom (depth + 1) places).map (extend [c, c'])
    else if mark = '>' ∧ mark' = '>' then
      (splitFrom (depth - 1) places).map (extend [c, c'])
    else if isOpen mark then (splitFrom (depth + 1) ((mark', c') :: places)).map (extend [c])
    else if isClose mark then
      -- Only the bracket that closes the outermost depth ends the group.
      if depth = 1 then some ⟨[[]], c' :: places.map (·.2)⟩
      else (splitFrom (depth - 1) ((mark', c') :: places)).map (extend [c])
    else if mark = ',' ∧ depth = 1 then
      (splitFrom depth ((mark', c') :: places)).map fun group =>
        ⟨[] :: group.items, group.rest⟩
    else (splitFrom depth ((mark', c') :: places)).map (extend [c])

/-- The group that a text starts with, given that its first character is the opening bracket; there
is none if the brackets are not balanced.  A group of one empty item has no items. -/
def ofText? (text : List Char) : Option Group :=
  (splitFrom 1 (((blankQuoted text).zip text).drop 1)).map fun group =>
    let items := group.items.map Text.trim
    ⟨if items = [[]] then [] else items, group.rest⟩

end Group

end SignatureIndex
