import SignatureIndex.Declaration.Group
import SignatureIndex.Source.Item

/-!
# Type variables

The variables of a type are the names in it that start with a capital letter or an underscore.
Names after a question mark or a hash are macros and records, and a lone underscore names nothing.
-/

namespace SignatureIndex

/-- What a variable can start with. -/
def startsVariable (c : Char) : Bool := c.isUpper || c == '_'

/-- A character right after which no variable starts. -/
def bars (c : Char) : Bool := isNameChar c || c == '?' || c == '#'

/-- Whether a text is a variable and nothing else. -/
def isVariable : List Char → Bool
  | [] => false
  | c :: cs => startsVariable c && cs.all isNameChar

/-- The variables of a text that follows a character, in order. -/
def variablesAfter (before : Option Char) : List Char → List (List Char)
  | [] => []
  | c :: cs =>
    if startsVariable c && !before.any bars then
      let name := c :: cs.takeWhile isNameChar
      name :: variablesAfter name.getLast? (cs.dropWhile isNameChar)
    else variablesAfter (some c) cs
termination_by cs => cs.length
decreasing_by
  · have := (List.dropWhile_sublist isNameChar (l := cs)).length_le
    simp only [List.length_cons]
    omega
  · simp

/-- The type variables of a text, each once, in the order in which they first appear. -/
def typeVariables (text : List Char) : List (List Char) :=
  ((variablesAfter none (blankQuoted text)).filter (· ≠ ['_'])).eraseDups

end SignatureIndex
