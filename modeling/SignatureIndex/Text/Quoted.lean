import SignatureIndex.Text.Printable

/-!
# Quoted text

How messages show a text exactly: between two quotation marks, with the mark, the backslash and
every character that cannot be shown written as an escape.  A text that holds an apostrophe and no
double mark stands between double marks, every other text between apostrophes.
-/

namespace SignatureIndex.Text

/-- The apostrophe, the usual mark of a quoted text. -/
def apostrophe : Char := '\x27'

def doubleMark : Char := '\x22'

def markFor (cs : List Char) : Char :=
  if apostrophe ∈ cs ∧ doubleMark ∉ cs then doubleMark else apostrophe

/-- A number in lower-case hexadecimal, filled up with zeros to a width. -/
def hexadecimal (width code : Nat) : List Char :=
  let digits := Nat.toDigits 16 code
  List.replicate (width - digits.length) '0' ++ digits

/-- The escape of a character that cannot be shown, as short as its code point allows. -/
def numericEscape (c : Char) : List Char :=
  let code := c.toNat
  if code < 0x100 then '\\' :: 'x' :: hexadecimal 2 code
  else if code < 0x10000 then '\\' :: 'u' :: hexadecimal 4 code
  else '\\' :: 'U' :: hexadecimal 8 code

/-- One character of a text quoted with `mark`. -/
def escaped (mark c : Char) : List Char :=
  if c = mark ∨ c = '\\' then ['\\', c]
  else if c = '\n' then ['\\', 'n']
  else if c = '\r' then ['\\', 'r']
  else if c = '\t' then ['\\', 't']
  else if isPrintable c then [c]
  else numericEscape c

def quotedChars (cs : List Char) : List Char :=
  let mark := markFor cs
  mark :: cs.flatMap (escaped mark) ++ [mark]

def quoted (text : String) : String := String.ofList (quotedChars text.toList)

end SignatureIndex.Text
