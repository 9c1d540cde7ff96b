import SignatureIndex.Text.Digit
import SignatureIndex.Text.Quoted

/-!
# Numerals

Numbers are read from decimal digits of any script and written in those of ASCII.  A numeral of too
many digits is refused in both directions, because the work for it grows with the square of its
length.  Zeros at its start count when a numeral is read.  How many digits are too many is up to the
reader, who may also take numerals of any length; up to the bound, all readers agree.
-/

namespace SignatureIndex

/-- Why a numeral was refused. -/
inductive NumeralFlaw where
  /-- It has more digits than are read at most. -/
  | tooLong (most digits : Nat)
  /-- It would have too many digits to be written. -/
  | tooLarge
  /-- A character of it belongs to no decimal numeral. -/
  | notDecimal (text : String)
  deriving DecidableEq, Repr

namespace Numeral

/-- The most digits that a numeral usually may have. -/
def mostDigits : Nat := 4300

def isDecimal (c : Char) : Bool := (Text.digitValue? c).isSome

/-- The number of digits that count against a bound: those up to the first character that is
none. -/
def leadingDigits (digits : List Char) : Nat := (digits.takeWhile isDecimal).length

def readAny (digits : List Char) : Except NumeralFlaw Nat :=
  match Text.numeral? digits with
  | some value => .ok value
  | none => .error (.notDecimal (String.ofList digits))

/-- Reads a numeral of at most so many digits, or of any length if there is no bound. -/
def read (bound : Option Nat) (digits : List Char) : Except NumeralFlaw Nat :=
  match bound with
  | none => readAny digits
  | some most =>
    if most < leadingDigits digits then .error (.tooLong most (leadingDigits digits))
    else readAny digits

def write (value : Nat) : Except NumeralFlaw String :=
  if value < Nat.pow 10 mostDigits then .ok (toString value) else .error .tooLarge

end Numeral

/-- The words for a refused numeral.  One that is not decimal is cut off after two hundred
characters. -/
def NumeralFlaw.message : NumeralFlaw → String
  | .tooLong most digits =>
    s!"Exceeds the limit ({most} digits) for integer string conversion: " ++
      s!"value has {digits} digits; use sys.set_int_max_str_digits() to increase the limit"
  | .tooLarge =>
    s!"Exceeds the limit ({Numeral.mostDigits} digits) for integer string conversion; " ++
      "use sys.set_int_max_str_digits() to increase the limit"
  | .notDecimal text =>
    "invalid literal for int() with base 10: " ++
      String.ofList ((Text.quoted text).toList.take 200)

end SignatureIndex
