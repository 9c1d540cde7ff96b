import SignatureIndex.Decimal.Shortest

/-!
# The written form of numbers

Numbers of documents are shown in positional notation when the first digit stands between the fourth
place after the point and the sixteenth before it, and with an exponent of at least two digits
otherwise.  A positional number always shows a point, so that it cannot be taken for an integer.
-/

namespace SignatureIndex.Decimal

/-- Where positional notation gives way to exponents, and how exponents look. -/
structure Layout where
  /-- The least and greatest power of ten of the first digit that is written positionally. -/
  leastPower : Int
  greatestPower : Int
  /-- The least number of digits of an exponent. -/
  exponentDigits : Nat

/-- The layout of the numbers that messages quote. -/
def Layout.message : Layout := ⟨-4, 15, 2⟩

def padded (width n : Nat) : List Char :=
  let digits := Nat.toDigits 10 n
  List.replicate (width - digits.length) '0' ++ digits

/-- Digits with a point before the given number of them, counted from the left. -/
def withPoint (digits : List Char) (point : Int) : List Char :=
  if point ≤ 0 then '0' :: '.' :: List.replicate point.natAbs '0' ++ digits
  else if digits.length ≤ point.toNat then
    digits ++ List.replicate (point.toNat - digits.length) '0' ++ ['.', '0']
  else digits.take point.toNat ++ '.' :: digits.drop point.toNat

/-- A positive decimal, written in the layout. -/
def Layout.render (layout : Layout) (d : Digits) : List Char :=
  let d := d.stripZeros
  let digits := Nat.toDigits 10 d.digits
  let power := d.power + digits.length - 1
  if layout.leastPower ≤ power ∧ power ≤ layout.greatestPower then withPoint digits (power + 1)
  else
    let rest := digits.drop 1
    digits.take 1 ++ (if rest.isEmpty then [] else '.' :: rest) ++
      'e' :: (if power < 0 then '-' else '+') :: padded layout.exponentDigits power.natAbs

/-- A double, written in the layout. -/
def Layout.renderFloat (layout : Layout) (x : Float) : String :=
  let bits := x.toBits.toNat
  let sign := if bits < Nat.pow 2 63 then [] else ['-']
  let magnitude := bits % Nat.pow 2 63
  if x.isNaN then "nan"
  else if x.isInf then String.ofList (sign ++ ['i', 'n', 'f'])
  else if magnitude = 0 then String.ofList (sign ++ ['0', '.', '0'])
  else String.ofList (sign ++ layout.render (Binary.ofBits magnitude).shortest)

/-- The double nearest to a decimal.  Past the range of doubles the answer no longer depends on the
digits, so that the powers of ten which have to be computed stay small. -/
def toFloat (negative : Bool) (digits : Nat) (power : Int) : Float :=
  let top := power + digitCount digits
  let magnitude :=
    if digits = 0 ∨ top < -400 then 0.0
    else if 400 < top then Float.ofScientific 1 false 400
    else if power < 0 then Float.ofScientific digits true power.natAbs
    else Float.ofScientific digits false power.toNat
  if negative then -magnitude else magnitude

end SignatureIndex.Decimal
