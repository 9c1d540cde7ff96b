/-!
# Shortest decimals

A binary floating-point number stands for an interval of reals: those that round to it.  The decimal
that names it is the one with the fewest digits in that interval and, among those, the nearest.  The
search runs over grids of one, two, and up to seventeen digits; on each grid only the two neighbours
of the number can lie in the interval, so it is enough to test those.  Everything is exact
arithmetic on natural numbers.
-/

namespace SignatureIndex.Decimal

/-- A positive fraction. -/
structure Fraction where
  numerator : Nat
  denominator : Nat

/-- Ten to a power, as a fraction. -/
def tenTo (exponent : Int) : Fraction :=
  if exponent < 0 then ⟨1, Nat.pow 10 exponent.natAbs⟩ else ⟨Nat.pow 10 exponent.toNat, 1⟩

/-- Two to a power, times a natural number. -/
def scaled (mantissa : Nat) (exponent : Int) : Fraction :=
  if exponent < 0 then ⟨mantissa, Nat.pow 2 exponent.natAbs⟩
  else ⟨mantissa * Nat.pow 2 exponent.toNat, 1⟩

def Fraction.times (x y : Fraction) : Fraction :=
  ⟨x.numerator * y.numerator, x.denominator * y.denominator⟩

/-- The greatest natural number that is at most the fraction. -/
def Fraction.floor (x : Fraction) : Nat := x.numerator / x.denominator

/-- Whether one fraction is at most another. -/
def Fraction.atMost (x y : Fraction) : Bool :=
  x.numerator * y.denominator ≤ y.numerator * x.denominator

def Fraction.below (x y : Fraction) : Bool :=
  x.numerator * y.denominator < y.numerator * x.denominator

def digitCount (n : Nat) : Nat := (Nat.toDigits 10 n).length

/-- The power of ten at which a positive fraction has its first digit. -/
def leadingPower (x : Fraction) : Int :=
  if x.denominator ≤ x.numerator then digitCount x.floor - 1
  else -(digitCount ((x.denominator - 1) / x.numerator))

/-- An interval of reals, with or without its ends. -/
structure Interval where
  low : Fraction
  high : Fraction
  closed : Bool

def Interval.holds (i : Interval) (x : Fraction) : Bool :=
  if i.closed then i.low.atMost x && x.atMost i.high else i.low.below x && x.below i.high

/-- A decimal: its digits read as one number, and the power of ten of the last of them. -/
structure Digits where
  digits : Nat
  power : Int
  deriving DecidableEq

def Digits.value (d : Digits) : Fraction := (⟨d.digits, 1⟩ : Fraction).times (tenTo d.power)

/-- The neighbour of `x` on the grid of multiples of a power of ten that lies in the interval, the
nearer one if both do, and the even one of two that are equally near. -/
def neighbour? (i : Interval) (x : Fraction) (power : Int) : Option Digits :=
  let position := x.times (tenTo (-power))
  let lower : Digits := ⟨position.floor, power⟩
  let upper : Digits := ⟨position.floor + 1, power⟩
  match i.holds lower.value, i.holds upper.value with
  | true, false => some lower
  | false, true => some upper
  | false, false => none
  | true, true =>
    -- What lies above the lower neighbour, twice over, against one step of the grid.
    let twice := 2 * (position.numerator % position.denominator)
    if twice < position.denominator then some lower
    else if position.denominator < twice then some upper
    else some (if lower.digits % 2 = 0 then lower else upper)

/-- The shortest decimal of the interval that is nearest to `x`. -/
def shortest? (i : Interval) (x : Fraction) : Option Digits :=
  let top := leadingPower x
  (List.range 17).findSome? fun (further : Nat) => neighbour? i x (top - (further : Int))

/-- The parts of a finite nonzero double: an integer mantissa and a power of two. -/
structure Binary where
  mantissa : Nat
  exponent : Int

def Binary.ofBits (bits : Nat) : Binary :=
  let fraction : Nat := bits % Nat.pow 2 52
  let biased : Nat := bits / Nat.pow 2 52 % Nat.pow 2 11
  -- A biased exponent of zero marks a number without the leading bit that the others imply.
  if biased = 0 then ⟨fraction, -1074⟩ else ⟨fraction + Nat.pow 2 52, (biased : Int) - 1075⟩

/-- The reals that round to the double.  The gap below a power of two is half the gap above it. -/
def Binary.interval (b : Binary) : Interval where
  low :=
    if b.mantissa = Nat.pow 2 52 ∧ b.exponent ≠ -1074 then
      scaled (4 * b.mantissa - 1) (b.exponent - 2)
    else scaled (2 * b.mantissa - 1) (b.exponent - 1)
  high := scaled (2 * b.mantissa + 1) (b.exponent - 1)
  closed := b.mantissa % 2 = 0

/-- The decimal that names a double's magnitude. -/
def Binary.shortest (b : Binary) : Digits :=
  (shortest? b.interval (scaled b.mantissa b.exponent)).getD ⟨0, 0⟩

/-- A decimal without the zeros it ends in. -/
def Digits.stripZeros (d : Digits) : Digits :=
  let text := Nat.toDigits 10 d.digits
  let zeros := (text.reverse.takeWhile (· = '0')).length
  if d.digits = 0 then ⟨0, 0⟩ else ⟨d.digits / Nat.pow 10 zeros, d.power + zeros⟩

end SignatureIndex.Decimal
