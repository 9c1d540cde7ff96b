import SignatureIndex.Datum
import SignatureIndex.Toml.Text

/-!
# Numbers, dates and times of a TOML document

Each kind is recognised by the longest beginning of the text that has its shape, and dates are tried
before numbers, because the year of a date looks like one.
-/

namespace SignatureIndex.Toml

/-- The number that two digits make, if it lies between the bounds. -/
def twoDigits? (least most : Nat) : List Char → Option (Nat × List Char)
  | c :: d :: cs =>
    let value := 10 * (c.toNat - '0'.toNat) + (d.toNat - '0'.toNat)
    if c.isDigit && d.isDigit && least ≤ value && value ≤ most then some (value, cs) else none
  | _ => none

def after? (mark : Char) : List Char → Option (List Char)
  | c :: cs => if c = mark then some cs else none
  | [] => none

/-- The rest after a time of day: hours, minutes, seconds, and perhaps a fraction of a second. -/
def afterTime? (cs : List Char) : Option (List Char) := do
  let (_, cs) ← twoDigits? 0 23 cs
  let cs ← after? ':' cs
  let (_, cs) ← twoDigits? 0 59 cs
  let cs ← after? ':' cs
  let (_, cs) ← twoDigits? 0 59 cs
  match cs with
  | '.' :: d :: rest => some (if d.isDigit then rest.dropWhile Char.isDigit else cs)
  | _ => some cs

/-- The rest after the distance from universal time that may follow a time of day. -/
def afterOffset (cs : List Char) : List Char :=
  match cs with
  | [] => []
  | c :: rest =>
    if c = 'Z' ∨ c = 'z' then rest
    else if c = '+' ∨ c = '-' then
      let offset? : Option (List Char) := do
        let (_, rest) ← twoDigits? 0 23 rest
        let rest ← after? ':' rest
        let (_, rest) ← twoDigits? 0 59 rest
        some rest
      offset?.getD cs
    else cs

def daysIn (year month : Nat) : Nat :=
  if month = 2 then
    if year % 4 = 0 ∧ (year % 100 ≠ 0 ∨ year % 400 = 0) then 29 else 28
  else if month = 4 ∨ month = 6 ∨ month = 9 ∨ month = 11 then 30
  else 31

/-- Whether the calendar has a date; there is no year zero. -/
def isDate (year month day : Nat) : Bool := 1 ≤ year && day ≤ daysIn year month

/-- The date that a text starts with: whether the calendar has it, and the rest of the text after
the date and a time that belongs to it. -/
def date? (cs : List Char) : Option (Bool × List Char) := do
  let (century, cs) ← twoDigits? 0 99 cs
  let (year, cs) ← twoDigits? 0 99 cs
  let cs ← after? '-' cs
  let (month, cs) ← twoDigits? 1 12 cs
  let cs ← after? '-' cs
  let (day, cs) ← twoDigits? 1 31 cs
  let rest :=
    match cs with
    | c :: time =>
      if c = 'T' ∨ c = 't' ∨ c = ' ' then ((afterTime? time).map afterOffset).getD cs else cs
    | [] => []
  some (isDate (100 * century + year) month day, rest)

/-- Digits that may have single underscores between them, after a first digit: the digits, and the
rest. -/
def moreDigits (isDigit : Char → Bool) : List Char → List Char × List Char
  | [] => ([], [])
  | [c] => if isDigit c then ([c], []) else ([], [c])
  | c :: d :: cs =>
    if isDigit c then
      let (digits, rest) := moreDigits isDigit (d :: cs)
      (c :: digits, rest)
    else if c = '_' ∧ isDigit d then
      let (digits, rest) := moreDigits isDigit cs
      (d :: digits, rest)
    else ([], c :: d :: cs)

/-- A row of digits with at least one: the digits, and the rest. -/
def digitRow? (isDigit : Char → Bool) : List Char → Option (List Char × List Char)
  | [] => none
  | c :: cs =>
    if isDigit c then
      let (digits, rest) := moreDigits isDigit cs
      some (c :: digits, rest)
    else none

def digitsIn (base : Nat) (digits : List Char) : Nat :=
  digits.foldl (fun total c => base * total + (hexDigit? c).getD 0) 0

def base? (c : Char) : Option Nat :=
  if c = 'x' then some 16 else if c = 'o' then some 8 else if c = 'b' then some 2 else none

/-- An integer that is not decimal. -/
def basedInteger? : List Char → Option (Datum × List Char)
  | '0' :: c :: cs => do
    let base ← base? c
    let (digits, rest) ← digitRow? (fun d => (hexDigit? d).any (· < base)) cs
    some (.integer (digitsIn base digits), rest)
  | _ => none

/-- The digits before the point of a decimal number: a zero alone, or a row that starts with
none. -/
def wholePart? : List Char → Option (List Char × List Char)
  | '0' :: cs => some (['0'], cs)
  | cs => digitRow? Char.isDigit cs

/-- The fraction that may follow the whole part: its digits, and the rest. -/
def fraction? : List Char → Option (List Char × List Char)
  | '.' :: cs => digitRow? Char.isDigit cs
  | _ => none

/-- A sign that may stand here: whether it is a minus, and the rest. -/
def sign : List Char → Bool × List Char
  | '+' :: cs => (false, cs)
  | '-' :: cs => (true, cs)
  | cs => (false, cs)

/-- The exponent that may follow: its value, and the rest. -/
def exponent? : List Char → Option (Int × List Char)
  | c :: cs =>
    if c = 'e' ∨ c = 'E' then
      let (negative, cs) := sign cs
      (digitRow? Char.isDigit cs).map fun (digits, rest) =>
        (if negative then -(digitsIn 10 digits : Int) else digitsIn 10 digits, rest)
    else none
  | [] => none

/-- A decimal number: an integer, or a number with a fraction or an exponent. -/
def decimal? (cs : List Char) : Option (Datum × List Char) := do
  let (negative, cs) := sign cs
  let (whole, cs) ← wholePart? cs
  let fraction := fraction? cs
  let cs := (fraction.map (·.2)).getD cs
  let exponent := exponent? cs
  let cs := (exponent.map (·.2)).getD cs
  if fraction.isNone && exponent.isNone then
    let value : Int := digitsIn 10 whole
    some (.integer (if negative then -value else value), cs)
  else
    let places := (fraction.map (·.1)).getD []
    let power := (exponent.map (·.1)).getD 0 - places.length
    some (.float (Decimal.toFloat negative (digitsIn 10 (whole ++ places)) power), cs)

def number (cs : List Char) : Except Flaw (Datum × List Char) :=
  match basedInteger? cs with
  | some reading => .ok reading
  | none =>
    match decimal? cs with
    | some (.integer value, rest) =>
      let digits := (cs.take (cs.length - rest.length)).countP Char.isDigit
      if Numeral.mostDigits < digits then .error ⟨.longNumeral digits, cs⟩
      else .ok (.integer value, rest)
    | some reading => .ok reading
    | none => .error ⟨.value, cs⟩

def namedNumber? (cs : List Char) : Option (Datum × List Char) :=
  let (negative, cs) := sign cs
  let magnitude? : Option Float :=
    if cs.take 3 = ['i', 'n', 'f'] then some (1.0 / 0.0)
    else if cs.take 3 = ['n', 'a', 'n'] then some (0.0 / 0.0)
    else none
  magnitude?.map fun magnitude => (.float (if negative then -magnitude else magnitude), cs.drop 3)

/-- Reads a date, a time or a number. -/
def scalar (cs : List Char) : Except Flaw (Datum × List Char) :=
  match date? cs with
  | some (valid, rest) =>
    -- A date that no calendar has is a flaw, not the start of a number.
    if valid then .ok (.moment (String.ofList (cs.take (cs.length - rest.length))), rest)
    else .error ⟨.date, cs⟩
  | none =>
    match afterTime? cs with
    | some rest => .ok (.moment (String.ofList (cs.take (cs.length - rest.length))), rest)
    | none =>
      match namedNumber? cs with
      | some reading => .ok reading
      | none => number cs

end SignatureIndex.Toml
