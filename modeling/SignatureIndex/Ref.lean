import SignatureIndex.Datum
import SignatureIndex.Numeral
import SignatureIndex.Text.Blank
import SignatureIndex.Text.Pieces

/-!
# References

A function or a type is named by its module, its name and its arity.  A reference without a module
is local to whatever it was declared in; it never equals a reference with one.  Operators belong to
no module and are keyed by name and arity alone.

References are written `module:name/arity` or `name/arity`.  Reading is more generous than writing:
it takes the decimal digits of every script and blanks around the whole.
-/

namespace SignatureIndex

/-- The name of a function or a type. -/
structure Ref where
  /-- The module it belongs to; a local reference has none. -/
  moduleName : Option String
  name : String
  arity : Nat
  deriving DecidableEq, Repr

/-- The name of an operator. -/
structure OperatorKey where
  name : String
  arity : Nat
  deriving DecidableEq, Repr

/-- Why a reference, an operator or an arity was refused. -/
inductive ReferenceFlaw where
  | arity (given : Datum)
  | reference (text : String)
  | operator (text : String)
  /-- The arity is written with digits, but they cannot be read. -/
  | numeral (flaw : NumeralFlaw)

def ReferenceFlaw.message : ReferenceFlaw → String
  | .arity given => "arity must be a non-negative integer, got " ++ given.quote
  | .reference text =>
    "invalid reference " ++ Text.quoted text ++ ", expected [module:]name/arity"
  | .operator text => "invalid operator " ++ Text.quoted text ++ ", expected op/arity"
  | .numeral flaw => flaw.message

def arityOf (given : Datum) : Except ReferenceFlaw Nat :=
  match given.natural? with
  | some arity => .ok arity
  | none => .error (.arity given)

namespace Ref

/-- Local references come before those with a module; after that module, name and arity decide. -/
instance : Ord Ref where
  compare := compareLex (compareOn moduleName) (compareLex (compareOn name) (compareOn arity))

instance : Std.TransOrd Ref :=
  inferInstanceAs (Std.TransCmp
    (compareLex (compareOn moduleName) (compareLex (compareOn name) (compareOn arity))))

instance : Std.LawfulEqOrd Ref where
  eq_of_compare {a b} same := by
    change compareLex (compareOn moduleName) (compareLex (compareOn name) (compareOn arity)) a b =
        .eq
      at same
    simp only [compareLex_eq_eq, compareOn] at same
    obtain ⟨sameModule, sameName, sameArity⟩ := same
    have sameModule : a.moduleName = b.moduleName := Std.LawfulEqOrd.eq_of_compare sameModule
    have sameName : a.name = b.name := Std.LawfulEqOrd.eq_of_compare sameName
    have sameArity : a.arity = b.arity := Std.LawfulEqOrd.eq_of_compare sameArity
    cases a
    cases b
    simp_all

def format (ref : Ref) : String :=
  match ref.moduleName with
  | none => ref.name ++ "/" ++ toString ref.arity
  | some moduleName => moduleName ++ ":" ++ ref.name ++ "/" ++ toString ref.arity

/-- The module and the name that a text without a slash gives. -/
def owner? (text : List Char) : Option (Option String × String) :=
  match Text.pieces ':' text with
  | [name] => if name.isEmpty then none else some (none, String.ofList name)
  | [moduleName, name] =>
    if moduleName.isEmpty || name.isEmpty then none
    else some (some (String.ofList moduleName), String.ofList name)
  | _ => none

/-- The module and the name of a written reference without blanks around it, and the digits of its
arity. -/
def parts? (text : List Char) : Option ((Option String × String) × List Char) :=
  match Text.pieces '/' text with
  | [owner, digits] =>
    if digits.isEmpty || !digits.all Numeral.isDecimal then none
    else (owner? owner).map fun named => (named, digits)
  | _ => none

/-- Reads a reference whose arity has at most so many digits, or any number of them if there is no
bound. -/
def parseWithin (bound : Option Nat) (text : String) : Except ReferenceFlaw Ref :=
  match parts? (Text.trim text.toList) with
  | none => .error (.reference text)
  | some ((moduleName, name), digits) =>
    match Numeral.read bound digits with
    | .ok arity => .ok ⟨moduleName, name, arity⟩
    | .error flaw => .error (.numeral flaw)

def parse : String → Except ReferenceFlaw Ref := parseWithin (some Numeral.mostDigits)

end Ref

namespace OperatorKey

/-- Name and arity decide. -/
instance : Ord OperatorKey where
  compare := compareLex (compareOn name) (compareOn arity)

instance : Std.TransOrd OperatorKey :=
  inferInstanceAs (Std.TransCmp (compareLex (compareOn name) (compareOn arity)))

instance : Std.LawfulEqOrd OperatorKey where
  eq_of_compare {a b} same := by
    change compareLex (compareOn name) (compareOn arity) a b = .eq at same
    simp only [compareLex_eq_eq, compareOn] at same
    obtain ⟨sameName, sameArity⟩ := same
    have sameName : a.name = b.name := Std.LawfulEqOrd.eq_of_compare sameName
    have sameArity : a.arity = b.arity := Std.LawfulEqOrd.eq_of_compare sameArity
    cases a
    cases b
    simp_all

def format (key : OperatorKey) : String := key.name ++ "/" ++ toString key.arity

/-- Reads `name/arity`, where the arity has at most so many digits, or any number of them if there
is no bound.  The name is everything before the last slash. -/
def parseWithin (bound : Option Nat) (text : String) : Except ReferenceFlaw OperatorKey :=
  let reversed := text.toList.reverse
  let digits := (reversed.takeWhile (· ≠ '/')).reverse
  let name := ((reversed.dropWhile (· ≠ '/')).drop 1).reverse
  if name.isEmpty || digits.isEmpty || !digits.all Text.isDigit then .error (.operator text)
  else
    match Numeral.read bound digits with
    | .ok arity => .ok ⟨String.ofList name, arity⟩
    | .error flaw => .error (.numeral flaw)

def parse : String → Except ReferenceFlaw OperatorKey := parseWithin (some Numeral.mostDigits)

end OperatorKey

end SignatureIndex
