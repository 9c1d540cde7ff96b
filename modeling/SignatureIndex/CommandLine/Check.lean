import SignatureIndex.CommandLine.Arguments
import SignatureIndex.Problem.Basic

/-!
# Checks of parameters

The values that a command was given are checked one by one, and the first check that fails decides
what is told.  Most failures are wrong uses of the command; a value that cannot even be looked at is
a fault.
-/

namespace SignatureIndex.CommandLine

/-- Why a command was not carried out. -/
inductive Refusal where
  | usage (error : UsageError)
  | fault (fault : Fault)

/-- A check that the value of a parameter has to pass. -/
structure Check where
  key : String
  outcome : Except Refusal Unit

/-- Checks in the order in which they are made: first those of the options that were given, in the
order in which they were, then those of the arguments, then the others.  `arguments` holds the keys
of the arguments. -/
def inOrder (given : List Given) (arguments : List String) (checks : List Check) : List Check :=
  let first := (given.map Given.key ++ arguments).eraseDups
  let named := first.flatMap fun key => checks.filter (·.key == key)
  named ++ checks.filter fun check => !first.contains check.key

def runChecks (checks : List Check) : Except Refusal Unit := checks.forM Check.outcome

end SignatureIndex.CommandLine
