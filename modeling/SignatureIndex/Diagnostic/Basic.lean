import SignatureIndex.Span

/-!
# Diagnostics

What a user is told about a problem: how grave it is, a code, a message, the places it is about, and
notes.
-/

namespace SignatureIndex

/-- How grave a diagnostic is. -/
inductive Severity where
  | error
  | warning
  | note
  deriving DecidableEq, Repr

def Severity.name : Severity → String
  | .error => "error"
  | .warning => "warning"
  | .note => "note"

/-- A place that a diagnostic is about, with words of its own or none. -/
structure Label where
  span : Span
  message : String
  deriving DecidableEq, Repr

/-- Everything a user is told about one problem. -/
structure Diagnostic where
  severity : Severity
  code : String
  message : String
  labels : List Label
  notes : List String
  deriving DecidableEq, Repr

end SignatureIndex
