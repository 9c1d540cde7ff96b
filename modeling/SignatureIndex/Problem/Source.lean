import SignatureIndex.Source.File
import SignatureIndex.World.Basic
import SignatureIndex.Text.Quoted

/-!
# Problems with source files

What can be wrong with a source file, with a file that it includes, or with the text of one of its
declarations.
-/

namespace SignatureIndex

/-- What the text of a declaration should have had. -/
inductive Expectation where
  | functionName
  | typeName
  | balancedBrackets
  | typeMark
  deriving DecidableEq, Repr

def Expectation.message : Expectation → String
  | .functionName => "expected a function name"
  | .typeName => "expected a type name"
  | .balancedBrackets => "unbalanced brackets"
  | .typeMark => "expected '::'"

/-- A problem with a source file. -/
inductive SourceProblem where
  | unreadable (path : Path) (reason : FileError)
  | undecodable (path : Path) (encoding : Encoding) (span : Span)
  /-- A string or quoted atom is never closed. -/
  | openQuote (span : Span)
  /-- The last form has no dot. -/
  | openForm (span : Span)
  | malformedInclude (kind : String) (span : Span)
  | includeNotFound (name : String) (searched : List Path) (span : Span)
  | malformed (kind : String) (missed : Expectation) (span : Span)
  | parameterNotVariable (parameter typeName : String) (span : Span)
  deriving DecidableEq, Repr

namespace SourceProblem

def message : SourceProblem → String
  | unreadable path reason => s!"cannot read {path}: " ++ reason.message
  | undecodable path encoding _ => s!"{path} is not valid " ++ encoding.name
  | openQuote _ => "unterminated string or quoted atom"
  | openForm _ => "form is not terminated by '.'"
  | malformedInclude kind _ => s!"malformed -{kind} attribute"
  | includeNotFound name _ _ => "include file " ++ Text.quoted name ++ " not found"
  | malformed kind missed _ => s!"malformed -{kind} attribute: " ++ missed.message
  | parameterNotVariable parameter typeName _ =>
    "type parameter " ++ Text.quoted parameter ++ s!" of {typeName} is not a variable"

def span? : SourceProblem → Option Span
  | unreadable _ _ => none
  | undecodable _ _ span | openQuote span | openForm span | malformedInclude _ span
  | includeNotFound _ _ span | malformed _ _ span | parameterNotVariable _ _ span => some span

def notes : SourceProblem → List String
  | includeNotFound _ searched _ => searched.map fun path => s!"searched {path}"
  | _ => []

end SourceProblem

end SignatureIndex
