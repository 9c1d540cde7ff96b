import SignatureIndex.Diagnostic.Basic
import SignatureIndex.Problem.Source
import SignatureIndex.Ref

/-!
# Problems

Everything that can go wrong while signatures are gathered or looked up, told by its cause.  Each
cause has a code, a message, the place it is about if there is one, and notes; together they make
the diagnostic that a user sees.

Not everything that stops an operation is a problem of this kind.  A `Fault` is either a problem or
one of the few refusals that have no diagnostic.
-/

namespace SignatureIndex

/-- What can be looked up. -/
inductive Symbol where
  | function (ref : Ref)
  | type (ref : Ref)
  | operator (key : OperatorKey)
  deriving DecidableEq, Repr

namespace Symbol

def kind : Symbol → String
  | function _ => "function"
  | type _ => "type"
  | operator _ => "operator"

def subject : Symbol → String
  | function ref | type ref => ref.format
  | operator key => key.format

/-- The words for a symbol that was never declared. -/
def undefinedMessage : Symbol → String
  | function ref => s!"function {ref.format} undefined"
  | type ref => s!"type {ref.format} undefined"
  | operator key => s!"operator '{key.name}' undefined for {key.arity} arguments"

end Symbol

/-- What is wrong with a directory whose children are wanted. -/
inductive DirectoryFlaw where
  | missing
  | notDirectory
  | notListable
  deriving DecidableEq, Repr

def DirectoryFlaw.message : DirectoryFlaw → String
  | .missing => "does not exist"
  | .notDirectory => "is not a directory"
  | .notListable => "is not listable"

/-- Why the runtime did not tell where its libraries are. -/
inductive DiscoveryProblem where
  /-- No executable of the usual name can be found. -/
  | noExecutable
  | executableMissing (executable : String)
  | noAnswer (executable : String) (limit : Datum)
  | badAnswer (executable : String) (exitCode : Int) (complaints : List String)

/-- Why a catalog cannot be used. -/
inductive CatalogProblem where
  | unknown (name : String)
  | unreadable (name detail : String)
  | moduleName
  | sections
  | notTable (part : String) (index : Nat)
  | missingKey (part : String) (index : Nat) (key : String)
  | emptyName (part : String) (index : Nat)
  | badArity (part : String) (index : Nat) (name : String)
  | badType (part : String) (index : Nat) (name : String)
  | badTyvars (part : String) (index : Nat) (name : String)
  deriving DecidableEq, Repr

def CatalogProblem.message : CatalogProblem → String
  | unknown name => "no bundled catalog named " ++ Text.quoted name
  | unreadable name detail => "catalog " ++ Text.quoted name ++ s!" is not valid TOML: {detail}"
  | moduleName => "module must be a non-empty string"
  | sections => "'function' and 'operator' must be arrays of tables"
  | notTable part index => s!"{part}[{index}]: expected a table"
  | missingKey part index key => s!"{part}[{index}]: missing key " ++ Text.quoted key
  | emptyName part index => s!"{part}[{index}]: name must be a non-empty string"
  | badArity part index name =>
    s!"{part}[{index}]: arity of {name} must be a non-negative integer"
  | badType part index name => s!"{part}[{index}]: type of {name} must be a string"
  | badTyvars part index name =>
    s!"{part}[{index}]: tyvars of {name} must be a list of strings"

/-- Why settings cannot be used. -/
inductive SettingsProblem where
  | unreadable (path : Path) (detail : String)
  | notTable (part : String)
  | wrongType (part field expected : String)
  | emptyField (part field : String)
  | unknownKeys (part : String) (keys : List String)
  deriving DecidableEq, Repr

def SettingsProblem.message : SettingsProblem → String
  | unreadable path detail => s!"{path} is not valid TOML: {detail}"
  | notTable part => s!"[{part}] must be a table"
  | wrongType part field expected => s!"{part}.{field} must be a {expected}"
  | emptyField part field => s!"{part}.{field} must not be empty"
  | unknownKeys part keys => s!"unknown key(s) in [{part}]: " ++ ", ".intercalate keys

/-- Whatever can go wrong and has a diagnostic. -/
inductive Problem where
  | undefined (symbol : Symbol) (span : Span)
  | moduleNotFound (moduleName : String) (searched : List Path)
  | projectRootNotFound (start : Path) (marker : String)
  | dependencyDirectory (path : Path) (flaw : DirectoryFlaw)
  | libraryRoot (path : Path) (flaw : DirectoryFlaw)
  | discovery (problem : DiscoveryProblem)
  | source (problem : SourceProblem)
  | catalog (problem : CatalogProblem)
  | settings (problem : SettingsProblem)

namespace DiscoveryProblem

def message : DiscoveryProblem → String
  | noExecutable => "no erl executable found on PATH"
  | executableMissing executable => s!"erl executable '{executable}' not found"
  | noAnswer executable limit => s!"'{executable}' did not answer within {limit.quote}s"
  | badAnswer executable exitCode _ =>
    s!"'{executable}' failed to report its library directory (exit {exitCode})"

def notes : DiscoveryProblem → List String
  | noExecutable => ["set runtime.lib_dir in erlsym.toml or pass --lib-dir"]
  | badAnswer _ _ complaints => complaints
  | _ => []

end DiscoveryProblem

namespace Problem

def code : Problem → String
  | undefined _ _ => "E101"
  | moduleNotFound _ _ => "E201"
  | projectRootNotFound _ _ => "E202"
  | dependencyDirectory _ _ => "E203"
  | libraryRoot _ _ => "E204"
  | discovery _ => "E205"
  | source _ => "E301"
  | catalog _ => "E401"
  | settings _ => "E501"

def message : Problem → String
  | undefined symbol _ => symbol.undefinedMessage
  | moduleNotFound moduleName searched =>
    s!"module {moduleName} not found in any of {searched.length} search paths"
  | projectRootNotFound start _ => s!"no project root above {start}"
  | dependencyDirectory path flaw => s!"dependency directory {path} {flaw.message}"
  | libraryRoot path flaw => s!"runtime library root {path} {flaw.message}"
  | discovery problem => problem.message
  | source problem => problem.message
  | catalog problem => problem.message
  | settings problem => problem.message

def span? : Problem → Option Span
  | undefined _ span => some span
  | source problem => problem.span?
  | _ => none

def notes : Problem → List String
  | moduleNotFound _ searched => searched.map fun path => s!"searched {path}"
  | projectRootNotFound _ marker =>
    [s!"looked for a '{marker}' directory in every parent directory"]
  | discovery problem => problem.notes
  | source problem => problem.notes
  | _ => []

def diagnostic (problem : Problem) : Diagnostic where
  severity := .error
  code := problem.code
  message := problem.message
  labels := problem.span?.toList.map fun span => ⟨span, ""⟩
  notes := problem.notes

end Problem

/-- What is wrong with a limit of time. -/
inductive LimitFlaw where
  /-- It is no number. -/
  | noNumber
  /-- It is the number that is none. -/
  | undefined
  | tooLarge
  deriving DecidableEq, Repr

def LimitFlaw.message : LimitFlaw → String
  | .noNumber => "the limit is no number"
  | .undefined => "cannot convert float NaN to integer"
  | .tooLarge => "timeout is too large"

/-- Whatever can stop an operation. -/
inductive Fault where
  | problem (problem : Problem)
  | file (error : FileError)
  /-- Bytes stand for no text, or a text has no bytes that stand for it. -/
  | undecodable
  | reference (flaw : ReferenceFlaw)
  /-- A number has too many digits. -/
  | numeral (flaw : NumeralFlaw)
  | limit (flaw : LimitFlaw)
  /-- The values of a document, or the files that include one another, are nested too deeply. -/
  | nesting
  /-- Something that is no declaration was to be folded into a table. -/
  | notADeclaration
  /-- The home directory that a path starts from is not known. -/
  | unknownHome

/-- What it amounts to that a source file cannot be read.  A path that no file can have is no
problem with a source. -/
def Fault.ofUnreadable (path : Path) : FileError → Fault
  | .nullCharacter => .file .nullCharacter
  | reason => .problem (.source (.unreadable path reason))

/-- The words for whatever stopped an operation. -/
def Fault.message : Fault → String
  | .problem cause => cause.message
  | .file error => error.message
  | .undecodable => "the text does not fit its encoding"
  | .reference flaw => flaw.message
  | .numeral flaw => flaw.message
  | .limit flaw => flaw.message
  | .nesting => "the nesting is too deep"
  | .notADeclaration => "what was to be folded is no declaration"
  | .unknownHome => "the home directory cannot be determined"

end SignatureIndex
