import SignatureIndex.CommandLine.Check
import SignatureIndex.Catalog.Bundle
import SignatureIndex.Resolver
import SignatureIndex.Text.ControlSequence

/-!
# Commands

The four things that can be asked for: the search paths of a project, where a module is, the type of
a symbol, and the list of built-ins.  A command is read from its arguments, which may go wrong in
the ways of a usage error, and then carried out, which prints row by row.
-/

namespace SignatureIndex.CommandLine

/-- What is looked up by a written reference. -/
inductive Subject where
  | function (ref : Ref)
  | type (ref : Ref)
  | operator (key : OperatorKey)

def Subject.symbol : Subject → Symbol
  | .function ref => .function ref
  | .type ref => .type ref
  | .operator key => .operator key

/-- What is asked for. -/
inductive Command where
  | paths (start : String) (libraryDirectory : Option String)
  | locate (moduleName start : String) (libraryDirectory : Option String)
  | lookup (subject : Subject) (modules : List String) (start : String)
      (libraryDirectory : Option String)
  | builtins (operators : Bool)

/-- The names of the commands. -/
inductive CommandName where
  | paths
  | locate
  | lookup
  | builtins
  deriving DecidableEq, Repr

namespace CommandName

def ofString? : String → Option CommandName
  | "paths" => some .paths
  | "locate" => some .locate
  | "lookup" => some .lookup
  | "builtins" => some .builtins
  | _ => none

def known : List String := ["paths", "locate", "lookup", "builtins"]

/-- How a command is used: its name and the shape of its arguments. -/
def usage : CommandName → String
  | .paths => "paths [OPTIONS] [PATH]"
  | .locate => "locate [OPTIONS] MODULE"
  | .lookup => "lookup [OPTIONS] REF"
  | .builtins => "builtins [OPTIONS]"

def written : CommandName → String
  | .paths => "paths"
  | .locate => "locate"
  | .lookup => "lookup"
  | .builtins => "builtins"

def libraryOption : OptionSpec := ⟨"libraries", ["--lib-dir"], true⟩

def startOption : OptionSpec := ⟨"start", ["--from"], true⟩

def helpOption : OptionSpec := ⟨"help", ["--help"], false⟩

def options : CommandName → List OptionSpec
  | .paths => [libraryOption, helpOption]
  | .locate => [startOption, libraryOption, helpOption]
  | .lookup =>
    [⟨"modules", ["-m", "--module"], true⟩, ⟨"kind", ["--kind"], true⟩, startOption, libraryOption,
      helpOption]
  | .builtins => [⟨"operators", ["--operators"], false⟩, helpOption]

end CommandName

/-- Checks that a written path is no file and may be read if it is there, and, if it must be there,
that it is there. -/
def checkDirectory (w : World) (hint : String) (mustExist : Bool) (text : String) :
    Except Refusal Unit :=
  let fails := fun (reason : String) =>
    Except.error (.usage (.badValue hint ("Directory " ++ Text.quoted text ++ " " ++ reason)))
  match w.locateText text with
  | .error .nullCharacter => .error (.fault (.file .nullCharacter))
  | .error _ => if mustExist then fails "does not exist." else .ok ()
  | .ok place =>
    if (w.node? place).any Node.isFile then fails "is a file."
    else if w.system.refuses .read place then fails "is not readable."
    else .ok ()

def kinds : List String := ["function", "type", "operator"]

def checkKind (text : String) : Except Refusal Unit :=
  if kinds.contains text then .ok ()
  else
    .error (.usage (.badValue "'--kind'"
      (Text.quoted text ++ " is not one of " ++ ", ".intercalate (kinds.map Text.quoted) ++ ".")))

def required (name : String) (given : Option String) : Except Refusal Unit :=
  if given.isSome then .ok () else .error (.usage (.argumentMissing name))

def readSubject (kind text : String) : Except Refusal Subject :=
  let subject : Except ReferenceFlaw Subject :=
    if kind = "operator" then (OperatorKey.parse text).map .operator
    else if kind = "type" then (Ref.parse text).map .type
    else (Ref.parse text).map .function
  match subject with
  | .ok subject => .ok subject
  | .error flaw => .error (.usage (.badValue "REF" flaw.message))

namespace Command

/-- The check of the directory of libraries, which need not be there. -/
def libraryCheck (w : World) (arguments : Arguments) : Check :=
  ⟨"libraries",
    ((arguments.last? "libraries").map (checkDirectory w "'--lib-dir'" false)).getD (.ok ())⟩

def startCheck (w : World) (arguments : Arguments) : Check :=
  ⟨"start", checkDirectory w "'--from'" true ((arguments.last? "start").getD ".")⟩

/-- Fails if there are more arguments than a command takes. -/
def noFurther (taken : Nat) (arguments : Arguments) : Except Refusal Unit :=
  match arguments.rest.drop taken with
  | [] => .ok ()
  | further => .error (.usage (.argumentsUnexpected further))

/-- The directory of libraries that was given; an empty text gives none. -/
def givenLibraries (arguments : Arguments) : Option String :=
  (arguments.last? "libraries").filter fun text => !text.isEmpty

def ofArguments (w : World) (name : CommandName) (arguments : Arguments) :
    Except Refusal Command := do
  let first := arguments.rest.head?
  let start := (arguments.last? "start").getD "."
  let ordered := inOrder arguments.given
  match name with
  | .paths =>
    let path := first.getD "."
    runChecks (ordered ["path"]
      [⟨"path", checkDirectory w "'[PATH]'" true path⟩, libraryCheck w arguments])
    noFurther 1 arguments
    .ok (.paths path (givenLibraries arguments))
  | .locate =>
    runChecks (ordered ["module"]
      [⟨"module", required "MODULE" first⟩, startCheck w arguments, libraryCheck w arguments])
    noFurther 1 arguments
    .ok (.locate (first.getD "") start (givenLibraries arguments))
  | .lookup =>
    let kind := (arguments.last? "kind").getD "function"
    runChecks (ordered ["ref"]
      [⟨"ref", required "REF" first⟩, ⟨"kind", checkKind kind⟩, startCheck w arguments,
        libraryCheck w arguments])
    noFurther 1 arguments
    let subject ← readSubject kind (first.getD "")
    .ok (.lookup subject (arguments.all "modules") start (givenLibraries arguments))
  | .builtins =>
    noFurther 0 arguments
    .ok (.builtins (arguments.count "operators" != 0))

def askedSpan : Span := ⟨"<command line>", 0, 0, 0, 0⟩

/-- Whether a text can be printed as it is shown. -/
def isPrintable (w : World) (text : String) : Bool :=
  (Text.plain text).toList.all w.system.isWritable

def printRow (w : World) (text : String) : Traced Unit :=
  if isPrintable w text then Traced.print (text ++ "\n") else Traced.fail .undecodable

/-- Prints what has been written, each on a row and after the same text.  The rows before one that
could not be written are printed all the same. -/
def printWritten (w : World) (before : String) : List (Except NumeralFlaw String) → Traced Unit
  | [] => pure ()
  | .error flaw :: _ => Traced.fail (.numeral flaw)
  | .ok written :: rows => do
    printRow w (before ++ written)
    printWritten w before rows

/-- Prints signatures, each on a row and after the same text. -/
def printSignatures (w : World) (before : String) (signatures : List Signature) : Traced Unit :=
  printWritten w before (signatures.map Signature.write)

/-- Prints what a subject is declared as in a table. -/
def answer (w : World) (table : SymbolTable) (subject : Subject) : Traced Unit :=
  match table.lookup subject.symbol askedSpan with
  | .ok scheme => printRow w (toString scheme)
  | .error problem => Traced.problem problem

/-- The path that a command starts from, which decides whose settings hold. -/
def startPath? : Command → Option Path
  | .paths start _ | .locate _ start _ | .lookup _ _ start _ => some (Path.ofString start)
  | .builtins _ => none

/-- Carries a command out as settings say. -/
def carryOut (w : World) (settings : Settings) : Command → Traced Unit
  | .paths start libraryDirectory => do
    let resolver ← Resolver.ofSettings w settings (libraryDirectory.map Path.ofString)
    let paths ← resolver.searchPaths w (Path.ofString start)
    paths.forM fun path => printRow w (toString path)
  | .locate moduleName start libraryDirectory => do
    let resolver ← Resolver.ofSettings w settings (libraryDirectory.map Path.ofString)
    let paths ← resolver.searchPaths w (Path.ofString start)
    let location ← SearchPath.locateModule w paths moduleName resolver.layout
    printRow w s!"source:  {location.source}"
    printRow w s!"include: {location.includes}"
  | .lookup subject modules start libraryDirectory => do
    let catalog ← Traced.ofExcept (Catalog.load w settings.catalog)
    let seeded := SymbolTable.ofCatalog catalog
    let table ←
      if modules.isEmpty then pure seeded
      else do
        let resolver ← Resolver.ofSettings w settings (libraryDirectory.map Path.ofString)
        resolver.resolve w seeded (Path.ofString start) modules
    answer w table subject
  | .builtins operators => do
    let catalog ← Traced.ofExcept (Catalog.load w settings.catalog)
    if operators then printSignatures w "" catalog.operators
    else printSignatures w (catalog.moduleName ++ ":") catalog.functions

def run (w : World) (command : Command) : Traced Unit := do
  let settings ← Traced.ofExcept (Settings.loadFor w command.startPath?)
  command.carryOut w settings

end Command

end SignatureIndex.CommandLine
