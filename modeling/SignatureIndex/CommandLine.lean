import SignatureIndex.CommandLine.Command
import SignatureIndex.Diagnostic.Renderer
import SignatureIndex.Text.ControlSequence

/-!
# The command line

A run of the program reads its own options, the name of a command, and the command with its
arguments, and then carries the command out.  What it comes to is an exit code, the text printed,
and the text complained: zero and no complaint but the log if all went well, two for a wrong use,
one for a problem, which is complained about as its diagnostic, and for a fault, which is not
complained about.  The log is kept however the run ends.  Apart from the log, neither text holds
control sequences.
-/

namespace SignatureIndex.CommandLine

/-- What a run of the program comes to. -/
structure Outcome where
  exitCode : Nat
  output : String
  complaints : String
  /-- What stopped the run, if that has no diagnostic. -/
  fault : Option Fault

def programName : String := "erlsym"

def version : String := "0.1.0"

def programUsage : String := "[OPTIONS] COMMAND [ARGS]..."

def programOptions : List OptionSpec :=
  [⟨"version", ["--version"], false⟩, ⟨"verbose", ["-v", "--verbose"], false⟩,
    CommandName.helpOption]

def usageRow (usage : String) : String := s!"Usage: {programName} {usage}\n"

/-- The outcome of a wrong use.  `called` is the program, with the command if there is one. -/
def misuse (called usage : String) (error : UsageError) : Outcome :=
  let help := if error.showsUsage then usageRow usage ++
      s!"Try '{called} --help' for help.\n\n" else ""
  ⟨2, "", Text.plain (help ++ s!"Error: {error.message}\n"), none⟩

def help (usage : String) : Outcome := ⟨0, usageRow usage, "", none⟩

/-- The outcome that options ask for which leave nothing else to do. -/
def shortcut? (usage : String) (arguments : Arguments) : Option Outcome :=
  arguments.given.findSome? fun given =>
    if given.key = "version" then some ⟨0, s!"{programName}, version {version}\n", "", none⟩
    else if given.key = "help" then some (help usage)
    else none

/-- The least level that is logged when it was asked so many times to be verbose. -/
def leastLevel? : Nat → Option Level
  | 0 => none
  | 1 => some .info
  | _ => some .debug

def log (least : Option Level) (events : List Event) : String :=
  match least with
  | none => ""
  | some least => String.join ((events.filterMap (Event.row? least)).map (· ++ "\n"))

/-- What a command that was carried out comes to.  What it printed and logged before it failed
stays. -/
def conclude (w : World) (least : Option Level) (done : Traced Unit) : Outcome :=
  let output := Text.plain (String.join (done.events.filterMap Event.printed?))
  let logged := log least done.events
  match done.outcome with
  | .ok () => ⟨0, output, logged, none⟩
  | .error (.problem problem) =>
    let shown := ((Renderer.new false).render w problem.diagnostic).1
    ⟨1, output, logged ++ Text.plain (shown ++ "\n"), none⟩
  | .error fault => ⟨1, output, logged, some fault⟩

def runCommand (w : World) (least : Option Level) (name : CommandName) (arguments : List String) :
    Outcome :=
  let called := s!"{programName} {name.written}"
  match readArguments name.options true arguments with
  | .error e => misuse called name.usage e
  | .ok arguments =>
    match shortcut? name.usage arguments with
    | some outcome => outcome
    | none =>
      match Command.ofArguments w name arguments with
      | .error (.usage e) => misuse called name.usage e
      | .error (.fault fault) => ⟨1, "", "", some fault⟩
      | .ok command => conclude w least (command.run w)

/-- The outcome of a name that is no command.  If it looks like an option it is read as one
first. -/
def unknownCommand (name : String) (arguments : List String) : Outcome :=
  let unknown := misuse programName programUsage
    (.commandUnknown name (similarNames name CommandName.known))
  if isOption name then
    match readArguments programOptions false (name :: arguments) with
    | .error e => misuse programName programUsage e
    | .ok arguments => (shortcut? programUsage arguments).getD unknown
  else unknown

def run (w : World) (arguments : List String) : Outcome :=
  if arguments.isEmpty then { help programUsage with exitCode := 2 }
  else
    match readArguments programOptions false arguments with
    | .error e => misuse programName programUsage e
    | .ok read =>
      match shortcut? programUsage read, read.rest with
      | some outcome, _ => outcome
      | none, [] => misuse programName programUsage .commandMissing
      | none, name :: arguments =>
        match CommandName.ofString? name with
        | some command => runCommand w (leastLevel? (read.count "verbose")) command arguments
        | none => unknownCommand name arguments

end SignatureIndex.CommandLine
