import SignatureIndex.CommandLine.Similar
import SignatureIndex.Text.Quoted

/-!
# Arguments

The arguments of a command are options, each perhaps with a value, and the rest.  A long option has
its value after an equals sign or in the next argument; short options may be run together, and the
first of them that takes a value takes the rest of the argument or the next one.  Two dashes alone
end the options.
-/

namespace SignatureIndex.CommandLine

/-- An option that a command knows. -/
structure OptionSpec where
  /-- What the option sets. -/
  key : String
  /-- How it is written. -/
  names : List String
  takesValue : Bool

/-- A use of an option: what it sets, and its value if it takes one. -/
structure Given where
  key : String
  value : String

/-- The arguments of a command, taken apart. -/
structure Arguments where
  given : List Given
  rest : List String

/-- What can be wrong with how a command is used. -/
inductive UsageError where
  | unknownOption (name : String) (similar : List String)
  | valueMissing (name : String)
  | valueUnwanted (name : String)
  | badValue (hint reason : String)
  | argumentMissing (name : String)
  | argumentsUnexpected (given : List String)
  | commandMissing
  | commandUnknown (name : String) (similar : List String)

/-- The names that may have been meant, if there are any. -/
def hint : List String → String
  | [] => ""
  | [only] => " Did you mean " ++ Text.quoted only ++ "?"
  | several => " (Did you mean one of: " ++ ", ".intercalate (several.map Text.quoted) ++ "?)"

def UsageError.message : UsageError → String
  | unknownOption name similar => "No such option " ++ Text.quoted name ++ "." ++ hint similar
  | valueMissing name => "Option " ++ Text.quoted name ++ " requires an argument."
  | valueUnwanted name => "Option " ++ Text.quoted name ++ " does not take a value."
  | badValue hint reason => s!"Invalid value for {hint}: {reason}"
  | argumentMissing name => s!"Missing argument '{name}'."
  | argumentsUnexpected given =>
    let plural := if given.length = 1 then "" else "s"
    s!"Got unexpected extra argument{plural} (" ++ " ".intercalate given ++ ")"
  | commandMissing => "Missing command."
  | commandUnknown name similar => "No such command " ++ Text.quoted name ++ "." ++ hint similar

/-- Whether the usage of the command is shown together with the message. -/
def UsageError.showsUsage : UsageError → Bool
  | valueMissing _ | valueUnwanted _ => false
  | _ => true

/-- Whether a name of an option has two characters, a dash and a letter. -/
def isShort (name : String) : Bool := name.length == 2

def optionNamed? (options : List OptionSpec) (name : String) : Option OptionSpec :=
  options.find? fun option => option.names.contains name

/-- The names of options that are not short. -/
def longNames (options : List OptionSpec) : List String :=
  (options.flatMap OptionSpec.names).filter fun name => !isShort name

/-- What an argument with options in it gives, and the option whose value is to come in the next
argument, as it was written. -/
structure Cluster where
  given : List Given
  awaiting : Option (OptionSpec × String)

def readShort (options : List OptionSpec) : List Char → Except UsageError Cluster
  | [] => .ok ⟨[], none⟩
  | c :: cs =>
    let name := String.ofList ['-', c]
    match optionNamed? options name with
    | none => .error (.unknownOption name [])
    | some option =>
      if option.takesValue then
        -- The value is the rest of the argument, or else the next argument.
        if cs.isEmpty then .ok ⟨[], some (option, name)⟩
        else .ok ⟨[⟨option.key, String.ofList cs⟩], none⟩
      else
        match readShort options cs with
        | .error e => .error e
        | .ok cluster => .ok { cluster with given := ⟨option.key, ""⟩ :: cluster.given }

def readOption (options : List OptionSpec) (argument : String) : Except UsageError Cluster :=
  let chars := argument.toList
  let name := String.ofList (chars.takeWhile (· ≠ '='))
  let value := if chars.contains '=' then some ((chars.dropWhile (· ≠ '=')).drop 1) else none
  match (optionNamed? options name).filter fun _ => !isShort name with
  | some option =>
    match option.takesValue, value with
    | true, some value => .ok ⟨[⟨option.key, String.ofList value⟩], none⟩
    | true, none => .ok ⟨[], some (option, name)⟩
    | false, some _ => .error (.valueUnwanted name)
    | false, none => .ok ⟨[⟨option.key, ""⟩], none⟩
  | none =>
    if chars.take 2 = ['-', '-'] then
      .error (.unknownOption name (similarNames name (longNames options)))
    else readShort options (chars.drop 1)

/-- Whether an argument is an option: a dash and something after it. -/
def isOption (argument : String) : Bool :=
  argument.toList.head? == some '-' && 1 < argument.length

/-- Takes arguments apart.  `mixed` says whether options may come after other arguments. -/
def readArguments (options : List OptionSpec) (mixed : Bool) :
    List String → Except UsageError Arguments
  | [] => .ok ⟨[], []⟩
  | argument :: arguments =>
    if argument = "--" then .ok ⟨[], arguments⟩
    else if isOption argument then
      match readOption options argument with
      | .error e => .error e
      | .ok cluster =>
        match cluster.awaiting, arguments with
        | none, arguments => do
          let after ← readArguments options mixed arguments
          .ok { after with given := cluster.given ++ after.given }
        | some (_, name), [] => .error (.valueMissing name)
        | some (option, _), value :: arguments => do
          let after ← readArguments options mixed arguments
          .ok { after with given := cluster.given ++ ⟨option.key, value⟩ :: after.given }
    else if mixed then do
      let after ← readArguments options mixed arguments
      .ok { after with rest := argument :: after.rest }
    else .ok ⟨[], argument :: arguments⟩

namespace Arguments

def last? (arguments : Arguments) (key : String) : Option String :=
  ((arguments.given.filter (·.key == key)).getLast?).map Given.value

/-- All values that were given for a key, in order. -/
def all (arguments : Arguments) (key : String) : List String :=
  (arguments.given.filter (·.key == key)).map Given.value

def count (arguments : Arguments) (key : String) : Nat :=
  arguments.given.countP (·.key == key)

end Arguments

end SignatureIndex.CommandLine
