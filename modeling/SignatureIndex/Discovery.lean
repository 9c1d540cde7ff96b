import SignatureIndex.Text.Blank
import SignatureIndex.Text.Lines
import SignatureIndex.Traced
import SignatureIndex.World.Walk

/-!
# Discovery of the runtime's libraries

When nobody has said where the runtime's libraries are, the runtime is run and asked.  Its answer is
what it writes, without the blanks around it; a runtime that is missing, that takes too long, that
fails, or that answers nothing is a problem.  One that cannot be started, or that writes what is no
text, is a fault.
-/

namespace SignatureIndex

namespace World

def executableAt (w : World) (place : Except FileError Location) : Except FileError Executable :=
  match place with
  | .error e => .error e
  | .ok location =>
    match w.node? location with
    | some (.program executable) => .ok executable
    | some _ => .error .permissionDenied
    | none => .error .notFound

/-- The program that is started at a place. -/
def programAt (w : World) (place : Except FileError Location) : Except FileError Program :=
  (w.executableAt place).bind Executable.start

/-- The program that a name without a slash stands for: the first that can be started in the
directories of programs.  What stood in the way in one of them is reported only if nothing better is
found. -/
def programNamed (w : World) (name : String) : Except FileError Program :=
  let found := w.programDirectories.map fun directory =>
      w.programAt (w.locate (directory.child name))
  match found.findSome? Except.toOption, found.findSome? obstacle with
  | some program, _ => .ok program
  | none, some e => .error e
  | none, none => .error .notFound
where
  /-- Why a place could not be used, unless nothing is there. -/
  obstacle : Except FileError Program → Option FileError
    | .ok _ | .error .notFound | .error .notADirectory => none
    | .error e => some e

def program (w : World) (name : String) : Except FileError Program :=
  if Path.hasNull name then .error .nullCharacter
  else if name.toList.contains '/' then w.programAt (w.locateText name) else w.programNamed name

/-- The path of the first executable of a name in the directories of programs. -/
def which? (w : World) (name : String) : Option String :=
  (w.programDirectories.map (·.child name)).findSome? fun path =>
    match w.executableAt (w.locate path) with
    | .ok _ => some (toString path)
    | .error _ => none

end World

namespace Discovery

def runtimeName : String := "erl"

def question : List String :=
  ["-noshell", "-eval", "io:format(\"~s\", [code:lib_dir()]), halt()."]

/-- The most milliseconds that can be waited for. -/
def longestWait : Nat := 2147483647

/-- The least number that is too large to be taken for a time at all. -/
def beyondTime : Nat := Nat.pow 2 1024 - Nat.pow 2 970

/-- Whether a program that is busy for some seconds has not ended when so many seconds are up. -/
def isLateAfter (busySeconds : Nat) (limit : Int) : Except LimitFlaw Bool :=
  if beyondTime ≤ limit.natAbs ∨ longestWait < 1000 * limit then .error .tooLarge
  else .ok (limit ≤ busySeconds)

/-- The seconds that a program takes at least to start and to end. -/
def shortestRun : Float := 0.001

/-- Whether a program that is busy for some seconds has not ended when a time is up.  Without a
limit there is always time. -/
def isLate (busySeconds : Nat) : Datum → Except LimitFlaw Bool
  | .null => .ok false
  | .boolean limit => isLateAfter busySeconds (if limit then 1 else 0)
  | .integer limit => isLateAfter busySeconds limit
  | .float limit =>
    if limit.isNaN then .error .undefined
    else if Float.ofNat longestWait < limit * 1000 then .error .tooLarge
    else .ok (limit < Float.ofNat busySeconds + shortestRun)
  | _ => .error .noNumber

/-- A text as it comes from a program, with its newlines unified. -/
def received (text : String) : List Char := Text.unifyNewlines text.toList

def complaints (text : String) : List String :=
  (((Text.lines (received text)).filter fun line => !Text.isAllBlank line).take 5).map
    String.ofList

/-- What a program answers with the code that it ends with, what it writes and what it complains. -/
def answer (executable : String) (exitCode : Int) (output complaint : String) :
    Except DiscoveryProblem Path :=
  let text := Text.trim (received output)
  if exitCode ≠ 0 ∨ text.isEmpty then
    .error (.badAnswer executable exitCode (complaints complaint))
  else .ok (Path.ofString (String.ofList text))

def ask (w : World) (executable : String) (limit : Datum) : Traced Path :=
  match w.program executable with
  | .error .notFound => Traced.problem (.discovery (.executableMissing executable))
  | .error e => Traced.fail (.file e)
  | .ok program => do
    Traced.ran question
    match isLate program.busySeconds limit, program.output, program.complaints with
    | .error flaw, _, _ => Traced.fail (.limit flaw)
    | .ok true, _, _ => Traced.problem (.discovery (.noAnswer executable limit))
    | .ok false, some output, some complaint =>
      match answer executable program.exitCode output complaint with
      | .error problem => Traced.problem (.discovery problem)
      | .ok path => pure path
    | .ok false, _, _ => Traced.fail .undecodable

/-- How long the runtime may take, in seconds, when nothing else is said. -/
def usualLimit : Datum := .integer 10

/-- The directory of the runtime's libraries.  Without an executable the usual one is looked for. -/
def libraryDirectory (w : World) (executable : Option String) (limit : Datum) : Traced Path :=
  let chosen :=
    match executable with
    | none | some "" => w.which? runtimeName
    | some name => some name
  match chosen with
  | some name => ask w name limit
  | none => Traced.problem (.discovery .noExecutable)

end Discovery

end SignatureIndex
