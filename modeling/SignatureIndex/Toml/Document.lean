import SignatureIndex.Text.Lines
import SignatureIndex.Toml.Value

/-!
# TOML documents

A document is a row of statements, each on lines of its own: a key with its value, a header that
opens a table, or a header that adds a table to an array.  What may still be added where is kept in
three sets of places.  A place is *explicit* when a header or a dotted key has opened it; no header
may open it again.  It is *frozen* when a value has been given for it as a whole; nothing within it
may change.  What dotted keys have opened becomes explicit only at the next header, so that the same
section may go on adding to it.
-/

namespace SignatureIndex.Toml

/-- A document as far as it has been read. -/
structure Draft where
  fields : Fields
  /-- The place that keys are relative to. -/
  header : List String
  explicit : List (List String)
  frozen : List (List String)
  /-- Places that become explicit at the next header. -/
  pending : List (List String)

namespace Draft

def empty : Draft := ⟨[], [], [], [], []⟩

/-- What dotted keys have opened becomes explicit. -/
def settle (draft : Draft) : Draft :=
  { draft with explicit := draft.pending ++ draft.explicit, pending := [] }

def openTable (draft : Draft) (names : List String) : Option Draft :=
  if names ∈ draft.explicit ∨ leadsInto draft.frozen names then none
  else
    (alter true some names draft.fields).map fun fields =>
      { draft with fields := fields, header := names, explicit := names :: draft.explicit }

/-- Adds an empty table to an array of tables, which is made if it is missing. -/
def appendTable (name : String) (fields : Fields) : Option Fields :=
  match fields.get? name with
  | none => some (fields.put name (.array [.table []]))
  | some (.array items) => some (fields.put name (.array (items ++ [.table []])))
  | some _ => none

/-- Adds a table to the array of a header.  Nothing is settled about the new table yet. -/
def openItem (draft : Draft) (names : List String) : Option Draft :=
  if leadsInto draft.frozen names then none
  else
    let outside := fun (places : List (List String)) =>
      places.filter fun place => !names.isPrefixOf place
    (alter true (appendTable (names.getLast?.getD "")) names.dropLast draft.fields).map
      fun fields => { draft with
        fields := fields
        header := names
        explicit := names :: outside draft.explicit
        frozen := outside draft.frozen }

def assign (draft : Draft) (names : List String) (given : Datum) : Option Draft :=
  let openings := (List.range (names.length - 1)).map fun n => draft.header ++ names.take (n + 1)
  let place := draft.header ++ names
  -- A dotted key may not reach into a table that a header has opened.
  if openings.any (draft.explicit.contains ·) || leadsInto draft.frozen place.dropLast then none
  else
    (alter true (addField (names.getLast?.getD "") given) place.dropLast draft.fields).map
      fun fields =>
        { draft with
          fields := fields
          pending := openings ++ draft.pending
          frozen := if isContainer given then place :: draft.frozen else draft.frozen }

/-- Reads a key with its value, which takes at most so many steps. -/
def readAssignment (steps : Nat) (draft : Draft) (cs : List Char) :
    Except Flaw (Draft × List Char) := do
  let (names, cs) ← key cs
  match cs with
  | '=' :: rest => do
    let (given, cs) ← value steps nestingRoom (skipSpace rest)
    match draft.assign names given with
    | some draft => .ok (draft, cs)
    | none => .error ⟨.redefinition, cs⟩
  | _ => .error ⟨.equalsSign, cs⟩

/-- Reads a header, after its first bracket. -/
def readHeader (draft : Draft) (cs : List Char) : Except Flaw (Draft × List Char) := do
  let draft := draft.settle
  match cs with
  | '[' :: cs => do
    let (names, cs) ← key (skipSpace cs)
    match draft.openItem names, cs with
    | none, _ => .error ⟨.redefinition, cs⟩
    | some draft, ']' :: ']' :: rest => .ok (draft, rest)
    | some _, _ => .error ⟨.header, cs⟩
  | _ => do
    let (names, cs) ← key (skipSpace cs)
    match draft.openTable names, cs with
    | none, _ => .error ⟨.redefinition, cs⟩
    | some draft, ']' :: rest => .ok (draft, rest)
    | some _, _ => .error ⟨.header, cs⟩

/-- Reads what a line starts with, if there is anything but a comment. -/
def readStatement (steps : Nat) (draft : Draft) (cs : List Char) :
    Except Flaw (Draft × List Char) :=
  match cs with
  | [] => .ok (draft, [])
  | c :: rest =>
    if c = '\n' ∨ c = '#' then .ok (draft, cs)
    else if c = '[' then draft.readHeader rest
    else if isBareKeyChar c ∨ c = Text.doubleMark ∨ c = Text.apostrophe then
      draft.readAssignment steps cs
    else .error ⟨.statement, cs⟩

/-- Reads at most so many lines, with at most so many steps for each value. -/
def readLines (steps : Nat) : (most : Nat) → Draft → List Char → Except Flaw Draft
  | 0, draft, _ => .ok draft
  | most + 1, draft, cs => do
    let (draft, cs) ← draft.readStatement steps (skipSpace cs)
    let cs ← skipComment (skipSpace cs)
    match cs with
    | [] => .ok draft
    | '\n' :: cs => readLines steps most draft cs
    | cs => .error ⟨.endOfStatement, cs⟩

end Draft

def place (text rest : List Char) : String :=
  if rest.isEmpty then "end of document"
  else
    let before := text.take (text.length - rest.length)
    let line := before.count '\n' + 1
    let column := (before.reverse.takeWhile (· ≠ '\n')).length + 1
    s!"line {line}, column {column}"

/-- Why a document could not be read. -/
inductive Failure where
  /-- It is not valid; the detail says what is wrong, and where. -/
  | malformed (detail : String)
  | numeral (flaw : NumeralFlaw)
  | nesting

def Flaw.failure (text : List Char) (flaw : Flaw) : Failure :=
  match flaw.reason with
  | .longNumeral digits => .numeral (.tooLong Numeral.mostDigits digits)
  | .nesting => .nesting
  | reason => .malformed (reason.message ++ " (at " ++ place text flaw.rest ++ ")")

def parse (text : List Char) : Except Failure Fields :=
  let text := Text.joinCrLf text
  -- A character of a value takes two steps at most, one for the value and one for what holds it.
  match Draft.readLines (2 * (text.length + 1)) (text.length + 1) Draft.empty text with
  | .ok draft => .ok draft.fields
  | .error flaw => .error (flaw.failure text)

end SignatureIndex.Toml
