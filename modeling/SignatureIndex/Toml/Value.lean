import SignatureIndex.Toml.Scalar

/-!
# The values of a TOML document

Arrays and inline tables hold values, so reading a value may have to read others first.  Each value
takes at least one character, which bounds how many have to be read.  Apart from that, values may
only be nested to a certain depth: an array takes two steps of the room that is left, an inline
table three.

An inline table is complete once it is closed.  Within it, a dotted key makes the tables on its way;
a table or an array that was given as a value cannot be added to.
-/

namespace SignatureIndex.Toml

/-- Changes the table that a row of names leads to, from some fields on.  Tables that are missing on
the way are made.  Where an array of tables stands, its last table is meant if `lists` says so. -/
def alter (lists : Bool) (change : Fields → Option Fields) : List String → Fields → Option Fields
  | [], fields => change fields
  | name :: names, fields =>
    match fields.get? name with
    | none => (alter lists change names []).map fun inner => fields.put name (.table inner)
    | some (.table inner) =>
      (alter lists change names inner).map fun inner => fields.put name (.table inner)
    | some (.array items) =>
      if lists then
        match items.getLast? with
        | some (.table inner) =>
          (alter lists change names inner).map fun inner =>
            fields.put name (.array (items.dropLast ++ [.table inner]))
        | _ => none
      else none
    | some _ => none

/-- Adds a field that must not be there yet. -/
def addField (name : String) (value : Datum) (fields : Fields) : Option Fields :=
  if (fields.get? name).isSome then none else some (fields.put name value)

/-- Whether a value is a container, which nothing may be added to once it has been given. -/
def isContainer : Datum → Bool
  | .array _ | .table _ => true
  | _ => false

def leadsInto (places : List (List String)) (names : List String) : Bool :=
  places.any fun place => place.isPrefixOf names

/-- Adds a value under a key of an inline table that has come so far. -/
def addInline (closed : List (List String)) (fields : Fields) (names : List String)
    (value : Datum) : Option Fields :=
  if leadsInto closed names then none
  else alter false (addField (names.getLast?.getD "") value) names.dropLast fields

/-- The room that there is for nested values. -/
def nestingRoom : Nat := 988

/-- The least room that a value with others in it needs. -/
def leastRoom : Nat := 4

mutual

/-- Reads a value in at most so many steps, with some room for nested values. -/
def value (most room : Nat) (cs : List Char) : Except Flaw (Datum × List Char) :=
  match most with
  | 0 => .error ⟨.value, cs⟩
  | most + 1 =>
    match cs with
    | [] => .error ⟨.value, cs⟩
    | c :: rest =>
      if c = Text.doubleMark ∨ c = Text.apostrophe then
        if rest.take 2 = [c, c] then do
          let (text, rest) ← blockString c (rest.drop 2)
          .ok (.text text, rest)
        else do
          let (text, rest) ← lineString c rest
          .ok (.text text, rest)
      else if cs.take 4 = ['t', 'r', 'u', 'e'] then .ok (.boolean true, cs.drop 4)
      else if cs.take 5 = ['f', 'a', 'l', 's', 'e'] then .ok (.boolean false, cs.drop 5)
      else if c = '[' then
        if room < leastRoom then .error ⟨.nesting, cs⟩
        else do
          let (items, rest) ← arrayItems most (room - 2) rest
          .ok (.array items, rest)
      else if c = '\x7b' then
        if room < leastRoom then .error ⟨.nesting, cs⟩
        else
          match skipSpace rest with
          | '\x7d' :: rest => .ok (.table [], rest)
          | rest => do
            let (fields, rest) ← inlineFields most (room - 3) [] [] rest
            .ok (.table fields, rest)
      else scalar cs

/-- Reads the items of an array up to its closing bracket. -/
def arrayItems (most room : Nat) (cs : List Char) : Except Flaw (List Datum × List Char) :=
  match most with
  | 0 => .error ⟨.array, cs⟩
  | most + 1 => do
    let cs ← skipLoose false cs
    match cs with
    | ']' :: rest => .ok ([], rest)
    | _ => do
      let (item, cs) ← value most room cs
      let cs ← skipLoose false cs
      match cs with
      | ']' :: rest => .ok ([item], rest)
      | ',' :: rest => do
        let (items, rest) ← arrayItems most room rest
        .ok (item :: items, rest)
      | _ => .error ⟨.array, cs⟩

/-- Reads the fields of an inline table up to its closing brace, given the fields so far and the
places in them that are complete. -/
def inlineFields (most room : Nat) (closed : List (List String)) (fields : Fields)
    (cs : List Char) : Except Flaw (Fields × List Char) :=
  match most with
  | 0 => .error ⟨.inlineTable, cs⟩
  | most + 1 => do
    let (names, cs) ← key cs
    match cs with
    | '=' :: rest => do
      let (given, cs) ← value most room (skipSpace rest)
      match addInline closed fields names given with
      | none => .error ⟨.redefinition, cs⟩
      | some fields =>
        let closed := if isContainer given then names :: closed else closed
        match skipSpace cs with
        | '\x7d' :: rest => .ok (fields, rest)
        | ',' :: rest => inlineFields most room closed fields (skipSpace rest)
        | _ => .error ⟨.inlineTable, cs⟩
    | _ => .error ⟨.equalsSign, cs⟩

end

end SignatureIndex.Toml
