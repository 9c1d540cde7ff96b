import SignatureIndex.Declaration.Variables
import SignatureIndex.Traced

/-!
# Declarations from attributes

A `-spec` attribute declares a function: a name, possibly with the module it belongs to, the
arguments in parentheses, and what comes back.  The attributes `-type` and `-opaque` declare a type:
a name, its parameters in parentheses, and after `::` what it stands for.  Either may stand in
parentheses as a whole.  Only the name, the number of arguments or parameters, and the variables are
taken out; the type itself is kept as it was written.
-/

namespace SignatureIndex

/-- The text of a spec or a type, with the parentheses around the whole taken away. -/
def unwrap (text : List Char) : List Char :=
  match text with
  | '(' :: inner =>
    match Group.ofText? text with
    | some ⟨_, []⟩ => Text.trim inner.dropLast
    -- The first parenthesis closes before the end, so it is not around the whole.
    | _ => text
  | _ => text

/-- The atom that a text starts with, as it is written, and the rest of the text. -/
def atom? : List Char → Option (List Char × List Char)
  | [] => none
  | c :: cs =>
    if c.isLower then some (c :: cs.takeWhile isNameChar, cs.dropWhile isNameChar)
    else if c = Text.apostrophe then
      (Blanking.payload? c cs).map fun count => (c :: cs.take (count + 1), cs.drop (count + 1))
    else none

/-- A text in which every backslash has given way to the character after it. -/
def unescape : List Char → List Char
  | [] => []
  | [c] => [c]
  | c :: d :: cs => if c = '\\' then d :: unescape cs else c :: unescape (d :: cs)

def atomName : List Char → List Char
  | [] => []
  | c :: cs => if c = Text.apostrophe then unescape cs.dropLast else c :: cs

/-- An atom and then, after blanks, an opening parenthesis: the atom as written, and the text from
the parenthesis on. -/
def headAtom? (text : List Char) : Option (List Char × List Char) :=
  match atom? text with
  | none => none
  | some (atom, rest) =>
    match Text.trimStart rest with
    | '(' :: after => some (atom, '(' :: after)
    | _ => none

/-- The text after a module and its colon, if a text starts with those. -/
def afterModule? (text : List Char) : Option (List Char) :=
  match atom? text with
  | none => none
  | some (_, rest) =>
    match Text.trimStart rest with
    | ':' :: after => some (Text.trimStart after)
    | _ => none

/-- The name of a function, which may stand after a module, and the text from its arguments on. -/
def functionHead? (text : List Char) : Option (List Char × List Char) :=
  -- What looks like a module may be the name itself, if no name follows the colon.
  ((afterModule? text).bind headAtom?).or (headAtom? text)

namespace Declaration

def ofSpec (attr : Attribute) : Except SourceProblem Declaration :=
  match functionHead? (unwrap attr.text.toList) with
  | none => .error (.malformed "spec" .functionName attr.span)
  | some (atom, rest) =>
    match Group.ofText? rest with
    | none => .error (.malformed "spec" .balancedBrackets attr.span)
    | some group =>
      let body := Text.trim rest
      .ok (.function (String.ofList (atomName atom)) group.items.length
        ⟨(typeVariables body).map String.ofList, String.ofList body⟩ attr.span)

/-- The declaration of a type, which is opaque if the attribute's kind says so. -/
def ofType (attr : Attribute) : Except SourceProblem Declaration :=
  match headAtom? (unwrap attr.text.toList) with
  | none => .error (.malformed attr.kind .typeName attr.span)
  | some (atom, rest) =>
    match Group.ofText? rest with
    | none => .error (.malformed attr.kind .balancedBrackets attr.span)
    | some group =>
      match Text.trimStart group.rest with
      | ':' :: ':' :: body =>
        match group.items.find? fun item => !isVariable item with
        | some item =>
          .error (.parameterNotVariable (String.ofList item) (String.ofList atom) attr.span)
        | none =>
          .ok (.typeName (String.ofList (atomName atom))
            ⟨group.items.map String.ofList, String.ofList (Text.trim body)⟩
            (attr.kind == "opaque") attr.span)
      | _ => .error (.malformed attr.kind .typeMark attr.span)

def ofAttribute (attr : Attribute) : Except SourceProblem Declaration :=
  if attr.kind = "spec" then ofSpec attr
  else if attr.kind = "type" ∨ attr.kind = "opaque" then ofType attr
  else .ok (.other attr.kind attr.span)

/-- The declarations of the attributes of a file, in order. -/
def ofAttributes (path : Path) (attributes : List Attribute) : Traced (List Declaration) := do
  let declarations ← Traced.ofSource (attributes.mapM ofAttribute)
  Traced.report .debug .transform s!"{path}: {declarations.length} declaration form(s)"
  pure declarations

end Declaration

end SignatureIndex
