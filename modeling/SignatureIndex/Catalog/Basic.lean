import SignatureIndex.SymbolTable

/-!
# Catalogs

A catalog lists the built-in functions and operators of one runtime module with their types.
Catalogs are written as documents; a document is read only if it has the right shape throughout, and
otherwise the first place that has not is named, functions before operators.
-/

namespace SignatureIndex

/-- A built-in function or operator. -/
structure Signature where
  name : String
  arity : Nat
  scheme : TypeScheme
  deriving DecidableEq, Repr

/-- The built-ins of a runtime module, in the order in which they are listed. -/
structure Catalog where
  moduleName : String
  functions : List Signature
  operators : List Signature
  deriving DecidableEq, Repr

namespace Signature

def required (part : String) (index : Nat) (entry : Fields) (key : String) :
    Except CatalogProblem Datum :=
  match entry.get? key with
  | some value => .ok value
  | none => .error (.missingKey part index key)

/-- The signature that an entry of a document gives.  The part and the index say where it stands. -/
def ofDatum (part : String) (index : Nat) : Datum → Except CatalogProblem Signature
  | .table entry => do
    -- All three keys must be there before any of their values is looked at.
    let name ← required part index entry "name"
    let arity ← required part index entry "arity"
    let body ← required part index entry "type"
    let tyvars := (Fields.get? entry "tyvars").getD (.array [])
    match name.text? with
    | none | some "" => .error (.emptyName part index)
    | some name =>
      match arity.natural? with
      | none => .error (.badArity part index name)
      | some arity =>
        match body.text? with
        | none => .error (.badType part index name)
        | some body =>
          match tyvars.texts? with
          | none => .error (.badTyvars part index name)
          | some tyvars => .ok ⟨name, arity, ⟨tyvars, body⟩⟩
  | _ => .error (.notTable part index)

/-- The signatures that entries of a document give, the first of them at some index. -/
def ofData (part : String) (index : Nat) : List Datum → Except CatalogProblem (List Signature)
  | [] => .ok []
  | entry :: entries => do
    let signature ← ofDatum part index entry
    let signatures ← ofData part (index + 1) entries
    .ok (signature :: signatures)

def write (signature : Signature) : Except NumeralFlaw String :=
  (Numeral.write signature.arity).map fun arity =>
    signature.name ++ "/" ++ arity ++ " :: " ++ toString signature.scheme

end Signature

namespace Catalog

def listed? (document : Fields) (key : String) : Option (List Datum) :=
  match document.get? key with
  | none => some []
  | some (.array items) => some items
  | some _ => none

def ofDocument (document : Fields) : Except CatalogProblem Catalog :=
  match ((document.get? "module").getD (.text "erlang")).text? with
  | none | some "" => .error .moduleName
  | some moduleName =>
    match listed? document "function", listed? document "operator" with
    | some functions, some operators => do
      let functions ← Signature.ofData "function" 0 functions
      let operators ← Signature.ofData "operator" 0 operators
      .ok ⟨moduleName, functions, operators⟩
    | _, _ => .error .sections

end Catalog

/-- The table of a catalog: its functions under its module, and its operators.  Of two entries with
the same name and arity the later one counts. -/
def SymbolTable.ofCatalog (catalog : Catalog) : SymbolTable where
  functions := catalog.functions.foldl
    (fun functions signature =>
      functions.insert ⟨some catalog.moduleName, signature.name, signature.arity⟩ signature.scheme)
        ∅
  operators := catalog.operators.foldl
    (fun operators signature =>
      operators.insert ⟨signature.name, signature.arity⟩ signature.scheme) ∅
  types := ∅

end SignatureIndex
