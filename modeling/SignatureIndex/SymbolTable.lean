import SignatureIndex.Declaration.Basic
import SignatureIndex.Traced
import Std.Data.ExtTreeMap

/-!
# Symbol tables

A symbol table holds the type schemes of functions, operators and types in three name spaces of
their own.  Tables are values: extending one gives a new table and leaves the old one as it was.
Two tables are equal exactly when every look-up agrees.

Folding the declarations of a module into a table puts each of them under the module's name, or
under a local reference if there is no module.  A later declaration takes the place of an earlier
one.
-/

namespace SignatureIndex

/-- The schemes of functions, operators and types. -/
structure SymbolTable where
  functions : Std.ExtTreeMap Ref TypeScheme compare
  operators : Std.ExtTreeMap OperatorKey TypeScheme compare
  types : Std.ExtTreeMap Ref TypeScheme compare

namespace SymbolTable

/-- The table without any symbol. -/
def empty : SymbolTable := ⟨∅, ∅, ∅⟩

def findFunction (table : SymbolTable) (ref : Ref) : Option TypeScheme := table.functions[ref]?

def findOperator (table : SymbolTable) (key : OperatorKey) : Option TypeScheme :=
  table.operators[key]?

def findType (table : SymbolTable) (ref : Ref) : Option TypeScheme := table.types[ref]?

def find (table : SymbolTable) : Symbol → Option TypeScheme
  | .function ref => table.findFunction ref
  | .type ref => table.findType ref
  | .operator key => table.findOperator key

/-- The scheme of a symbol that must be there, for a use at some place. -/
def lookup (table : SymbolTable) (symbol : Symbol) (use : Span) : Except Problem TypeScheme :=
  match table.find symbol with
  | some scheme => .ok scheme
  | none => .error (.undefined symbol use)

def withFunction (table : SymbolTable) (ref : Ref) (scheme : TypeScheme) : SymbolTable :=
  { table with functions := table.functions.insert ref scheme }

def withOperator (table : SymbolTable) (key : OperatorKey) (scheme : TypeScheme) : SymbolTable :=
  { table with operators := table.operators.insert key scheme }

def withType (table : SymbolTable) (ref : Ref) (scheme : TypeScheme) : SymbolTable :=
  { table with types := table.types.insert ref scheme }

/-- Whether two tables hold the same schemes under the same names. -/
def same (table other : SymbolTable) : Bool :=
  table.functions == other.functions && table.operators == other.operators &&
    table.types == other.types

/-- How large a table is, in words. -/
def summary (table : SymbolTable) : String :=
  s!"SymbolTable(functions={table.functions.size}, operators={table.operators.size}, " ++
    s!"types={table.types.size})"

/-- Tables that agree on every look-up are equal. -/
theorem ext_find {table other : SymbolTable}
    (agree : ∀ symbol, table.find symbol = other.find symbol) :
    table = other := by
  obtain ⟨functions, operators, types⟩ := table
  obtain ⟨functions', operators', types'⟩ := other
  have sameFunctions : functions = functions' :=
    Std.ExtTreeMap.ext_getElem? fun ref => agree (.function ref)
  have sameOperators : operators = operators' :=
    Std.ExtTreeMap.ext_getElem? fun key => agree (.operator key)
  have sameTypes : types = types' :=
    Std.ExtTreeMap.ext_getElem? fun ref => agree (.type ref)
  rw [sameFunctions, sameOperators, sameTypes]

@[simp] theorem find_empty (symbol : Symbol) : empty.find symbol = none := by
  cases symbol <;> simp [find, findFunction, findOperator, findType, empty]

theorem findFunction_withFunction (table : SymbolTable) (ref other : Ref) (scheme : TypeScheme) :
    (table.withFunction ref scheme).findFunction other =
      if ref = other then some scheme else table.findFunction other := by
  simp [findFunction, withFunction, Std.ExtTreeMap.getElem?_insert]

theorem findType_withType (table : SymbolTable) (ref other : Ref) (scheme : TypeScheme) :
    (table.withType ref scheme).findType other =
      if ref = other then some scheme else table.findType other := by
  simp [findType, withType, Std.ExtTreeMap.getElem?_insert]

/-! ## Folding declarations -/

def tagName : Option String → String
  | some "" | none => "<local>"
  | some moduleName => moduleName

def declare (moduleName : Option String) (table : SymbolTable) : Declaration → SymbolTable
  | .function name arity scheme _ => table.withFunction ⟨moduleName, name, arity⟩ scheme
  | .typeName name scheme _ _ => table.withType ⟨moduleName, name, scheme.arity⟩ scheme
  | .other _ _ => table

/-- The table with the declarations of a module folded in, in order. -/
def extend (table : SymbolTable) (moduleName : Option String) (declarations : List Declaration) :
    SymbolTable :=
  declarations.foldl (declare moduleName) table

/-- What there is to tell when a declaration is folded in: that it takes the place of another. -/
def override? (moduleName : Option String) (table : SymbolTable) : Declaration → Option String
  | .function name arity _ _ =>
    let ref : Ref := ⟨moduleName, name, arity⟩
    if (table.findFunction ref).isSome then
      some s!"{tagName moduleName} overrides function {ref.format}"
    else none
  | .typeName name scheme _ _ =>
    let ref : Ref := ⟨moduleName, name, scheme.arity⟩
    if (table.findType ref).isSome then
      some s!"{tagName moduleName} overrides type {ref.format}"
    else none
  | .other _ _ => none

/-- Folds declarations in one by one and tells which of them take the place of others.  A row of
declarations may break off with a fault. -/
def foldIn (moduleName : Option String) :
    List (Except Fault Declaration) → SymbolTable → Traced SymbolTable
  | [], table => pure table
  | .error fault :: _, _ => Traced.fail fault
  | .ok declaration :: declarations, table => do
    match override? moduleName table declaration with
    | some message => Traced.report .debug .symbols message
    | none => pure ()
    foldIn moduleName declarations (table.declare moduleName declaration)

def countFunctions (declarations : List Declaration) : Nat :=
  declarations.countP fun
    | .function _ _ _ _ => true
    | _ => false

def countTypes (declarations : List Declaration) : Nat :=
  declarations.countP fun
    | .typeName _ _ _ _ => true
    | _ => false

/-- Folds the declarations of a module into a table and tells how many there were. -/
def extendTraced (table : SymbolTable) (moduleName : Option String)
    (declarations : List (Except Fault Declaration)) : Traced SymbolTable := do
  let extended ← foldIn moduleName declarations table
  let folded := declarations.filterMap Except.toOption
  Traced.report .debug .symbols
    (s!"folded {countFunctions folded} function(s) and {countTypes folded} type(s) from " ++
      tagName moduleName)
  pure extended

/-- Folding one by one gives the table that folding at once gives. -/
theorem outcome_foldIn (moduleName : Option String) (declarations : List Declaration)
    (table : SymbolTable) :
    (foldIn moduleName (declarations.map .ok) table).outcome =
      .ok (table.extend moduleName declarations) := by
  induction declarations generalizing table with
  | nil => rfl
  | cons declaration declarations ih =>
    rw [List.map_cons, foldIn]
    -- Whether anything is told or not, the next table is the same.
    cases override? moduleName table declaration with
    | none => exact ih _
    | some message => exact ih _

/-- Folding declarations tells about it and otherwise only extends the table. -/
theorem outcome_extendTraced (table : SymbolTable) (moduleName : Option String)
    (declarations : List Declaration) :
    (table.extendTraced moduleName (declarations.map .ok)).outcome =
      .ok (table.extend moduleName declarations) := by
  have folded := outcome_foldIn moduleName declarations table
  unfold extendTraced
  rw [Traced.bind_eq, Traced.bind]
  split
  · next stopped => simp [stopped] at folded
  · next extended done =>
    rw [done] at folded
    cases folded
    rfl

end SymbolTable

end SignatureIndex
