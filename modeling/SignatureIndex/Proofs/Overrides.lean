import Mathlib.Data.List.Infix
import SignatureIndex.Proofs.Folding

/-!
# Overrides

A declaration overrides what is declared already, be it in the table that was given or by an earlier
one of the same row.  Folding a row in tells about each such declaration, in order, and last how
many declarations there were.

Every declaration of a function either makes the table larger by one or is told to override another,
and types are no different.  So what is told about a row accounts for the sizes of the tables before
and after.
-/

namespace SignatureIndex

namespace Symbol

def isFunction : Symbol → Bool
  | function _ => true
  | _ => false

def isType : Symbol → Bool
  | type _ => true
  | _ => false

end Symbol

/-- The symbol that a declaration of a module declares. -/
def Declaration.symbol? (moduleName : Option String) (declaration : Declaration) : Option Symbol :=
  (declaration.binding? moduleName).map Prod.fst

namespace SymbolTable

open Declaration (symbol?)

variable {table middle result : SymbolTable} {moduleName : Option String}
    {declaration : Declaration} {declarations others : List Declaration}

/-- Whether anything is found under the symbol. -/
def holds (table : SymbolTable) (symbol : Symbol) : Bool := (table.find symbol).isSome

/-- The symbol of a declaration, if it is in the table already or one of the earlier declarations
declares it. -/
def overrides? (table : SymbolTable) (moduleName : Option String) (earlier : List Declaration)
    (declaration : Declaration) : Option Symbol :=
  (declaration.symbol? moduleName).filter fun symbol =>
    table.holds symbol || earlier.any fun other => other.symbol? moduleName = some symbol

/-- The symbols of the declarations that override another one, in order. -/
def overridden (table : SymbolTable) (moduleName : Option String)
    (declarations : List Declaration) : List Symbol :=
  (declarations.zip declarations.inits).filterMap fun (declaration, earlier) =>
    table.overrides? moduleName earlier declaration

/-- What is told when a declaration of a module overrides another. -/
def overrideEvent (moduleName : Option String) (symbol : Symbol) : Event :=
  .report .debug .symbols s!"{tagName moduleName} overrides {symbol.kind} {symbol.subject}"

/-- What is told in the end, when so many functions and so many types have been declared. -/
def foldedEvent (moduleName : Option String) (functions types : Nat) : Event :=
  .report .debug .symbols (s!"folded {functions} function(s) and {types} type(s) from " ++
    tagName moduleName)

/-- Each declaration, from one table to the next, makes its name space larger or overrides
another. -/
structure Accounts (table result : SymbolTable) (declarations : List Declaration)
    (overridden : List Symbol) : Prop where
  functions : result.functions.size + overridden.countP Symbol.isFunction =
    table.functions.size + declarations.countP Declaration.isFunction
  types : result.types.size + overridden.countP Symbol.isType =
    table.types.size + declarations.countP Declaration.isType

/-! ## One declaration -/

private theorem holds_declare (table : SymbolTable) (declaration : Declaration) (symbol : Symbol) :
    (table.declare moduleName declaration).holds symbol =
      (table.holds symbol || decide (declaration.symbol? moduleName = some symbol)) := by
  rw [holds, find_declare, holds, symbol?]
  cases declaration.binding? moduleName with
  | none => simp
  | some entry =>
    obtain ⟨key, scheme⟩ := entry
    rw [Option.toList_some, lookup_singleton]
    by_cases same : key = symbol
    · simp [same]
    · simp [same]

theorem overrides?_nil {symbol : Symbol} (declares : declaration.symbol? moduleName = some symbol) :
    table.overrides? moduleName [] declaration =
      if table.holds symbol then some symbol else none := by
  simp only [overrides?, declares, Option.filter_some, List.any_nil, Bool.or_false]

/-- What has been declared is in the table. -/
theorem overrides?_cons (table : SymbolTable) (first declaration : Declaration)
    (earlier : List Declaration) :
    table.overrides? moduleName (first :: earlier) declaration =
      (table.declare moduleName first).overrides? moduleName earlier declaration := by
  unfold overrides?
  congr 1
  funext symbol
  rw [List.any_cons, holds_declare, Bool.or_assoc]

/-- The first declaration can override only what the table holds, and the rest is seen from the
table that holds it. -/
theorem overridden_cons (table : SymbolTable) (declaration : Declaration)
    (declarations : List Declaration) :
    table.overridden moduleName (declaration :: declarations) =
      (table.overrides? moduleName [] declaration).toList ++
        (table.declare moduleName declaration).overridden moduleName declarations := by
  have later : (declarations.zip (declarations.inits.map (declaration :: ·))).filterMap
      (fun (other, earlier) => table.overrides? moduleName earlier other) =
        (table.declare moduleName declaration).overridden moduleName declarations := by
    rw [overridden, List.zip_map_right, List.filterMap_map]
    congr 1
    funext (other, earlier)
    exact overrides?_cons table declaration other earlier
  rw [overridden, List.inits_cons, List.zip_cons_cons, List.filterMap_cons, later]
  cases overrides : table.overrides? moduleName [] declaration with
  | none => simp [overrides]
  | some symbol => simp [overrides]

/-- Overriding is told where it happens. -/
theorem override?_eq (table : SymbolTable) (declaration : Declaration) :
    (override? moduleName table declaration).map (Event.report .debug .symbols) =
      (table.overrides? moduleName [] declaration).map (overrideEvent moduleName) := by
  cases declaration with
  | function name arity scheme span =>
    rw [overrides?_nil rfl, holds, find, override?]
    split
    · simp [overrideEvent, Symbol.kind, Symbol.subject, toString, String.append_assoc]
    · rfl
  | typeName name scheme isOpaque span =>
    rw [overrides?_nil rfl, holds, find, override?]
    split
    · simp [overrideEvent, Symbol.kind, Symbol.subject, toString, String.append_assoc]
    · rfl
  | other kind span => rfl

private theorem events_foldIn_cons (table : SymbolTable) (declaration : Declaration)
    (rows : List (Except Fault Declaration)) :
    (foldIn moduleName (.ok declaration :: rows) table).events =
      (table.overrides? moduleName [] declaration).toList.map (overrideEvent moduleName) ++
        (foldIn moduleName rows (table.declare moduleName declaration)).events := by
  rw [← Option.toList_map, ← override?_eq, foldIn]
  -- the next table is the same whether anything is told or not
  cases override? moduleName table declaration with
  | none => rfl
  | some message => rfl

private theorem size_withFunction (table : SymbolTable) (ref : Ref) (scheme : TypeScheme) :
    (table.withFunction ref scheme).functions.size =
      if table.holds (.function ref) then table.functions.size else table.functions.size + 1 := by
  rw [withFunction, Std.ExtTreeMap.size_insert, Std.ExtTreeMap.contains_eq_isSome_getElem?]
  rfl

private theorem size_withType (table : SymbolTable) (ref : Ref) (scheme : TypeScheme) :
    (table.withType ref scheme).types.size =
      if table.holds (.type ref) then table.types.size else table.types.size + 1 := by
  rw [withType, Std.ExtTreeMap.size_insert, Std.ExtTreeMap.contains_eq_isSome_getElem?]
  rfl

private theorem accounts_declare (table : SymbolTable) (declaration : Declaration) :
    Accounts table (table.declare moduleName declaration) [declaration]
      (table.overrides? moduleName [] declaration).toList := by
  cases declaration with
  | function name arity scheme span =>
    rw [overrides?_nil rfl]
    constructor
    · rw [declare, size_withFunction]
      split
      · rfl
      · rfl
    · -- the types are left alone, and no type is told
      split
      · rfl
      · rfl
  | typeName name scheme isOpaque span =>
    rw [overrides?_nil rfl]
    constructor
    · split
      · rfl
      · rfl
    · rw [declare, size_withType]
      split
      · rfl
      · rfl
  | other kind span => exact ⟨rfl, rfl⟩

/-! ## A row of declarations -/

theorem Accounts.trans {overridden overriddenLater : List Symbol}
    (first : Accounts table middle declarations overridden)
    (second : Accounts middle result others overriddenLater) :
    Accounts table result (declarations ++ others) (overridden ++ overriddenLater) := by
  obtain ⟨functions, types⟩ := first
  obtain ⟨functionsLater, typesLater⟩ := second
  constructor
  · rw [List.countP_append, List.countP_append]
    omega
  · rw [List.countP_append, List.countP_append]
    omega

private theorem events_foldIn (table : SymbolTable) (declarations : List Declaration) :
    (foldIn moduleName (declarations.map .ok) table).events =
      (table.overridden moduleName declarations).map (overrideEvent moduleName) := by
  induction declarations generalizing table with
  | nil => rfl
  | cons declaration declarations ih =>
    rw [List.map_cons, events_foldIn_cons, ih, overridden_cons, List.map_append]

private theorem accounts_extend (table : SymbolTable) (moduleName : Option String)
    (declarations : List Declaration) :
    Accounts table (table.extend moduleName declarations) declarations
      (table.overridden moduleName declarations) := by
  induction declarations generalizing table with
  | nil => exact ⟨rfl, rfl⟩
  | cons declaration declarations ih =>
    -- the first declaration accounts for one step, and the rest for the steps after it
    rw [overridden_cons]
    exact (accounts_declare table declaration).trans (ih (table.declare moduleName declaration))

private theorem events_extendTraced (table : SymbolTable) (moduleName : Option String)
    (declarations : List Declaration) :
    (table.extendTraced moduleName (declarations.map .ok)).events =
      (table.overridden moduleName declarations).map (overrideEvent moduleName) ++
        [foldedEvent moduleName (declarations.countP Declaration.isFunction)
          (declarations.countP Declaration.isType)] := by
  have folded := outcome_foldIn moduleName declarations table
  have kept : (declarations.map (Except.ok (ε := Fault))).filterMap Except.toOption =
      declarations := by
    simp [List.filterMap_map, Function.comp_def, Except.toOption]
  rw [extendTraced, Traced.bind_eq, Traced.bind, folded, events_foldIn, kept]
  rfl

variable {rows : List (Except Fault Declaration)}

/-- Folding declarations in tells about those that override another one, in order, and then how many
functions and types were declared.  The functions of the new table and the overridden ones are as
many as the functions of the old table and the declared ones, and so are the types. -/
theorem accounts_extendTraced (ended : (table.extendTraced moduleName rows).outcome = .ok result) :
    ∃ declarations : List Declaration, rows = declarations.map .ok ∧
      (table.extendTraced moduleName rows).events =
        (table.overridden moduleName declarations).map (overrideEvent moduleName) ++
          [foldedEvent moduleName (declarations.countP Declaration.isFunction)
            (declarations.countP Declaration.isType)] ∧
      Accounts table result declarations (table.overridden moduleName declarations) := by
  obtain ⟨declarations, rfl, rfl⟩ := outcome_extendTraced_eq_ok_iff.mp ended
  exact ⟨declarations, rfl, events_extendTraced table moduleName declarations,
    accounts_extend table moduleName declarations⟩

/-- A function and a type of one name, each of them declared twice. -/
def recurring : List Declaration :=
  twice ++ [.typeName "f" ⟨["A"], "A"⟩ false .unknown, .typeName "f" ⟨["B"], "B"⟩ true .unknown,
    .other "record" .unknown]

theorem accounts_extendTraced_recurring :
    ∃ result, (empty.extendTraced none (recurring.map .ok)).outcome = .ok result ∧
      result.functions.size = 1 ∧ result.types.size = 1 ∧
      (empty.extendTraced none (recurring.map .ok)).events =
        [overrideEvent none (.function ⟨none, "f", 1⟩), overrideEvent none (.type ⟨none, "f", 1⟩),
          foldedEvent none 2 2] := by
  have ended := outcome_extendTraced empty none recurring
  obtain ⟨declarations, rows, told, functions, types⟩ := accounts_extendTraced ended
  obtain rfl : recurring = declarations :=
    List.map_injective_iff.mpr (fun _ _ => Except.ok.inj) rows
  have again : empty.overridden none recurring =
      [.function ⟨none, "f", 1⟩, .type ⟨none, "f", 1⟩] := by decide +kernel
  rw [again] at told functions types
  refine ⟨_, ended, ?_, ?_, told⟩
  · exact Nat.add_right_cancel functions
  · exact Nat.add_right_cancel types

end SymbolTable

end SignatureIndex
