import SignatureIndex.SymbolTable

/-!
# Extending a table, seen through look-ups

A declaration enters a table under one symbol.  Once the declarations of a module have been folded
in, a look-up finds the scheme of the *last* declaration of its symbol, and where there is none it
finds what the table held before.  Only symbols of the module itself can change.
-/

namespace SignatureIndex

/-- The module that a symbol belongs to.  Operators and local references belong to none. -/
def Symbol.owner? : Symbol → Option String
  | .function ref | .type ref => ref.moduleName
  | .operator _ => none

theorem lookup_singleton (key symbol : Symbol) (scheme : TypeScheme) :
    [(key, scheme)].lookup symbol = if key = symbol then some scheme else none := by
  rw [List.lookup_cons]
  by_cases same : key = symbol
  · simp [same]
  · simp [beq_eq_false_iff_ne.mpr (Ne.symm same), same]

namespace Declaration

/-- The symbol that a declaration of a module declares, and its scheme. -/
def binding? (moduleName : Option String) : Declaration → Option (Symbol × TypeScheme)
  | .function name arity scheme _ => some (.function ⟨moduleName, name, arity⟩, scheme)
  | .typeName name scheme _ _ => some (.type ⟨moduleName, name, scheme.arity⟩, scheme)
  | .other _ _ => none

/-- The scheme in the last declaration of a symbol. -/
def lastScheme? (moduleName : Option String) (declarations : List Declaration) (symbol : Symbol) :
    Option TypeScheme :=
  (declarations.filterMap (binding? moduleName)).reverse.lookup symbol

theorem lastScheme?_cons (moduleName : Option String) (declaration : Declaration)
    (declarations : List Declaration) (symbol : Symbol) :
    lastScheme? moduleName (declaration :: declarations) symbol =
      (lastScheme? moduleName declarations symbol).or
        ((binding? moduleName declaration).toList.lookup symbol) := by
  unfold lastScheme?
  cases entered : binding? moduleName declaration with
  | none => simp [entered]
  | some entry => simp [entered, List.lookup_append]

theorem owner?_of_binding? {moduleName : Option String} {declaration : Declaration}
    {symbol : Symbol} {scheme : TypeScheme}
    (entered : binding? moduleName declaration = some (symbol, scheme)) :
    symbol.owner? = moduleName := by
  cases declaration <;> cases entered <;> rfl

theorem exists_binding?_of_lastScheme? {moduleName : Option String}
    {declarations : List Declaration} {symbol : Symbol} {scheme : TypeScheme}
    (last : lastScheme? moduleName declarations symbol = some scheme) :
    ∃ declaration ∈ declarations, declaration.binding? moduleName = some (symbol, scheme) := by
  unfold lastScheme? at last
  obtain ⟨before, after, parts, -⟩ := List.lookup_eq_some_iff.mp last
  have among : (symbol, scheme) ∈ (declarations.filterMap (binding? moduleName)).reverse := by
    rw [parts]
    exact List.mem_append_right _ List.mem_cons_self
  exact List.mem_filterMap.mp (List.mem_reverse.mp among)

/-- A module declares no symbol of another. -/
theorem lastScheme?_of_owner?_ne {moduleName : Option String} {symbol : Symbol}
    (foreign : symbol.owner? ≠ moduleName) (declarations : List Declaration) :
    lastScheme? moduleName declarations symbol = none := by
  unfold lastScheme?
  rw [List.lookup_eq_none_iff]
  intro entry member
  obtain ⟨declaration, -, entered⟩ := List.mem_filterMap.mp (List.mem_reverse.mp member)
  have owned : entry.1.owner? = moduleName := owner?_of_binding? entered
  simp only [bne_iff_ne, ne_eq]
  rintro rfl
  exact foreign owned

end Declaration

namespace SymbolTable

/-- One declaration changes what is found under its own symbol, and nothing else. -/
theorem find_declare (moduleName : Option String) (table : SymbolTable) (declaration : Declaration)
    (symbol : Symbol) :
    (table.declare moduleName declaration).find symbol =
      ((declaration.binding? moduleName).toList.lookup symbol).or (table.find symbol) := by
  cases declaration with
  | function name arity scheme span =>
    simp only [Declaration.binding?, Option.toList_some, lookup_singleton]
    cases symbol with
    | function ref =>
      simp only [declare, find, findFunction_withFunction, Symbol.function.injEq]
      split <;> rfl
    | type ref => rfl
    | operator key => rfl
  | typeName name scheme isOpaque span =>
    simp only [Declaration.binding?, Option.toList_some, lookup_singleton]
    cases symbol with
    | type ref =>
      simp only [declare, find, findType_withType, Symbol.type.injEq]
      split <;> rfl
    | function ref => rfl
    | operator key => rfl
  | other kind span => rfl

/-- The last declaration of a symbol wins, and what is not declared stays as it was. -/
theorem find_extend (table : SymbolTable) (moduleName : Option String)
    (declarations : List Declaration) (symbol : Symbol) :
    (table.extend moduleName declarations).find symbol =
      (Declaration.lastScheme? moduleName declarations symbol).or (table.find symbol) := by
  induction declarations generalizing table with
  | nil => rfl
  | cons declaration declarations ih =>
    -- the rest is folded into the table that already holds the first declaration
    calc (table.extend moduleName (declaration :: declarations)).find symbol
        = ((table.declare moduleName declaration).extend moduleName declarations).find symbol := rfl
      _ = _ := by rw [ih, find_declare, Declaration.lastScheme?_cons, Option.or_assoc]

theorem find_extend_of_owner?_ne {moduleName : Option String} {symbol : Symbol}
    (foreign : symbol.owner? ≠ moduleName) (table : SymbolTable) (declarations : List Declaration) :
    (table.extend moduleName declarations).find symbol = table.find symbol := by
  rw [find_extend, Declaration.lastScheme?_of_owner?_ne foreign, Option.none_or]

@[simp] theorem operators_declare (moduleName : Option String) (table : SymbolTable)
    (declaration : Declaration) :
    (table.declare moduleName declaration).operators = table.operators := by
  cases declaration <;> rfl

@[simp] theorem operators_extend (table : SymbolTable) (moduleName : Option String)
    (declarations : List Declaration) :
    (table.extend moduleName declarations).operators = table.operators := by
  induction declarations generalizing table with
  | nil => rfl
  | cons declaration declarations ih =>
    exact (ih (table.declare moduleName declaration)).trans (operators_declare _ _ _)

/-- Folding a row comes to a table only if no fault breaks the row off. -/
theorem outcome_foldIn_eq_ok_iff {moduleName : Option String}
    {rows : List (Except Fault Declaration)} {table result : SymbolTable} :
    (foldIn moduleName rows table).outcome = .ok result ↔
      ∃ declarations, rows = declarations.map .ok ∧
      table.extend moduleName declarations = result := by
  constructor
  · intro folded
    induction rows generalizing table with
    | nil =>
      cases folded
      exact ⟨[], rfl, rfl⟩
    | cons row rows ih =>
      cases row with
      | error fault => cases folded
      | ok declaration =>
        have next : (foldIn moduleName rows (table.declare moduleName declaration)).outcome =
            .ok result := by
          rw [foldIn] at folded
          -- whether it is told or not that the declaration overrides another
          split at folded
          · exact folded
          · exact folded
        obtain ⟨declarations, rfl, same⟩ := ih next
        exact ⟨declaration :: declarations, rfl, same⟩
  · rintro ⟨declarations, rfl, rfl⟩
    exact outcome_foldIn moduleName declarations table

theorem outcome_extendTraced_eq_ok_iff {moduleName : Option String}
    {rows : List (Except Fault Declaration)} {table result : SymbolTable} :
    (table.extendTraced moduleName rows).outcome = .ok result ↔
      ∃ declarations, rows = declarations.map .ok ∧
      table.extend moduleName declarations = result := by
  simp only [extendTraced, Traced.outcome_bind_eq_ok_iff, outcome_foldIn_eq_ok_iff]
  constructor
  · rintro ⟨extended, folds, -, -, same⟩
    cases same
    exact folds
  · intro folds
    exact ⟨result, folds, (), rfl, rfl⟩

end SymbolTable

end SignatureIndex
