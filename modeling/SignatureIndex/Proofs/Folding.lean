import SignatureIndex.Proofs.Extension

/-!
# Folding, and what does not matter for it

What a look-up finds once the declarations of a module have been folded in is the scheme of the last
of them that declares the symbol, or what was there before.  The name spaces do not touch each
other: which functions a table holds depends on its functions and on the declarations of functions
alone, and so for types, and no declaration is one of an operator.

Declarations that are folded in under different tags are declarations of different symbols, where no
module is a tag of its own.  So it does not matter under which of two tags declarations are folded
in first, and folding the same declarations in again under the same tag changes nothing, whatever
was folded in under another tag since.
-/

namespace SignatureIndex

namespace Declaration

variable {moduleName : Option String} {declaration : Declaration} {declarations : List Declaration}
  {symbol : Symbol} {scheme : TypeScheme}

def isFunction : Declaration → Bool
  | function _ _ _ _ => true
  | _ => false

def isType : Declaration → Bool
  | typeName _ _ _ _ => true
  | _ => false

/-- No declaration of a module declares the symbol. -/
def BindsNone (moduleName : Option String) (declarations : List Declaration)
    (symbol : Symbol) : Prop :=
  ∀ declaration ∈ declarations, ∀ scheme, declaration.binding? moduleName ≠ some (symbol, scheme)

/-- Some declaration of a module gives the symbol its scheme, and none after it declares the
symbol. -/
def BindsLast (moduleName : Option String) (declarations : List Declaration) (symbol : Symbol)
    (scheme : TypeScheme) : Prop :=
  ∃ before declaration after, declarations = before ++ declaration :: after ∧
    declaration.binding? moduleName = some (symbol, scheme) ∧ BindsNone moduleName after symbol

/-! ## The last declaration -/

private theorem bindsNone_cons : BindsNone moduleName (declaration :: declarations) symbol ↔
    (∀ scheme, declaration.binding? moduleName ≠ some (symbol, scheme)) ∧
      BindsNone moduleName declarations symbol := by
  simp only [BindsNone, List.forall_mem_cons]

private theorem bindsLast_cons : BindsLast moduleName (declaration :: declarations) symbol scheme ↔
    BindsLast moduleName declarations symbol scheme ∨
      (declaration.binding? moduleName = some (symbol, scheme) ∧
        BindsNone moduleName declarations symbol) := by
  constructor
  · rintro ⟨_ | ⟨first, before⟩, last, after, parts, binds, none⟩
    · obtain ⟨rfl, rfl⟩ := List.cons.inj parts
      exact .inr ⟨binds, none⟩
    · obtain ⟨rfl, rfl⟩ := List.cons.inj parts
      exact .inl ⟨before, last, after, rfl, binds, none⟩
  · rintro (⟨before, last, after, rfl, binds, none⟩ | ⟨binds, none⟩)
    · exact ⟨declaration :: before, last, after, rfl, binds, none⟩
    · exact ⟨[], declaration, declarations, rfl, binds, none⟩

theorem lookup_binding?_eq_some_iff :
    (binding? moduleName declaration).toList.lookup symbol = some scheme ↔
    binding? moduleName declaration = some (symbol, scheme) := by
  cases bound : binding? moduleName declaration with
  | none => simp
  | some entry =>
    obtain ⟨key, value⟩ := entry
    rw [Option.toList_some, lookup_singleton]
    split
    · simp [*]
    · simp [*]

theorem lookup_binding?_eq_none_iff :
    (binding? moduleName declaration).toList.lookup symbol = none ↔
    ∀ scheme, binding? moduleName declaration ≠ some (symbol, scheme) := by
  simp only [Option.eq_none_iff_forall_ne_some, ne_eq, lookup_binding?_eq_some_iff]

theorem lastScheme?_eq_none_iff :
    lastScheme? moduleName declarations symbol = none ↔
    BindsNone moduleName declarations symbol := by
  induction declarations with
  | nil => simp [lastScheme?, BindsNone]
  | cons declaration declarations ih =>
    rw [lastScheme?_cons, Option.or_eq_none_iff, ih, lookup_binding?_eq_none_iff,
      bindsNone_cons, and_comm]

private theorem lastScheme?_eq_some_iff :
    lastScheme? moduleName declarations symbol = some scheme ↔
      BindsLast moduleName declarations symbol scheme := by
  induction declarations with
  | nil => simp [lastScheme?, BindsLast]
  | cons declaration declarations ih =>
    rw [lastScheme?_cons, Option.or_eq_some_iff, ih, lastScheme?_eq_none_iff,
      lookup_binding?_eq_some_iff, bindsLast_cons, and_comm (a := BindsNone _ _ _)]

/-- Declarations that do not declare the symbol can be left out. -/
theorem lastScheme?_filter (keep : Declaration → Bool)
    (others : ∀ declaration scheme, binding? moduleName declaration = some (symbol, scheme) →
      keep declaration = true) (declarations : List Declaration) :
    lastScheme? moduleName (declarations.filter keep) symbol =
      lastScheme? moduleName declarations symbol := by
  induction declarations with
  | nil => rfl
  | cons declaration declarations ih =>
    by_cases kept : keep declaration = true
    · rw [List.filter_cons_of_pos kept, lastScheme?_cons, lastScheme?_cons, ih]
    · have silent : (binding? moduleName declaration).toList.lookup symbol = none := by
        apply lookup_binding?_eq_none_iff.mpr
        intro scheme binds
        exact kept (others declaration scheme binds)
      rw [List.filter_cons_of_neg kept, lastScheme?_cons, ih, silent, Option.or_none]

private theorem isFunction_of_binding? {ref : Ref}
    (binds : declaration.binding? moduleName = some (.function ref, scheme)) :
    declaration.isFunction = true := by
  cases declaration <;> cases binds
  rfl

private theorem isType_of_binding? {ref : Ref}
    (binds : declaration.binding? moduleName = some (.type ref, scheme)) :
    declaration.isType = true := by
  cases declaration <;> cases binds
  rfl

end Declaration

namespace SymbolTable

open Declaration (BindsLast BindsNone lastScheme? isFunction isType)

variable {table other : SymbolTable} {moduleName first second : Option String}
  {declarations others : List Declaration} {symbol : Symbol} {scheme : TypeScheme}

/-! ## Name spaces -/

private theorem find_extend_eq_some_iff :
    (table.extend moduleName declarations).find symbol = some scheme ↔
    BindsLast moduleName declarations symbol scheme ∨
      (BindsNone moduleName declarations symbol ∧ table.find symbol = some scheme) := by
  rw [find_extend, Option.or_eq_some_iff, Declaration.lastScheme?_eq_some_iff,
    Declaration.lastScheme?_eq_none_iff]

/-- What is found under a symbol depends on nothing but its declarations and what was found
before. -/
theorem find_extend_congr (keep : Declaration → Bool)
    (about : ∀ declaration scheme, declaration.binding? moduleName = some (symbol, scheme) →
      keep declaration = true)
    (start : other.find symbol = table.find symbol)
    (same : others.filter keep = declarations.filter keep) :
    (other.extend moduleName others).find symbol =
      (table.extend moduleName declarations).find symbol := by
  rw [find_extend, find_extend, start, ← Declaration.lastScheme?_filter keep about others, same,
    Declaration.lastScheme?_filter keep about declarations]

/-- Declarations under different tags do not get in each other's way. -/
theorem extend_swap (differ : first ≠ second) (table : SymbolTable)
    (declarations others : List Declaration) :
    (table.extend first declarations).extend second others =
      (table.extend second others).extend first declarations := by
  apply ext_find
  intro symbol
  by_cases owned : symbol.owner? = first
  · -- a symbol belongs to one module, so the other one leaves it alone
    have foreign : symbol.owner? ≠ second := by rwa [owned]
    rw [find_extend_of_owner?_ne foreign, find_extend, find_extend,
      find_extend_of_owner?_ne foreign]
  · have left (table : SymbolTable) :
        (table.extend first declarations).find symbol = table.find symbol :=
      find_extend_of_owner?_ne owned table declarations
    rw [find_extend, left, left, find_extend]

/-- What has been folded in once is there, and folding it in again changes nothing. -/
theorem extend_again (table : SymbolTable) (moduleName : Option String)
    (declarations : List Declaration) :
    (table.extend moduleName declarations).extend moduleName declarations =
      table.extend moduleName declarations := by
  apply ext_find
  intro symbol
  rw [find_extend, find_extend, ← Option.or_assoc, Option.or_self]

private theorem extend_between (differ : first ≠ second) (table : SymbolTable)
    (declarations others : List Declaration) :
    ((table.extend first declarations).extend second others).extend first declarations =
      (table.extend first declarations).extend second others := by
  calc ((table.extend first declarations).extend second others).extend first declarations
      = ((table.extend first declarations).extend first declarations).extend second others :=
        extend_swap differ.symm _ _ _
    _ = (table.extend first declarations).extend second others := by rw [extend_again]

/-! ## Equal tables -/

/-- Tables that hold the same are equal. -/
theorem same_iff : table.same other = true ↔ table = other := by
  obtain ⟨functions, operators, types⟩ := table
  obtain ⟨functions', operators', types'⟩ := other
  simp [same, and_assoc]

/-- Two operations come to tables that hold the same, or neither of them comes to a table. -/
structure ComeToSame (one another : Traced SymbolTable) : Prop where
  of_left : ∀ table, one.outcome = .ok table →
    ∃ result, another.outcome = .ok result ∧ table.same result = true
  of_right : ∀ result, another.outcome = .ok result →
    ∃ table, one.outcome = .ok table ∧ table.same result = true

theorem comeToSame_iff {one another : Traced SymbolTable} :
    ComeToSame one another ↔ ∀ table, one.outcome = .ok table ↔ another.outcome = .ok table := by
  constructor
  · intro come table
    constructor
    · intro ended
      obtain ⟨result, endedToo, same⟩ := come.of_left table ended
      obtain rfl := same_iff.mp same
      exact endedToo
    · intro ended
      obtain ⟨result, endedToo, same⟩ := come.of_right table ended
      obtain rfl := same_iff.mp same
      exact endedToo
  · intro alike
    constructor
    · intro table ended
      exact ⟨table, (alike table).mp ended, same_iff.mpr rfl⟩
    · intro table ended
      exact ⟨table, (alike table).mpr ended, same_iff.mpr rfl⟩

/-! ## Rows of declarations -/

/-- A row without a fault is a row of declarations. -/
theorem exists_eq_map_ok_iff {rows : List (Except Fault Declaration)} :
    (∃ declarations : List Declaration, rows = declarations.map .ok) ↔
      ∀ row ∈ rows, ∃ declaration, row = .ok declaration := by
  constructor
  · rintro ⟨declarations, rfl⟩ row among
    obtain ⟨declaration, -, rfl⟩ := List.mem_map.mp among
    exact ⟨declaration, rfl⟩
  · intro free
    induction rows with
    | nil => exact ⟨[], rfl⟩
    | cons row rows ih =>
      obtain ⟨⟨declaration, rfl⟩, later⟩ := List.forall_mem_cons.mp free
      obtain ⟨declarations, rfl⟩ := ih later
      exact ⟨declaration :: declarations, rfl⟩

variable {rows rowsAfter : List (Except Fault Declaration)} {result : SymbolTable}

/-- Two rows come to a table if both are rows of declarations, and then to the one that they
extend. -/
theorem outcome_extendTraced_extendTraced :
    (table.extendTraced first rows >>= fun table => table.extendTraced second rowsAfter).outcome =
      .ok result ↔ ∃ declarations others, rows = declarations.map .ok ∧ rowsAfter = others.map .ok ∧
        (table.extend first declarations).extend second others = result := by
  simp only [Traced.outcome_bind_eq_ok_iff, outcome_extendTraced_eq_ok_iff]
  constructor
  · rintro ⟨middle, ⟨declarations, rfl, rfl⟩, others, rfl, rfl⟩
    exact ⟨declarations, others, rfl, rfl, rfl⟩
  · rintro ⟨declarations, others, rfl, rfl, rfl⟩
    exact ⟨_, ⟨declarations, rfl, rfl⟩, others, rfl, rfl⟩

/-- Rows under different tags can be folded in in either order. -/
theorem outcome_extendTraced_swap (differ : first ≠ second)
    (ended : (table.extendTraced first rows >>= fun table =>
      table.extendTraced second rowsAfter).outcome = .ok result) :
    (table.extendTraced second rowsAfter >>= fun table =>
      table.extendTraced first rows).outcome = .ok result := by
  obtain ⟨declarations, others, rfl, rfl, rfl⟩ := outcome_extendTraced_extendTraced.mp ended
  apply outcome_extendTraced_extendTraced.mpr
  exact ⟨others, declarations, rfl, rfl, extend_swap differ.symm table others declarations⟩

/-- A row of declarations can be left out if it finds each table as it would leave it. -/
theorem comeToSame_of_extend_eq {earlier : Traced SymbolTable}
    (kept : ∀ middle, earlier.outcome = .ok middle → ∃ declarations, rows = declarations.map .ok ∧
      middle.extend moduleName declarations = middle) :
    ComeToSame (earlier >>= fun table => table.extendTraced moduleName rows) earlier := by
  rw [comeToSame_iff]
  intro result
  rw [Traced.outcome_bind_eq_ok_iff]
  constructor
  · rintro ⟨middle, ended, folded⟩
    obtain ⟨declarations, rfl, same⟩ := kept middle ended
    rw [outcome_extendTraced, same] at folded
    cases folded
    exact ended
  · intro ended
    obtain ⟨declarations, rfl, same⟩ := kept result ended
    refine ⟨result, ended, ?_⟩
    rw [outcome_extendTraced, same]

/-- A function that is declared twice. -/
def twice : List Declaration :=
  [.function "f" 1 ⟨[], "first"⟩ .unknown, .function "f" 1 ⟨[], "second"⟩ .unknown]

end SymbolTable

end SignatureIndex
