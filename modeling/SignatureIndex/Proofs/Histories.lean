import SignatureIndex.Catalog.Basic
import SignatureIndex.Proofs.NamesInOrder
import SignatureIndex.Proofs.Resolution

/-!
# Tables with a history

A table is made from the empty one or from that of a catalog, by calls that fold declarations in and
calls that resolve modules.  Whatever it holds was there at the start or was stored by one of the
calls, under one of the tags that the call was given.  So every type stands under its number of
variables and the operators stay those of the start.  What resolving stores comes from attributes
that were read, so the variables of a function are each named once, and none of them is the lone
underscore.
-/

namespace SignatureIndex

/-! ## Variables of a declared function -/

private theorem nodup_typeVariables (text : List Char) : (typeVariables text).Nodup :=
  nodup_eraseDups _

private theorem underscore_not_mem_typeVariables (text : List Char) :
    ['_'] ∉ typeVariables text := by
  intro among
  have kept := (List.mem_filter.mp (List.mem_eraseDups.mp among)).2
  simp at kept

/-- Whether a scheme names each of its variables once and does not count the lone underscore as
one. -/
def TypeScheme.IsDistinct (scheme : TypeScheme) : Prop := scheme.tyvars.Nodup ∧ "_" ∉ scheme.tyvars

instance (scheme : TypeScheme) : Decidable scheme.IsDistinct := inferInstanceAs (Decidable (_ ∧ _))

namespace Declaration

private theorem isDistinct_of_ofSpec {attr : Attribute} {name : String} {arity : Nat}
    {scheme : TypeScheme} {span : Span}
    (formed : ofSpec attr = .ok (.function name arity scheme span)) :
    scheme.IsDistinct := by
  unfold ofSpec at formed
  split at formed
  · cases formed
  next atom rest headed =>
  split at formed
  · cases formed
  next group grouped =>
  cases formed
  -- different texts are different names
  have differ (one other : List Char) (distinct : one ≠ other) :
      String.ofList one ≠ String.ofList other := fun same => distinct (String.ofList_injective same)
  refine ⟨List.Pairwise.map _ differ (nodup_typeVariables _), fun among => ?_⟩
  obtain ⟨name, listed, same⟩ := List.mem_map.mp among
  obtain rfl : name = ['_'] := String.ofList_injective same
  exact underscore_not_mem_typeVariables _ listed

private theorem isDistinct_of_ofAttribute {attr : Attribute} {name : String} {arity : Nat}
    {scheme : TypeScheme} {span : Span}
    (formed : ofAttribute attr = .ok (.function name arity scheme span)) : scheme.IsDistinct := by
  unfold ofAttribute at formed
  split at formed
  · exact isDistinct_of_ofSpec formed
  split at formed
  · -- a type is declared, if anything is
    unfold ofType at formed
    repeat' split at formed
    all_goals cases formed
  · cases formed

end Declaration

/-! ## Calls -/

/-- A call that makes a table of another one: rows of declarations are folded in under a tag, or
modules of a project are resolved. -/
inductive Call where
  | extend (moduleName : Option String) (declarations : List (Except Fault Declaration))
  | resolve (resolver : Resolver) (w : World) (start : Path) (modules : List String)

namespace Call

def run (table : SymbolTable) : Call → Traced SymbolTable
  | extend moduleName declarations => table.extendTraced moduleName declarations
  | resolve resolver w start modules => resolver.resolve w table start modules

/-- The modules, or no module, under which a call stores what it is given. -/
def tags : Call → List (Option String)
  | extend moduleName _ => [moduleName]
  | resolve _ _ _ modules => modules.map some

/-- What a call folds in, and under which tag. -/
inductive Folds : Call → Option String → Declaration → Prop
  | extend {moduleName declarations declaration} : .ok declaration ∈ declarations →
      Folds (extend moduleName declarations) moduleName declaration
  | resolve {resolver w start modules moduleName declarations declaration} : moduleName ∈ modules →
      Resolver.Declares resolver w start moduleName declarations → declaration ∈ declarations →
      Folds (resolve resolver w start modules) (some moduleName) declaration

/-- A call stores a scheme for a symbol if something that it folds in binds the symbol to the
scheme. -/
def Stores (call : Call) (symbol : Symbol) (scheme : TypeScheme) : Prop :=
  ∃ tag declaration, call.Folds tag declaration ∧ declaration.binding? tag = some (symbol, scheme)

private theorem mem_tags_of_folds {call : Call} {tag : Option String} {declaration : Declaration}
    (folds : call.Folds tag declaration) : tag ∈ call.tags := by
  cases folds with
  | extend => exact List.mem_singleton_self _
  | resolve among => exact List.mem_map_of_mem among

private theorem owner?_mem_tags_of_stores {call : Call} {symbol : Symbol} {scheme : TypeScheme}
    (stores : call.Stores symbol scheme) : symbol.owner? ∈ call.tags := by
  obtain ⟨tag, declaration, folds, binds⟩ := stores
  rw [Declaration.owner?_of_binding? binds]
  exact mem_tags_of_folds folds

private theorem arity_of_stores_type {call : Call} {ref : Ref} {scheme : TypeScheme}
    (stores : call.Stores (.type ref) scheme) : ref.arity = scheme.tyvars.length := by
  obtain ⟨tag, declaration, -, binds⟩ := stores
  cases declaration <;> cases binds
  rfl

private theorem isDistinct_of_stores_function {resolver : Resolver} {w : World} {start : Path}
    {modules : List String} {ref : Ref} {scheme : TypeScheme}
    (stores : (resolve resolver w start modules).Stores (.function ref) scheme) :
    scheme.IsDistinct := by
  obtain ⟨tag, declaration, folds, binds⟩ := stores
  cases declaration <;> cases binds
  cases folds with
  | resolve among declares member =>
    obtain ⟨paths, location, attributes, -, -, -, formed⟩ := declares
    obtain ⟨attr, -, formed⟩ := exists_of_mem_mapM formed member
    exact Declaration.isDistinct_of_ofAttribute formed

end Call

/-! ## What a call leaves in the table -/

namespace Call

variable {call : Call} {table result : SymbolTable}

private theorem find_of_run (ran : (call.run table).outcome = .ok result) {symbol : Symbol}
    {scheme : TypeScheme} (found : result.find symbol = some scheme) :
    table.find symbol = some scheme ∨ call.Stores symbol scheme := by
  cases call with
  | extend moduleName rows =>
    obtain ⟨declarations, rfl, rfl⟩ := SymbolTable.outcome_extendTraced_eq_ok_iff.mp ran
    rw [SymbolTable.find_extend, Option.or_eq_some_iff] at found
    rcases found with last | ⟨-, before⟩
    · obtain ⟨declaration, among, binds⟩ := Declaration.exists_binding?_of_lastScheme? last
      exact .inr ⟨moduleName, declaration, .extend (List.mem_map_of_mem among), binds⟩
    · exact .inl before
  | resolve resolver w start modules =>
    rcases Resolver.outcome_resolve_eq_ok_iff.mp ran with ⟨-, rfl⟩ | ⟨-, paths, searched, had, rfl⟩
    · exact .inl found
    -- only the module that owns the symbol can have stored it
    rw [Resolver.find_extendAll] at found
    split at found
    · exact .inl found
    next owner owned =>
    split at found
    next among =>
      rw [Option.or_eq_some_iff] at found
      rcases found with last | ⟨-, before⟩
      · obtain ⟨declarations, succeeds⟩ := had owner among
        rw [Resolver.declared_eq succeeds] at last
        obtain ⟨declaration, member, binds⟩ := Declaration.exists_binding?_of_lastScheme? last
        obtain ⟨location, attributes, rest⟩ := Resolver.outcome_declarations_eq_ok_iff.mp succeeds
        exact .inr ⟨some owner, declaration,
          .resolve among ⟨paths, location, attributes, searched, rest⟩ member, binds⟩
      · exact .inl before
    · exact .inl found

private theorem operators_of_run (ran : (call.run table).outcome = .ok result) :
    result.operators = table.operators := by
  cases call with
  | extend moduleName rows =>
    obtain ⟨declarations, -, rfl⟩ := SymbolTable.outcome_extendTraced_eq_ok_iff.mp ran
    exact SymbolTable.operators_extend _ _ _
  | resolve resolver w start modules =>
    rcases Resolver.outcome_resolve_eq_ok_iff.mp ran with ⟨-, rfl⟩ | ⟨-, paths, -, -, rfl⟩
    · rfl
    · exact Resolver.operators_extendAll _ _ _

end Call

/-! ## Tables reached by calls -/

/-- The tables that calls make of a starting one, one call after another.  A call that fails makes
none. -/
inductive Reached (start : SymbolTable) : List Call → SymbolTable → Prop
  | start : Reached start [] start
  | call {calls table call result} : Reached start calls table →
      (Call.run table call).outcome = .ok result → Reached start (calls ++ [call]) result

/-- What a table owes to the starting one and to the calls that were made since. -/
structure History (start : SymbolTable) (calls : List Call) (table : SymbolTable) : Prop where
  /-- Every type stands under the number of its variables. -/
  arity : ∀ ref scheme, table.findType ref = some scheme → ref.arity = scheme.tyvars.length
  operators : table.operators = start.operators
  /-- Nothing comes from anywhere else. -/
  source : ∀ symbol scheme, table.find symbol = some scheme →
    start.find symbol = some scheme ∨ ∃ call ∈ calls, call.Stores symbol scheme
  /-- A symbol that was not there at the start carries a tag that was used. -/
  tagged : ∀ symbol scheme, table.find symbol = some scheme →
    (start.find symbol).isSome ∨ symbol.owner? ∈ calls.flatMap Call.tags
  /-- What resolving stored for a function has distinct variables, whether it was overridden or
  not. -/
  distinct : ∀ resolver w path modules, Call.resolve resolver w path modules ∈ calls →
    ∀ ref scheme, (Call.resolve resolver w path modules).Stores (.function ref) scheme →
      scheme.IsDistinct

namespace History

variable {start table result : SymbolTable} {calls : List Call} {call : Call}

private theorem of_start (untyped : start.types = ∅) : History start [] start where
  arity ref scheme found := by simp [SymbolTable.findType, untyped] at found
  operators := rfl
  source symbol scheme found := .inl found
  tagged symbol scheme found := .inl (by rw [found]; rfl)
  distinct := nofun

/-- One more call: what it stores is new, and the rest has its history already. -/
theorem append (history : History start calls table) (ran : (call.run table).outcome = .ok result) :
    History start (calls ++ [call]) result := by
  have last : call ∈ calls ++ [call] := List.mem_append_right _ (List.mem_singleton_self _)
  refine ⟨fun ref scheme found => ?_, ?_, fun symbol scheme found => ?_,
    fun symbol scheme found => ?_, fun resolver w path modules _ ref scheme =>
    Call.isDistinct_of_stores_function⟩
  · have found : result.find (.type ref) = some scheme := found
    rcases Call.find_of_run ran found with before | stores
    · exact history.arity ref scheme before
    · exact Call.arity_of_stores_type stores
  · exact (Call.operators_of_run ran).trans history.operators
  · rcases Call.find_of_run ran found with before | stores
    · exact (history.source symbol scheme before).imp_right fun ⟨earlier, among, stores⟩ =>
        ⟨earlier, List.mem_append_left _ among, stores⟩
    · exact .inr ⟨call, last, stores⟩
  · rw [List.flatMap_append, List.mem_append]
    rcases Call.find_of_run ran found with before | stores
    · exact (history.tagged symbol scheme before).imp_right .inl
    · exact .inr (.inr (List.mem_flatMap.mpr
        ⟨call, List.mem_singleton_self _, Call.owner?_mem_tags_of_stores stores⟩))

end History

/-- A table that calls make of the empty one or of that of a catalog.  Its types stand under their
numbers of variables, its operators are those of the start, every other symbol was there at the
start or carries a tag of a call, and the functions that were stored by resolving have distinct
variables. -/
theorem history_of_reached {start table : SymbolTable} {calls : List Call}
    (begun : start = .empty ∨ ∃ catalog, start = .ofCatalog catalog)
    (reached : Reached start calls table) : History start calls table := by
  induction reached with
  | start =>
    rcases begun with rfl | ⟨catalog, rfl⟩
    · exact .of_start rfl
    · exact .of_start rfl
  | call _ ran ih => exact ih.append ran

namespace Resolver.project

def builtins : Catalog :=
  ⟨"erlang", [⟨"abs", 1, ⟨[], "(integer()) -> integer()"⟩⟩], [⟨"+", 2, ⟨["A"], "(A, A) -> A"⟩⟩]⟩

/-- A function written by hand, which names a variable twice. -/
def handmade : Declaration := .function "g" 2 ⟨["A", "A"], "(A, A) -> A"⟩ .unknown

def calls : List Call :=
  [.extend none [.ok handmade], .resolve project.usual project project.start ["a", "b", "a"]]

end Resolver.project

theorem history_of_reached_project :
    ∃ table, Reached (.ofCatalog Resolver.project.builtins) Resolver.project.calls table ∧
      History (.ofCatalog Resolver.project.builtins) Resolver.project.calls table := by
  obtain ⟨table, resolved⟩ := Resolver.exists_resolve_project
    ((SymbolTable.ofCatalog Resolver.project.builtins).extend none [Resolver.project.handmade])
  have extended : Reached (.ofCatalog Resolver.project.builtins)
      [.extend none [.ok Resolver.project.handmade]] _ :=
    .call .start (SymbolTable.outcome_extendTraced_eq_ok_iff.mpr ⟨[_], rfl, rfl⟩)
  have reached : Reached _ Resolver.project.calls table := .call extended resolved
  exact ⟨table, reached, history_of_reached (.inr ⟨_, rfl⟩) reached⟩

end SignatureIndex
