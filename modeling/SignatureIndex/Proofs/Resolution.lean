import SignatureIndex.Proofs.Extension
import SignatureIndex.Proofs.Scanning
import SignatureIndex.Resolver

/-!
# What resolving comes to

Resolving folds modules from left to right, and a later write takes the place of an earlier one.
The order leaves no trace all the same: each module writes under its own name only, and what it
writes does not depend on the table.  So a look-up in the table obtained can be told from the *set*
of modules, the declarations of each, and the table at the start.
-/

namespace SignatureIndex

namespace Resolver

variable {resolver : Resolver} {w : World}

/-- What a module of a project declares: its source, located on the search paths, is scanned afresh
with everything it includes, and each attribute is turned into a declaration. -/
def Declares (resolver : Resolver) (w : World) (start : Path) (moduleName : String)
    (declarations : List Declaration) : Prop :=
  ∃ paths location attributes,
    (resolver.searchPaths w start).outcome = .ok paths ∧
    (SearchPath.locateModule w paths moduleName resolver.layout).outcome = .ok location ∧
    (w.scan ⟨resolver.verbose, [location.includes], paths, resolver.depth⟩
      location.source).outcome = .ok attributes ∧
    attributes.mapM Declaration.ofAttribute = .ok declarations

theorem outcome_declarations_eq_ok_iff {paths : List Path} {moduleName : String}
    {declarations : List Declaration} :
    (resolver.declarations w paths moduleName).outcome = .ok declarations ↔
      ∃ location attributes,
        (SearchPath.locateModule w paths moduleName resolver.layout).outcome = .ok location ∧
        (w.scan ⟨resolver.verbose, [location.includes], paths, resolver.depth⟩
          location.source).outcome = .ok attributes ∧
        attributes.mapM Declaration.ofAttribute = .ok declarations := by
  simp only [Resolver.declarations, Declaration.ofAttributes, Traced.outcome_bind_eq_ok_iff,
    Traced.outcome_report, Traced.outcome_pure, Traced.outcome_ofSource_eq_ok_iff]
  constructor
  · rintro ⟨location, located, -, -, attributes, scanned, formed, transformed, -, -, same⟩
    cases same
    exact ⟨location, attributes, located, scanned, transformed⟩
  · rintro ⟨location, attributes, located, scanned, transformed⟩
    exact ⟨location, located, (), trivial, attributes, scanned, declarations,
      transformed, (), trivial, rfl⟩

theorem outcome_declarations_of_declares {start : Path} {paths : List Path} {moduleName : String}
    {declarations : List Declaration}
    (searched : (resolver.searchPaths w start).outcome = .ok paths)
    (declares : resolver.Declares w start moduleName declarations) :
    (resolver.declarations w paths moduleName).outcome = .ok declarations := by
  obtain ⟨others, location, attributes, searchedToo, located, scanned, transformed⟩ := declares
  obtain rfl : paths = others := Except.ok.inj (searched.symm.trans searchedToo)
  exact outcome_declarations_eq_ok_iff.mpr ⟨location, attributes, located, scanned, transformed⟩

/-- A module declares one thing only. -/
theorem declares_unique {start : Path} {moduleName : String} {first second : List Declaration}
    (one : resolver.Declares w start moduleName first)
    (other : resolver.Declares w start moduleName second) : first = second := by
  have ⟨paths, _, _, searched, _⟩ := one
  have had := outcome_declarations_of_declares searched one
  exact Except.ok.inj (had.symm.trans (outcome_declarations_of_declares searched other))

/-- The declarations of a module, or none if they cannot be had. -/
def declared (resolver : Resolver) (w : World) (paths : List Path) (moduleName : String) :
    List Declaration :=
  match (resolver.declarations w paths moduleName).outcome with
  | .ok declarations => declarations
  | .error _ => []

theorem declared_eq {paths : List Path} {moduleName : String} {declarations : List Declaration}
    (succeeds : (resolver.declarations w paths moduleName).outcome = .ok declarations) :
    resolver.declared w paths moduleName = declarations := by
  rw [declared, succeeds]

/-- A table with the declarations of modules, each folded in under its name. -/
def extendAll (declared : String → List Declaration) (modules : List String) (table : SymbolTable) :
    SymbolTable :=
  modules.foldl (fun table moduleName => table.extend (some moduleName) (declared moduleName)) table

theorem extendAll_cons (declared : String → List Declaration) (moduleName : String)
    (modules : List String) (table : SymbolTable) :
    extendAll declared (moduleName :: modules) table =
      extendAll declared modules (table.extend (some moduleName) (declared moduleName)) := rfl

/-- A step of folding: the module's declarations are folded in, and the other modules after it. -/
theorem outcome_foldModules_cons {paths : List Path} (moduleName : String) (modules : List String)
    (table : SymbolTable) :
    (resolver.foldModules w paths (moduleName :: modules) table).outcome =
      (resolver.declarations w paths moduleName).outcome.bind fun declarations =>
        (resolver.foldModules w paths modules
          (table.extend (some moduleName) declarations)).outcome := by
  rw [foldModules, Traced.outcome_bind]
  congr 1
  funext declarations
  rw [Traced.outcome_bind, SymbolTable.outcome_extendTraced]
  rfl

/-- Folding succeeds exactly if the declarations of every module can be had. -/
theorem outcome_foldModules_eq_ok_iff {paths : List Path} {modules : List String}
    {table result : SymbolTable} :
    (resolver.foldModules w paths modules table).outcome = .ok result ↔
      (∀ moduleName ∈ modules, ∃ declarations,
        (resolver.declarations w paths moduleName).outcome = .ok declarations) ∧
      extendAll (resolver.declared w paths) modules table = result := by
  induction modules generalizing table with
  | nil => simp [foldModules, extendAll]
  | cons moduleName modules ih =>
    rw [outcome_foldModules_cons, extendAll_cons, List.forall_mem_cons]
    cases had : (resolver.declarations w paths moduleName).outcome with
    | error fault => simp [Except.bind]
    | ok declarations =>
      -- the declarations of the first module are folded in, whatever the table
      rw [Except.bind, ih, declared_eq had]
      simp

/-- Modules do not get in each other's way: a symbol of one of them finds what that module declares,
and every other symbol what it found at the start. -/
theorem find_extendAll (declared : String → List Declaration) (modules : List String)
    (table : SymbolTable) (symbol : Symbol) :
    (extendAll declared modules table).find symbol =
      match symbol.owner? with
      | none => table.find symbol
      | some owner =>
        if owner ∈ modules then
          (Declaration.lastScheme? (some owner) (declared owner) symbol).or (table.find symbol)
        else table.find symbol := by
  induction modules generalizing table with
  | nil => cases symbol.owner? <;> rfl
  | cons moduleName modules ih =>
    rw [extendAll_cons, ih]
    cases owned : symbol.owner? with
    | none => exact SymbolTable.find_extend_of_owner?_ne (by simp [owned]) _ _
    | some owner =>
      by_cases same : owner = moduleName
      · -- the module writes its own symbol; writing it again later changes nothing
        subst same
        rw [SymbolTable.find_extend]
        simp only [List.mem_cons, true_or, if_true]
        split
        · rw [← Option.or_assoc, Option.or_self]
        · rfl
      · -- the module leaves a symbol of another one alone
        have foreign : symbol.owner? ≠ some moduleName := by simpa [owned] using same
        rw [SymbolTable.find_extend_of_owner?_ne foreign]
        simp [same]

@[simp] theorem operators_extendAll (declared : String → List Declaration) (modules : List String)
    (table : SymbolTable) : (extendAll declared modules table).operators = table.operators := by
  induction modules generalizing table with
  | nil => rfl
  | cons moduleName modules ih =>
    exact (ih _).trans (SymbolTable.operators_extend table (some moduleName) (declared moduleName))

/-- Only which modules are folded counts, not in which order or how often. -/
theorem extendAll_congr {modules others : List String}
    (same : ∀ moduleName, moduleName ∈ modules ↔ moduleName ∈ others)
    (declared : String → List Declaration) (table : SymbolTable) :
    extendAll declared modules table = extendAll declared others table := by
  apply SymbolTable.ext_find
  intro symbol
  simp only [find_extendAll, same]

/-- Where there are modules, the search paths are found and the modules folded. -/
theorem outcome_resolve_of_ne_nil {start : Path} {modules : List String} (some : modules ≠ [])
    (table : SymbolTable) :
    (resolver.resolve w table start modules).outcome =
      (resolver.searchPaths w start).outcome.bind fun paths =>
        (resolver.foldModules w paths modules table).outcome := by
  unfold Resolver.resolve
  rw [if_neg (by simpa using some), Traced.outcome_bind]

/-- Resolving succeeds exactly if there is nothing to resolve, or search paths can be had and on
them the declarations of every module. -/
theorem outcome_resolve_eq_ok_iff {table result : SymbolTable} {start : Path}
    {modules : List String} :
    (resolver.resolve w table start modules).outcome = .ok result ↔
      (modules = [] ∧ table = result) ∨
      (modules ≠ [] ∧ ∃ paths, (resolver.searchPaths w start).outcome = .ok paths ∧
        (∀ moduleName ∈ modules, ∃ declarations,
          (resolver.declarations w paths moduleName).outcome = .ok declarations) ∧
        extendAll (resolver.declared w paths) modules table = result) := by
  by_cases none : modules = []
  · subst none
    simp [resolve]
  rw [outcome_resolve_of_ne_nil none]
  cases (resolver.searchPaths w start).outcome with
  | error fault => simp [Except.bind, none]
  | ok paths => simp [Except.bind, none, outcome_foldModules_eq_ok_iff]

/-- A project of two modules.  One of them gives a spec twice and includes a header. -/
def project : World where
  entries := [
    (["l"], .directory), (["p"], .directory), (["p", "_build"], .directory),
    (["p", "_build", "default"], .directory), (["p", "_build", "default", "lib"], .directory),
    (["p", "include"], .directory), (["p", "src"], .directory),
    (["p", "src", "a.erl"], .ofText "-spec f() -> ok.\n-include(\"h.hrl\").\n-spec f() -> t().\n"),
    (["p", "src", "b.erl"], .ofText "-spec f(X) -> X.\n"),
    (["p", "include", "h.hrl"], .ofText "-type t() :: ok.\n")]
  workingDirectory := []
  system := .ofHome "/"
  programDirectories := []

namespace project

def start : Path := ⟨.root, ["p"]⟩

def usual : Resolver := ⟨⟨.root, ["l"]⟩, .default, false, none⟩

def options : ScanOptions := ⟨false, [⟨.root, ["p", "include"]⟩], [start], none⟩

def source (moduleName : String) : Path := ⟨.root, ["p", "src", moduleName ++ ".erl"]⟩

def header : Path := ⟨.root, ["p", "include", "h.hrl"]⟩

def firstSpan : Span := ⟨"/p/src/a.erl", 1, 1, 1, 15⟩

def lastSpan : Span := ⟨"/p/src/a.erl", 3, 1, 3, 16⟩

def headerSpan : Span := ⟨"/p/include/h.hrl", 1, 1, 1, 15⟩

def otherSpan : Span := ⟨"/p/src/b.erl", 1, 1, 1, 15⟩

/-- What the first module declares, with its header in between. -/
def attributes : List Attribute :=
  [⟨"spec", "f() -> ok", firstSpan⟩, ⟨"type", "t() :: ok", headerSpan⟩,
    ⟨"spec", "f() -> t()", lastSpan⟩]

def declarations : List Declaration :=
  [.function "f" 0 ⟨[], "() -> ok"⟩ firstSpan, .typeName "t" ⟨[], "ok"⟩ false headerSpan,
    .function "f" 0 ⟨[], "() -> t()"⟩ lastSpan]

end project

private theorem searchPaths_project :
    (project.usual.searchPaths project project.start).outcome = .ok [project.start] :=
  Traced.eq_ok_of_toOption (by decide +kernel)

private theorem declares_project_first :
    project.usual.Declares project project.start "a" project.declarations := by
  have located : (SearchPath.locateModule project [project.start] "a" .default).outcome =
      .ok ⟨project.source "a", ⟨.root, ["p", "include"]⟩⟩ :=
    Traced.eq_ok_of_toOption (by decide +kernel)
  have found : project.firstFile (project.options.candidates .file "h.hrl" (project.source "a")) =
      .ok (some (project.header, ["p", "include", "h.hrl"])) :=
    Traced.eq_ok_of_toOption (by decide +kernel)
  have read : (project.sheet (project.source "a")).outcome = .ok (some ["p", "src", "a.erl"],
      ⟨project.source "a", [.kept ⟨"spec", "f() -> ok", project.firstSpan⟩,
        .inclusion .file "h.hrl" ⟨"/p/src/a.erl", 2, 1, 2, 17⟩,
        .kept ⟨"spec", "f() -> t()", project.lastSpan⟩], none⟩) :=
    Traced.eq_ok_of_toOption (by decide +kernel)
  have readHeader : (project.sheet project.header).outcome = .ok (some ["p", "include", "h.hrl"],
      ⟨project.header, [.kept ⟨"type", "t() :: ok", project.headerSpan⟩], none⟩) :=
    Traced.eq_ok_of_toOption (by decide +kernel)
  have scanned : (project.scan project.options (project.source "a")).outcome =
      .ok project.attributes := by
    rw [World.scan]
    simp only [Traced.outcome_bind_eq_ok_iff]
    -- the file has a form, then what it includes, then another form
    refine ⟨_, read, ⟨_, [["p", "include", "h.hrl"]]⟩, ?_, (), rfl, rfl⟩
    rw [World.scanItems_kept, World.scanItems_of_new found (by decide) rfl]
    simp only [Traced.outcome_bind_eq_ok_iff]
    refine ⟨_, ⟨_, readHeader, ⟨[_], []⟩, ?_, (), rfl, ⟨[_], []⟩, ?_, rfl⟩, rfl⟩
    · rw [World.scanItems_kept, World.scanItems_nil]
      rfl
    · rw [World.scanItems_kept, World.scanItems_nil]
      rfl
  exact ⟨_, _, _, searchPaths_project, located, scanned,
    Traced.eq_ok_of_toOption (by decide +kernel)⟩

private theorem declares_project_second : project.usual.Declares project project.start "b"
    [.function "f" 1 ⟨["X"], "(X) -> X"⟩ project.otherSpan] := by
  have located : (SearchPath.locateModule project [project.start] "b" .default).outcome =
      .ok ⟨project.source "b", ⟨.root, ["p", "include"]⟩⟩ :=
    Traced.eq_ok_of_toOption (by decide +kernel)
  have read : (project.sheet (project.source "b")).outcome = .ok (some ["p", "src", "b.erl"],
      ⟨project.source "b", [.kept ⟨"spec", "f(X) -> X", project.otherSpan⟩], none⟩) :=
    Traced.eq_ok_of_toOption (by decide +kernel)
  have scanned : (project.scan project.options (project.source "b")).outcome =
      .ok [⟨"spec", "f(X) -> X", project.otherSpan⟩] := by
    rw [World.scan]
    simp only [Traced.outcome_bind_eq_ok_iff]
    refine ⟨_, read, ⟨[_], []⟩, ?_, (), rfl, rfl⟩
    rw [World.scanItems_kept, World.scanItems_nil]
    rfl
  exact ⟨_, _, _, searchPaths_project, located, scanned,
    Traced.eq_ok_of_toOption (by decide +kernel)⟩

/-- The modules of the project can be resolved from any table. -/
theorem exists_resolve_project (table : SymbolTable) : ∃ result,
    (project.usual.resolve project table project.start ["a", "b", "a"]).outcome = .ok result := by
  have had : ∀ moduleName ∈ ["a", "b", "a"], ∃ declarations,
      (project.usual.declarations project [project.start] moduleName).outcome =
        .ok declarations := by
    intro moduleName member
    simp only [List.mem_cons, List.not_mem_nil, or_false] at member
    rcases member with rfl | rfl | rfl
    · exact ⟨_, outcome_declarations_of_declares searchPaths_project declares_project_first⟩
    · exact ⟨_, outcome_declarations_of_declares searchPaths_project declares_project_second⟩
    · exact ⟨_, outcome_declarations_of_declares searchPaths_project declares_project_first⟩
  exact ⟨_, outcome_resolve_eq_ok_iff.mpr
    (.inr ⟨List.cons_ne_nil _ _, _, searchPaths_project, had, rfl⟩)⟩

/-- What is found after resolving.  A symbol of a module that was resolved finds the last
declaration of it in that module, includes and all, and what the table held at the start if there is
none.  Every other symbol, the local ones among them, finds what it found at the start, and
operators are never touched. -/
theorem find_of_resolve {table result : SymbolTable} {start : Path} {modules : List String}
    (resolved : (resolver.resolve w table start modules).outcome = .ok result) :
    (∀ moduleName ∈ modules, ∃ declarations,
      resolver.Declares w start moduleName declarations ∧
      ∀ symbol, symbol.owner? = some moduleName →
        result.find symbol =
          (Declaration.lastScheme? (some moduleName) declarations symbol).or (table.find symbol)) ∧
    (∀ symbol, (∀ moduleName ∈ modules, symbol.owner? ≠ some moduleName) →
      result.find symbol = table.find symbol) ∧
    result.operators = table.operators := by
  rw [outcome_resolve_eq_ok_iff] at resolved
  rcases resolved with ⟨rfl, rfl⟩ | ⟨-, paths, searched, had, rfl⟩
  · -- without modules nothing changes
    simp
  refine ⟨?_, ?_, operators_extendAll _ _ _⟩
  · intro moduleName member
    obtain ⟨declarations, succeeds⟩ := had moduleName member
    obtain ⟨location, attributes, located, scanned, transformed⟩ :=
      outcome_declarations_eq_ok_iff.mp succeeds
    refine ⟨declarations, ⟨paths, location, attributes, searched, located, scanned, transformed⟩,
      ?_⟩
    intro symbol owned
    simp only [find_extendAll, owned, if_pos member, declared_eq succeeds]
  · -- a symbol that no module owns is left alone by all of them
    intro symbol foreign
    rw [find_extendAll]
    split
    · rfl
    next owner owned => rw [if_neg fun member => foreign owner member owned]

theorem find_of_resolve_project : ∃ result,
    (project.usual.resolve project .empty project.start ["a", "b", "a"]).outcome = .ok result ∧
      result.find (.function ⟨some "a", "f", 0⟩) = some ⟨[], "() -> t()"⟩ := by
  obtain ⟨result, resolved⟩ := exists_resolve_project .empty
  obtain ⟨declarations, declares, found⟩ := (find_of_resolve resolved).1 "a" (by decide)
  obtain rfl := declares_unique declares declares_project_first
  refine ⟨result, resolved, ?_⟩
  rw [found _ rfl]
  decide +kernel

/-- The outcome depends on the set of modules alone.  Lists with the same modules, in whatever order
and however often, give a table together or not at all, and it is the same table. -/
theorem resolve_eq_ok_iff_of_same_modules {modules others : List String}
    (same : ∀ moduleName, moduleName ∈ modules ↔ moduleName ∈ others) (table : SymbolTable)
    (start : Path) (result : SymbolTable) :
    (resolver.resolve w table start modules).outcome = .ok result ↔
      (resolver.resolve w table start others).outcome = .ok result := by
  -- search paths are asked for unless there are no modules at all
  have empty : modules = [] ↔ others = [] := by
    simp only [List.eq_nil_iff_forall_not_mem, same]
  simp only [outcome_resolve_eq_ok_iff, ne_eq, empty, same, extendAll_congr same]

theorem resolve_project_of_same_modules :
    (∀ moduleName, moduleName ∈ ["a", "b", "a"] ↔ moduleName ∈ ["b", "a"]) ∧
      ∃ result,
        (project.usual.resolve project .empty project.start ["a", "b", "a"]).outcome = .ok result ∧
          (project.usual.resolve project .empty project.start ["b", "a"]).outcome = .ok result := by
  have same (moduleName : String) : moduleName ∈ ["a", "b", "a"] ↔ moduleName ∈ ["b", "a"] := by
    grind
  obtain ⟨result, resolved⟩ := exists_resolve_project .empty
  exact ⟨same, result, resolved, (resolve_eq_ok_iff_of_same_modules same _ _ _).mp resolved⟩

end Resolver

end SignatureIndex
