import SignatureIndex.Proofs.Resolution

/-!
# Resolving in stages

Modules can be resolved all at once, or some of them first and the others from the table obtained.
The outcome is the same either way: a later module never sees where the table at hand came from, and
it is the first failure that counts wherever the row of modules is cut.  Search paths are looked for
once in each stage and come to the same in all of them, and a stage without modules does not look
for them at all.
-/

namespace SignatureIndex

namespace Resolver

/-! ## What stops a module -/

/-- Why the declarations of a module of a project cannot be had: its source is not located, or it
cannot be scanned, or one of its attributes is not the declaration that it should be. -/
inductive Fails (resolver : Resolver) (w : World) (paths : List Path)
    (moduleName : String) : Fault → Prop
  | unlocated {fault} :
      (SearchPath.locateModule w paths moduleName resolver.layout).outcome = .error fault →
      Fails resolver w paths moduleName fault
  | unscanned {location fault} :
      (SearchPath.locateModule w paths moduleName resolver.layout).outcome = .ok location →
      (w.scan ⟨resolver.verbose, [location.includes], paths, resolver.depth⟩
        location.source).outcome = .error fault →
      Fails resolver w paths moduleName fault
  | malformed {location attributes problem} :
      (SearchPath.locateModule w paths moduleName resolver.layout).outcome = .ok location →
      (w.scan ⟨resolver.verbose, [location.includes], paths, resolver.depth⟩
        location.source).outcome = .ok attributes →
      attributes.mapM Declaration.ofAttribute = .error problem →
      Fails resolver w paths moduleName (.problem (.source problem))

variable {resolver : Resolver} {w : World} {paths : List Path} {start : Path} {moduleName : String}
  {modules : List String} {table : SymbolTable} {fault : Fault}

private theorem outcome_ofAttributes_eq_error_iff {path : Path} {attributes : List Attribute} :
    (Declaration.ofAttributes path attributes).outcome = .error fault ↔
      ∃ problem, attributes.mapM Declaration.ofAttribute = .error problem ∧
        fault = .problem (.source problem) := by
  unfold Declaration.ofAttributes
  rw [Traced.outcome_bind_eq_error_iff, Traced.outcome_ofSource_eq_error_iff]
  constructor
  · rintro (failed | ⟨declarations, -, failed⟩)
    · exact failed
    · -- telling about the declarations never fails
      cases failed
  · exact .inl

private theorem outcome_declarations_eq_error_iff :
    (resolver.declarations w paths moduleName).outcome = .error fault ↔
      resolver.Fails w paths moduleName fault := by
  unfold Resolver.declarations
  simp only [Traced.outcome_bind_eq_error_iff, Traced.outcome_report,
    outcome_ofAttributes_eq_error_iff, reduceCtorEq, false_or]
  constructor
  · rintro (failed | ⟨location, located, -, -,
      failed | ⟨attributes, scanned, problem, failed, rfl⟩⟩)
    · exact .unlocated failed
    · exact .unscanned located failed
    · exact .malformed located scanned failed
  · intro fails
    cases fails with
    | unlocated failed => exact .inl failed
    | unscanned located failed => exact .inr ⟨_, located, (), trivial, .inl failed⟩
    | malformed located scanned failed =>
      exact .inr ⟨_, located, (), trivial, .inr ⟨_, scanned, _, failed, rfl⟩⟩

/-! ## The first module that fails -/

/-- Folding fails exactly as the first module does whose declarations cannot be had. -/
theorem outcome_foldModules_eq_error_iff :
    (resolver.foldModules w paths modules table).outcome = .error fault ↔
      ∃ before moduleName after, modules = before ++ moduleName :: after ∧
        (∀ other ∈ before, ∃ declarations,
          (resolver.declarations w paths other).outcome = .ok declarations) ∧
        resolver.Fails w paths moduleName fault := by
  induction modules generalizing table with
  | nil => simp [foldModules]
  | cons first modules ih =>
    rw [outcome_foldModules_cons]
    cases had : (resolver.declarations w paths first).outcome with
    | error other =>
      have fails := outcome_declarations_eq_error_iff.mp had
      rw [Except.bind]
      constructor
      · intro failed
        cases failed
        exact ⟨[], first, modules, rfl, by simp, fails⟩
      · rintro ⟨before, moduleName, after, parts, succeed, failsToo⟩
        -- no module before the one that fails is the first, so the first is the one
        cases before with
        | nil =>
          obtain ⟨rfl, -⟩ := List.cons.inj parts
          have failed := outcome_declarations_eq_error_iff.mpr failsToo
          rw [had] at failed
          cases failed
          rfl
        | cons head before =>
          obtain ⟨rfl, -⟩ := List.cons.inj parts
          obtain ⟨declarations, hadToo⟩ := succeed first (by simp)
          rw [had] at hadToo
          cases hadToo
    | ok declarations =>
      rw [Except.bind, ih]
      constructor
      · rintro ⟨before, moduleName, after, rfl, succeed, fails⟩
        refine ⟨first :: before, moduleName, after, rfl, ?_, fails⟩
        exact List.forall_mem_cons.mpr ⟨⟨declarations, had⟩, succeed⟩
      · rintro ⟨before, moduleName, after, parts, succeed, fails⟩
        cases before with
        | nil =>
          -- the first module does not fail
          obtain ⟨rfl, -⟩ := List.cons.inj parts
          rw [outcome_declarations_eq_error_iff.mpr fails] at had
          cases had
        | cons head before =>
          obtain ⟨-, rfl⟩ := List.cons.inj parts
          exact ⟨before, moduleName, after, rfl, (List.forall_mem_cons.mp succeed).2, fails⟩

private theorem outcome_foldModules_append (first second : List String) (table : SymbolTable) :
    (resolver.foldModules w paths (first ++ second) table).outcome =
      (resolver.foldModules w paths first table).outcome.bind fun extended =>
        (resolver.foldModules w paths second extended).outcome := by
  induction first generalizing table with
  | nil => rfl
  | cons moduleName first ih =>
    rw [List.cons_append, outcome_foldModules_cons, outcome_foldModules_cons]
    cases (resolver.declarations w paths moduleName).outcome with
    | error other => rfl
    | ok declarations => exact ih _

/-! ## Stages -/

/-- Resolving fails exactly if there are modules and the search paths cannot be found, or else as
the first module does that cannot be had on them. -/
theorem outcome_resolve_eq_error_iff :
    (resolver.resolve w table start modules).outcome = .error fault ↔
      modules ≠ [] ∧ ((resolver.searchPaths w start).outcome = .error fault ∨
        ∃ paths before moduleName after, (resolver.searchPaths w start).outcome = .ok paths ∧
          modules = before ++ moduleName :: after ∧
          (∀ other ∈ before, ∃ declarations, resolver.Declares w start other declarations) ∧
          resolver.Fails w paths moduleName fault) := by
  by_cases none : modules = []
  · subst none
    simp [Resolver.resolve]
  rw [outcome_resolve_of_ne_nil none]
  cases searched : (resolver.searchPaths w start).outcome with
  | error other => simp [Except.bind, none]
  | ok paths =>
    -- the search paths are the same for all modules, so the modules alone decide
    rw [Except.bind, outcome_foldModules_eq_error_iff]
    constructor
    · rintro ⟨before, moduleName, after, parts, succeed, fails⟩
      refine ⟨none,
        .inr ⟨paths, before, moduleName, after, rfl, parts, fun other among => ?_, fails⟩⟩
      obtain ⟨declarations, had⟩ := succeed other among
      obtain ⟨location, attributes, rest⟩ := outcome_declarations_eq_ok_iff.mp had
      exact ⟨declarations, paths, location, attributes, searched, rest⟩
    · rintro ⟨-, failed | ⟨paths', before, moduleName, after, same, parts, succeed, fails⟩⟩
      · cases failed
      · cases same
        refine ⟨before, moduleName, after, parts, fun other among => ?_, fails⟩
        obtain ⟨declarations, declares⟩ := succeed other among
        exact ⟨declarations, outcome_declarations_of_declares searched declares⟩

/-- Resolving two rows of modules at once is resolving the second from the table that the first
comes to: either way the table is the same, and so is the fault.  The fault is that of the search
paths if they cannot be found and there is any module, and otherwise that of the first module in the
whole row that cannot be located, scanned or turned into declarations.  It has nothing to do with
the table at the start. -/
theorem outcome_resolve_append (resolver : Resolver) (w : World) (table : SymbolTable)
    (start : Path) (first second : List String) :
    (resolver.resolve w table start (first ++ second)).outcome =
        ((resolver.resolve w table start first).outcome.bind fun extended =>
          (resolver.resolve w extended start second).outcome) ∧
      (∀ fault, (resolver.resolve w table start (first ++ second)).outcome = .error fault ↔
        first ++ second ≠ [] ∧ ((resolver.searchPaths w start).outcome = .error fault ∨
          ∃ paths before moduleName after, (resolver.searchPaths w start).outcome = .ok paths ∧
            first ++ second = before ++ moduleName :: after ∧
            (∀ other ∈ before, ∃ declarations, resolver.Declares w start other declarations) ∧
            resolver.Fails w paths moduleName fault)) ∧
      ∀ other fault, (resolver.resolve w table start (first ++ second)).outcome = .error fault ↔
        (resolver.resolve w other start (first ++ second)).outcome = .error fault := by
  refine ⟨?_, fun fault => outcome_resolve_eq_error_iff, fun other fault => ?_⟩
  · by_cases noFirst : first = []
    · subst noFirst
      rfl
    by_cases noSecond : second = []
    · -- a stage without modules gives back the table it starts from
      subst noSecond
      rw [List.append_nil]
      cases (resolver.resolve w table start first).outcome <;> rfl
    have notNone : first ++ second ≠ [] := by simp [noFirst]
    rw [outcome_resolve_of_ne_nil notNone, outcome_resolve_of_ne_nil noFirst]
    simp only [outcome_resolve_of_ne_nil noSecond, outcome_foldModules_append]
    -- the search paths are the same in both stages
    cases (resolver.searchPaths w start).outcome with
    | error other => rfl
    | ok paths => rfl
  · rw [outcome_resolve_eq_error_iff, outcome_resolve_eq_error_iff]

end Resolver

end SignatureIndex
