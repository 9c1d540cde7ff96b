import SignatureIndex.Problem.Basic

/-!
# Traced operations

Operations tell what they are doing as they go.  A traced operation is the row of events it gave
rise to together with its outcome, a value or the fault that stopped it.  Events before a fault are
kept.
-/

namespace SignatureIndex

/-- How much an event matters. -/
inductive Level where
  | debug
  | info
  deriving DecidableEq, Repr

def Level.name : Level → String
  | .debug => "DEBUG"
  | .info => "INFO"

/-- The part of the library that reports an event. -/
inductive Reporter where
  | scanner
  | transform
  | searchPaths
  | resolver
  | symbols
  deriving DecidableEq, Repr

def Reporter.name : Reporter → String
  | .scanner => "erlsym.scanner"
  | .transform => "erlsym.transform"
  | .searchPaths => "erlsym.search_paths"
  | .resolver => "erlsym.resolver"
  | .symbols => "erlsym.symbols"

/-- Something that happened during an operation. -/
inductive Event where
  | report (level : Level) (reporter : Reporter) (message : String)
  /-- A program was run with these arguments. -/
  | ran (arguments : List String)
  | printed (text : String)
  deriving DecidableEq, Repr

/-- The row in which an event is shown, if it matters enough. -/
def Event.row? (least : Level) : Event → Option String
  | .report level reporter message =>
    if least = .info ∧ level = .debug then none
    else some (level.name ++ " " ++ reporter.name ++ ": " ++ message)
  | _ => none

/-- The text that was printed, if any was. -/
def Event.printed? : Event → Option String
  | .printed text => some text
  | _ => none

/-- An operation that tells what it does. -/
structure Traced (α : Type) where
  events : List Event
  outcome : Except Fault α

namespace Traced

/-- An operation that does nothing but give a value. -/
protected def pure {α : Type} (value : α) : Traced α := ⟨[], .ok value⟩

protected def bind {α β : Type} (first : Traced α) (next : α → Traced β) : Traced β :=
  match first.outcome with
  | .error fault => ⟨first.events, .error fault⟩
  | .ok value => ⟨first.events ++ (next value).events, (next value).outcome⟩

instance : Monad Traced where
  pure := Traced.pure
  bind := Traced.bind

def fail {α : Type} (fault : Fault) : Traced α := ⟨[], .error fault⟩

def problem {α : Type} (problem : Problem) : Traced α := fail (.problem problem)

def report (level : Level) (reporter : Reporter) (message : String) : Traced Unit :=
  ⟨[.report level reporter message], .ok ()⟩

def ran (arguments : List String) : Traced Unit := ⟨[.ran arguments], .ok ()⟩

def print (text : String) : Traced Unit := ⟨[.printed text], .ok ()⟩

def ofExcept {α : Type} (outcome : Except Fault α) : Traced α := ⟨[], outcome⟩

/-- The outcome of a step that can only fail on a file. -/
def ofFile {α : Type} : Except FileError α → Traced α
  | .ok value => pure value
  | .error e => fail (.file e)

/-- The outcome of a step that can only have problems with sources. -/
def ofSource {α : Type} : Except SourceProblem α → Traced α
  | .ok value => pure value
  | .error problem => fail (.problem (.source problem))

theorem bind_eq {α β : Type} (first : Traced α) (next : α → Traced β) :
    first >>= next = Traced.bind first next := rfl

theorem pure_eq {α : Type} (value : α) : (pure value : Traced α) = ⟨[], .ok value⟩ := rfl

private theorem id_map {α : Type} (operation : Traced α) : id <$> operation = operation := by
  obtain ⟨events, _ | value⟩ := operation <;> simp [Functor.map, Traced.bind, Traced.pure]

private theorem pure_bind {α β : Type} (value : α) (next : α → Traced β) :
    pure value >>= next = next value := by
  simp [bind, pure, Traced.bind, Traced.pure]

private theorem bind_assoc {α β γ : Type} (first : Traced α) (next : α → Traced β)
    (last : β → Traced γ) : first >>= next >>= last = first >>= fun value =>
    next value >>= last := by
  obtain ⟨events, _ | value⟩ := first
  · simp [bind, Traced.bind]
  · cases outcome : (next value).outcome <;> simp [bind, Traced.bind, outcome]

instance : LawfulMonad Traced := LawfulMonad.mk' Traced id_map pure_bind bind_assoc

/-- One operation after another comes to what the second comes to, unless the first fails. -/
@[simp] theorem outcome_bind {α β : Type} (first : Traced α) (next : α → Traced β) :
    (first >>= next).outcome = first.outcome.bind fun value => (next value).outcome := by
  obtain ⟨events, _ | value⟩ := first <;> rfl

/-- What comes after an operation matters only for the value that the operation gives. -/
theorem bind_congr_of_outcome {α β : Type} {first : Traced α} {next other : α → Traced β}
    (same : ∀ value, first.outcome = .ok value → next value = other value) :
    first >>= next = first >>= other := by
  obtain ⟨events, _ | value⟩ := first
  · rfl
  · rw [bind_eq, bind_eq, Traced.bind, Traced.bind]
    simp only [same value rfl]

/-- Two operations one after the other succeed exactly if both do. -/
theorem outcome_bind_eq_ok_iff {α β : Type} {first : Traced α} {next : α → Traced β} {result : β} :
    (first >>= next).outcome = .ok result ↔
      ∃ value, first.outcome = .ok value ∧ (next value).outcome = .ok result := by
  rw [outcome_bind]
  cases first.outcome <;> simp [Except.bind]

/-- Two operations one after the other fail as the first does, or as the second does after the first
has succeeded. -/
theorem outcome_bind_eq_error_iff {α β : Type} {first : Traced α} {next : α → Traced β}
    {fault : Fault} :
    (first >>= next).outcome = .error fault ↔
      first.outcome = .error fault ∨
        ∃ value, first.outcome = .ok value ∧ (next value).outcome = .error fault := by
  rw [outcome_bind]
  cases first.outcome <;> simp [Except.bind]

/-- A fault that neither of two operations has is not had by one after the other. -/
theorem outcome_bind_ne_error {α β : Type} {first : Traced α} {next : α → Traced β} {fault : Fault}
    (firstNot : first.outcome ≠ .error fault)
    (nextNot : ∀ value, (next value).outcome ≠ .error fault) :
    (first >>= next).outcome ≠ .error fault := by
  intro failed
  rw [outcome_bind] at failed
  cases outcome : first.outcome with
  | error other =>
    rw [outcome] at failed
    cases failed
    exact firstNot outcome
  | ok value =>
    rw [outcome] at failed
    exact nextNot value failed

@[simp] theorem outcome_pure {α : Type} (value : α) :
    (pure value : Traced α).outcome = .ok value := rfl

@[simp] theorem outcome_report (level : Level) (reporter : Reporter) (message : String) :
    (report level reporter message).outcome = .ok () := rfl

@[simp] theorem outcome_ofFile {α : Type} (outcome : Except FileError α) :
    (ofFile outcome).outcome = outcome.mapError Fault.file := by
  cases outcome <;> rfl

@[simp] theorem outcome_ofFile_eq_ok_iff {α : Type} {outcome : Except FileError α} {value : α} :
    (ofFile outcome).outcome = .ok value ↔ outcome = .ok value := by
  cases outcome <;> simp [ofFile, fail]

@[simp] theorem outcome_ofSource_eq_ok_iff {α : Type}
    {outcome : Except SourceProblem α} {value : α} :
    (ofSource outcome).outcome = .ok value ↔ outcome = .ok value := by
  cases outcome <;> simp [ofSource, fail]

theorem outcome_ofFile_eq_error_iff {α : Type} {outcome : Except FileError α} {fault : Fault} :
    (ofFile outcome).outcome = .error fault ↔ ∃ e, outcome = .error e ∧ fault = .file e := by
  cases outcome <;> simp [ofFile, fail, eq_comm]

theorem outcome_ofSource_eq_error_iff {α : Type} {outcome : Except SourceProblem α}
    {fault : Fault} : (ofSource outcome).outcome = .error fault ↔
      ∃ problem, outcome = .error problem ∧ fault = .problem (.source problem) := by
  cases outcome <;> simp [ofSource, fail, eq_comm]

/-- An outcome is a value if it is one when the faults are forgotten. -/
theorem eq_ok_of_toOption {ε α : Type} {outcome : Except ε α} {value : α}
    (succeeds : outcome.toOption = some value) : outcome = .ok value := by
  cases outcome with
  | error e => cases succeeds
  | ok other => exact congrArg Except.ok (Option.some.inj succeeds)

/-- A step that succeeds in silence adds nothing to what is told. -/
@[simp] theorem ofExcept_ok {α : Type} (value : α) : ofExcept (.ok value) = pure value := rfl

end Traced

end SignatureIndex
