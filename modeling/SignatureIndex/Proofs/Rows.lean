import SignatureIndex.CommandLine
import SignatureIndex.Proofs.Verbosity

/-!
# Rows of text

A command works out its answer first and then prints it row by row, up to the first row that could
not be written or cannot be printed.  What a run shows is what its command has printed.
-/

namespace SignatureIndex.CommandLine

namespace Command

/-! ## Printing -/

/-- What can be the matter with a row: it could not be written, or it cannot be printed. -/
inductive Unprinted (w : World) (before : String) : Except NumeralFlaw String → Fault → Prop
  | unwritten {flaw} : Unprinted w before (.error flaw) (.numeral flaw)
  | unprintable {text} : isPrintable w (before ++ text) = false →
      Unprinted w before (.ok text) .undecodable

/-- Whether printing what has been written stops with a fault behind some rows that can be
printed. -/
def StopsBehind (w : World) (before : String) (written : List (Except NumeralFlaw String))
    (rows : List String) (fault : Fault) : Prop :=
  ∃ stop after, written = rows.map .ok ++ stop :: after ∧
    (∀ row ∈ rows, isPrintable w (before ++ row) = true) ∧ Unprinted w before stop fault

/-- What has been written is printed row by row: all of it, or what comes before the first row with
which something is the matter. -/
theorem printWritten_cases (w : World) (before : String)
    (written : List (Except NumeralFlaw String)) :
    (printWritten w before written).outcome = .ok () ∨
      ∃ rows fault, StopsBehind w before written rows fault ∧
        (printWritten w before written).outcome = .error fault ∧
        (printWritten w before written).printed = rows.map fun row => before ++ row ++ "\n" := by
  induction written with
  | nil => exact .inl rfl
  | cons first written ih =>
    cases first with
    | error flaw => exact .inr ⟨[], _, ⟨.error flaw, written, rfl, nofun, .unwritten⟩, rfl, rfl⟩
    | ok row =>
      rw [printWritten]
      cases printable : isPrintable w (before ++ row) with
      | false =>
        have stops : printRow w (before ++ row) = Traced.fail .undecodable := by
          rw [printRow, printable]
          rfl
        rw [stops]
        exact .inr ⟨[], _, ⟨.ok row, written, rfl, nofun, .unprintable printable⟩, rfl, rfl⟩
      | true =>
        have prints : printRow w (before ++ row) = Traced.print (before ++ row ++ "\n") := by
          rw [printRow, if_pos printable]
        rw [prints]
        -- the row is printed before the others, whatever becomes of them
        rcases ih with all | ⟨rows, fault, ⟨stop, after, rfl, others, unprinted⟩, failed, printed⟩
        · exact .inl (Traced.outcome_bind_eq_ok_iff.mpr ⟨(), rfl, all⟩)
        · refine .inr ⟨row :: rows, fault, ⟨stop, after, rfl, ?_, unprinted⟩, ?_, ?_⟩
          · exact List.forall_mem_cons.mpr ⟨printable, others⟩
          · exact Traced.outcome_bind_eq_error_iff.mpr (.inr ⟨(), rfl, failed⟩)
          · rw [Traced.printed_bind_of_ok rfl, printed]
            rfl

private theorem forM_printRow_eq {α : Type} (w : World) (values : List α) (text : α → String) :
    (values.forM fun value => printRow w (text value)) =
      printWritten w "" (values.map fun value => .ok (text value)) := by
  induction values with
  | nil => rfl
  | cons value values ih =>
    rw [List.forM_eq_forM] at ih ⊢
    rw [List.forM_cons, List.map_cons, printWritten, String.empty_append, ih]

private theorem printRow_eq (w : World) (text : String) :
    printRow w text = printWritten w "" [.ok text] := by
  rw [printWritten, String.empty_append, printWritten]
  exact (bind_pure_unit).symm

/-! ## The rows of each command -/

/-- What a list of built-ins shows before each signature, and the signatures. -/
def listing (catalog : Catalog) (operators : Bool) : String × List Signature :=
  if operators then ("", catalog.operators) else (catalog.moduleName ++ ":", catalog.functions)

/-- The table in which a command looks a subject up. -/
def tableOf (w : World) (settings : Settings) (modules : List String) (start : String)
    (libraryDirectory : Option String) : Traced SymbolTable := do
  let catalog ← Traced.ofExcept (Catalog.load w settings.catalog)
  let seeded := SymbolTable.ofCatalog catalog
  if modules.isEmpty then pure seeded
  else do
    let resolver ← Resolver.ofSettings w settings (libraryDirectory.map Path.ofString)
    resolver.resolve w seeded (Path.ofString start) modules

/-- The answer of a command: the text before each row, and the rows as far as they can be
written. -/
def rows (w : World) (settings : Settings) :
    Command → Traced (String × List (Except NumeralFlaw String))
  | .paths start libraryDirectory => do
    let resolver ← Resolver.ofSettings w settings (libraryDirectory.map Path.ofString)
    let paths ← resolver.searchPaths w (Path.ofString start)
    pure ("", paths.map fun path => .ok (toString path))
  | .locate moduleName start libraryDirectory => do
    let resolver ← Resolver.ofSettings w settings (libraryDirectory.map Path.ofString)
    let paths ← resolver.searchPaths w (Path.ofString start)
    let location ← SearchPath.locateModule w paths moduleName resolver.layout
    pure ("", [.ok s!"source:  {location.source}", .ok s!"include: {location.includes}"])
  | .lookup subject modules start libraryDirectory => do
    let table ← tableOf w settings modules start libraryDirectory
    match table.lookup subject.symbol askedSpan with
    | .ok scheme => pure ("", [.ok (toString scheme)])
    | .error problem => Traced.problem problem
  | .builtins operators => do
    let catalog ← Traced.ofExcept (Catalog.load w settings.catalog)
    pure ((listing catalog operators).1, (listing catalog operators).2.map Signature.write)

/-- A command works out its answer and then prints it. -/
theorem carryOut_eq (w : World) (settings : Settings) (command : Command) :
    command.carryOut w settings = command.rows w settings >>= fun answer =>
      printWritten w answer.1 answer.2 := by
  cases command with
  | paths start given =>
    simp only [carryOut, rows, bind_assoc, pure_bind, forM_printRow_eq]
  | locate moduleName start given =>
    simp only [carryOut, rows, bind_assoc, pure_bind, printRow_eq w s!"include: {_}"]
    rfl
  | lookup subject modules start given =>
    have answers (table : SymbolTable) : answer w table subject =
        (match table.lookup subject.symbol askedSpan with
          | .ok scheme => pure ("", [.ok (toString scheme)])
          | .error problem => Traced.problem problem) >>= fun answer =>
            printWritten w answer.1 answer.2 := by
      unfold answer
      cases table.lookup subject.symbol askedSpan with
      | ok scheme => exact printRow_eq w _
      | error problem => rfl
    simp only [carryOut, rows, tableOf, bind_assoc, answers]
    refine bind_congr fun catalog => ?_
    -- without modules only the catalog is looked into
    cases modules.isEmpty
    · simp only [Bool.false_eq_true, if_false, bind_assoc]
    · rfl
  | builtins operators =>
    cases operators <;> simp only [carryOut, rows, bind_assoc, pure_bind] <;> rfl

end Command

theorem output_conclude (w : World) (least : Option Level) (done : Traced Unit) :
    (conclude w least done).output = Text.plain (String.join done.printed) := by
  unfold conclude
  split <;> rfl

theorem plain_nil : Text.plain (String.join []) = "" := by
  rw [Text.plain, Text.withoutSequences_of_not_mem (by decide)]
  rfl

end SignatureIndex.CommandLine
