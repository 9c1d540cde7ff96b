import SignatureIndex.Proofs.CommandFaults
import SignatureIndex.Proofs.Reports

/-!
# What is printed

A command prints its answer when everything else has been done, so a run that fails has printed
nothing, unless it breaks off in the middle of its answer: at a built-in with an arity that cannot
be written, or at a row that cannot be printed.  Whether scans are reported, and how verbose a run
is asked to be, decides what is logged, and neither what is printed nor the exit code.
-/

namespace SignatureIndex

open Traced (Concurs)

/-! ## Commands -/

namespace CommandLine

namespace Command

variable {w : World}

/-- Whether the settings ask for reports of scans has no part in the answer of a command. -/
theorem concurs_rows (verbose : Bool) (settings : Settings) (command : Command) :
    (command.rows w settings).Concurs (command.rows w { settings with verbose }) := by
  cases command with
  | paths start libraries =>
    simp only [rows, Resolver.ofSettings_verbose, bind_map_left]
    refine (Resolver.concurs_ofSettings w settings _).bind fun resolver => ?_
    exact (SearchPath.concurs_list _ resolver.libraryDirectory).bind fun paths => .pure _
  | locate moduleName start libraries =>
    simp only [rows, Resolver.ofSettings_verbose, bind_map_left]
    refine (Resolver.concurs_ofSettings w settings _).bind fun resolver => ?_
    refine (SearchPath.concurs_list _ resolver.libraryDirectory).bind fun paths => ?_
    exact (SearchPath.concurs_locateModule paths moduleName).bind fun location => .pure _
  | lookup subject modules start libraries =>
    have tables : (tableOf w settings modules start libraries).Concurs
        (tableOf w { settings with verbose } modules start libraries) := by
      simp only [tableOf, Resolver.ofSettings_verbose, bind_map_left]
      refine (Concurs.ofExcept _).bind fun catalog => ?_
      split
      · exact .pure _
      · exact (Resolver.concurs_ofSettings w settings _).bind fun resolver =>
          Resolver.concurs_resolve verbose _ _ modules
    refine tables.bind fun table => ?_
    split
    · exact .pure _
    · exact .problem _
  | builtins operators => exact (Concurs.ofExcept _).bind fun catalog => .pure _

private theorem agrees_carryOut (verbose : Bool) (settings : Settings) (command : Command) :
    (command.carryOut w settings).Agrees (command.carryOut w { settings with verbose }) := by
  rw [carryOut_eq, carryOut_eq]
  exact (concurs_rows verbose settings command).bind_agrees fun answer => .refl _

/-- A command that fails has printed nothing, unless it breaks off in its answer. -/
theorem printed_carryOut_of_error {settings : Settings} {command : Command} {fault : Fault}
    (failed : (command.carryOut w settings).outcome = .error fault) :
    (command.carryOut w settings).printed = [] ∨
      ∃ before written rows, (command.rows w settings).outcome = .ok (before, written) ∧
        StopsBehind w before written rows fault ∧
        (command.carryOut w settings).printed = rows.map fun row => before ++ row ++ "\n" := by
  have silent := (concurs_rows (w := w) settings.verbose settings command).first_silent
  rw [carryOut_eq] at failed ⊢
  rcases Traced.outcome_bind_eq_error_iff.mp failed with
    unanswered | ⟨⟨before, written⟩, answers, failed⟩
  · exact .inl ((Traced.printed_bind_of_error unanswered).trans silent)
  rcases printWritten_cases w before written with all | ⟨rows, stopped, stops, fails, printed⟩
  · have never := all.symm.trans failed
    cases never
  · obtain rfl := Except.error.inj (fails.symm.trans failed)
    refine .inr ⟨before, written, rows, answers, stops, ?_⟩
    rw [Traced.printed_bind_of_ok answers, silent, List.nil_append, printed]

/-- Whether two worlds differ for a command in no more than whether its settings file, which is at a
place, asks for reports of scans.  The command must read the file only for its settings: it must be
neither its catalog, nor a source or an included file of a module. -/
structure Reconfigured (w w' : World) (place : Location) (command : Command) : Prop where
  settings : ∃ file bytes other, Settings.find w command.startPath? = .ok file ∧
    w.locate file = .ok place ∧ w.readBytes file = .ok bytes ∧ w'.readBytes file = .ok other ∧
    Settings.DifferInReports bytes other
  unread : ∀ settings path, Settings.loadFor w command.startPath? = .ok settings →
    command.Reads w settings path → w.locate path ≠ .ok place

end Command

/-! ## Runs -/

variable {w : World}

/-- Whether a run has broken off in the answer of a command: a row could not be written or printed,
and the rows before it have been printed.  Only a built-in can be one that could not be written. -/
def BreaksOff (w : World) (command : Command) (outcome : Outcome) : Prop :=
  ∃ settings before written rows fault, Settings.loadFor w command.startPath? = .ok settings ∧
    (command.rows w settings).outcome = .ok (before, written) ∧
    Command.StopsBehind w before written rows fault ∧
    ((∃ operators, command = .builtins operators) ∨ fault = .undecodable) ∧
    outcome.fault = some fault ∧
    outcome.output = Text.plain (String.join (rows.map fun row => before ++ row ++ "\n"))

theorem exitCode_conclude (w : World) (least : Option Level) (done : Traced Unit) :
    (conclude w least done).exitCode = if done.outcome.isOk then 0 else 1 := by
  unfold conclude
  split <;> simp only [*, Except.isOk, Except.toBool] <;> rfl

theorem conclude_of_agrees {first second : Traced Unit} (agrees : first.Agrees second)
    (w w' : World) (least most : Option Level) :
    (conclude w least first).exitCode = (conclude w' most second).exitCode ∧
      (conclude w least first).output = (conclude w' most second).output := by
  simp only [exitCode_conclude, output_conclude, agrees.outcome_eq, agrees.printed_eq, and_self]

/-- How verbose a run of a command is asked to be decides only what it logs. -/
theorem runCommand_least (w : World) (least most : Option Level) (name : CommandName)
    (arguments : List String) :
    (runCommand w least name arguments).exitCode = (runCommand w most name arguments).exitCode ∧
      (runCommand w least name arguments).output = (runCommand w most name arguments).output := by
  unfold runCommand
  dsimp only
  split
  · exact ⟨rfl, rfl⟩
  · split
    · exact ⟨rfl, rfl⟩
    · split
      · exact ⟨rfl, rfl⟩
      · exact ⟨rfl, rfl⟩
      · exact conclude_of_agrees (.refl _) w w least most

private theorem output_run_of_failed {least : Option Level} {command : Command}
    (failed : (conclude w least (command.run w)).exitCode ≠ 0) :
    (conclude w least (command.run w)).output = "" ∨
      BreaksOff w command (conclude w least (command.run w)) := by
  rw [exitCode_conclude] at failed
  cases outcome : (command.run w).outcome with
  | ok => simp [outcome, Except.isOk, Except.toBool] at failed
  | error fault =>
    rcases Traced.outcome_bind_eq_error_iff.mp outcome with unloaded | ⟨settings, loaded, stopped⟩
    · refine .inl ?_
      rw [output_conclude, Command.run, Traced.printed_bind_of_error unloaded]
      exact plain_nil
    -- loading settings prints nothing
    have printed : (command.run w).printed = (command.carryOut w settings).printed :=
      Traced.printed_bind_of_ok loaded
    rcases Command.printed_carryOut_of_error stopped with
      none | ⟨before, written, rows, answers, stops, shown⟩
    · refine .inl ?_
      rw [output_conclude, printed, none]
      exact plain_nil
    · obtain ⟨stop, after, parts, printable, unprinted⟩ := stops
      have untold : ∀ problem, fault ≠ .problem problem := by
        rintro problem rfl
        cases unprinted
      -- only a built-in has a numeral in its row
      have kind : (∃ operators, command = .builtins operators) ∨ fault = .undecodable := by
        cases unprinted with
        | unwritten =>
          have among : .error _ ∈ written := parts ▸ List.mem_append_right _ List.mem_cons_self
          obtain ⟨operators, -, listing, -⟩ := Command.exists_listing_of_rows answers among
          exact .inl ⟨operators, listing⟩
        | unprintable => exact .inr rfl
      refine .inr ⟨settings, before, written, rows, fault, loaded, answers,
        ⟨stop, after, parts, printable, unprinted⟩, kind, ?_, ?_⟩
      · rw [conclude_of_fault outcome untold]
      · rw [output_conclude, printed, shown]

/-- A run of a command that fails has printed nothing, unless it breaks off in its answer. -/
theorem Ends.output_of_failed {least : Option Level} {name : CommandName} {arguments : List String}
    {outcome : Outcome} (ends : Ends w least name arguments outcome)
    (failed : outcome.exitCode ≠ 0) :
    outcome.output = "" ∨ ∃ read command, readArguments name.options true arguments = .ok read ∧
      Command.ofArguments w name read = .ok command ∧ BreaksOff w command outcome := by
  cases ends with
  | misused => exact .inl rfl
  | answered well => exact absurd well failed
  | refused => exact .inl rfl
  | concluded reads made =>
    exact (output_run_of_failed failed).imp_right fun breaks => ⟨_, _, reads, made, breaks⟩

section Reconfigured

variable {w' : World} {place : Location}

/-- A command comes to the same under settings that differ in no more than whether scans are
reported. -/
theorem conclude_of_reconfigured {command : Command} (same : w.SameBut w' place)
    (reconfigured : command.Reconfigured w w' place) (least most : Option Level) :
    (conclude w' most (command.run w')).exitCode = (conclude w least (command.run w)).exitCode ∧
      (conclude w' most (command.run w')).output = (conclude w least (command.run w)).output := by
  obtain ⟨⟨file, bytes, other, found, -, read, readOther, differ⟩, unread⟩ := reconfigured
  rcases Settings.loadFor_cases same found read readOther differ with
    ⟨settings, verbose, loaded, loadedOther⟩ | ⟨fault, otherFault, failed, failedOther⟩
  · have unread (path : Path) := unread settings path loaded
    have sameAnswer : command.carryOut w' settings = command.carryOut w settings := by
      rw [Command.carryOut_eq, Command.carryOut_eq, Command.rows_of_sameBut same unread]
      exact bind_congr fun answer => Command.printWritten_of_sameBut same _ _
    have agrees := Command.agrees_carryOut (w := w') verbose settings command
    rw [Command.run, Command.run, loaded, loadedOther, Traced.ofExcept_ok,
      Traced.ofExcept_ok, pure_bind, pure_bind, ← sameAnswer]
    exact conclude_of_agrees ⟨agrees.outcome_eq.symm, agrees.printed_eq.symm⟩ w' w most least
  · have stops {w : World} {fault : Fault}
        (failed : Settings.loadFor w command.startPath? = .error fault) :
        command.run w = Traced.fail fault := by
      rw [Command.run, failed]
      rfl
    rw [stops failed, stops failedOther, exitCode_conclude, exitCode_conclude, output_conclude,
      output_conclude]
    exact ⟨rfl, rfl⟩

/-- A run of a command comes to the same under settings that differ in no more than whether scans
are reported. -/
theorem runCommand_of_reconfigured (same : w.SameBut w' place) {name : CommandName}
    {arguments : List String}
    (reconfigured : ∀ read command, readArguments name.options true arguments = .ok read →
      Command.ofArguments w name read = .ok command → command.Reconfigured w w' place)
    (least most : Option Level) :
    (runCommand w' most name arguments).exitCode = (runCommand w least name arguments).exitCode ∧
      (runCommand w' most name arguments).output = (runCommand w least name arguments).output := by
  unfold runCommand
  dsimp only
  split
  · exact ⟨rfl, rfl⟩
  next read reads =>
  split
  · exact ⟨rfl, rfl⟩
  · rw [Command.ofArguments_of_sameBut same]
    split
    · exact ⟨rfl, rfl⟩
    · exact ⟨rfl, rfl⟩
    next command made =>
      exact conclude_of_reconfigured same (reconfigured read command reads made) least most

end Reconfigured

/-- The exit code of a run and what it prints do not depend on how verbose it is asked to be, nor on
whether the settings file asks for reports of scans, if that file is read for nothing else than
settings.  A run that fails has printed nothing, unless it breaks off in its answer. -/
theorem run_prints_alike {given other : List String} {name : CommandName} {arguments : List String}
    (first : Invokes given name arguments) (second : Invokes other name arguments) :
    (run w given).exitCode = (run w other).exitCode ∧ (run w given).output = (run w other).output ∧
    ((run w given).exitCode ≠ 0 →
      (run w given).output = "" ∨
      ∃ read command, readArguments name.options true arguments = .ok read ∧
        Command.ofArguments w name read = .ok command ∧ BreaksOff w command (run w given)) ∧
    (∀ w' place, w.SameBut w' place →
      (∀ read command, readArguments name.options true arguments = .ok read →
        Command.ofArguments w name read = .ok command → command.Reconfigured w w' place) →
      (run w' other).exitCode = (run w given).exitCode ∧
      (run w' other).output = (run w given).output) ∧
    ∀ (document : Fields) (verbose otherwise : Bool) (bytes others : List UInt8),
      Settings.Holds bytes (Settings.setVerbose verbose document) →
      Settings.Holds others (Settings.setVerbose otherwise document) →
      Settings.DifferInReports bytes others := by
  obtain ⟨least, runs⟩ := exists_run_eq_runCommand (w := w) first
  obtain ⟨most, runsToo⟩ := exists_run_eq_runCommand (w := w) second
  obtain ⟨sameCode, sameOutput⟩ := runCommand_least w least most name arguments
  rw [runs, runsToo]
  refine ⟨sameCode, sameOutput, ?_, ?_, ?_⟩
  · exact fun failed => (ends_runCommand w least name arguments).output_of_failed failed
  · intro w' place same reconfigured
    obtain ⟨most, runsThere⟩ := exists_run_eq_runCommand (w := w') second
    rw [runsThere]
    exact runCommand_of_reconfigured same reconfigured least most
  · exact fun document verbose otherwise bytes others => Settings.differInReports_of_holds

/-- A catalog with a function of one argument and one of more arguments than can be written. -/
def boundless : World where
  entries := [
    (["erlsym.toml"], .ofText "[runtime]\ncatalog = \"/c.toml\"\n[parse]\nverbose = true\n"),
    (["c.toml"], .file (Text.Utf8.encode
      ("[[function]]\nname = \"f\"\narity = 1\ntype = \"t\"\n" ++
        "[[function]]\nname = \"g\"\narity = 0x") ++
      List.replicate 3572 102 ++ Text.Utf8.encode "\ntype = \"t\"\n"))]
  workingDirectory := []
  system := .ofHome "/"
  programDirectories := []

namespace boundless

/-- The settings that do not ask for reports. -/
def quietly : List UInt8 :=
  Text.Utf8.encode "[runtime]\ncatalog = \"/c.toml\"\n[parse]\nverbose = false\n"

/-- The same world with these settings. -/
def quiet : World :=
  { boundless with entries := (["erlsym.toml"], .file quietly) :: boundless.entries.tail }

private theorem sameBut_quiet : boundless.SameBut quiet ["erlsym.toml"] :=
  @World.sameBut_of_entries boundless _ _ [] _ rfl quietly

def settings : Settings := ⟨.default, none, "/c.toml", true⟩

def catalog : Catalog where
  moduleName := "erlang"
  functions := [⟨"f", 1, ⟨[], "t"⟩⟩, ⟨"g", Nat.pow 16 3572 - 1, ⟨[], "t"⟩⟩]
  operators := []

/-- The second function has too many arguments to write how many. -/
theorem map_write : catalog.functions.map Signature.write = [.ok "f/1 :: t", .error .tooLarge] := by
  have first : Signature.write ⟨"f", 1, ⟨[], "t"⟩⟩ = .ok "f/1 :: t" :=
    Traced.eq_ok_of_toOption (by decide +kernel)
  have second : Signature.write ⟨"g", Nat.pow 16 3572 - 1, ⟨[], "t"⟩⟩ = .error .tooLarge := by
    decide +kernel
  rw [catalog, List.map_cons, List.map_cons, first, second, List.map_nil]

theorem loadFor_eq : Settings.loadFor boundless none = .ok settings :=
  Traced.eq_ok_of_toOption (by decide +kernel)

private theorem load_eq : Catalog.load boundless "/c.toml" = .ok catalog :=
  Traced.eq_ok_of_toOption (by decide +kernel)

private theorem run_builtins : (Command.builtins false).run boundless =
    Command.printWritten boundless "erlang:" [.ok "f/1 :: t", .error .tooLarge] := by
  rw [Command.run, Command.startPath?, loadFor_eq, Traced.ofExcept_ok, pure_bind,
    Command.carryOut_eq, Command.rows, settings, load_eq, Traced.ofExcept_ok, pure_bind, pure_bind]
  simp only [Command.listing, Bool.false_eq_true, if_false, map_write]
  rfl

theorem exitCode_output_run : (run boundless ["builtins"]).exitCode = 1 ∧
    (run boundless ["builtins"]).output = "erlang:f/1 :: t\n" := by
  have concluded : run boundless ["builtins"] =
      conclude boundless none ((Command.builtins false).run boundless) := rfl
  have printed :
      (Command.printWritten boundless "erlang:" [.ok "f/1 :: t", .error .tooLarge]).printed =
      ["erlang:f/1 :: t\n"] := by decide +kernel
  have failed :
      (Command.printWritten boundless "erlang:" [.ok "f/1 :: t", .error .tooLarge]).outcome.isOk =
      false := by decide +kernel
  rw [concluded, exitCode_conclude, output_conclude, run_builtins, printed, failed, Text.plain,
    Text.withoutSequences_of_not_mem (by decide)]
  exact ⟨rfl, rfl⟩

/-- The list of built-ins is reconfigured: it reads the catalog, which is another file. -/
theorem reconfigured : (Command.builtins false).Reconfigured boundless quiet ["erlsym.toml"] where
  settings := by
    refine ⟨⟨.root, ["erlsym.toml"]⟩, _, quietly, Traced.eq_ok_of_toOption (by decide +kernel),
      rfl, rfl, rfl, false, ?_⟩
    decide +kernel
  unread := by
    intro loaded path holds reads
    obtain rfl := Except.ok.inj (loadFor_eq.symm.trans holds)
    cases reads with
    | listed isPath =>
      have catalogPath : Catalog.path? boundless settings.catalog = some ⟨.root, ["c.toml"]⟩ := by
        decide +kernel
      obtain rfl := Option.some.inj (catalogPath.symm.trans isPath)
      decide +kernel

end boundless

/-- However verbose the run is asked to be, by options or by settings, it prints the row of the
first function. -/
theorem run_prints_alike_boundless :
    Invokes ["-v", "-v", "builtins"] .builtins [] ∧ Invokes ["builtins"] .builtins [] ∧
      (run boundless ["-v", "-v", "builtins"]).output = "erlang:f/1 :: t\n" ∧
      (run boundless.quiet ["-v", "-v", "builtins"]).output = "erlang:f/1 :: t\n" ∧
      BreaksOff boundless (.builtins false) (run boundless ["builtins"]) := by
  have verbose := invokes_replicate 2 .builtins []
  have still := invokes_replicate 0 .builtins []
  obtain ⟨exitCode, output⟩ := boundless.exitCode_output_run
  obtain ⟨-, same, -, -, -⟩ := run_prints_alike (w := boundless) verbose still
  obtain ⟨-, -, broken, there, -⟩ := run_prints_alike (w := boundless) still verbose
  refine ⟨verbose, still, same.trans output, ?_, ?_⟩
  · refine (there boundless.quiet _ boundless.sameBut_quiet ?_).2.trans output
    intro read command reads made
    cases reads
    cases made
    exact boundless.reconfigured
  · rcases broken (exitCode ▸ by decide) with none | ⟨read, command, reads, made, breaks⟩
    · exact absurd (none.symm.trans output) (by decide)
    · cases reads
      cases made
      exact breaks

/-- A run that fails after it has printed a row. -/
theorem output_run_boundless_ne :
    (run boundless ["builtins"]).exitCode ≠ 0 ∧ (run boundless ["builtins"]).output ≠ "" := by
  obtain ⟨exitCode, output⟩ := boundless.exitCode_output_run
  rw [exitCode, output]
  exact ⟨by decide, by decide⟩

end CommandLine

end SignatureIndex
