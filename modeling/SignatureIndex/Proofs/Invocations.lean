import SignatureIndex.CommandLine

/-!
# Invocations

A command is invoked by its name and its arguments, after options of the program that ask it to be
verbose, however many of them there are.  What the run comes to is what the command comes to; how
verbose it is asked to be decides only what is logged.
-/

namespace SignatureIndex.CommandLine

/-- Whether the arguments of the program invoke a command: nothing but requests to be verbose comes
before its name. -/
def Invokes (given : List String) (name : CommandName) (arguments : List String) : Prop :=
  ∃ read, readArguments programOptions false given = .ok read ∧
    (∀ option ∈ read.given, option.key = "verbose") ∧ read.rest = name.written :: arguments

variable {w : World} {given other : List String} {name : CommandName} {arguments : List String}

private theorem ofString?_written (name : CommandName) :
    CommandName.ofString? name.written = some name := by
  cases name <;> rfl

/-- The name of a command is no option. -/
theorem isOption_written (name : CommandName) : isOption name.written = false := by
  cases name <;> decide

/-- A command may be invoked with any number of requests to be verbose. -/
theorem invokes_replicate (count : Nat) (name : CommandName) (arguments : List String) :
    Invokes (List.replicate count "-v" ++ name.written :: arguments) name arguments := by
  -- each request is read in front of the others
  induction count with
  | zero =>
    refine ⟨⟨[], name.written :: arguments⟩, ?_, nofun, rfl⟩
    have noMark : name.written ≠ "--" := by cases name <;> decide
    rw [List.replicate_zero, List.nil_append, readArguments, if_neg noMark, isOption_written]
    rfl
  | succ count ih =>
    obtain ⟨read, reads, verbose, rest⟩ := ih
    refine ⟨⟨⟨"verbose", ""⟩ :: read.given, read.rest⟩, ?_, ?_, rest⟩
    · have request : readOption programOptions "-v" = .ok ⟨[⟨"verbose", ""⟩], none⟩ := by rfl
      have isRequest : isOption "-v" = true := by decide
      rw [List.replicate_succ, List.cons_append, readArguments, if_neg (by decide), isRequest,
        if_pos rfl, request]
      simp only [reads]
      rfl
    · intro option among
      rcases List.mem_cons.mp among with rfl | among
      · rfl
      · exact verbose option among

private theorem shortcut?_eq_none {usage : String} {read : Arguments}
    (verbose : ∀ option ∈ read.given, option.key = "verbose") : shortcut? usage read = none := by
  rw [shortcut?, List.findSome?_eq_none_iff]
  intro option among
  rw [verbose option among]
  rfl

/-- A run that invokes a command is a run of the command. -/
theorem exists_run_eq_runCommand (invokes : Invokes given name arguments) :
    ∃ least, run w given = runCommand w least name arguments := by
  obtain ⟨read, reads, verbose, rest⟩ := invokes
  refine ⟨leastLevel? (read.count "verbose"), ?_⟩
  have some : given.isEmpty = false := by
    cases given with
    | nil =>
      cases reads
      cases rest
    | cons => rfl
  rw [run, some]
  simp only [reads, shortcut?_eq_none verbose, rest, ofString?_written,
    Bool.false_eq_true, if_false]

/-! ## How a run of a command goes -/

/-- The ways in which a run of a command can end. -/
inductive Ends (w : World) (least : Option Level) (name : CommandName) (arguments : List String) :
    Outcome → Prop
  | misused (error : UsageError) :
      Ends w least name arguments (misuse s!"{programName} {name.written}" name.usage error)
  /-- An option was given that leaves nothing else to do. -/
  | answered {outcome} : outcome.exitCode = 0 → outcome.fault = none →
      Ends w least name arguments outcome
  /-- A value that was given cannot even be looked at. -/
  | refused {read fault} : readArguments name.options true arguments = .ok read →
      Command.ofArguments w name read = .error (.fault fault) →
      Ends w least name arguments ⟨1, "", "", some fault⟩
  | concluded {read command} : readArguments name.options true arguments = .ok read →
      Command.ofArguments w name read = .ok command →
      Ends w least name arguments (conclude w least (command.run w))

private theorem of_shortcut?_eq_some {usage : String} {read : Arguments} {outcome : Outcome}
    (found : shortcut? usage read = some outcome) :
    outcome.exitCode = 0 ∧ outcome.fault = none := by
  obtain ⟨option, -, found⟩ := List.exists_of_findSome?_eq_some found
  split at found
  · cases found
    exact ⟨rfl, rfl⟩
  · split at found
    · cases found
      exact ⟨rfl, rfl⟩
    · cases found

theorem ends_runCommand (w : World) (least : Option Level) (name : CommandName)
    (arguments : List String) :
    Ends w least name arguments (runCommand w least name arguments) := by
  unfold runCommand
  dsimp only
  split
  · exact .misused _
  next read reads =>
  split
  next outcome found =>
    exact .answered (of_shortcut?_eq_some found).1 (of_shortcut?_eq_some found).2
  · split
    · exact .misused _
    next fault refuses => exact .refused reads refuses
    next command made => exact .concluded reads made

end SignatureIndex.CommandLine
