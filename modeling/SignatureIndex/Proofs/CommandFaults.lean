import SignatureIndex.Proofs.Hindrances
import SignatureIndex.Proofs.Invocations
import SignatureIndex.Proofs.Loading
import SignatureIndex.Proofs.Rows

/-!
# What commands come to

A run of a command succeeds, or it is a wrong use, or it tells of one problem, or a fault escapes
that it does not tell of.  Which faults escape is known: they come from hindrances in the way of the
settings, of the catalog, of the runtime and of resolving, from null characters in what was given,
from built-ins with arities that cannot be written, and from rows that cannot be printed.
-/

namespace SignatureIndex

namespace CommandLine

/-! ## Refusals -/

section Refusals

variable {w : World} {fault : Fault}

/-- All texts that were given: the values of options, and the other arguments. -/
def Arguments.texts (arguments : Arguments) : List String :=
  arguments.given.map Given.value ++ arguments.rest

theorem Arguments.mem_texts_of_last? {arguments : Arguments} {key text : String}
    (last : arguments.last? key = some text) : text ∈ arguments.texts := by
  obtain ⟨option, isLast, rfl⟩ := Option.map_eq_some_iff.mp last
  have among := (List.mem_filter.mp (List.mem_of_getLast? isLast)).1
  exact List.mem_append_left _ (List.mem_map_of_mem among)

/-- Only the checks themselves are put in order. -/
theorem mem_of_mem_inOrder {given : List Given} {arguments : List String} {checks : List Check}
    {check : Check} (among : check ∈ inOrder given arguments checks) : check ∈ checks := by
  rcases List.mem_append.mp among with named | other
  · obtain ⟨key, -, named⟩ := List.mem_flatMap.mp named
    exact (List.mem_filter.mp named).1
  · exact (List.mem_filter.mp other).1

theorem hasNull_of_checkDirectory {hint text : String} {mustExist : Bool}
    (failed : checkDirectory w hint mustExist text = .error (.fault fault)) :
    fault = .file .nullCharacter ∧ Path.hasNull text = true := by
  unfold checkDirectory at failed
  dsimp only at failed
  split at failed
  next unlocated =>
    cases failed
    apply And.intro rfl
    -- following the names of a text stops for other reasons
    unfold World.locateText at unlocated
    split at unlocated
    next null => exact null
    split at unlocated
    · cases unlocated
    split at unlocated
    · cases unlocated
    · simpa [World.IsObstacle] using World.isObstacle_of_walk unlocated
  · split at failed <;> cases failed
  · split at failed
    · cases failed
    · split at failed <;> cases failed

/-- Whether a fault is that there is a null character in one of the texts that were given. -/
def Arguments.IsNull (arguments : Arguments) (fault : Fault) : Prop :=
  fault = .file .nullCharacter ∧ ∃ text ∈ arguments.texts, Path.hasNull text = true

namespace Command

variable {arguments : Arguments}

private theorem isNull_of_libraryCheck (failed :
    (libraryCheck w arguments).outcome = .error (.fault fault)) :
    arguments.IsNull fault := by
  cases last : arguments.last? "libraries" with
  | none => simp [libraryCheck, last] at failed
  | some text =>
    simp only [libraryCheck, last, Option.map_some, Option.getD_some] at failed
    obtain ⟨rfl, null⟩ := hasNull_of_checkDirectory failed
    exact ⟨rfl, text, Arguments.mem_texts_of_last? last, null⟩

/-- A directory to start from that was not given is the working directory, which can be looked
at. -/
theorem isNull_of_checkDirectory {hint : String} {mustExist : Bool} {given : Option String}
    (among : ∀ text, given = some text → text ∈ arguments.texts)
    (failed : checkDirectory w hint mustExist (given.getD ".") = .error (.fault fault)) :
    arguments.IsNull fault := by
  obtain ⟨rfl, null⟩ := hasNull_of_checkDirectory failed
  cases given with
  | none => exact absurd null (by decide)
  | some text => exact ⟨rfl, text, among text rfl, null⟩

private theorem isNull_of_startCheck (failed :
    (startCheck w arguments).outcome = .error (.fault fault)) :
    arguments.IsNull fault :=
  isNull_of_checkDirectory (fun _ => Arguments.mem_texts_of_last?) failed

private theorem mem_texts_of_head? (text : String) (first : arguments.rest.head? = some text) :
    text ∈ arguments.texts :=
  List.mem_append_right _ (List.mem_of_head? first)

private theorem noFurther_ne_fault (taken : Nat) :
    noFurther taken arguments ≠ .error (.fault fault) := by
  unfold noFurther
  split <;> nofun

private theorem required_ne_fault (name : String) (given : Option String) :
    required name given ≠ .error (.fault fault) := by
  unfold required
  split <;> nofun

private theorem checkKind_ne_fault (text : String) : checkKind text ≠ .error (.fault fault) := by
  unfold checkKind
  split <;> nofun

private theorem readSubject_ne_fault (kind text : String) :
    readSubject kind text ≠ .error (.fault fault) := by
  unfold readSubject
  dsimp only
  split <;> nofun

private theorem isNull_of_runChecks {keys : List String} {checks : List Check}
    (fair : ∀ check ∈ checks, check.outcome = .error (.fault fault) → arguments.IsNull fault)
    (failed : runChecks (inOrder arguments.given keys checks) = .error (.fault fault)) :
    arguments.IsNull fault := by
  obtain ⟨check, among, failed⟩ := exists_of_forM_eq_error failed
  exact fair check (mem_of_mem_inOrder among) failed

/-- Arguments that are not read as a command are a wrong use, unless there is a null character in
one of them. -/
theorem isNull_of_ofArguments {name : CommandName}
    (refuses : ofArguments w name arguments = .error (.fault fault)) : arguments.IsNull fault := by
  -- values are checked first, then the arguments are counted, and a reference is read last
  cases name with
  | paths =>
    simp only [ofArguments, bind_eq_error_iff] at refuses
    rcases refuses with failed | ⟨-, -, further | ⟨-, -, never⟩⟩
    · refine isNull_of_runChecks ?_ failed
      intro check among failed
      simp only [List.mem_cons, List.not_mem_nil, or_false] at among
      rcases among with rfl | rfl
      · exact isNull_of_checkDirectory mem_texts_of_head? failed
      · exact isNull_of_libraryCheck failed
    · exact absurd further (noFurther_ne_fault _)
    · cases never
  | locate =>
    simp only [ofArguments, bind_eq_error_iff] at refuses
    rcases refuses with failed | ⟨-, -, further | ⟨-, -, never⟩⟩
    · refine isNull_of_runChecks ?_ failed
      intro check among failed
      simp only [List.mem_cons, List.not_mem_nil, or_false] at among
      rcases among with rfl | rfl | rfl
      · exact absurd failed (required_ne_fault _ _)
      · exact isNull_of_startCheck failed
      · exact isNull_of_libraryCheck failed
    · exact absurd further (noFurther_ne_fault _)
    · cases never
  | lookup =>
    simp only [ofArguments, bind_eq_error_iff] at refuses
    rcases refuses with failed | ⟨-, -, further | ⟨-, -, unread | ⟨subject, -, never⟩⟩⟩
    · refine isNull_of_runChecks ?_ failed
      intro check among failed
      simp only [List.mem_cons, List.not_mem_nil, or_false] at among
      rcases among with rfl | rfl | rfl | rfl
      · exact absurd failed (required_ne_fault _ _)
      · exact absurd failed (checkKind_ne_fault _)
      · exact isNull_of_startCheck failed
      · exact isNull_of_libraryCheck failed
    · exact absurd further (noFurther_ne_fault _)
    · exact absurd unread (readSubject_ne_fault _ _)
    · cases never
  | builtins =>
    simp only [ofArguments, bind_eq_error_iff] at refuses
    rcases refuses with further | ⟨-, -, never⟩
    · exact absurd further (noFurther_ne_fault _)
    · cases never

end Command

end Refusals

/-! ## Hindrances of commands -/

namespace Command

/-- The modules that a command asks for. -/
def modules : Command → List String
  | .paths _ _ => []
  | .locate moduleName _ _ => [moduleName]
  | .lookup _ modules _ _ => modules
  | .builtins _ => []

/-- The directory of libraries that a command was given. -/
def libraries? : Command → Option Path
  | .paths _ given | .locate _ _ given | .lookup _ _ _ given => given.map Path.ofString
  | .builtins _ => none

/-- Whether a command uses the catalog. -/
def ReadsCatalog : Command → Prop
  | .lookup _ _ _ _ | .builtins _ => True
  | .paths _ _ | .locate _ _ _ => False

/-- Whether a command looks for search paths. -/
def Searches : Command → Prop
  | .paths _ _ | .locate _ _ _ => True
  | .lookup _ modules _ _ => modules ≠ []
  | .builtins _ => False

/-- What can be in the way of a command. -/
inductive Hindered (w : World) (command : Command) : Fault → Prop
  | settings {fault} : Settings.Hindered w command.startPath? fault → Hindered w command fault
  | catalog {settings fault} : command.ReadsCatalog →
      Settings.loadFor w command.startPath? = .ok settings →
      Catalog.Hindered w settings.catalog fault → Hindered w command fault
  /-- The runtime has to be asked for its libraries. -/
  | runtime {settings fault} : command.Searches →
      Settings.loadFor w command.startPath? = .ok settings → command.libraries? = none →
      settings.libraryDirectory = none ∨ settings.libraryDirectory = some "" →
      Discovery.Hindered w fault → Hindered w command fault
  | resolving {settings resolver fault} : command.Searches →
      Settings.loadFor w command.startPath? = .ok settings →
      (Resolver.ofSettings w settings command.libraries?).outcome = .ok resolver →
      resolver.Hindered w (command.startPath?.getD .here) command.modules fault →
      Hindered w command fault
  /-- The arity of a built-in that is to be listed cannot be written. -/
  | numeral {settings catalog operators signature flaw} : command = .builtins operators →
      Settings.loadFor w none = .ok settings → Catalog.load w settings.catalog = .ok catalog →
      signature ∈ (listing catalog operators).2 → signature.write = .error flaw →
      Hindered w command (.numeral flaw)
  /-- A row of the answer cannot be printed. -/
  | unprintable {settings before written text} :
      Settings.loadFor w command.startPath? = .ok settings →
      (command.rows w settings).outcome = .ok (before, written) → .ok text ∈ written →
      isPrintable w (before ++ text) = false → Hindered w command .undecodable

/-- Whether a fault is a problem, or something in the way of a command. -/
def Expects (w : World) (command : Command) (fault : Fault) : Prop :=
  (∃ problem, fault = .problem problem) ∨ command.Hindered w fault

section Steps

variable {w : World} {fault : Fault} {command : Command} {settings : Settings}
  (loaded : Settings.loadFor w command.startPath? = .ok settings)
include loaded

private theorem expects_of_ofSettings (searches : command.Searches)
    (failed : (Resolver.ofSettings w settings command.libraries?).outcome = .error fault) :
    command.Expects w fault := by
  unfold Resolver.ofSettings at failed
  dsimp only at failed
  split at failed
  · cases failed
  next notGiven =>
  -- the runtime is asked if nothing is set either, or if an empty text is
  have asks (unset : settings.libraryDirectory = none ∨ settings.libraryDirectory = some "")
      (unanswered : (Discovery.libraryDirectory w none Discovery.usualLimit).outcome =
        .error fault) :
      command.Expects w fault := by
    rcases Discovery.hindered_of_libraryDirectory unanswered with ⟨problem, rfl⟩ | hindered
    · exact .inl ⟨_, rfl⟩
    · exact .inr (.runtime searches loaded notGiven unset hindered)
  split at failed
  next unset =>
    rcases Traced.outcome_bind_eq_error_iff.mp failed with unanswered | ⟨_, -, never⟩
    · exact asks (.inl unset) unanswered
    · cases never
  next unset =>
    rcases Traced.outcome_bind_eq_error_iff.mp failed with unanswered | ⟨_, -, never⟩
    · exact asks (.inr unset) unanswered
    · cases never
  · cases failed

/-- What is expected of a resolver is expected of a command that it is made for. -/
theorem expects_of_resolver {resolver : Resolver} (searches : command.Searches)
    (made : (Resolver.ofSettings w settings command.libraries?).outcome = .ok resolver)
    (expects : resolver.Expects w (command.startPath?.getD .here) command.modules fault) :
    command.Expects w fault := by
  rcases expects with ⟨problem, rfl, -⟩ | hindered
  · exact .inl ⟨problem, rfl⟩
  · exact .inr (.resolving searches loaded made hindered)

private theorem expects_of_load (reads : command.ReadsCatalog)
    (failed : Catalog.load w settings.catalog = .error fault) : command.Expects w fault := by
  rcases Catalog.hindered_of_load failed with ⟨problem, rfl⟩ | hindered
  · exact .inl ⟨_, rfl⟩
  · exact .inr (.catalog reads loaded hindered)

end Steps

variable {w : World} {fault : Fault} {command : Command} {settings : Settings}

private theorem expects_of_rows (loaded : Settings.loadFor w command.startPath? = .ok settings)
    (failed : (command.rows w settings).outcome = .error fault) : command.Expects w fault := by
  -- each answer is worked out in steps, and the first step that fails decides
  cases command with
  | paths start given =>
    rcases Traced.outcome_bind_eq_error_iff.mp failed with unmade | ⟨resolver, made, failed⟩
    · exact expects_of_ofSettings loaded trivial unmade
    rcases Traced.outcome_bind_eq_error_iff.mp failed with unlisted | ⟨paths, -, failed⟩
    · exact expects_of_resolver loaded trivial made (Resolver.expects_of_searchPaths unlisted)
    · cases failed
  | locate moduleName start given =>
    rcases Traced.outcome_bind_eq_error_iff.mp failed with unmade | ⟨resolver, made, failed⟩
    · exact expects_of_ofSettings loaded trivial unmade
    rcases Traced.outcome_bind_eq_error_iff.mp failed with unlisted | ⟨paths, listed, failed⟩
    · exact expects_of_resolver loaded trivial made (Resolver.expects_of_searchPaths unlisted)
    rcases Traced.outcome_bind_eq_error_iff.mp failed with unlocated | ⟨location, -, failed⟩
    · exact expects_of_resolver loaded trivial made
        (Resolver.expects_of_locateModule listed (List.mem_singleton_self _) unlocated)
    · cases failed
  | lookup subject modules start given =>
    rcases Traced.outcome_bind_eq_error_iff.mp failed with untold | ⟨table, -, failed⟩
    · rcases Traced.outcome_bind_eq_error_iff.mp untold with unloaded | ⟨catalog, -, failed⟩
      · exact expects_of_load loaded trivial unloaded
      dsimp only at failed
      split at failed
      · cases failed
      next asked =>
      have searches : modules ≠ [] := mt List.isEmpty_iff.mpr asked
      rcases Traced.outcome_bind_eq_error_iff.mp failed with unmade | ⟨resolver, made, failed⟩
      · exact expects_of_ofSettings loaded searches unmade
      · exact expects_of_resolver loaded searches made (Resolver.expects_of_resolve failed)
    · -- what is looked up in a table is found, or it is undefined
      split at failed
      · cases failed
      · cases failed
        exact .inl ⟨_, rfl⟩
  | builtins operators =>
    rcases Traced.outcome_bind_eq_error_iff.mp failed with unloaded | ⟨catalog, -, failed⟩
    · exact expects_of_load loaded trivial unloaded
    · cases failed

/-- Only lists of built-ins have rows that cannot be written. -/
theorem exists_listing_of_rows {before : String} {written : List (Except NumeralFlaw String)}
    {flaw : NumeralFlaw} (answers : (command.rows w settings).outcome = .ok (before, written))
    (unwritten : .error flaw ∈ written) : ∃ operators catalog, command = .builtins operators ∧
      Catalog.load w settings.catalog = .ok catalog ∧
      ∃ signature ∈ (listing catalog operators).2, signature.write = .error flaw := by
  cases command with
  | paths start given =>
    obtain ⟨_, -, answers⟩ := Traced.outcome_bind_eq_ok_iff.mp answers
    obtain ⟨paths, -, answers⟩ := Traced.outcome_bind_eq_ok_iff.mp answers
    cases answers
    obtain ⟨_, -, never⟩ := List.mem_map.mp unwritten
    cases never
  | locate moduleName start given =>
    obtain ⟨_, -, answers⟩ := Traced.outcome_bind_eq_ok_iff.mp answers
    obtain ⟨_, -, answers⟩ := Traced.outcome_bind_eq_ok_iff.mp answers
    obtain ⟨location, -, answers⟩ := Traced.outcome_bind_eq_ok_iff.mp answers
    cases answers
    simp at unwritten
  | lookup subject modules start given =>
    obtain ⟨table, -, answers⟩ := Traced.outcome_bind_eq_ok_iff.mp answers
    split at answers
    · cases answers
      simp at unwritten
    · cases answers
  -- all other answers are written without a numeral
  | builtins operators =>
    obtain ⟨catalog, loaded, answers⟩ := Traced.outcome_bind_eq_ok_iff.mp answers
    cases answers
    exact ⟨operators, catalog, rfl, loaded, List.mem_map.mp unwritten⟩

private theorem expects_of_carryOut (loaded : Settings.loadFor w command.startPath? = .ok settings)
    (failed : (command.carryOut w settings).outcome = .error fault) : command.Expects w fault := by
  rw [carryOut_eq] at failed
  rcases Traced.outcome_bind_eq_error_iff.mp failed with
    unanswered | ⟨⟨before, written⟩, answers, failed⟩
  · exact expects_of_rows loaded unanswered
  rcases printWritten_cases w before written with
    all | ⟨rows, stopped, ⟨stop, after, parts, -, unprinted⟩, fails, -⟩
  · have never := all.symm.trans failed
    cases never
  obtain rfl := Except.error.inj (fails.symm.trans failed)
  have among : stop ∈ written := by
    rw [parts]
    exact List.mem_append_right _ List.mem_cons_self
  cases unprinted with
  | unwritten =>
    obtain ⟨operators, catalog, rfl, listed, signature, isListed, unwritten⟩ :=
      exists_listing_of_rows answers among
    exact .inr (.numeral rfl loaded listed isListed unwritten)
  | unprintable unprintable => exact .inr (.unprintable loaded answers among unprintable)

/-- A command that fails has a problem, or something is in its way. -/
theorem expects_of_run (failed : (command.run w).outcome = .error fault) :
    command.Expects w fault := by
  rcases Traced.outcome_bind_eq_error_iff.mp failed with unloaded | ⟨settings, loaded, failed⟩
  · rcases Settings.hindered_of_loadFor unloaded with ⟨problem, rfl⟩ | hindered
    · exact .inl ⟨_, rfl⟩
    · exact .inr (.settings hindered)
  · exact expects_of_carryOut loaded failed

end Command

/-! ## Runs -/

/-- Whether a run tells of one problem: it complains, after what it has logged, about the diagnostic
of the problem. -/
def Reports (w : World) (outcome : Outcome) : Prop :=
  ∃ (problem : Problem) (least : Option Level) (events : List Event) (output : String),
    outcome = ⟨1, output,
      log least events ++ Text.plain (((Renderer.new false).render w problem.diagnostic).1 ++ "\n"),
      none⟩

/-- The faults that can escape from a run. -/
inductive Escapes (w : World) (name : CommandName) (arguments : List String) : Fault → Prop
  /-- There is a null character in what was given. -/
  | null {read fault} : readArguments name.options true arguments = .ok read → read.IsNull fault →
      Escapes w name arguments fault
  | hindered {read command fault} : readArguments name.options true arguments = .ok read →
      Command.ofArguments w name read = .ok command → command.Hindered w fault →
      Escapes w name arguments fault

variable {w : World} {fault : Fault} {least : Option Level}

theorem conclude_of_fault {done : Traced Unit} (failed : done.outcome = .error fault)
    (untold : ∀ problem, fault ≠ .problem problem) :
    conclude w least done =
      ⟨1, Text.plain (String.join done.printed), log least done.events, some fault⟩ := by
  cases fault with
  | problem problem => exact absurd rfl (untold problem)
  | _ =>
    simp only [conclude, failed]
    rfl

/-- What a command comes to: it succeeds, or it tells of a problem, or a fault escapes that it does
not tell of. -/
theorem conclude_cases (w : World) (least : Option Level) (command : Command) :
    ((conclude w least (command.run w)).exitCode = 0 ∧
      (conclude w least (command.run w)).fault = none) ∨
      Reports w (conclude w least (command.run w)) ∨
      ∃ fault output events, conclude w least (command.run w) =
        ⟨1, output, log least events, some fault⟩ ∧ command.Hindered w fault := by
  cases outcome : (command.run w).outcome with
  | ok => exact .inl (by simp only [conclude, outcome, and_self])
  | error fault =>
    -- a problem is told, and every other fault is not
    cases told : fault with
    | problem problem =>
      refine .inr (.inl ⟨problem, least, (command.run w).events,
        Text.plain (String.join (command.run w).printed), ?_⟩)
      simp only [conclude, outcome, told]
      rfl
    | _ =>
      rcases Command.expects_of_run outcome with ⟨problem, same⟩ | hindered
      · rw [told] at same
        cases same
      · refine .inr (.inr ⟨fault, _, _, conclude_of_fault outcome ?_, hindered⟩)
        intro problem same
        rw [told] at same
        cases same

/-- Spoiled bytes in the settings file that holds stop a command before it has done anything. -/
theorem conclude_of_spoils {command : Command} {file : Path} {bytes : List UInt8}
    (found : Settings.find w command.startPath? = .ok file) (read : w.readBytes file = .ok bytes)
    (spoiled : Toml.Spoils bytes fault) :
    conclude w least (command.run w) = ⟨1, "", "", some fault⟩ := by
  have stopped : command.run w = Traced.fail fault := by
    rw [Command.run, Settings.loadFor_of_spoils found read spoiled]
    rfl
  have untold : ∀ problem, fault ≠ .problem problem :=
    fun problem same => Toml.not_spoils_problem problem (same ▸ spoiled)
  rw [stopped, conclude_of_fault rfl untold]
  have nothing : log least (Traced.fail fault : Traced Unit).events = "" := by cases least <;> rfl
  rw [nothing, ← plain_nil]
  rfl

/-- A run of a command ends in one of four ways, and only the last of them is one that it does not
tell of. -/
theorem Ends.cases {name : CommandName} {arguments : List String} {outcome : Outcome}
    (ends : Ends w least name arguments outcome) :
    (outcome.exitCode = 0 ∧ outcome.fault = none) ∨
      (outcome.exitCode = 2 ∧ ∃ error,
        outcome = misuse s!"{programName} {name.written}" name.usage error) ∨
      Reports w outcome ∨
      ∃ fault least events output, outcome = ⟨1, output, log least events, some fault⟩ ∧
        Escapes w name arguments fault := by
  cases ends with
  | misused error => exact .inr (.inl ⟨rfl, error, rfl⟩)
  | answered well faultless => exact .inl ⟨well, faultless⟩
  | refused reads refuses =>
    exact .inr (.inr
      (.inr ⟨_, none, [], "", rfl, .null reads (Command.isNull_of_ofArguments refuses)⟩))
  | concluded reads made =>
    rcases conclude_cases w least _ with well | reports | ⟨fault, output, events, same, hindered⟩
    · exact .inl well
    · exact .inr (.inr (.inl reports))
    · exact .inr (.inr (.inr ⟨fault, least, events, output, same, .hindered reads made hindered⟩))

/-- A world whose settings file is not UTF-8. -/
def garbled : World where
  entries := [(["erlsym.toml"], .file [0xff])]
  workingDirectory := []
  system := .ofHome "/"
  programDirectories := []

theorem garbled.find_eq : Settings.find garbled none = .ok ⟨.root, ["erlsym.toml"]⟩ :=
  Traced.eq_ok_of_toOption (by decide +kernel)

theorem garbled.readBytes_eq : garbled.readBytes ⟨.root, ["erlsym.toml"]⟩ = .ok [0xff] :=
  Traced.eq_ok_of_toOption (by decide +kernel)

theorem garbled.spoils : Toml.Spoils [0xff] .undecodable :=
  .undecodable (Text.Utf8.decode_cons_fault rfl)

end CommandLine

end SignatureIndex
