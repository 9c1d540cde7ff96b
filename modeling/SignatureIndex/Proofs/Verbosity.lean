import SignatureIndex.Proofs.Scanning
import SignatureIndex.Resolver

/-!
# What does not depend on reports

Whether scans are reported has no part in what a scan comes to, nor in what resolving comes to, and
neither prints anything.  Two operations that come to the same without printing anything concur.
What is done one after the other concurs if the parts do, so it is enough to go through the parts.
-/

namespace SignatureIndex

namespace Traced

variable {α β : Type}

/-- The texts that an operation prints, in order. -/
def printed (operation : Traced α) : List String := operation.events.filterMap Event.printed?

theorem printed_bind_of_ok {first : Traced α} {next : α → Traced β} {value : α}
    (succeeds : first.outcome = .ok value) :
    (first >>= next).printed = first.printed ++ (next value).printed := by
  rw [bind_eq, Traced.bind, succeeds]
  exact List.filterMap_append

theorem printed_bind_of_error {first : Traced α} {next : α → Traced β} {fault : Fault}
    (failed : first.outcome = .error fault) : (first >>= next).printed = first.printed := by
  rw [bind_eq, Traced.bind, failed]
  rfl

/-- Whether two operations come to the same and print the same, whatever they log. -/
structure Agrees (first second : Traced α) : Prop where
  outcome_eq : first.outcome = second.outcome
  printed_eq : first.printed = second.printed

/-- Whether two operations come to the same and print nothing. -/
structure Concurs (first second : Traced α) : Prop where
  outcome_eq : first.outcome = second.outcome
  first_silent : first.printed = []
  second_silent : second.printed = []

theorem Agrees.refl (operation : Traced α) : operation.Agrees operation := ⟨rfl, rfl⟩

namespace Concurs

variable {first second : Traced α} {next other : α → Traced β}

/-- Behind operations that print nothing and come to the same, it only matters what comes next. -/
theorem bind_agrees (here : first.Concurs second)
    (later : ∀ value, (next value).Agrees (other value)) :
    (first >>= next).Agrees (second >>= other) := by
  cases outcome : first.outcome with
  | error fault =>
    have same := here.outcome_eq ▸ outcome
    constructor
    · rw [outcome_bind, outcome_bind, outcome, same]
      rfl
    · rw [printed_bind_of_error outcome, printed_bind_of_error same, here.first_silent,
        here.second_silent]
  | ok value =>
    have same := here.outcome_eq ▸ outcome
    constructor
    · rw [outcome_bind, outcome_bind, outcome, same]
      exact (later value).outcome_eq
    · rw [printed_bind_of_ok outcome, printed_bind_of_ok same, here.first_silent,
        here.second_silent, (later value).printed_eq]

private theorem printed_bind (here : first.Concurs second)
    (later : ∀ value, (next value).printed = []) :
    (first >>= next).printed = [] := by
  cases outcome : first.outcome with
  | error fault => rw [printed_bind_of_error outcome, here.first_silent]
  | ok value => rw [printed_bind_of_ok outcome, here.first_silent, later, List.append_nil]

theorem symm (here : first.Concurs second) : second.Concurs first :=
  ⟨here.outcome_eq.symm, here.second_silent, here.first_silent⟩

theorem bind (here : first.Concurs second) (later : ∀ value, (next value).Concurs (other value)) :
    (first >>= next).Concurs (second >>= other) where
  outcome_eq := (here.bind_agrees fun value => ⟨(later value).outcome_eq,
    (later value).first_silent.trans (later value).second_silent.symm⟩).outcome_eq
  first_silent := here.printed_bind fun value => (later value).first_silent
  second_silent := here.symm.printed_bind fun value => (later value).second_silent

theorem pure (value : α) : (Pure.pure value : Traced α).Concurs (Pure.pure value) := ⟨rfl, rfl, rfl⟩

theorem fail (fault : Fault) : (Traced.fail fault : Traced α).Concurs (Traced.fail fault) :=
  ⟨rfl, rfl, rfl⟩

theorem problem (problem : Problem) :
    (Traced.problem problem : Traced α).Concurs (Traced.problem problem) :=
  ⟨rfl, rfl, rfl⟩

theorem report (level : Level) (reporter : Reporter) (message : String) :
    (Traced.report level reporter message).Concurs (Traced.report level reporter message) :=
  ⟨rfl, rfl, rfl⟩

theorem ofExcept (outcome : Except Fault α) :
    (Traced.ofExcept outcome).Concurs (Traced.ofExcept outcome) :=
  ⟨rfl, rfl, rfl⟩

theorem ofFile (outcome : Except FileError α) :
    (Traced.ofFile outcome).Concurs (Traced.ofFile outcome) := by
  cases outcome <;> exact ⟨rfl, rfl, rfl⟩

theorem ofSource (outcome : Except SourceProblem α) :
    (Traced.ofSource outcome).Concurs (Traced.ofSource outcome) := by
  cases outcome <;> exact ⟨rfl, rfl, rfl⟩

end Concurs

end Traced

open Traced (Concurs)

/-! ## Scanning -/

namespace World

variable {w : World} {options : ScanOptions}

theorem concurs_sheet (path : Path) : (w.sheet path).Concurs (w.sheet path) := by
  unfold World.sheet
  split
  · exact .fail _
  · refine .bind (.ofSource _) fun source => ?_
    refine .bind (.ofFile _) fun location => ?_
    exact .bind (.ofSource _) fun sheet => .pure _

theorem concurs_finish (verbose : Bool) (sheet : Sheet) (attributes : List Attribute) :
    (finish options sheet attributes).Concurs
      (finish { options with verbose } sheet attributes) := by
  unfold finish
  split
  · exact .problem _
  · -- what is left is to report the finished file or not
    cases options.verbose <;> cases verbose <;> exact ⟨rfl, rfl, rfl⟩

/-- A scan of items comes to the same whether it reports finished files or not. -/
theorem concurs_scanItems (verbose : Bool) (depth : Option Nat) (path : Path) (seen : List Location)
    (items : List Item) : (w.scanItems options depth path seen items).Concurs
      (w.scanItems { options with verbose } depth path seen items) := by
  -- both scans look for files in the same places, so they go the same way
  induction depth, path, seen, items using scanItems_induction w options with
  | done =>
    rw [scanItems_nil, scanItems_nil]
    exact .pure _
  | kept depth path seen content items ih =>
    rw [scanItems_kept, scanItems_kept]
    exact .bind ih fun scan => .pure _
  | malformed =>
    rw [scanItems_malformed, scanItems_malformed]
    exact .problem _
  | unanswered depth path seen kind name span items e failed =>
    have same : w.firstFile (ScanOptions.candidates { options with verbose } kind name path) =
        .error e := failed
    rw [scanItems_of_error failed, scanItems_of_error same]
    exact .fail _
  | absent depth path seen kind name span items absent =>
    have same : w.firstFile (ScanOptions.candidates { options with verbose } kind name path) =
        .ok none := absent
    rw [scanItems_of_none absent, scanItems_of_none same]
    exact .problem _
  | deep depth path seen kind name span items target location found new deep =>
    have same : w.firstFile (ScanOptions.candidates { options with verbose } kind name path) =
        .ok (some (target, location)) := found
    rw [scanItems_of_deep found new deep, scanItems_of_deep same new deep]
    exact .fail _
  | entered depth path seen kind name span items target location inside found new deeper
      ihInner ihRest =>
    have same : w.firstFile (ScanOptions.candidates { options with verbose } kind name path) =
        .ok (some (target, location)) := found
    rw [scanItems_of_new found new deeper, scanItems_of_new same new deeper]
    -- the included file is read and scanned, its end may be reported, and then the scan goes on
    refine .bind (concurs_sheet target) fun ⟨_, sheet⟩ => ?_
    refine .bind (ihInner sheet) fun inner => ?_
    refine .bind (concurs_finish verbose sheet _) fun _ => ?_
    exact .bind (ihRest inner) fun outer => .pure _
  | passed depth path seen kind name span items target location found old ih =>
    have same : w.firstFile (ScanOptions.candidates { options with verbose } kind name path) =
        .ok (some (target, location)) := found
    rw [scanItems_of_seen found old, scanItems_of_seen same old]
    exact ih

theorem concurs_scan (verbose : Bool) (path : Path) :
    (w.scan options path).Concurs (w.scan { options with verbose } path) := by
  refine .bind (concurs_sheet path) fun ⟨location, sheet⟩ => ?_
  refine .bind (concurs_scanItems verbose _ _ _ _) fun scan => ?_
  exact .bind (concurs_finish verbose sheet _) fun _ => .pure _

end World

/-! ## Resolving -/

private theorem SymbolTable.concurs_foldIn (moduleName : Option String)
    (declarations : List (Except Fault Declaration)) (table : SymbolTable) :
    (foldIn moduleName declarations table).Concurs (foldIn moduleName declarations table) := by
  induction declarations generalizing table with
  | nil => exact .pure _
  | cons declaration declarations ih =>
    cases declaration with
    | error fault => exact .fail _
    | ok declaration =>
      rw [foldIn]
      split
      · exact .bind (.report _ _ _) fun _ => ih _
      · exact .bind (.pure _) fun _ => ih _

private theorem SymbolTable.concurs_extendTraced (table : SymbolTable) (moduleName : Option String)
    (declarations : List (Except Fault Declaration)) :
    (table.extendTraced moduleName declarations).Concurs
      (table.extendTraced moduleName declarations) := by
  refine .bind (concurs_foldIn moduleName declarations table) fun extended => ?_
  exact .bind (.report _ _ _) fun _ => .pure _

private theorem Declaration.concurs_ofAttributes (path : Path) (attributes : List Attribute) :
    (ofAttributes path attributes).Concurs (ofAttributes path attributes) := by
  refine .bind (.ofSource _) fun declarations => ?_
  exact .bind (.report _ _ _) fun _ => .pure _

namespace SearchPath

variable {w : World} {layout : Layout}

theorem concurs_list (start libraryDirectory : Path) :
    (list w start libraryDirectory layout).Concurs (list w start libraryDirectory layout) := by
  refine .bind (.ofExcept _) fun ⟨project, paths⟩ => ?_
  exact .bind (.report _ _ _) fun _ => .pure _

private theorem concurs_probe (moduleName : String) (paths : List Path) :
    (probe w moduleName layout paths).Concurs (probe w moduleName layout paths) := by
  induction paths with
  | nil => exact .pure _
  | cons path paths ih =>
    refine .bind (.report _ _ _) fun _ => ?_
    refine .bind (.ofFile _) fun found => ?_
    cases found with
    | true => exact .pure _
    | false => exact ih

theorem concurs_locateModule (paths : List Path) (moduleName : String) :
    (locateModule w paths moduleName layout).Concurs (locateModule w paths moduleName layout) := by
  -- the module is looked for first, and what has been found decides
  refine .bind (.bind (.report _ _ _) fun _ => concurs_probe moduleName paths) fun found => ?_
  cases found with
  | some location => exact .pure _
  | none => exact .problem _

end SearchPath

private theorem Discovery.concurs_libraryDirectory (w : World) (executable : Option String)
    (limit : Datum) :
    (libraryDirectory w executable limit).Concurs (libraryDirectory w executable limit) := by
  have asked (name : String) : (ask w name limit).Concurs (ask w name limit) := by
    unfold ask
    split
    · exact .problem _
    · exact .fail _
    · refine .bind ⟨rfl, rfl, rfl⟩ fun _ => ?_
      split
      · exact .fail _
      · exact .problem _
      · -- what the program wrote is a text
        split
        · exact .problem _
        · exact .pure _
      · exact .fail _
  unfold libraryDirectory
  dsimp only
  split
  · exact asked _
  · exact .problem _

namespace Resolver

variable {resolver : Resolver} {w : World}

private theorem concurs_declarations (verbose : Bool) (paths : List Path) (moduleName : String) :
    (resolver.declarations w paths moduleName).Concurs
      (declarations { resolver with verbose } w paths moduleName) := by
  refine .bind (SearchPath.concurs_locateModule paths moduleName) fun location => ?_
  refine .bind (.report _ _ _) fun _ => ?_
  refine .bind (World.concurs_scan verbose location.source) fun attributes => ?_
  exact Declaration.concurs_ofAttributes _ attributes

private theorem concurs_foldModules (verbose : Bool) (paths : List Path) (modules : List String)
    (table : SymbolTable) : (resolver.foldModules w paths modules table).Concurs
      (foldModules { resolver with verbose } w paths modules table) := by
  induction modules generalizing table with
  | nil => exact .pure _
  | cons moduleName modules ih =>
    refine .bind (concurs_declarations verbose paths moduleName) fun declarations => ?_
    exact .bind (SymbolTable.concurs_extendTraced _ _ _) fun extended => ih extended

theorem concurs_resolve (verbose : Bool) (table : SymbolTable) (start : Path)
    (modules : List String) : (resolver.resolve w table start modules).Concurs
      (resolve { resolver with verbose } w table start modules) := by
  unfold resolve
  split
  · exact .pure _
  · refine .bind (SearchPath.concurs_list start resolver.libraryDirectory) fun paths => ?_
    exact concurs_foldModules verbose paths modules table

theorem concurs_ofSettings (w : World) (settings : Settings) (libraryDirectory : Option Path) :
    (ofSettings w settings libraryDirectory).Concurs (ofSettings w settings libraryDirectory) := by
  unfold ofSettings
  split
  · exact .bind (.pure _) fun directory => .pure _
  · split
    · exact .bind (Discovery.concurs_libraryDirectory w none _) fun directory => .pure _
    · exact .bind (Discovery.concurs_libraryDirectory w none _) fun directory => .pure _
    · exact .bind (.pure _) fun directory => .pure _

/-- Settings decide whether a resolver reports scans, and for the rest that has no part in them. -/
theorem ofSettings_verbose (w : World) (settings : Settings) (verbose : Bool)
    (libraryDirectory : Option Path) : ofSettings w { settings with verbose } libraryDirectory =
      (fun resolver => { resolver with verbose }) <$> ofSettings w settings libraryDirectory := by
  unfold ofSettings
  cases libraryDirectory with
  | some path => simp only [map_bind, map_pure]
  | none =>
    dsimp only
    split <;> simp only [map_bind, map_pure]

end Resolver

end SignatureIndex
