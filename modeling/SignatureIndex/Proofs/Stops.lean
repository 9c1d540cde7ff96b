import SignatureIndex.Proofs.Refusals

/-!
# What stops a scan

A scan comes upon a refusal of the world only when it resolves its own path or looks for the files
that are included.  It goes too deep only along a chain of files that include one another.
Everything else that goes wrong on the way is a problem with a source.
-/

namespace SignatureIndex.World

variable {w : World}

theorem eq_of_outcome_sheet_eq_error {path : Path} {fault : Fault}
    (failed : (w.sheet path).outcome = .error fault) :
    (∃ problem, fault = .problem (.source problem)) ∨
      (fault = .file .nullCharacter ∧ path.holdsNull = true) ∨
      ∃ e, fault = .file e ∧ w.knownFileAt path = .error e := by
  unfold sheet at failed
  split at failed
  next reason unread =>
    cases failed
    by_cases null : reason = .nullCharacter
    · subst null
      exact .inr (.inl ⟨rfl, holdsNull_of_readBytes unread⟩)
    · cases reason <;> first | exact .inl ⟨_, rfl⟩ | exact absurd rfl null
  next bytes read =>
    simp only [Traced.outcome_bind_eq_error_iff, Traced.outcome_ofSource_eq_error_iff,
      Traced.outcome_ofFile_eq_error_iff] at failed
    rcases failed with
      ⟨problem, -, rfl⟩ | ⟨source, -, ⟨e, unknown, rfl⟩ | ⟨place?, -, ⟨problem, -, rfl⟩ |
      ⟨sheet, -, failed⟩⟩⟩
    · exact .inl ⟨problem, rfl⟩
    · exact .inr (.inr ⟨e, rfl, unknown⟩)
    · exact .inl ⟨problem, rfl⟩
    · cases failed

/-- Whether the file at a path has a form that asks for a file of some name. -/
def HasInclusion (w : World) (including : Path) (kind : IncludeKind) (name : String) : Prop :=
  ∃ location? sheet span, (w.sheet including).outcome = .ok (location?, sheet) ∧
    .inclusion kind name span ∈ sheet.items

/-- A chain of files that starts at a root, each included by the one before it and none of them
twice.  It is told by the locations of the files, the last of them first, and by the path of the
last. -/
inductive Chain (w : World) (options : ScanOptions) (root : Path) : List Location → Path → Prop
  | root {location} : w.knownFileAt root = .ok (some location) →
      Chain w options root [location] root
  | included {locations including kind name target location} :
      Chain w options root locations including → w.HasInclusion including kind name →
      w.firstFile (options.candidates kind name including) = .ok (some (target, location)) →
      location ∉ locations → Chain w options root (location :: locations) target

/-- What can stop a scan of a root. -/
inductive Stops (w : World) (options : ScanOptions) (root : Path) : Fault → Prop
  | source {problem} : Stops w options root (.problem (.source problem))
  | null : root.holdsNull = true → Stops w options root (.file .nullCharacter)
  | unknown {e} : w.knownFileAt root = .error e → Stops w options root (.file e)
  /-- A place where an included file is looked for gives no answer. -/
  | unanswered {locations including kind name e} : Chain w options root locations including →
      w.HasInclusion including kind name →
      w.firstFile (options.candidates kind name including) = .error e →
      Stops w options root (.file e)
  /-- More files include one another than the root and as many as the limit allows. -/
  | deep {limit locations target} : options.depth = some limit →
      Chain w options root locations target → limit + 1 < locations.length →
      Stops w options root .nesting

variable {options : ScanOptions} {root : Path}

theorem stops_of_finish {sheet : Sheet} {attributes : List Attribute} {fault : Fault}
    (failed : (finish options sheet attributes).outcome = .error fault) :
    Stops w options root fault := by
  unfold finish at failed
  split at failed
  · cases failed
    exact .source
  · split at failed <;> cases failed

/-- Whatever stops a scan of items stops a scan of the root, if the items are those of a file on a
chain from the root, the files of the chain have been seen, and the depth that is left is that of
the scan less the number of files that are included along the chain. -/
theorem stops_of_scanItems {depth : Option Nat} {path : Path} {seen : List Location}
    {items : List Item} {fault : Fault} {locations : List Location}
    (chain : Chain w options root locations path) (among : ∀ location ∈ locations, location ∈ seen)
    (left : depth.map (· + locations.length) = options.depth.map (· + 1))
    (listed : ∃ location? sheet, (w.sheet path).outcome = .ok (location?, sheet) ∧
      ∀ item ∈ items, item ∈ sheet.items)
    (failed : (w.scanItems options depth path seen items).outcome = .error fault) :
    Stops w options root fault := by
  -- the chain ends in the file that is being scanned; it grows by one file for each that is entered
  induction depth, path, seen, items using scanItems_induction w options
    generalizing fault locations with
  | done depth path seen =>
    rw [scanItems_nil] at failed
    cases failed
  | kept depth path seen content items ih =>
    obtain ⟨location?, sheet, read, all⟩ := listed
    rw [scanItems_kept, Traced.outcome_bind_eq_error_iff] at failed
    rcases failed with failed | ⟨scan, -, failed⟩
    · exact ih chain among left ⟨location?, sheet, read, (List.forall_mem_cons.mp all).2⟩ failed
    · cases failed
  | malformed depth path seen kind span items =>
    rw [scanItems_malformed] at failed
    cases failed
    exact .source
  | unanswered depth path seen kind name span items e stopped =>
    obtain ⟨location?, sheet, read, all⟩ := listed
    rw [scanItems_of_error stopped] at failed
    cases failed
    exact .unanswered chain ⟨location?, sheet, span, read, all _ List.mem_cons_self⟩ stopped
  | absent depth path seen kind name span items absent =>
    rw [scanItems_of_none absent] at failed
    cases failed
    exact .source
  | deep depth path seen kind name span items target location found new deep =>
    obtain ⟨location?, sheet, read, all⟩ := listed
    rw [scanItems_of_deep found new deep] at failed
    cases failed
    have longer : Chain w options root (location :: locations) target :=
      .included chain ⟨location?, sheet, span, read, all _ List.mem_cons_self⟩ found
        fun old => new (among _ old)
    -- no depth is left, so the chain is as long as the depth of the scan
    cases depth with
    | none => cases deep
    | some depth =>
      cases depth with
      | zero =>
        obtain ⟨limit, limited, same⟩ := Option.map_eq_some_iff.mp left.symm
        refine .deep limited longer ?_
        simp only [Nat.zero_add] at same
        simp only [List.length_cons]
        omega
      | succ depth => cases deep
  | entered depth path seen kind name span items target location inside found new deeper ihInner
      ihRest =>
    obtain ⟨location?, sheet, read, all⟩ := listed
    obtain ⟨here, rest⟩ := List.forall_mem_cons.mp all
    have longer : Chain w options root (location :: locations) target :=
      .included chain ⟨location?, sheet, span, read, here⟩ found fun old => new (among _ old)
    rw [scanItems_of_new found new deeper] at failed
    simp only [Traced.outcome_bind_eq_error_iff] at failed
    rcases failed with failed | ⟨⟨place?, inner⟩, readInner, failed | ⟨scan, -, failed |
      ⟨-, -, failed | ⟨outer, -, failed⟩⟩⟩⟩
    · -- the file was found, so only a problem with its text can stop it from being read
      have known := knownFileAt_of_firstFile found
      have free := holdsNull_of_locate (fileAt_eq_ok_some (fileAt_of_knownFileAt known).1).1
      rcases eq_of_outcome_sheet_eq_error failed with ⟨problem, rfl⟩ | ⟨-, null⟩ | ⟨e, -, unknown⟩
      · exact .source
      · rw [free] at null
        cases null
      · rw [known] at unknown
        cases unknown
    · -- inside the file one level of depth is used up
      refine ihInner inner longer ?_ ?_ ⟨place?, inner, readInner, fun _ => id⟩ failed
      · intro other old
        rcases List.mem_cons.mp old with rfl | old
        · exact List.mem_cons_self
        · exact List.mem_cons_of_mem _ (among other old)
      · rw [← left]
        cases depth with
        | none =>
          cases deeper
          rfl
        | some depth =>
          cases depth with
          | zero => cases deeper
          | succ depth =>
            cases deeper
            simp only [Option.map_some, List.length_cons]
            congr 1
            omega
    · exact stops_of_finish failed
    · -- behind the file the chain is what it was, and more files have been seen
      exact ihRest scan chain (fun other old => List.mem_append_left _ (among other old)) left
        ⟨location?, sheet, read, rest⟩ failed
    · cases failed
  | passed depth path seen kind name span items target location found old ih =>
    obtain ⟨location?, sheet, read, all⟩ := listed
    rw [scanItems_of_seen found old] at failed
    exact ih chain among left ⟨location?, sheet, read, (List.forall_mem_cons.mp all).2⟩ failed

theorem stops_of_scan {fault : Fault} (failed : (w.scan options root).outcome = .error fault) :
    Stops w options root fault := by
  simp only [scan, Traced.outcome_bind_eq_error_iff] at failed
  rcases failed with
    failed | ⟨⟨location?, sheet⟩, read, failed | ⟨scan, -, failed | ⟨-, -, failed⟩⟩⟩
  · rcases eq_of_outcome_sheet_eq_error failed with ⟨problem, rfl⟩ | ⟨rfl, null⟩ | ⟨e, rfl, unknown⟩
    · exact .source
    · exact .null null
    · exact .unknown unknown
  · obtain ⟨location, rfl, known⟩ := exists_location_of_sheet read
    exact stops_of_scanItems (.root known) (fun _ => id) rfl ⟨_, sheet, read, fun _ => id⟩ failed
  · exact stops_of_finish failed
  · cases failed

/-! ## Paths from the root -/

/-- A file that is included from a path from the root, by way of directories that are told from the
root, is looked for in such places only. -/
theorem isAbsolute_of_mem_candidates {kind : IncludeKind} {name : String} {including path : Path}
    (directories : ∀ directory ∈ options.includeDirectories, directory.isAbsolute = true)
    (roots : ∀ library ∈ options.libraryRoots, library.isAbsolute = true)
    (absolute : including.isAbsolute = true)
    (among : path ∈ options.candidates kind name including) :
    path.isAbsolute = true := by
  unfold ScanOptions.candidates at among
  rcases List.mem_append.mp among with among | among
  · rcases List.mem_cons.mp among with rfl | among
    · exact Path.isAbsolute_child (show including.parent.isAbsolute = true from absolute) name
    · obtain ⟨directory, listed, rfl⟩ := List.mem_map.mp among
      exact Path.isAbsolute_child (directories directory listed) name
  · cases kind with
    | file => cases among
    | library =>
      unfold ScanOptions.libraryCandidates at among
      rcases List.mem_append.mp among with among | among
      · split at among
        · cases among
        · obtain ⟨library, kept, rfl⟩ := List.mem_map.mp among
          exact Path.isAbsolute_child (roots library (List.mem_filter.mp kept).1) _
      · obtain ⟨directory, listed, rfl⟩ := List.mem_map.mp among
        exact Path.isAbsolute_child (directories directory listed) _

theorem isAbsolute_of_chain {locations : List Location} {path : Path}
    (directories : ∀ directory ∈ options.includeDirectories, directory.isAbsolute = true)
    (roots : ∀ library ∈ options.libraryRoots, library.isAbsolute = true)
    (absolute : root.isAbsolute = true) (chain : Chain w options root locations path) :
    path.isAbsolute = true := by
  induction chain with
  | root => exact absolute
  | included _ _ found _ ih =>
    exact isAbsolute_of_mem_candidates directories roots ih (known_of_firstFile found).1

end SignatureIndex.World
