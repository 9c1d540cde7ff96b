import SignatureIndex.Proofs.FirstFaults

/-!
# Where a fault unwinds

A scan that stops leaves all files that it is in.  The fault arises in one of them, and each of the
others has come to enter the next.  Which files these are is determined: a scan of a file gets past
every item before the one at which it stops, so there is only one such item, and if that one enters
a file, the fault comes from there.
-/

namespace SignatureIndex.World

/-- Whether a scan of the file at a path stops at an item, whatever items come after it. -/
def StopsAt (w : World) (options : ScanOptions) (depth : Option Nat) (path : Path)
    (now : List Location) (item : Item) (fault : Fault) : Prop :=
  ∀ items, (w.scanItems options depth path now (item :: items)).outcome = .error fault

/-- Whether a scan of the file at a path comes to enter another file, given how deep inclusion may
still go and the files that have been seen, before and then. -/
def Enters (w : World) (options : ScanOptions) (depth : Option Nat) (path : Path)
    (seen : List Location) (inside : Option Nat) (target : Path) (now : List Location) : Prop :=
  ∃ kind name span items location,
    w.Reaches options depth path seen (.inclusion kind name span :: items) now ∧
      w.firstFile (options.candidates kind name path) = .ok (some (target, location)) ∧
      location ∉ now ∧
      ScanOptions.inner? depth = some inside

/-- The files that a scan is in when it stops with a fault: the one that it is a scan of, then one
that was entered from there, and so on up to the one in which the fault arises. -/
inductive Unwinds (w : World) (options : ScanOptions) :
    Option Nat → Path → List Location → Fault → List Path → Prop
  /-- The scan of the file stops, and that of no file that is entered from there. -/
  | arises {depth path seen fault} : w.Fails options depth path seen fault →
      (∀ inside target now other, w.Enters options depth path seen inside target now →
        ¬w.Fails options inside target now other) →
      Unwinds w options depth path seen fault [path]
  | included {depth path seen inside target now fault chain} :
      w.Enters options depth path seen inside target now →
      Unwinds w options inside target now fault chain →
      Unwinds w options depth path seen fault (path :: chain)

variable {w : World} {options : ScanOptions} {depth inside : Option Nat} {path target : Path}
  {seen now later : List Location} {item : Item} {items more : List Item} {location : Location}
  {fault : Fault} {chain : List Path}

/-! ## The item at which a scan stops -/

theorem Opens.unique {place : Location} {source other : Source} {clean blank : List Char}
    (opens : w.Opens path location source clean) (again : w.Opens path place other blank) :
    location = place ∧ source = other ∧ clean = blank := by
  obtain ⟨bytes, bytesRead, read⟩ := opens.read
  obtain ⟨others, othersRead, readAgain⟩ := again.read
  cases bytesRead.symm.trans othersRead
  cases read.symm.trans readAgain
  cases opens.known.symm.trans again.known
  cases opens.blanked.symm.trans again.blanked
  exact ⟨rfl, rfl, rfl⟩

theorem Passes.unique (passes : w.Passes options depth path seen items now)
    (again : w.Passes options depth path seen items later) : now = later := by
  obtain ⟨scan, scanned, rfl⟩ := passes.exists_scan
  obtain ⟨other, scannedAgain, rfl⟩ := again.exists_scan
  cases scanned.symm.trans scannedAgain
  rfl

/-- A scan does not get past an item at which it stops. -/
theorem Passes.not_passes (passes : w.Passes options depth path seen items now)
    (stops : w.StopsAt options depth path now item fault) :
    ¬w.Passes options depth path seen (items ++ item :: more) later := by
  intro further
  obtain ⟨scan, scanned, -⟩ := further.exists_scan
  cases scanned.symm.trans (passes.outcome_scanItems_append_eq_error_iff.mpr (stops more))

/-- There is one item at which a scan stops. -/
theorem Reaches.unique {other : Item} {otherFault : Fault}
    (reaches : w.Reaches options depth path seen (item :: items) now)
    (stops : w.StopsAt options depth path now item fault)
    (again : w.Reaches options depth path seen (other :: more) later)
    (stopsAgain : w.StopsAt options depth path later other otherFault) :
    item = other ∧ now = later := by
  obtain ⟨location, source, clean, before, opens, parts, passes⟩ := reaches
  obtain ⟨_, _, _, front, opensAgain, partsAgain, passesAgain⟩ := again
  obtain ⟨rfl, rfl, rfl⟩ := opens.unique opensAgain
  -- what comes before one of the items does not hold the other
  rcases List.append_eq_append_iff.mp (parts.symm.trans partsAgain) with
    ⟨rest, rfl, same⟩ | ⟨rest, rfl, same⟩
  · cases rest with
    | nil =>
      rw [List.append_nil] at passesAgain
      exact ⟨(List.cons.inj same).1, passes.unique passesAgain⟩
    | cons first rest =>
      obtain ⟨rfl, -⟩ := List.cons.inj same
      exact absurd passesAgain (passes.not_passes stops)
  · cases rest with
    | nil =>
      rw [List.append_nil] at passes
      exact ⟨(List.cons.inj same).1.symm, passes.unique passesAgain⟩
    | cons first rest =>
      obtain ⟨rfl, -⟩ := List.cons.inj same
      exact absurd passes (passesAgain.not_passes stopsAgain)

/-! ## The files that a fault comes through -/

theorem Unwinds.fails (unwinds : w.Unwinds options depth path seen fault chain) :
    w.Fails options depth path seen fault := by
  induction unwinds with
  | arises fails _ => exact fails
  | included enters _ ih =>
    obtain ⟨kind, name, span, items, location, reaches, found, new, deeper⟩ := enters
    exact .included reaches found new deeper ih

/-- A scan stops at a form that enters a file in which it stops. -/
theorem Fails.stopsAt {kind : IncludeKind} {name : String} {span : Span}
    (found : w.firstFile (options.candidates kind name path) = .ok (some (target, location)))
    (new : location ∉ now) (deeper : ScanOptions.inner? depth = some inside)
    (fails : w.Fails options inside target now fault) :
    w.StopsAt options depth path now (.inclusion kind name span) fault := by
  intro items
  rw [scanItems_eq_bind_scanFile found new deeper]
  exact Traced.outcome_bind_eq_error_iff.mpr (.inl (outcome_scanFile_eq_error_iff_fails.mpr fails))

/-- A scan enters one file at most in which it stops. -/
theorem Enters.unique {another : Option Nat} {elsewhere : Path} {other : Fault}
    (enters : w.Enters options depth path seen inside target now)
    (fails : w.Fails options inside target now fault)
    (again : w.Enters options depth path seen another elsewhere later)
    (failsAgain : w.Fails options another elsewhere later other) :
    inside = another ∧ target = elsewhere ∧ now = later := by
  obtain ⟨kind, name, span, items, location, reaches, found, new, deeper⟩ := enters
  obtain ⟨_, _, _, _, place, reachesAgain, foundAgain, newAgain, deeperAgain⟩ := again
  obtain ⟨same, rfl⟩ := reaches.unique (fails.stopsAt found new deeper) reachesAgain
    (failsAgain.stopsAt foundAgain newAgain deeperAgain)
  cases same
  cases found.symm.trans foundAgain
  cases deeper.symm.trans deeperAgain
  exact ⟨rfl, rfl, rfl⟩

theorem Unwinds.unique {other : Fault} {others : List Path}
    (unwinds : w.Unwinds options depth path seen fault chain)
    (again : w.Unwinds options depth path seen other others) : chain = others := by
  -- two files that a scan enters and stops in are one, because it enters them at the one item at
  -- which it stops
  induction unwinds generalizing other others with
  | arises _ own =>
    cases again with
    | arises => rfl
    | included enters deeper => exact absurd deeper.fails (own _ _ _ _ enters)
  | included enters deeper ih =>
    cases again with
    | arises _ own => exact absurd deeper.fails (own _ _ _ _ enters)
    | included entersAgain deeperAgain =>
      obtain ⟨rfl, rfl, rfl⟩ := enters.unique deeper.fails entersAgain deeperAgain.fails
      rw [ih deeperAgain]

/-- A fault at an item that enters no file arises where the item stands. -/
theorem Unwinds.of_stopsAt (reaches : w.Reaches options depth path seen (item :: items) now)
    (stops : w.StopsAt options depth path now item fault)
    (own : ∀ kind name span inside target location, item = .inclusion kind name span →
      w.firstFile (options.candidates kind name path) = .ok (some (target, location)) →
      location ∉ now →
      ScanOptions.inner? depth ≠ some inside) :
    w.Unwinds options depth path seen fault [path] := by
  refine .arises (fails_of_scanItems reaches (stops items))
    fun inside target later other enters fails => ?_
  obtain ⟨kind, name, span, more, location, reachesAgain, found, new, deeper⟩ := enters
  obtain ⟨rfl, rfl⟩ := reaches.unique stops reachesAgain (fails.stopsAt found new deeper)
  exact own _ _ _ _ _ _ rfl found new deeper

/-- Every fault comes through some files. -/
theorem Fails.exists_unwinds (fails : w.Fails options depth path seen fault) :
    ∃ chain, w.Unwinds options depth path seen fault chain := by
  induction fails with
  | rejected rejects =>
    refine ⟨_, .arises (.rejected rejects) fun inside target now other enters => ?_⟩
    -- nothing is entered from a file that does not open
    obtain ⟨_, _, _, _, _, ⟨location, source, clean, _, opens, -⟩, -⟩ := enters
    have opened := outcome_sheet_eq_ok_iff_opens.mpr ⟨location, source, clean, rfl, opens, rfl⟩
    cases opened.symm.trans (outcome_sheet_eq_error_iff.mpr rejects)
  | malformed reaches =>
    refine ⟨_, .of_stopsAt reaches (fun items => ?_) nofun⟩
    rw [scanItems_malformed]
    rfl
  | absent reaches absent =>
    have missing := firstFile_eq_none_iff.mpr absent
    refine ⟨_, .of_stopsAt reaches (fun items => ?_) ?_⟩
    · rw [scanItems_of_none missing]
      rfl
    · rintro _ _ _ inside target location ⟨⟩ found
      cases found.symm.trans missing
  | unanswered reaches parts absent unknown =>
    have stopped := firstFile_eq_error_iff.mpr ⟨_, _, _, parts, absent, unknown⟩
    refine ⟨_, .of_stopsAt reaches (fun items => ?_) ?_⟩
    · rw [scanItems_of_error stopped]
      rfl
    · rintro _ _ _ inside target location ⟨⟩ found
      cases found.symm.trans stopped
  | deep reaches found new deep =>
    refine ⟨_, .of_stopsAt reaches (fun items => ?_) ?_⟩
    · rw [scanItems_of_deep found new deep]
      rfl
    · rintro _ _ _ inside target location ⟨⟩ - - deeper
      cases deeper.symm.trans deep
  | included reaches found new deeper _ ih =>
    obtain ⟨chain, unwinds⟩ := ih
    exact ⟨_, .included ⟨_, _, _, _, _, reaches, found, new, deeper⟩ unwinds⟩
  | unfinished opens passes visible =>
    refine ⟨_, .arises (.unfinished opens passes visible)
      fun inside target now other enters fails => ?_⟩
    -- the scan gets past all items
    obtain ⟨_, _, _, _, _, ⟨_, _, _, before, opensAgain, parts, passesBefore⟩, found, new,
        deeper⟩ := enters
    obtain ⟨rfl, rfl, rfl⟩ := opens.unique opensAgain
    rw [parts] at passes
    exact passesBefore.not_passes (fails.stopsAt found new deeper) passes

/-! ## Which files these are -/

/-- Files that have been seen stay seen, and the file at hand is one of them. -/
theorem Reaches.exists_known (reaches : w.Reaches options depth path seen items now) :
    ∃ location, w.knownFileAt path = .ok (some location) ∧ ∀ place ∈ location :: seen,
    place ∈ now := by
  obtain ⟨location, source, clean, before, opens, -, expansion, -, -, -, rfl⟩ := reaches
  exact ⟨location, opens.known, fun place among => List.mem_append_left _ among⟩

/-- All files that a scan is in, behind the one that it is a scan of, are ones that had not been
seen. -/
theorem Unwinds.known (unwinds : w.Unwinds options depth path seen fault chain) :
    ∀ file ∈ chain, file = path ∨ ∃ location ∉ seen, w.knownFileAt file = .ok (some location) := by
  induction unwinds with
  | arises => exact fun file among => .inl (List.mem_singleton.mp among)
  | @included depth path seen inside target now fault chain enters _ ih =>
    obtain ⟨kind, name, span, items, location, reaches, found, new, -⟩ := enters
    obtain ⟨place, -, within⟩ := reaches.exists_known
    have unseen (other : Location) (new : other ∉ now) : other ∉ seen :=
      fun among => new (within other (List.mem_cons_of_mem place among))
    intro file among
    rcases List.mem_cons.mp among with rfl | among
    · exact .inl rfl
    rcases ih file among with rfl | ⟨other, unreached, known⟩
    · exact .inr ⟨location, unseen location new, knownFileAt_of_firstFile found⟩
    · exact .inr ⟨other, unseen other unreached, known⟩

end SignatureIndex.World
