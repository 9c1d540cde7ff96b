import SignatureIndex.Proofs.Loading
import SignatureIndex.Proofs.Unread

/-!
# Settings that ask for reports

Whether scans are reported is one of the settings.  It can be set in a document without a change to
anything else that the document says.  Where the settings file differs in no more than that, the
settings that hold differ in no more, and where none can be loaded from one file, none can be loaded
from the other.
-/

namespace SignatureIndex

/-! ## Documents -/

/-- Putting a value changes the names of fields by the name of the value at most. -/
theorem Fields.filter_names_put (fields : Fields) {name : String} (value : Datum)
    {keeps : String → Bool} (drops : keeps name = false) :
    (fields.put name value).names.filter keeps = fields.names.filter keeps := by
  unfold put names
  split
  · rw [List.map_map]
    congr 1
    apply List.map_congr_left
    intro field _
    by_cases here : field.1 = name
    · simp [here]
    · simp [here]
  · simp [drops]

/-- Only the value that is put last counts. -/
theorem Fields.put_put (fields : Fields) (name : String) (first second : Datum) :
    (fields.put name first).put name second = fields.put name second := by
  cases there : fields.any (·.1 == name) with
  | true =>
    have still : (fields.map fun field => if field.1 == name then (name, first) else field).any
        (·.1 == name) = true := by
      rw [List.any_map]
      refine (List.any_congr rfl fun field => ?_).trans there
      by_cases here : field.1 = name
      · simp [here]
      · simp [here]
    simp only [put, there, if_true, still, List.map_map]
    refine List.map_congr_left fun field _ => ?_
    by_cases here : field.1 = name
    · simp [here]
    · simp [here]
  | false =>
    have unchanged :
        (fields.map fun field => if field.1 = name then (name, second) else field) = fields := by
      refine (List.map_congr_left fun field among => ?_).trans (List.map_id fields)
      have other := List.any_eq_false.mp there field among
      rw [if_neg (by simpa using other)]
      rfl
    simp [put, there, unchanged]

namespace Settings

/-- The part of a settings file that says how sources are scanned. -/
def scanning : Section := ⟨"parse", [("verbose", .flag)]⟩

/-- The fields of that part, if it is there. -/
def scanningFields (document : Fields) : Fields :=
  match document.get? scanning.name with
  | some (.table fields) => fields
  | _ => []

/-- A document of settings in which it is set whether scans are reported. -/
def setVerbose (verbose : Bool) (document : Fields) : Fields :=
  document.put scanning.name (.table ((scanningFields document).put "verbose" (.boolean verbose)))

private theorem checkSection_setVerbose {document : Fields} {part : Section}
    (other : part.name ≠ scanning.name) (verbose : Bool) :
    checkSection (setVerbose verbose document) part = checkSection document part := by
  unfold checkSection setVerbose
  rw [Fields.get?_put, if_neg other]

private theorem checkSection_scanning_setVerbose {document fields : Fields} (verbose : Bool)
    (checked : checkSection document scanning = .ok fields) :
    checkSection (setVerbose verbose document) scanning =
      .ok (fields.put "verbose" (.boolean verbose)) := by
  -- the part is missing, or it is a table of known settings
  have same : scanningFields document = fields ∧ unknownKeys scanning fields = [] := by
    unfold checkSection at checked
    unfold scanningFields
    split at checked
    next missing =>
      cases checked
      rw [missing]
      exact ⟨rfl, by simp [unknownKeys, Fields.names]⟩
    next given present =>
      rw [present]
      obtain ⟨_, -, checked⟩ := bind_eq_ok_iff.mp checked
      dsimp only at checked
      split at checked
      next none =>
        cases checked
        exact ⟨rfl, List.isEmpty_iff.mp none⟩
      · cases checked
    · cases checked
  obtain ⟨rfl, known⟩ := same
  have put : (setVerbose verbose document).get? scanning.name =
      some (.table ((scanningFields document).put "verbose" (.boolean verbose))) := by
    rw [setVerbose, Fields.get?_put, if_pos rfl]
  -- the name that is put is that of a setting
  have stillKnown :
      unknownKeys scanning ((scanningFields document).put "verbose" (.boolean verbose)) = [] := by
    rw [unknownKeys, Fields.filter_names_put _ _ (by decide)]
    exact known
  have isSet : Fields.get? ((scanningFields document).put "verbose" (.boolean verbose)) "verbose" =
      some (.boolean verbose) := by
    rw [Fields.get?_put, if_pos rfl]
  rw [checkSection, put]
  dsimp only
  rw [stillKnown]
  simp only [scanning, List.forM_eq_forM, List.forM_cons, List.forM_nil, isSet, checkValue]
  rfl

/-- Setting in a document whether scans are reported changes nothing else about the settings. -/
theorem ofDocument_setVerbose {document : Fields} {settings : Settings} (verbose : Bool)
    (read : ofDocument document = .ok settings) :
    ofDocument (setVerbose verbose document) = .ok { settings with verbose } := by
  -- the three parts have been checked one after the other, and only the last of them changes
  obtain ⟨checked, all, made⟩ := bind_eq_ok_iff.mp read
  simp only [sections, List.mapM_cons, List.mapM_nil, bind_eq_ok_iff] at all
  obtain ⟨layout, layoutChecked, _,
      ⟨runtime, runtimeChecked, _, ⟨parse, parseChecked, _, none, third⟩, second⟩,
    first⟩ := all
  cases none
  cases third
  cases second
  cases first
  cases made
  rw [← checkSection_setVerbose (by decide) verbose] at layoutChecked runtimeChecked
  have scanningChecked := checkSection_scanning_setVerbose verbose parseChecked
  have isSet : flagSetting (parse.put "verbose" (.boolean verbose)) "verbose" = verbose := by
    rw [flagSetting, Fields.get?_put, if_pos rfl]
  rw [scanning] at scanningChecked
  simp only [ofDocument, sections, List.mapM_cons, List.mapM_nil, layoutChecked, runtimeChecked,
    scanningChecked]
  exact congrArg (fun flag => Except.ok (Settings.mk _ _ _ flag)) isSet

private theorem setVerbose_setVerbose (first second : Bool) (document : Fields) :
    setVerbose second (setVerbose first document) = setVerbose second document := by
  have fields : scanningFields (setVerbose first document) =
      (scanningFields document).put "verbose" (.boolean first) := by
    rw [scanningFields, setVerbose, Fields.get?_put, if_pos rfl]
  rw [setVerbose, fields, Fields.put_put, setVerbose, Fields.put_put]
  rfl

/-! ## Bytes -/

/-- The settings that bytes hold, if they hold any. -/
def told (bytes : List UInt8) : Option Settings := do
  let text ← (Text.Utf8.decode bytes).toOption
  let document ← (Toml.parse text).toOption
  (ofDocument document).toOption

private theorem told_eq (problem : String → Problem) (bytes : List UInt8) :
    told bytes = (Toml.ofBytes problem bytes).toOption.bind fun document =>
    (ofDocument document).toOption := by
  unfold told Toml.ofBytes
  cases Text.Utf8.decode bytes with
  | error rest => rfl
  | ok text =>
    simp only [Except.toOption, Option.bind_eq_bind, Option.bind_some]
    cases Toml.parse text with
    | ok document => rfl
    | error flaw => cases flaw <;> rfl

/-- Whether bytes hold the same settings as others, apart from whether scans are reported. -/
def DifferInReports (bytes other : List UInt8) : Prop :=
  ∃ verbose, told other = (told bytes).map fun settings => { settings with verbose }

/-- Whether bytes hold a document. -/
def Holds (bytes : List UInt8) (document : Fields) : Prop :=
  ∃ text, Text.Utf8.decode bytes = .ok text ∧ Toml.parse text = .ok document

private theorem told_of_holds {bytes : List UInt8} {document : Fields}
    (holds : Holds bytes document) : told bytes = (ofDocument document).toOption := by
  obtain ⟨text, decoded, parsed⟩ := holds
  simp [told, decoded, parsed, Except.toOption]

/-- Documents in which it is set whether scans are reported, and which say the same otherwise,
differ in nothing else, also if there is something wrong with them. -/
theorem differInReports_of_holds {document : Fields} {first second : Bool}
    {bytes other : List UInt8} (holds : Holds bytes (setVerbose first document))
    (holdsOther : Holds other (setVerbose second document)) :
    DifferInReports bytes other := by
  refine ⟨second, ?_⟩
  rw [told_of_holds holds, told_of_holds holdsOther]
  cases read : ofDocument (setVerbose first document) with
  | ok settings =>
    have again := ofDocument_setVerbose second read
    rw [setVerbose_setVerbose] at again
    rw [again]
    rfl
  | error problem =>
    cases readOther : ofDocument (setVerbose second document) with
    | ok settings =>
      -- what can be read one way can be read the other way
      have again := ofDocument_setVerbose first readOther
      rw [setVerbose_setVerbose, read] at again
      cases again
    | error problem => rfl

/-! ## Loading -/

section Loading

variable {w w' : World} {place : Location} (same : w.SameBut w' place)
include same

private theorem find_of_sameBut (start : Option Path) : find w' start = find w start := by
  have files : w'.isFile = w.isFile := by
    funext path
    rw [World.isFile, World.isFile, same.alike.fileAt_eq]
  simp only [find, nearest, searchStart, same.alike.resolve_eq, files]

private theorem locateLibraries_of_sameBut (file : Path) (settings : Settings) (verbose : Bool) :
    locateLibraries w' file { settings with verbose } =
      (locateLibraries w file settings).map fun located => { located with verbose } := by
  have homes : homeOf w' = homeOf w := by
    funext user
    rw [homeOf, homeOf, World.home, World.home, same.alike.system_eq]
  have expands : expandHome w' = expandHome w := by
    funext path
    rw [expandHome, expandHome, homes]
  unfold locateLibraries
  rw [expands]
  dsimp only
  split
  · rfl
  next written given =>
    cases expandHome w (Path.ofString written) <;> rfl

omit same in
/-- What has been found as a settings file is not missed when it is loaded. -/
private theorem load_cases {file : Path} {bytes : List UInt8}
    (read : w.readBytes file = .ok bytes) :
    (∃ settings, told bytes = some settings ∧ load w file = locateLibraries w file settings) ∨
      told bytes = none ∧ ∃ fault, load w file = .error fault ∧ fault ≠ .file .notFound := by
  rw [told_eq fun detail => .settings (.unreadable file detail)]
  simp only [load, read]
  cases parsed : Toml.ofBytes (fun detail => .settings (.unreadable file detail)) bytes with
  | error fault =>
    refine .inr ⟨rfl, fault, rfl, ?_⟩
    rintro rfl
    -- reading a document fails for other reasons
    rcases Toml.ofBytes_eq_error_iff.mp parsed with ⟨_, _, -, -, never⟩ | spoiled
    · cases never
    · cases spoiled
  | ok document =>
    simp only [bind, Except.bind, Except.toOption, Option.bind_some]
    cases ofDocument document with
    | error problem =>
      refine .inr ⟨rfl, _, rfl, fun missing => ?_⟩
      cases missing
    | ok settings => exact .inl ⟨settings, rfl, rfl⟩

omit same in
private theorem loadFor_of_find {start : Option Path} {file : Path}
    (found : find w start = .ok file) (known : load w file ≠ .error (.file .notFound)) :
    loadFor w start = load w file := by
  have loads : (find w start).bind (load w) = load w file := by rw [found, Except.bind]
  rw [loadFor, loads]
  split
  next missing => exact absurd missing known
  · rfl

omit same in
private theorem locateLibraries_ne {file : Path} {settings : Settings} :
    locateLibraries w file settings ≠ .error (.file .notFound) := by
  intro failed
  obtain ⟨_, user, -, -, unknown⟩ := locateLibraries_eq_error_iff.mp failed
  unfold homeOf at unknown
  split at unknown
  · cases unknown
  split at unknown
  · cases unknown
  · split at unknown <;> cases unknown

/-- Settings are loaded from files that differ in no more than whether scans are reported, or from
neither. -/
theorem loadFor_cases {start : Option Path} {file : Path} {bytes other : List UInt8}
    (found : find w start = .ok file) (read : w.readBytes file = .ok bytes)
    (readOther : w'.readBytes file = .ok other) (differ : DifferInReports bytes other) :
    (∃ settings verbose, loadFor w start = .ok settings ∧
      loadFor w' start = .ok { settings with verbose }) ∨
      ∃ fault otherFault, loadFor w start = .error fault ∧
      loadFor w' start = .error otherFault := by
  have foundOther : find w' start = .ok file := (find_of_sameBut same start).trans found
  obtain ⟨verbose, differ⟩ := differ
  rcases load_cases read with ⟨settings, tells, loads⟩ | ⟨untold, fault, fails, known⟩
  · rw [tells, Option.map_some] at differ
    rcases load_cases readOther with ⟨others, tellsOther, loadsOther⟩ | ⟨untold, -⟩
    · -- both files tell settings, which differ in the reports alone
      obtain rfl := Option.some.inj (tellsOther.symm.trans differ)
      have loaded := loadFor_of_find found (loads ▸ locateLibraries_ne)
      have loadedOther := loadFor_of_find foundOther (loadsOther ▸ locateLibraries_ne)
      rw [loads] at loaded
      rw [loadsOther, locateLibraries_of_sameBut same] at loadedOther
      -- the directory of libraries is located in the same way, or cannot be located
      cases located : locateLibraries w file settings with
      | ok found =>
        rw [located] at loaded loadedOther
        exact .inl ⟨found, verbose, loaded, loadedOther⟩
      | error fault =>
        rw [located] at loaded loadedOther
        exact .inr ⟨fault, fault, loaded, loadedOther⟩
    · cases untold.symm.trans differ
  · rw [untold, Option.map_none] at differ
    rcases load_cases readOther with ⟨_, tellsOther, -⟩ | ⟨-, otherFault, failsOther, knownOther⟩
    · cases tellsOther.symm.trans differ
    · refine .inr ⟨fault, otherFault, ?_, ?_⟩
      · rw [loadFor_of_find found, fails]
        rw [fails]
        exact fun same => known (Except.error.inj same)
      · rw [loadFor_of_find foundOther, failsOther]
        rw [failsOther]
        exact fun same => knownOther (Except.error.inj same)

end Loading

end Settings

end SignatureIndex
