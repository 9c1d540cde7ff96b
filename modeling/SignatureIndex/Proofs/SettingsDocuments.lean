import SignatureIndex.Proofs.Loading
import SignatureIndex.Proofs.NamesInOrder

/-!
# Documents of settings

A document is read as settings exactly if each of its sections is a table in which only known
settings stand, each with a value of its type, and none with an empty text.  Every setting then has
the value that is written in the document, or its default if there is none.  Whatever stands outside
of the sections does not matter.

A document of another shape is refused for the first section that is not in order.  In a section the
settings are looked at first, in the order in which they are declared, and unknown keys only count
if all settings are in order; then they are told all together.

The directory of libraries is more than a value.  It is a path, which starts next to the settings
file unless it starts at the root, and which may start at a home directory.
-/

namespace SignatureIndex.Settings

section Documents

variable {document : Fields} {part : Section} {fields : Fields} {setting : String × SettingType}
    {value : Datum} {problem : SettingsProblem} {settings : Settings} {name : String}

/-! ## Sections -/

/-- Whether a document gives a section these fields.  A section that is not there has none. -/
def Gives (document : Fields) (part : Section) (fields : Fields) : Prop :=
  (document.get? part.name).getD (.table []) = .table fields

/-- Whether a value is of the type of a setting. -/
inductive IsOf : SettingType → Datum → Prop
  | text {value : String} : IsOf .text (.text value)
  | flag {value : Bool} : IsOf .flag (.boolean value)

/-- Whether a setting is in order among the fields of a section, where it need not stand. -/
def Passes (fields : Fields) (setting : String × SettingType) : Prop :=
  ∀ value, fields.get? setting.1 = some value → IsOf setting.2 value ∧ value ≠ .text ""

/-- Whether a document gives a section these fields and the section is in order. -/
structure IsSound (document : Fields) (part : Section) (fields : Fields) : Prop where
  given : Gives document part fields
  passes : ∀ setting ∈ part.settings, Passes fields setting
  known : ∀ name ∈ fields.names, name ∈ part.settings.map (·.1)

def HasShape (document : Fields) : Prop := ∀ part ∈ sections, ∃ fields, IsSound document part fields

/-- The first thing that is wrong with the value of a setting. -/
inductive ValueFlaw (part : String) (setting : String × SettingType) :
    Datum → SettingsProblem → Prop
  | wrongType {value : Datum} : ¬IsOf setting.2 value →
      ValueFlaw part setting value (.wrongType part setting.1 setting.2.name)
  | emptyField : setting.2 = .text → ValueFlaw part setting (.text "") (.emptyField part setting.1)

/-- The first thing that is wrong with a section. -/
inductive SectionFlaw (document : Fields) (part : Section) : SettingsProblem → Prop
  | notTable : (∀ fields, ¬Gives document part fields) →
      SectionFlaw document part (.notTable part.name)
  | value {fields : Fields} {before : List (String × SettingType)} {setting : String × SettingType}
      {after : List (String × SettingType)} {value : Datum} {problem : SettingsProblem} :
      Gives document part fields → part.settings = before ++ setting :: after →
      (∀ other ∈ before, Passes fields other) → fields.get? setting.1 = some value →
      ValueFlaw part.name setting value problem → SectionFlaw document part problem
  | unknownKeys {fields : Fields} {keys : List String} : Gives document part fields →
      (∀ setting ∈ part.settings, Passes fields setting) → keys ≠ [] →
      (∀ name, name ∈ keys ↔ name ∈ fields.names ∧ name ∉ part.settings.map (·.1)) →
      keys.Pairwise (· < ·) →
      SectionFlaw document part (.unknownKeys part.name keys)

/-- The first thing that is wrong with a document. -/
def Flaw (document : Fields) (problem : SettingsProblem) : Prop :=
  ∃ before part after, sections = before ++ part :: after ∧
    (∀ other ∈ before, ∃ fields, IsSound document other fields) ∧ SectionFlaw document part problem

theorem gives_iff : Gives document part fields ↔
    document.get? part.name = some (.table fields) ∨ document.get? part.name = none ∧
    fields = [] := by
  unfold Gives
  cases Fields.get? document part.name with
  | none => simp [eq_comm]
  | some value => simp

private theorem checkValue_eq_ok_iff {part : String} :
    checkValue part setting value = .ok () ↔ IsOf setting.2 value ∧ value ≠ .text "" := by
  obtain ⟨name, type⟩ := setting
  unfold checkValue
  constructor
  · intro passed
    split at passed
    next written isText =>
      obtain rfl : type = .text := isText
      split at passed
      · cases passed
      next filled => exact ⟨.text, fun empty => filled (by cases empty; rfl)⟩
    next flag isFlag =>
      obtain rfl : type = .flag := isFlag
      exact ⟨.flag, nofun⟩
    · cases passed
  · rintro ⟨ofType, filled⟩
    dsimp only at ofType
    cases ofType with
    | @text written =>
      have hasText : ¬written.isEmpty = true := by
        intro empty
        exact filled (by rw [String.isEmpty_iff.mp empty])
      exact if_neg hasText
    | flag => rfl

private theorem checkValue_eq_error_iff {part : String} :
    checkValue part setting value = .error problem ↔ ValueFlaw part setting value problem := by
  obtain ⟨name, type⟩ := setting
  unfold checkValue
  constructor
  · intro failed
    split at failed
    next written isText =>
      split at failed
      next empty =>
        cases failed
        rw [String.isEmpty_iff.mp empty]
        exact .emptyField isText
      · cases failed
    · cases failed
    next noText noFlag =>
      cases failed
      apply ValueFlaw.wrongType
      rintro ofType
      dsimp only at ofType
      cases ofType with
      | text => exact noText _ rfl rfl
      | flag => exact noFlag _ rfl rfl
  · intro flaw
    cases flaw with
    | wrongType other =>
      split
      next written isText =>
        obtain rfl : type = .text := isText
        exact absurd .text other
      next flag isFlag =>
        obtain rfl : type = .flag := isFlag
        exact absurd .flag other
      · rfl
    | emptyField isText =>
      obtain rfl : type = .text := isText
      rfl

/-- The check of one setting among the fields of a section. -/
def checkSetting (part : String) (fields : Fields) (setting : String × SettingType) :
    Except SettingsProblem Unit :=
  match fields.get? setting.1 with
  | some given => checkValue part setting given
  | none => .ok ()

theorem checkSetting_eq_ok_iff {part : String} : checkSetting part fields setting = .ok () ↔
    Passes fields setting := by
  unfold checkSetting Passes
  split
  next given there => simp [there, checkValue_eq_ok_iff]
  next missing => simp [missing]

private theorem checkSetting_eq_error_iff {part : String} :
    checkSetting part fields setting = .error problem ↔
    ∃ value, fields.get? setting.1 = some value ∧ ValueFlaw part setting value problem := by
  unfold checkSetting
  split
  next given there => simp [there, checkValue_eq_error_iff]
  next missing => simp [missing]

theorem eq_unknownKeys_iff {keys : List String} : keys = unknownKeys part fields ↔
    (∀ name, name ∈ keys ↔ name ∈ fields.names ∧ name ∉ part.settings.map (·.1)) ∧
    keys.Pairwise (· < ·) := by
  have asked : ∀ name, (!part.settings.any (·.1 == name)) = true ↔
      name ∉ part.settings.map (·.1) := by
    intro name
    simp only [Bool.not_eq_true', List.any_eq_false, beq_iff_eq, List.mem_map, not_exists, not_and]
  simp only [unknownKeys, eq_inOrder_iff, List.mem_filter, asked]

theorem unknownKeys_eq_nil_iff :
    unknownKeys part fields = [] ↔ ∀ name ∈ fields.names, name ∈ part.settings.map (·.1) := by
  rw [eq_comm, eq_unknownKeys_iff]
  simp only [List.not_mem_nil, false_iff, not_and, Decidable.not_not, List.Pairwise.nil, and_true]

/-- A section that is a table, or is not there, is checked setting by setting, and then for unknown
keys. -/
theorem checkSection_of_gives (given : Gives document part fields) :
    checkSection document part = (do
      part.settings.forM (checkSetting part.name fields)
      if (unknownKeys part fields).isEmpty then .ok fields
      else .error (.unknownKeys part.name (unknownKeys part fields))) := by
  rcases gives_iff.mp given with there | ⟨missing, rfl⟩
  · rw [checkSection, there]
    rfl
  · have passed : part.settings.forM (checkSetting part.name []) = .ok () :=
      forM_eq_ok_iff.mpr fun _ _ => checkSetting_eq_ok_iff.mpr nofun
    have known : unknownKeys part [] = [] := unknownKeys_eq_nil_iff.mpr nofun
    rw [checkSection, missing, passed, known]
    rfl

theorem checkSection_of_not_table (other : ∀ fields, ¬Gives document part fields) :
    checkSection document part = .error (.notTable part.name) := by
  simp only [gives_iff, not_or, not_and] at other
  rw [checkSection]
  split
  next missing => exact absurd rfl ((other []).2 missing)
  next fields there => exact absurd there (other fields).1
  · rfl

theorem checkSection_eq_ok_iff : checkSection document part = .ok fields ↔
    IsSound document part fields := by
  constructor
  · intro passed
    obtain ⟨held, given⟩ : ∃ fields, Gives document part fields := by
      apply Classical.byContradiction
      intro none
      rw [checkSection_of_not_table (not_exists.mp none)] at passed
      cases passed
    rw [checkSection_of_gives given, bind_eq_ok_iff] at passed
    obtain ⟨⟨⟩, checked, passed⟩ := passed
    split at passed
    next known =>
      cases passed
      refine ⟨given, ?_, unknownKeys_eq_nil_iff.mp (List.isEmpty_iff.mp known)⟩
      simpa only [forM_eq_ok_iff, checkSetting_eq_ok_iff] using checked
    · cases passed
  · rintro ⟨given, passes, known⟩
    have checked : part.settings.forM (checkSetting part.name fields) = .ok () := by
      simpa only [forM_eq_ok_iff, checkSetting_eq_ok_iff] using passes
    rw [checkSection_of_gives given, checked, unknownKeys_eq_nil_iff.mpr known]
    rfl

private theorem checkSection_eq_error_iff :
    checkSection document part = .error problem ↔ SectionFlaw document part problem := by
  constructor
  · intro failed
    by_cases given : ∃ fields, Gives document part fields
    · obtain ⟨fields, given⟩ := given
      -- the settings are checked in their order, and unknown keys after all of them
      rw [checkSection_of_gives given, bind_eq_error_iff, forM_eq_error_iff] at failed
      simp only [checkSetting_eq_ok_iff, checkSetting_eq_error_iff] at failed
      rcases failed with
        ⟨before, setting, after, parts, passes, value, there, flaw⟩ | ⟨⟨⟩, checked, failed⟩
      · exact .value given parts passes there flaw
      · simp only [forM_eq_ok_iff, checkSetting_eq_ok_iff] at checked
        split at failed
        · cases failed
        next some =>
          cases failed
          obtain ⟨unknown, increasing⟩ := eq_unknownKeys_iff.mp rfl
          exact .unknownKeys given checked (mt List.isEmpty_iff.mpr some) unknown increasing
    · -- what stands there is something else than a table
      rw [checkSection_of_not_table (not_exists.mp given)] at failed
      cases failed
      exact .notTable (not_exists.mp given)
  · intro flaw
    cases flaw with
    | notTable other => exact checkSection_of_not_table other
    | value given parts passes there flaw =>
      rw [checkSection_of_gives given, bind_eq_error_iff, forM_eq_error_iff]
      simp only [checkSetting_eq_ok_iff, checkSetting_eq_error_iff]
      exact .inl ⟨_, _, _, parts, passes, _, there, flaw⟩
    | unknownKeys given passes some unknown increasing =>
      rw [checkSection_of_gives given, bind_eq_error_iff]
      refine .inr ⟨(), ?_, ?_⟩
      · simpa only [forM_eq_ok_iff, checkSetting_eq_ok_iff] using passes
      · obtain rfl := eq_unknownKeys_iff.mpr ⟨unknown, increasing⟩
        exact if_neg (mt List.isEmpty_iff.mp some)

/-! ## Values -/

/-- The value of a setting, if it has one. -/
def value? (settings : Settings) : (part name : String) → Option Datum
  | "layout", "build_marker" => some (.text settings.layout.buildMarker)
  | "layout", "dependency_subpath" => some (.text settings.layout.dependencySubpath)
  | "layout", "source_dir" => some (.text settings.layout.sourceDirectory)
  | "layout", "include_dir" => some (.text settings.layout.includeDirectory)
  | "layout", "source_ext" => some (.text settings.layout.sourceExtension)
  | "runtime", "lib_dir" => settings.libraryDirectory.map .text
  | "runtime", "catalog" => some (.text settings.catalog)
  | "parse", "verbose" => some (.boolean settings.verbose)
  | _, _ => none

/-- The value that a document gives a setting, if it gives it one. -/
def given? (document : Fields) (part name : String) : Option Datum :=
  match document.get? part with
  | some (.table fields) => Fields.get? fields name
  | _ => none

/-- Whether every setting has the value that a document gives it, or its default. -/
def Sets (document : Fields) (settings : Settings) : Prop :=
  ∀ part ∈ sections, ∀ setting ∈ part.settings, settings.value? part.name setting.1 =
    (given? document part.name setting.1).or (default.value? part.name setting.1)

/-- Settings differ in the value of a setting, or not at all. -/
theorem eq_of_value?_eq {other : Settings} (same : ∀ part ∈ sections, ∀ setting ∈ part.settings,
    settings.value? part.name setting.1 = other.value? part.name setting.1) : settings = other := by
  obtain ⟨⟨marker, subpath, source, includes, extension⟩, libraries, catalog, verbose⟩ := settings
  obtain ⟨⟨marker', subpath', source', includes', extension'⟩, libraries', catalog', verbose'⟩ :=
    other
  simp only [sections, List.forall_mem_cons, value?] at same
  obtain ⟨⟨sameMarker, sameSubpath, sameSource, sameIncludes, sameExtension, -⟩,
      ⟨sameLibraries, sameCatalog, -⟩, ⟨sameVerbose, -⟩, -⟩ := same
  cases sameMarker
  cases sameSubpath
  cases sameSource
  cases sameIncludes
  cases sameExtension
  cases sameCatalog
  cases sameVerbose
  have injective : Function.Injective Datum.text := fun _ _ => Datum.text.inj
  rw [Option.map_injective injective sameLibraries]

private theorem given?_of_gives (given : Gives document part fields) (name : String) :
    given? document part.name name = fields.get? name := by
  rcases gives_iff.mp given with there | ⟨missing, rfl⟩
  · rw [given?, there]
  · rw [given?, missing]
    rfl

theorem map_textSetting? (passes : Passes fields (name, .text)) :
    (textSetting? fields name).map .text = fields.get? name := by
  unfold textSetting?
  cases there : Fields.get? fields name with
  | none => rfl
  | some value =>
    obtain ⟨ofType, -⟩ := passes value there
    cases ofType
    rfl

private theorem text_getD_textSetting? (passes : Passes fields (name, .text)) (usual : String) :
    some (Datum.text ((textSetting? fields name).getD usual)) =
      (fields.get? name).or (some (.text usual)) := by
  rw [← map_textSetting? passes]
  cases textSetting? fields name <;> rfl

private theorem boolean_flagSetting (passes : Passes fields (name, .flag)) :
    some (Datum.boolean (flagSetting fields name)) =
      (fields.get? name).or (some (.boolean false)) := by
  unfold flagSetting
  cases there : Fields.get? fields name with
  | none => rfl
  | some value =>
    obtain ⟨ofType, -⟩ := passes value there
    cases ofType
    rfl

private theorem sets_of_ofDocument (read : ofDocument document = .ok settings) :
    HasShape document ∧ Sets document settings := by
  obtain ⟨results, checked, made⟩ := bind_eq_ok_iff.mp read
  have sound := mapM_eq_ok_iff.mp checked
  simp only [checkSection_eq_ok_iff] at sound
  refine ⟨exists_forall₂_iff.mp ⟨results, sound⟩, ?_⟩
  obtain _ | ⟨layoutSound, _ | ⟨runtimeSound, _ | ⟨parseSound, _ | _⟩⟩⟩ := sound
  cases made
  intro part among setting listed
  simp only [sections, List.mem_cons, List.not_mem_nil, or_false] at among
  -- section by section, as the sections are listed
  rcases among with rfl | rfl | rfl
  · have passes := layoutSound.passes setting listed
    rw [given?_of_gives layoutSound.given]
    simp only [List.mem_cons, List.not_mem_nil, or_false] at listed
    rcases listed with rfl | rfl | rfl | rfl | rfl
    all_goals exact text_getD_textSetting? passes _
  · have passes := runtimeSound.passes setting listed
    rw [given?_of_gives runtimeSound.given]
    simp only [List.mem_cons, List.not_mem_nil, or_false] at listed
    rcases listed with rfl | rfl
    · exact (map_textSetting? passes).trans (Option.or_none).symm
    · exact text_getD_textSetting? passes _
  · have passes := parseSound.passes setting listed
    rw [given?_of_gives parseSound.given]
    simp only [List.mem_cons, List.not_mem_nil, or_false] at listed
    cases listed
    exact boolean_flagSetting passes

theorem exists_ofDocument_of_hasShape (shape : HasShape document) :
    ∃ settings, ofDocument document = .ok settings := by
  obtain ⟨results, sound⟩ := exists_forall₂_iff.mpr shape
  have checked : sections.mapM (checkSection document) = .ok results := by
    simpa only [mapM_eq_ok_iff, checkSection_eq_ok_iff] using sound
  unfold ofDocument
  rw [checked]
  obtain _ | ⟨layoutSound, _ | ⟨runtimeSound, _ | ⟨parseSound, _ | _⟩⟩⟩ := sound
  exact ⟨_, rfl⟩

theorem ofDocument_eq_ok_iff : ofDocument document = .ok settings ↔
    HasShape document ∧ Sets document settings := by
  constructor
  · exact sets_of_ofDocument
  · rintro ⟨shape, sets⟩
    obtain ⟨read, made⟩ := exists_ofDocument_of_hasShape shape
    obtain ⟨-, same⟩ := sets_of_ofDocument made
    rw [made]
    -- a document has one value for each setting
    congr 1
    apply eq_of_value?_eq
    intro part among setting listed
    exact (same part among setting listed).trans (sets part among setting listed).symm

theorem ofDocument_eq_error_iff : ofDocument document = .error problem ↔ Flaw document problem := by
  unfold ofDocument Flaw
  rw [bind_eq_error_iff, mapM_eq_error_iff]
  simp only [checkSection_eq_ok_iff, checkSection_eq_error_iff]
  apply or_iff_left
  rintro ⟨results, -, failed⟩
  split at failed <;> cases failed

private theorem checkSection_congr {other : Fields}
    (same : other.get? part.name = document.get? part.name) :
    checkSection other part = checkSection document part := by
  unfold checkSection
  rw [same]

/-- Documents with the same sections are read alike, whatever else stands in them. -/
theorem ofDocument_congr {other : Fields}
    (same : ∀ part ∈ sections, other.get? part.name = document.get? part.name) :
    ofDocument other = ofDocument document := by
  have checked : ∀ part ∈ sections, checkSection other part = checkSection document part :=
    fun part among => checkSection_congr (same part among)
  simp only [sections, List.forall_mem_cons] at checked
  unfold ofDocument
  simp only [sections, List.mapM_cons, List.mapM_nil, checked]

/-! ## The directory of libraries -/

/-- Whether a path starts at a home directory. -/
def StartsAtHome (path : Path) : Prop :=
  path.isAbsolute = false ∧ ∃ name ∈ path.parts.head?, name.startsWith "~" = true

/-- Whether a document does not put the libraries at a home directory. -/
def AvoidsHome (document : Fields) : Prop :=
  ∀ written, given? document "runtime" "lib_dir" = some (.text written) →
  ¬StartsAtHome (Path.ofString written)

/-- What is written in a settings file, as a path that starts next to that file unless it starts at
the root. -/
def directoryFrom (file : Path) (written : String) : String :=
  toString (file.parent.join (Path.ofString written))

/-- Whether settings are those that a file with a document in it is loaded as. -/
structure Loads (file : Path) (document : Fields) (settings : Settings) : Prop where
  others : ∀ part ∈ sections, ∀ setting ∈ part.settings, setting.1 ≠ "lib_dir" →
    settings.value? part.name setting.1 =
      (given? document part.name setting.1).or (default.value? part.name setting.1)
  libraries : settings.libraryDirectory =
    ((given? document "runtime" "lib_dir").bind Datum.text?).map (directoryFrom file)

variable {w : World} {file : Path} {bytes : List UInt8} {loaded : Settings}

private theorem expandHome_of_not_startsAtHome {path : Path} (away : ¬StartsAtHome path) :
    expandHome w path = .ok path := by
  unfold expandHome
  split
  next first rest relative parts =>
    have unmarked : ¬first.startsWith "~" = true := by
      intro marked
      exact away ⟨relative, first, by rw [parts]; rfl, marked⟩
    rw [if_neg unmarked]
  · rfl

theorem libraryDirectory_of_sets (sets : Sets document settings) :
    settings.libraryDirectory = (given? document "runtime" "lib_dir").bind Datum.text? := by
  simp only [Sets, sections, List.forall_mem_cons] at sets
  obtain ⟨-, ⟨same, -⟩, -⟩ := sets
  change settings.libraryDirectory.map .text = (given? document "runtime" "lib_dir").or none at same
  rw [Option.or_none] at same
  rw [← same]
  cases settings.libraryDirectory <;> rfl

theorem locateLibraries_of_avoidsHome (sets : Sets document settings) (away : AvoidsHome document) :
    locateLibraries w file settings =
      .ok { settings with libraryDirectory :=
        settings.libraryDirectory.map (directoryFrom file) } := by
  have given := libraryDirectory_of_sets sets
  unfold locateLibraries
  split
  next none =>
    obtain ⟨layout, directory, catalog, verbose⟩ := settings
    cases none
    rfl
  next written there =>
    have isText : given? document "runtime" "lib_dir" = some (.text written) := by
      rw [there] at given
      obtain ⟨value, here, isText⟩ := Option.bind_eq_some_iff.mp given.symm
      rw [here, Datum.text?_eq_some_iff.mp isText]
    rw [expandHome_of_not_startsAtHome (away written isText), there]
    rfl

/-- Where the libraries are is the value of one setting and of no other. -/
theorem value?_of_ne {part : String} (settings : Settings) (directory : Option String)
    (other : name ≠ "lib_dir") : { settings with libraryDirectory := directory }.value? part name =
      settings.value? part name := by
  unfold value?
  split
  case h_6 => exact absurd rfl other
  all_goals rfl

private theorem value?_lib_dir_congr {part : String}
    (same : settings.libraryDirectory = loaded.libraryDirectory) :
    settings.value? part "lib_dir" = loaded.value? part "lib_dir" := by
  unfold value?
  split
  case h_6 => rw [same]
  all_goals trivial

theorem loads_of_sets (sets : Sets document settings) :
    Loads file document
      { settings with libraryDirectory := settings.libraryDirectory.map (directoryFrom file) } where
  others part among setting listed other :=
    (value?_of_ne _ _ other).trans (sets part among setting listed)
  libraries := congrArg (Option.map _) (libraryDirectory_of_sets sets)

theorem Loads.unique (first : Loads file document settings) (second : Loads file document loaded) :
    settings = loaded := by
  apply eq_of_value?_eq
  intro part among setting listed
  by_cases other : setting.1 = "lib_dir"
  · rw [other]
    exact value?_lib_dir_congr (first.libraries.trans second.libraries.symm)
  · rw [first.others part among setting listed other, second.others part among setting listed other]

/-- Once a settings file has been read as a document, all depends on the document. -/
theorem load_of_ofBytes (read : w.readBytes file = .ok bytes)
    (parsed : Toml.ofBytes (fun detail => .settings (.unreadable file detail)) bytes =
      .ok document) :
    load w file = match ofDocument document with
      | .error problem => .error (.problem (.settings problem))
      | .ok settings => locateLibraries w file settings := by
  unfold load
  rw [read]
  dsimp only
  rw [parsed]
  rfl

private theorem load_eq_problem_iff (read : w.readBytes file = .ok bytes)
    (parsed : Toml.ofBytes (fun detail => .settings (.unreadable file detail)) bytes =
      .ok document) :
    load w file = .error (.problem (.settings problem)) ↔ Flaw document problem := by
  rw [load_of_ofBytes read parsed, ← ofDocument_eq_error_iff]
  split
  next other failed => simp [failed]
  next settings made =>
    -- what can go wrong with the directory of libraries is no problem
    simp [made, locateLibraries_eq_error_iff, homeOf_ne_problem]

private theorem load_eq_ok_iff (read : w.readBytes file = .ok bytes)
    (parsed : Toml.ofBytes (fun detail => .settings (.unreadable file detail)) bytes = .ok document)
    (away : AvoidsHome document) : load w file = .ok loaded ↔
    HasShape document ∧ Loads file document loaded := by
  rw [load_of_ofBytes read parsed]
  constructor
  · intro made
    split at made
    · cases made
    next settings read =>
      obtain ⟨shape, sets⟩ := ofDocument_eq_ok_iff.mp read
      rw [locateLibraries_of_avoidsHome sets away] at made
      cases made
      exact ⟨shape, loads_of_sets sets⟩
  · rintro ⟨shape, loads⟩
    obtain ⟨settings, made⟩ := exists_ofDocument_of_hasShape shape
    obtain ⟨-, sets⟩ := ofDocument_eq_ok_iff.mp made
    rw [made]
    exact (locateLibraries_of_avoidsHome sets away).trans
      (congrArg _ ((loads_of_sets sets).unique loads))

private theorem exists_problem_of_load (read : w.readBytes file = .ok bytes)
    (parsed : Toml.ofBytes (fun detail => .settings (.unreadable file detail)) bytes = .ok document)
    (away : AvoidsHome document) {fault : Fault} (failed : load w file = .error fault) :
    ∃ problem, fault = .problem (.settings problem) := by
  rw [load_of_ofBytes read parsed] at failed
  split at failed
  next problem _ =>
    cases failed
    exact ⟨problem, rfl⟩
  next settings made =>
    obtain ⟨-, sets⟩ := ofDocument_eq_ok_iff.mp made
    rw [locateLibraries_of_avoidsHome sets away] at failed
    cases failed

/-- A settings file with a document in it is refused for the first thing that is wrong with the
document.  If the libraries are not at a home directory, nothing else can go wrong, and the file is
loaded exactly if the document has the right shape: each setting then has the value that is written,
or its default, and the directory of libraries starts next to the file, unless it starts at the
root.  All of this depends on nothing that stands outside of the sections. -/
theorem load_iff (read : w.readBytes file = .ok bytes)
    (parsed : Toml.ofBytes (fun detail => .settings (.unreadable file detail)) bytes =
      .ok document) :
    (∀ problem, load w file = .error (.problem (.settings problem)) ↔ Flaw document problem) ∧
      (AvoidsHome document →
        ((∃ loaded, load w file = .ok loaded) ↔ HasShape document) ∧
        (∀ loaded, load w file = .ok loaded ↔ HasShape document ∧ Loads file document loaded) ∧
        ∀ fault, load w file = .error fault → ∃ problem, fault = .problem (.settings problem)) ∧
      ∀ (w' : World) (bytes' : List UInt8) (document' : Fields), w'.home = w.home →
        w'.readBytes file = .ok bytes' →
        Toml.ofBytes (fun detail => .settings (.unreadable file detail)) bytes' = .ok document' →
        (∀ part ∈ sections, document'.get? part.name = document.get? part.name) →
        load w' file = load w file := by
  refine ⟨fun problem => load_eq_problem_iff read parsed, fun away => ⟨⟨?_, ?_⟩, ?_, ?_⟩, ?_⟩
  · rintro ⟨loaded, made⟩
    exact ((load_eq_ok_iff read parsed away).mp made).1
  · intro shape
    obtain ⟨settings, made⟩ := exists_ofDocument_of_hasShape shape
    obtain ⟨-, sets⟩ := ofDocument_eq_ok_iff.mp made
    exact ⟨_, (load_eq_ok_iff read parsed away).mpr ⟨shape, loads_of_sets sets⟩⟩
  · exact fun loaded => load_eq_ok_iff read parsed away
  · exact fun fault => exists_problem_of_load read parsed away
  · intro w' bytes' document' home read' parsed' same
    rw [load_of_ofBytes read parsed, load_of_ofBytes read' parsed', ofDocument_congr same]
    -- of the world itself, only the home directories are left to look at
    simp only [locateLibraries, expandHome, homeOf, home]

end Documents

/-! ## Two settings files -/

/-- A world with a settings file in its root. -/
def configured (written : String) : World where
  entries := [(["erlsym.toml"], .ofText written)]
  workingDirectory := []
  system := .ofHome "/me"
  programDirectories := []

def configuration : Path := ⟨.root, ["erlsym.toml"]⟩

/-- A document that puts the libraries somewhere, told by the bytes that it is read from. -/
theorem exists_document {problem : String → Problem} {bytes : List UInt8} {written : String}
    (found : ((Toml.ofBytes problem bytes).toOption.bind fun document =>
      (given? document "runtime" "lib_dir").bind Datum.text?) = some written) :
    ∃ document, Toml.ofBytes problem bytes = .ok document ∧
      given? document "runtime" "lib_dir" = some (.text written) := by
  obtain ⟨document, parsed, given⟩ := Option.bind_eq_some_iff.mp found
  obtain ⟨value, there, isText⟩ := Option.bind_eq_some_iff.mp given
  rw [Datum.text?_eq_some_iff.mp isText] at there
  exact ⟨document, Traced.eq_ok_of_toOption parsed, there⟩

/-- Settings that put the libraries next to the file, and a section that nobody knows. -/
def nearby : String := "[runtime]\nlib_dir=\"otp/./lib\"\n[other]"

def nearby.settings : Settings := ⟨.default, some "/otp/lib", "builtins.toml", false⟩

/-- The section that nobody knows does not matter, and the libraries are looked for next to the
settings file. -/
theorem load_nearby : load (configured nearby) configuration = .ok nearby.settings ∧
    ∃ document, given? document "runtime" "lib_dir" = some (.text "otp/./lib") ∧ HasShape document ∧
      Loads configuration document nearby.settings := by
  have loaded : load (configured nearby) configuration = .ok nearby.settings :=
    Traced.eq_ok_of_toOption (by decide +kernel)
  have read : (configured nearby).readBytes configuration = .ok (Text.Utf8.encode nearby) :=
    Traced.eq_ok_of_toOption (by decide +kernel)
  obtain ⟨document, parsed, written⟩ := @exists_document
    (fun detail => .settings (.unreadable configuration detail))
      (Text.Utf8.encode nearby) "otp/./lib"
    (by decide +kernel)
  have away : AvoidsHome document := by
    intro other given
    cases written.symm.trans given
    rintro ⟨-, name, first, marked⟩
    have starts : (Path.ofString "otp/./lib").parts.head? = some "otp" := by decide
    rw [starts] at first
    cases first
    simp at marked
  obtain ⟨-, fine, -⟩ := load_iff read parsed
  exact ⟨loaded, document, written, ((fine away).2.1 _).mp loaded⟩

/-- Settings that put the libraries in a directory with the name of a home directory. -/
def homely : String := "[runtime]\nlib_dir=\"./~\""

def homely.settings : Settings := ⟨.default, some "/me", "builtins.toml", false⟩

/-- A path that is not written like one from a home directory can still be one, when idle names are
left out. -/
theorem load_homely : "./~".startsWith "~" = false ∧
    (configured homely).readBytes configuration = .ok (Text.Utf8.encode homely) ∧
    ∃ document, Toml.ofBytes (fun detail => .settings (.unreadable configuration detail))
        (Text.Utf8.encode homely) = .ok document ∧
      given? document "runtime" "lib_dir" = some (.text "./~") ∧
      load (configured homely) configuration = .ok homely.settings ∧
      ¬Loads configuration document homely.settings := by
  have read : (configured homely).readBytes configuration = .ok (Text.Utf8.encode homely) :=
    Traced.eq_ok_of_toOption (by decide +kernel)
  have loaded : load (configured homely) configuration = .ok homely.settings :=
    Traced.eq_ok_of_toOption (by decide +kernel)
  obtain ⟨document, parsed, written⟩ := @exists_document
    (fun detail => .settings (.unreadable configuration detail)) (Text.Utf8.encode homely) "./~" (by
      decide +kernel)
  refine ⟨by simp, read, document, parsed, written, loaded, ?_⟩
  intro loads
  have elsewhere := loads.libraries
  rw [written] at elsewhere
  exact absurd elsewhere (by decide)

end SignatureIndex.Settings
