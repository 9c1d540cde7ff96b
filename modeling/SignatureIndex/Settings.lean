import SignatureIndex.Toml.File
import SignatureIndex.Traced
import SignatureIndex.World.Walk

/-!
# Settings

Settings say how projects are laid out, where the runtime's libraries are, which catalog is used,
and whether scans are reported.  They are read from the file `erlsym.toml` in the nearest directory,
going up, that has one.  Every setting has a default, and only known settings may stand in a
section.
-/

namespace SignatureIndex

/-- Where sources stand inside a project and its dependencies. -/
structure Layout where
  buildMarker : String
  dependencySubpath : String
  sourceDirectory : String
  includeDirectory : String
  sourceExtension : String
  deriving DecidableEq, Repr

def Layout.default : Layout := ⟨"_build", "_build/default/lib", "src", "include", ".erl"⟩

/-- Everything that can be set. -/
structure Settings where
  layout : Layout
  /-- The directory of the runtime's libraries, as written. -/
  libraryDirectory : Option String
  catalog : String
  verbose : Bool
  deriving DecidableEq, Repr

/-- What a setting must be. -/
inductive SettingType where
  | text
  | flag
  deriving DecidableEq, Repr

def SettingType.name : SettingType → String
  | .text => "str"
  | .flag => "bool"

namespace Settings

/-- What holds where nothing is set. -/
def default : Settings := ⟨Layout.default, none, "builtins.toml", false⟩

def fileName : String := "erlsym.toml"

/-- A part of the settings file: its name, and its settings in the order in which they are
checked. -/
structure Section where
  name : String
  settings : List (String × SettingType)

/-- The sections of a settings file, in the order in which they are checked. -/
def sections : List Section :=
  [ ⟨"layout",
      [("build_marker", .text), ("dependency_subpath", .text), ("source_dir", .text),
        ("include_dir", .text), ("source_ext", .text)]⟩,
    ⟨"runtime", [("lib_dir", .text), ("catalog", .text)]⟩,
    ⟨"parse", [("verbose", .flag)]⟩ ]

def checkValue (part : String) (setting : String × SettingType) (given : Datum) :
    Except SettingsProblem Unit :=
  match setting.2, given with
  | .text, .text value => if value.isEmpty then .error (.emptyField part setting.1) else .ok ()
  | .flag, .boolean _ => .ok ()
  | expected, _ => .error (.wrongType part setting.1 expected.name)

/-- The names of a section that are no settings, in order. -/
def unknownKeys (part : Section) (fields : Fields) : List String :=
  (fields.names.filter fun name => !part.settings.any (·.1 == name)).eraseDups.mergeSort
    fun a b => decide (a ≤ b)

def checkSection (document : Fields) (part : Section) : Except SettingsProblem Fields :=
  match document.get? part.name with
  | none => .ok []
  | some (.table fields) => do
    part.settings.forM fun setting =>
      match Fields.get? fields setting.1 with
      | some given => checkValue part.name setting given
      | none => .ok ()
    let unknown := unknownKeys part fields
    if unknown.isEmpty then .ok fields else .error (.unknownKeys part.name unknown)
  | some _ => .error (.notTable part.name)

/-- The text that is set, if one is. -/
def textSetting? (fields : Fields) (name : String) : Option String :=
  (fields.get? name).bind Datum.text?

def flagSetting (fields : Fields) (name : String) : Bool :=
  match fields.get? name with
  | some (.boolean value) => value
  | _ => false

def layoutOf (fields : Fields) : Layout where
  buildMarker := (textSetting? fields "build_marker").getD Layout.default.buildMarker
  dependencySubpath :=
    (textSetting? fields "dependency_subpath").getD Layout.default.dependencySubpath
  sourceDirectory := (textSetting? fields "source_dir").getD Layout.default.sourceDirectory
  includeDirectory := (textSetting? fields "include_dir").getD Layout.default.includeDirectory
  sourceExtension := (textSetting? fields "source_ext").getD Layout.default.sourceExtension

def ofDocument (document : Fields) : Except SettingsProblem Settings := do
  match ← sections.mapM (checkSection document) with
  | [layout, runtime, parse] =>
    .ok ⟨layoutOf layout, textSetting? runtime "lib_dir",
      (textSetting? runtime "catalog").getD default.catalog, flagSetting parse "verbose"⟩
  | _ => .ok default

/-- A home directory as a path; slashes at its end do not count. -/
def homePath (home : String) : Path :=
  if home.toList.all (· = '/') then ⟨.root, []⟩ else Path.ofString home

/-- The home directory of a user.  One that is itself told from a home directory is none. -/
def homeOf (w : World) (user : String) : Except Fault Path :=
  if Path.hasNull user then .error (.file .nullCharacter)
  else
    match w.home user with
    | none => .error .unknownHome
    | some home => if home.startsWith "~" then .error .unknownHome else .ok (homePath home)

/-- A path with a home directory in place of the tilde that it starts with, and of the name after
it. -/
def expandHome (w : World) (path : Path) : Except Fault Path :=
  match path.isAbsolute, path.parts with
  | false, first :: rest =>
    if first.startsWith "~" then
      (homeOf w (String.ofList (first.toList.drop 1))).map fun home => home.join ⟨.here, rest⟩
    else .ok path
  | _, _ => .ok path

/-- The settings with the directory of libraries as a path that does not depend on where the
settings are used: it starts at the home directory or next to the settings file. -/
def locateLibraries (w : World) (file : Path) (settings : Settings) : Except Fault Settings :=
  match settings.libraryDirectory with
  | none => .ok settings
  | some written =>
    match expandHome w (Path.ofString written) with
    | .error fault => .error fault
    | .ok path =>
      .ok { settings with libraryDirectory := some (toString (file.parent.join path)) }

def load (w : World) (file : Path) : Except Fault Settings :=
  match w.readBytes file with
  | .error e => .error (.file e)
  | .ok bytes => do
    let document ← Toml.ofBytes (fun detail => .settings (.unreadable file detail)) bytes
    match ofDocument document with
    | .error problem => .error (.problem (.settings problem))
    | .ok settings => locateLibraries w file settings

/-- The directory in which a search that starts at a path begins. -/
def searchStart (w : World) (start : Path) : Except FileError Path := do
  let path ← w.resolve start
  if ← w.isFile path then .ok path.parent else .ok path

/-- The settings file in the nearest directory, going up from a path, that has one. -/
def nearest (w : World) (start : Path) : Except FileError (Option Path) := do
  let start ← searchStart w start
  (start.selfAndParents.map (·.child fileName)).findM? w.isFile

/-- The settings file that holds at a path, or in the working directory if no path is given. -/
def find (w : World) (start : Option Path) : Except Fault Path :=
  match nearest w (start.getD Path.here) with
  | .ok (some file) => .ok file
  | .ok none => .error (.file .notFound)
  | .error e => .error (.file e)

/-- The settings that hold at a path: those of the nearest settings file, or the defaults. -/
def loadFor (w : World) (start : Option Path) : Except Fault Settings :=
  match (find w start).bind (load w) with
  -- Either there is no file, or it cannot be found any more.
  | .error (.file .notFound) => .ok default
  | outcome => outcome

end Settings

end SignatureIndex
