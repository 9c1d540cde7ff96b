import SignatureIndex.Catalog.Builtins
import SignatureIndex.Toml.File
import SignatureIndex.World.Walk

/-!
# The bundle

Catalogs are asked for by name.  A name is a path in the directory that comes with the library, and
a path from the root leads out of that directory.  Where the library is installed, its directory
stands in the world, and a name may lead to any file there and, with `..`, to any other.  A library
that brings its files along has a directory of its own, which holds the catalog of built-ins and one
file that is no catalog.
-/

namespace SignatureIndex.Catalog

def bundleDirectory : Location := ["stdlib"]

def builtinsName : String := "builtins.toml"

/-- The bundle, as a small world of its own. -/
def bundle : World where
  entries :=
    [ (bundleDirectory, .directory),
      (bundleDirectory ++ [builtinsName], .file []),
      (bundleDirectory ++ ["__init__.py"], .file []) ]
  workingDirectory := bundleDirectory
  system := .ofHome "/"
  programDirectories := []

def ofBytes (name : String) (bytes : List UInt8) : Except Fault Catalog := do
  let document ← Toml.ofBytes (fun detail => .catalog (.unreadable name detail)) bytes
  match ofDocument document with
  | .ok catalog => .ok catalog
  | .error problem => .error (.problem (.catalog problem))

/-- What becomes of a name that leads to no file: it is unknown, unless a file stands in its way. -/
def missing (name : String) : FileError → Fault
  | .notFound | .isADirectory => .problem (.catalog (.unknown name))
  | e => .file e

/-- The catalog that the bytes at a path in the world stand for. -/
def loadFrom (w : World) (name : String) (path : Path) : Except Fault Catalog :=
  match w.readBytes path with
  | .error e => .error (missing name e)
  | .ok bytes => ofBytes name bytes

/-- The catalog that stands at a path in the bundle. -/
def loadBundled (name : String) (path : Path) : Except Fault Catalog :=
  match bundle.readBytes path with
  | .error e => .error (missing name e)
  | .ok _ =>
    if bundle.fileAt path matches .ok (some ["stdlib", "builtins.toml"]) then .ok builtins
    else .error (.problem (.catalog (.unreadable name Toml.Reason.statement.message)))

def load (w : World) (name : String) : Except Fault Catalog :=
  let path := Path.ofString name
  if path.isAbsolute then loadFrom w name path
  else
    match w.system.package with
    | .installed directory => loadFrom w name (directory.join path)
    | .bundled => loadBundled name path

end SignatureIndex.Catalog
