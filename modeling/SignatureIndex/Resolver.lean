import SignatureIndex.Declaration.OfAttribute
import SignatureIndex.Discovery
import SignatureIndex.SearchPath
import SignatureIndex.Source.Scan
import SignatureIndex.SymbolTable

/-!
# Resolving modules

A resolver finds modules, scans them, and folds their declarations into a symbol table, one module
after another.  Each module's declarations go under its own name, so modules do not get in each
other's way.
-/

namespace SignatureIndex

/-- Where modules are looked for, whether scans are reported, and how deep files may include one
another, if there is a limit. -/
structure Resolver where
  libraryDirectory : Path
  layout : Layout
  verbose : Bool
  depth : Option Nat
  deriving DecidableEq, Repr

namespace Resolver

/-- The resolver that settings describe.  A directory of libraries that is given comes first, then
the one that is set, and at last the runtime is asked. -/
def ofSettings (w : World) (settings : Settings) (libraryDirectory : Option Path) :
    Traced Resolver := do
  let directory ←
    match libraryDirectory with
    | some path => pure path
    | none =>
      match settings.libraryDirectory with
      | none | some "" => Discovery.libraryDirectory w none Discovery.usualLimit
      | some written => pure (Path.ofString written)
  pure ⟨directory, settings.layout, settings.verbose, some ScanOptions.usualDepth⟩

def searchPaths (resolver : Resolver) (w : World) (start : Path) : Traced (List Path) :=
  SearchPath.list w start resolver.libraryDirectory resolver.layout

/-- The declarations of a module, found on search paths. -/
def declarations (resolver : Resolver) (w : World) (paths : List Path) (moduleName : String) :
    Traced (List Declaration) := do
  let location ← SearchPath.locateModule w paths moduleName resolver.layout
  Traced.report .info .resolver s!"path to includes {location.includes}"
  let options : ScanOptions := ⟨resolver.verbose, [location.includes], paths, resolver.depth⟩
  let attributes ← w.scan options location.source
  Declaration.ofAttributes location.source attributes

/-- Folds modules into a table, from left to right. -/
def foldModules (resolver : Resolver) (w : World) (paths : List Path) :
    List String → SymbolTable → Traced SymbolTable
  | [], table => pure table
  | moduleName :: modules, table => do
    let declarations ← resolver.declarations w paths moduleName
    let extended ← table.extendTraced (some moduleName) (declarations.map .ok)
    foldModules resolver w paths modules extended

/-- Extends a table with the declarations of modules, from left to right.  Without modules there is
nothing to look for. -/
def resolve (resolver : Resolver) (w : World) (table : SymbolTable) (start : Path)
    (modules : List String) : Traced SymbolTable :=
  if modules.isEmpty then pure table
  else do
    let paths ← resolver.searchPaths w start
    resolver.foldModules w paths modules table

/-- Extends a table with modules as settings say. -/
def resolveWith (w : World) (settings : Settings) (table : SymbolTable) (start : Path)
    (modules : List String) : Traced SymbolTable :=
  if modules.isEmpty then pure table
  else do
    let resolver ← ofSettings w settings none
    resolver.resolve w table start modules

end Resolver

end SignatureIndex
