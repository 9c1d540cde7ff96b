import SignatureIndex.Source.Item
import SignatureIndex.Traced
import SignatureIndex.World.Walk

/-!
# Scanning

Scanning a file gives the attributes of the file and, in the place of each form that includes
another file, the attributes of that one.  A file that has been reached once is never read again,
however it is named later; so every scan ends, because there are fewer files left to reach each time
one is entered.  How deep files may include one another can be limited as well, and usually is.

The world is searched for an included file next to the file that includes it and then in the include
directories.  Inclusion from a library also looks below the roots of the library's application, and
in the include directories for the bare file name.
-/

namespace SignatureIndex

/-- Where included files are looked for, and whether finished files are reported. -/
structure ScanOptions where
  verbose : Bool
  includeDirectories : List Path
  libraryRoots : List Path
  /-- How deep files may include one another, if there is a limit. -/
  depth : Option Nat
  deriving DecidableEq, Repr

namespace ScanOptions

/-- How deep files may usually include one another. -/
def usualDepth : Nat := 980

/-- Nothing is reported, files are only looked for next to the file that includes them, and
inclusion goes as deep as usual. -/
def default : ScanOptions := ⟨false, [], [], some usualDepth⟩

/-- Whether a root belongs to an application, in whatever version. -/
def isRootOf (application : List Char) (root : Path) : Bool :=
  let name := root.name.toList
  name == application || (application ++ ['-']).isPrefixOf name

/-- The further places for a file of a library: below the application that its name starts with, and
by its bare name. -/
def libraryCandidates (options : ScanOptions) (name : String) : List Path :=
  let application := name.toList.takeWhile (· ≠ '/')
  let rest := (name.toList.dropWhile (· ≠ '/')).drop 1
  let below :=
    if rest.isEmpty then []
    else
      (options.libraryRoots.filter (isRootOf application)).map fun root =>
        root.child (String.ofList rest)
  below ++ options.includeDirectories.map fun directory =>
    directory.child (Path.ofString name).name

/-- The places in which an included file is looked for, in order. -/
def candidates (options : ScanOptions) (kind : IncludeKind) (name : String) (including : Path) :
    List Path :=
  including.parent.child name ::
    options.includeDirectories.map (fun directory => directory.child name) ++
    match kind with
    | .file => []
    | .library => options.libraryCandidates name

/-- What is left of a depth inside a file that is included, if it may be entered. -/
def inner? : Option Nat → Option (Option Nat)
  | none => some none
  | some 0 => none
  | some (depth + 1) => some (some depth)

end ScanOptions

/-- The attributes that a scan found, and the files it reached. -/
structure Scan where
  attributes : List Attribute
  reached : List Location
  deriving DecidableEq, Repr

namespace World

/-- The locations that are not among those seen. -/
def unseen (w : World) (seen : List Location) : List Location :=
  w.locations.filter fun location => !seen.contains location

/-- The location of the file that a path leads to, if it leads to one.  The file must have a path
from the root, because that is what tells whether it has been reached before. -/
def knownFileAt (w : World) (path : Path) : Except FileError (Option Location) := do
  let found ← w.fileAt path
  if found.isSome then discard (w.resolve path)
  .ok found

/-- The first path that leads to a file, and where that file is. -/
def firstFile (w : World) (paths : List Path) : Except FileError (Option (Path × Location)) :=
  paths.findSomeM? fun path => do
    let found ← w.knownFileAt path
    .ok (found.map fun location => (path, location))

/-- Seeing more leaves no more unseen. -/
theorem length_unseen_append_le (w : World) (seen more : List Location) :
    (w.unseen (seen ++ more)).length ≤ (w.unseen seen).length := by
  unfold unseen
  rw [← List.countP_eq_length_filter, ← List.countP_eq_length_filter]
  apply List.countP_mono_left
  simp_all

/-- Seeing an unseen location leaves fewer unseen. -/
theorem length_unseen_cons_lt (w : World) {seen : List Location} {location : Location}
    (listed : location ∈ w.locations) (fresh : location ∉ seen) :
    (w.unseen (location :: seen)).length < (w.unseen seen).length := by
  unfold unseen
  -- Leaving one more location out is a second filter behind the first.
  have narrower : (w.locations.filter fun place => !(location :: seen).contains place) =
      (w.locations.filter fun place => !seen.contains place).filter fun place =>
      place ≠ location := by
    rw [List.filter_filter]
    congr 1
    funext place
    by_cases same : place = location <;> simp [same]
  rw [narrower]
  exact List.length_filter_lt_length_iff_exists.mpr
    ⟨location, List.mem_filter.mpr ⟨listed, by simpa using fresh⟩, by simp⟩

/-- Reads a source file as a row of items, and tells where it is. -/
def sheet (w : World) (path : Path) : Traced (Option Location × Sheet) :=
  match w.readBytes path with
  | .error reason => Traced.fail (Fault.ofUnreadable path reason)
  | .ok bytes => do
    let source ← Traced.ofSource (Source.read path bytes)
    let location ← Traced.ofFile (w.knownFileAt path)
    let sheet ← Traced.ofSource (Sheet.ofSource source)
    pure (location, sheet)

/-- Ends the scan of a file: its last form must have its dot.  A verbose scan reports how many
attributes the file came to. -/
def finish (options : ScanOptions) (sheet : Sheet) (attributes : List Attribute) : Traced Unit :=
  match sheet.unfinished with
  | some span => Traced.problem (.source (.openForm span))
  | none =>
    if options.verbose then
      Traced.report .info .scanner s!"scanned {sheet.path}: {attributes.length} attribute(s)"
    else pure ()

/-- Scans items of the file at `path`, given how deep inclusion may still go and the files that have
been reached so far. -/
def scanItems (w : World) (options : ScanOptions) (depth : Option Nat) (path : Path)
    (seen : List Location) : List Item → Traced Scan
  | [] => pure ⟨[], []⟩
  | .kept attr :: items => do
    let scan ← scanItems w options depth path seen items
    pure ⟨attr :: scan.attributes, scan.reached⟩
  | .malformedInclusion kind span :: _ =>
    Traced.problem (.source (.malformedInclude kind.name span))
  | .inclusion kind name span :: items =>
    let searched := options.candidates kind name path
    match w.firstFile searched with
    | .error e => Traced.fail (.file e)
    | .ok none => Traced.problem (.source (.includeNotFound name searched span))
    | .ok (some (target, location)) =>
      if fresh : location ∈ w.locations ∧ location ∉ seen then
        match ScanOptions.inner? depth with
        | none => Traced.fail .nesting
        | some inside => do
          have := w.length_unseen_cons_lt fresh.1 fresh.2
          let (_, sheet) ← w.sheet target
          let inner ← scanItems w options inside target (location :: seen) sheet.items
          finish options sheet inner.attributes
          let reached := location :: inner.reached
          let outer ← scanItems w options depth path (seen ++ reached) items
          pure ⟨inner.attributes ++ outer.attributes, reached ++ outer.reached⟩
      else scanItems w options depth path seen items
termination_by items => ((w.unseen seen).length, items.length)
decreasing_by
  · -- an attribute: one item less
    exact Prod.Lex.right _ (by simp)
  · -- the included file: one file less to reach
    exact Prod.Lex.left _ _ (by assumption)
  · -- the items after an inclusion: no more files to reach, and one item less
    rcases Nat.lt_or_eq_of_le (w.length_unseen_append_le seen reached) with fewer | same
    · exact Prod.Lex.left _ _ fewer
    · rw [same]
      exact Prod.Lex.right _ (by simp)
  · -- a file that was reached before: one item less
    exact Prod.Lex.right _ (by simp)

def scan (w : World) (options : ScanOptions) (path : Path) : Traced (List Attribute) := do
  let (location, sheet) ← w.sheet path
  let scan ← w.scanItems options options.depth path location.toList sheet.items
  finish options sheet scan.attributes
  pure scan.attributes

end World

end SignatureIndex
