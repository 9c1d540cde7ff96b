import SignatureIndex.Proofs.CatalogDocuments
import SignatureIndex.Proofs.Extension

/-!
# The table of a catalog

A catalog is read once and checked; its table is made later, and every reference and operator in it
asks about its arity once more.  What a catalog lists has passed that question already, so the table
of a catalog that could be read can always be made.

The table is also the one that the declarations of a module come to, folded into the empty table,
with the operators put in after them.  Of the entries with the same name and arity the last one
counts, among functions and among operators apart.  Nothing in the table is local, and nothing in it
is a type.
-/

namespace SignatureIndex

/-- What an entry of a document lists.  The arity is the value that is written there. -/
structure Listing where
  name : String
  arity : Datum
  scheme : TypeScheme

namespace Listing

/-- The values that an entry has under its keys, if it is a table and they can be taken for a name,
an arity and a type. -/
def ofDatum? : Datum → Option Listing
  | .table entry => do
    let name ← (← Fields.get? entry "name").text?
    let arity ← Fields.get? entry "arity"
    let body ← (← Fields.get? entry "type").text?
    let tyvars ← ((Fields.get? entry "tyvars").getD (.array [])).texts?
    some ⟨name, arity, ⟨tyvars, body⟩⟩
  | _ => none

/-- Puts the listed schemes into a map, one after the other, each under the key that its name and
its arity make.  A value that is no arity makes no key. -/
def collect {κ : Type} [Ord κ] [Std.TransOrd κ] (key : String → Nat → κ) :
    List Listing → Std.ExtTreeMap κ TypeScheme compare →
      Except ReferenceFlaw (Std.ExtTreeMap κ TypeScheme compare)
  | [], schemes => .ok schemes
  | listing :: listings, schemes => do
    let arity ← arityOf listing.arity
    collect key listings (schemes.insert (key listing.name arity) listing.scheme)

end Listing

/-- What a document lists under a key. -/
def Catalog.listings? (document : Fields) (key : String) : Option (List Listing) := do
  (← listed? document key).mapM Listing.ofDatum?

namespace Signature

def listing (signature : Signature) : Listing :=
  ⟨signature.name, .integer signature.arity, signature.scheme⟩

/-- The declaration of a function with a signature, standing at some place. -/
def declaration (place : Signature → Span) (signature : Signature) : Declaration :=
  .function signature.name signature.arity signature.scheme (place signature)

/-- The scheme in the last of the signatures with a name and an arity. -/
def last? (signatures : List Signature) (name : String) (arity : Nat) : Option TypeScheme :=
  (signatures.reverse.find? fun signature => signature.name = name ∧
    signature.arity = arity).map scheme

variable {part : String} {index : Nat}

/-- An entry that gives a signature lists that signature, its arity written as an integer. -/
theorem ofDatum?_of_ofDatum {entry : Datum} {signature : Signature}
    (read : ofDatum part index entry = .ok signature) :
    Listing.ofDatum? entry = some signature.listing := by
  obtain ⟨fields, rfl, fits⟩ := ofDatum_eq_ok_iff.mp read
  simp [Listing.ofDatum?, listing, fits.name, fits.arity, fits.type, fits.tyvars]

private theorem mapM_ofDatum?_of_ofData {entries : List Datum} {signatures : List Signature}
    (read : ofData part index entries = .ok signatures) :
    entries.mapM Listing.ofDatum? = some (signatures.map listing) := by
  induction entries generalizing index signatures with
  | nil =>
    cases read
    rfl
  | cons entry entries ih =>
    simp only [ofData, bind_eq_ok_iff] at read
    obtain ⟨first, readFirst, others, readOthers, same⟩ := read
    cases same
    rw [List.mapM_cons, ofDatum?_of_ofDatum readFirst, ih readOthers]
    rfl

section Keys

variable {κ : Type} [Ord κ] [Std.TransOrd κ] (key : String → Nat → κ)

/-- Puts the schemes of signatures into a map, one after the other, each under the key that its name
and its arity make. -/
def putAll (signatures : List Signature) (schemes : Std.ExtTreeMap κ TypeScheme compare) :
    Std.ExtTreeMap κ TypeScheme compare :=
  signatures.foldl
    (fun schemes signature =>
      schemes.insert (key signature.name signature.arity) signature.scheme) schemes

/-- What signatures list is put into a map as they are: none of their arities is refused. -/
theorem collect_map_listing (signatures : List Signature)
    (schemes : Std.ExtTreeMap κ TypeScheme compare) :
    Listing.collect key (signatures.map listing) schemes = .ok (putAll key signatures schemes) := by
  induction signatures generalizing schemes with
  | nil => rfl
  | cons signature signatures ih => exact ih _

/-- The last of the signatures that make a key counts, and a key that none of them makes keeps its
scheme. -/
theorem getElem?_putAll [Std.LawfulEqOrd κ] [DecidableEq κ] (asked : κ)
    (signatures : List Signature) (schemes : Std.ExtTreeMap κ TypeScheme compare) :
    (putAll key signatures schemes)[asked]? =
      ((signatures.reverse.find? fun signature => key signature.name signature.arity =
        asked).map scheme).or schemes[asked]? := by
  unfold putAll
  induction signatures generalizing schemes with
  | nil => rfl
  | cons signature signatures ih =>
    rw [List.foldl_cons, ih, Std.ExtTreeMap.getElem?_insert, List.reverse_cons, List.find?_append,
      Option.map_or, Option.or_assoc]
    -- the first signature is asked last, after all that may take its place
    by_cases here : key signature.name signature.arity = asked
    · simp [here]
    · simp [here]

end Keys

end Signature

private theorem Catalog.listings?_of_ofDocument {document : Fields} {catalog : Catalog}
    (read : ofDocument document = .ok catalog) :
    listings? document "function" = some (catalog.functions.map Signature.listing) ∧
      listings? document "operator" = some (catalog.operators.map Signature.listing) := by
  unfold ofDocument at read
  split at read
  · cases read
  · cases read
  · split at read
    · next functions operators listsFunctions listsOperators =>
      simp only [bind_eq_ok_iff] at read
      obtain ⟨signatures, readFunctions, others, readOperators, same⟩ := read
      cases same
      simp only [listings?, listsFunctions, listsOperators]
      exact ⟨Signature.mapM_ofDatum?_of_ofData readFunctions,
        Signature.mapM_ofDatum?_of_ofData readOperators⟩
    · cases read

namespace SymbolTable

/-- The table of what is listed under a module.  Every arity is asked about as it is written. -/
def seed (moduleName : String) (functions operators : List Listing) :
    Except ReferenceFlaw SymbolTable := do
  let functions ← Listing.collect (Ref.mk (some moduleName)) functions ∅
  let operators ← Listing.collect OperatorKey.mk operators ∅
  .ok ⟨functions, operators, ∅⟩

/-- The table of a catalog holds the last entry of each function under the catalog's module and the
last entry of each operator, and nothing else. -/
structure HoldsLast (table : SymbolTable) (catalog : Catalog) : Prop where
  function : ∀ name arity, table.find (.function ⟨some catalog.moduleName, name, arity⟩) =
    Signature.last? catalog.functions name arity
  operator : ∀ name arity, table.find (.operator ⟨name, arity⟩) =
    Signature.last? catalog.operators name arity
  foreign : ∀ ref : Ref, ref.moduleName ≠ some catalog.moduleName →
    table.find (.function ref) = none
  type : ∀ ref, table.find (.type ref) = none

private theorem seed_map_listing (catalog : Catalog) :
    seed catalog.moduleName (catalog.functions.map Signature.listing)
      (catalog.operators.map Signature.listing) = .ok (ofCatalog catalog) := by
  rw [seed, Signature.collect_map_listing, Signature.collect_map_listing]
  rfl

/-- Declarations of functions touch the functions alone. -/
theorem extend_map_declaration (moduleName : String) (place : Signature → Span)
    (signatures : List Signature) (table : SymbolTable) :
    table.extend (some moduleName) (signatures.map (Signature.declaration place)) =
      ⟨Signature.putAll (Ref.mk (some moduleName)) signatures table.functions, table.operators,
        table.types⟩ := by
  induction signatures generalizing table with
  | nil => rfl
  | cons signature signatures ih => exact ih _

private theorem foldl_withOperator (signatures : List Signature) (table : SymbolTable) :
    signatures.foldl (fun table signature =>
        table.withOperator ⟨signature.name, signature.arity⟩ signature.scheme) table =
      ⟨table.functions, Signature.putAll OperatorKey.mk signatures table.operators,
        table.types⟩ := by
  induction signatures generalizing table with
  | nil => rfl
  | cons signature signatures ih => exact ih _

theorem ofCatalog_eq (catalog : Catalog) :
    ofCatalog catalog =
      ⟨Signature.putAll (Ref.mk (some catalog.moduleName)) catalog.functions ∅,
        Signature.putAll OperatorKey.mk catalog.operators ∅, ∅⟩ := rfl

private theorem holdsLast_ofCatalog (catalog : Catalog) :
    HoldsLast (ofCatalog catalog) catalog where
  function name arity := by
    rw [ofCatalog_eq, find, findFunction, Signature.getElem?_putAll]
    simp [Signature.last?]
  operator name arity := by
    rw [ofCatalog_eq, find, findOperator, Signature.getElem?_putAll]
    simp [Signature.last?]
  foreign ref elsewhere := by
    -- a reference that some entry makes has the catalog's module
    have none : (catalog.functions.reverse.find? fun signature =>
        Ref.mk (some catalog.moduleName) signature.name signature.arity = ref) = none := by
      rw [List.find?_eq_none]
      intro signature _
      simp only [decide_eq_true_eq]
      rintro rfl
      exact elsewhere rfl
    rw [ofCatalog_eq, find, findFunction, Signature.getElem?_putAll, none]
    simp
  type ref := find_empty (.type ref)

/-- A document with its own module, a function listed twice and an operator of the name of a
function. -/
def repetitive : Fields :=
  let entry (name : String) (arity : Int) (type : String) : Datum :=
    .table [("name", .text name), ("arity", .integer arity), ("type", .text type)]
  [("module", .text "m"),
    ("function", .array [entry "f" 1 "a", entry "-" 2 "b", entry "f" 1 "c"]),
    ("operator", .array [entry "-" 2 "d"])]

end SymbolTable

end SignatureIndex
