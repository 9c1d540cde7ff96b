import SignatureIndex.Catalog.Basic
import SignatureIndex.Proofs.Outcomes

/-!
# Documents of catalogs

A document is read as a catalog exactly if it has the right shape: a module with a name, and two
lists of entries, each of them a table with a name, an arity and a type, and with texts for type
variables if it has any.  The catalog lists what the document lists, in the same order and nothing
else.

A document of another shape is refused for the first thing that is wrong with it.  The module is
looked at first, then the two lists as a whole, and then the entries one by one, all functions
before the first operator.  What is wrong with an entry is told with the place where it stands.
-/

namespace SignatureIndex

namespace Signature

variable {part : String} {index : Nat} {entry : Datum} {entries : List Datum} {fields : Fields}
  {signature : Signature} {signatures : List Signature} {problem : CatalogProblem}

/-- Whether the fields of an entry are those of a signature.  Other fields do not matter, and type
variables are left out where there are none. -/
structure Fits (fields : Fields) (signature : Signature) : Prop where
  name : fields.get? "name" = some (.text signature.name)
  named : signature.name ≠ ""
  arity : fields.get? "arity" = some (.integer signature.arity)
  type : fields.get? "type" = some (.text signature.scheme.body)
  tyvars : (fields.get? "tyvars").getD (.array []) = .array (signature.scheme.tyvars.map .text)

/-- Whether an entry of a document describes a signature. -/
def Describes (entry : Datum) (signature : Signature) : Prop :=
  ∃ fields, entry = .table fields ∧ Fits fields signature

/-- Whether the fields of an entry have the right shape, whatever signature they are those of. -/
structure HasShape (fields : Fields) : Prop where
  name : ∃ name, fields.get? "name" = some (.text name) ∧ name ≠ ""
  arity : ∃ arity : Nat, fields.get? "arity" = some (.integer arity)
  type : ∃ body, fields.get? "type" = some (.text body)
  tyvars : ∀ given, fields.get? "tyvars" = some given → ∃ names : List String,
    given = .array (names.map .text)

def IsEntry (entry : Datum) : Prop := ∃ fields, entry = .table fields ∧ HasShape fields

/-- The keys that an entry must have, in the order in which they are looked for. -/
def requiredKeys : List String := ["name", "arity", "type"]

/-- Whether an entry has all keys that it must have. -/
def IsComplete (fields : Fields) : Prop :=
  ∀ key ∈ requiredKeys, ∃ value, fields.get? key = some value

/-- The first thing that is wrong with an entry, told with the part of the document and the index at
which the entry stands. -/
inductive Flaw (part : String) (index : Nat) : Datum → CatalogProblem → Prop
  | notTable {entry : Datum} : (∀ fields, entry ≠ .table fields) →
      Flaw part index entry (.notTable part index)
  | missingKey {fields : Fields} {before : List String} {key : String} {after : List String} :
      requiredKeys = before ++ key :: after →
      (∀ other ∈ before, ∃ value, fields.get? other = some value) →
      fields.get? key = none → Flaw part index (.table fields) (.missingKey part index key)
  | emptyName {fields : Fields} : IsComplete fields →
      (∀ name, fields.get? "name" = some (.text name) → name = "") →
      Flaw part index (.table fields) (.emptyName part index)
  | badArity {fields : Fields} {name : String} : IsComplete fields →
      fields.get? "name" = some (.text name) → name ≠ "" →
      (∀ arity : Nat, fields.get? "arity" ≠ some (.integer arity)) →
      Flaw part index (.table fields) (.badArity part index name)
  | badType {fields : Fields} {name : String} {arity : Nat} : IsComplete fields →
      fields.get? "name" = some (.text name) → name ≠ "" →
      fields.get? "arity" = some (.integer arity) →
      (∀ body, fields.get? "type" ≠ some (.text body)) → Flaw part index (.table fields)
      (.badType part index name)
  | badTyvars {fields : Fields} {name : String} {arity : Nat} {body : String} {given : Datum} :
      fields.get? "name" = some (.text name) → name ≠ "" →
      fields.get? "arity" = some (.integer arity) →
      fields.get? "type" = some (.text body) → fields.get? "tyvars" = some given →
      (∀ names : List String, given ≠ .array (names.map .text)) →
      Flaw part index (.table fields) (.badTyvars part index name)

/-! ## One entry -/

theorem required_eq_ok_iff {key : String} {value : Datum} :
    required part index fields key = .ok value ↔ fields.get? key = some value := by
  unfold required
  split
  next there => simp [there]
  next missing => simp [missing]

private theorem required_eq_error_iff {key : String} :
    required part index fields key = .error problem ↔
    fields.get? key = none ∧ problem = .missingKey part index key := by
  unfold required
  split
  next there => simp [there]
  next missing => simp [missing, eq_comm]

theorem ofDatum_eq_ok_iff : ofDatum part index entry = .ok signature ↔
    Describes entry signature := by
  constructor
  · intro read
    unfold ofDatum at read
    split at read
    case h_2 => cases read
    simp only [bind_eq_ok_iff, required_eq_ok_iff] at read
    obtain ⟨name, hasName, arity, hasArity, body, hasBody, read⟩ := read
    -- the checks that follow, in their order
    split at read
    · cases read
    · cases read
    next written filled named =>
    split at read
    · cases read
    next count natural =>
    split at read
    · cases read
    next shape typed =>
    split at read
    · cases read
    next tyvars listed =>
    cases read
    obtain rfl := Datum.text?_eq_some_iff.mp named
    obtain rfl := Datum.natural?_eq_some_iff.mp natural
    obtain rfl := Datum.text?_eq_some_iff.mp typed
    exact ⟨_, rfl, hasName, fun empty => filled empty, hasArity, hasBody,
      Datum.texts?_eq_some_iff.mp listed⟩
  · rintro ⟨fields, rfl, name, named, arity, type, tyvars⟩
    simp [ofDatum, required, name, arity, type, tyvars, bind, Except.bind]

theorem isComplete_iff : IsComplete fields ↔ (∃ value, fields.get? "name" = some value) ∧
    (∃ value, fields.get? "arity" = some value) ∧ ∃ value, fields.get? "type" = some value := by
  simp [IsComplete, requiredKeys]

/-- If keys are missing, the first of them is one of three, and the keys before it are there. -/
theorem first_cases {before after : List String} {key : String}
    (parts : requiredKeys = before ++ key :: after)
    (there : ∀ other ∈ before, ∃ value, fields.get? other = some value) :
    key = "name" ∨ (∃ value, fields.get? "name" = some value) ∧
      (key = "arity" ∨ (∃ value, fields.get? "arity" = some value) ∧ key = "type") := by
  have first : ∃ before other after, requiredKeys = before ++ other :: after ∧
      (∀ other ∈ before, ∃ value, fields.get? other = some value) ∧ key = other :=
    ⟨before, key, after, parts, there, rfl⟩
  simpa only [requiredKeys, exists_first_cons_iff, not_exists_first_nil, and_false, or_false]
    using first

private theorem ofDatum_eq_error_iff : ofDatum part index entry = .error problem ↔
    Flaw part index entry problem := by
  constructor
  · intro failed
    unfold ofDatum at failed
    split at failed
    case h_2 other =>
      cases failed
      exact .notTable other
    next fields =>
    simp only [bind_eq_error_iff, required_eq_error_iff, required_eq_ok_iff] at failed
    rcases failed with ⟨missing, rfl⟩ | ⟨name, hasName, failed⟩
    · exact .missingKey (List.nil_append _).symm nofun missing
    rcases failed with ⟨missing, rfl⟩ | ⟨arity, hasArity, failed⟩
    · apply @Flaw.missingKey _ _ _ ["name"] _ _ rfl _ missing
      simp [hasName]
    rcases failed with ⟨missing, rfl⟩ | ⟨body, hasBody, failed⟩
    · apply @Flaw.missingKey _ _ _ ["name", "arity"] _ _ rfl _ missing
      simp [hasName, hasArity]
    -- all keys are there, and their values are looked at in the same order
    have complete : IsComplete fields := by
      simp [IsComplete, requiredKeys, hasName, hasArity, hasBody]
    split at failed
    next noText =>
      cases failed
      apply Flaw.emptyName complete
      intro name given
      cases hasName.symm.trans given
      cases noText
    next empty =>
      cases failed
      apply Flaw.emptyName complete
      intro name given
      cases hasName.symm.trans given
      exact Option.some.inj empty
    next name filled named =>
    rw [Datum.text?_eq_some_iff.mp named] at hasName
    split at failed
    next noNumber =>
      cases failed
      apply Flaw.badArity complete hasName filled
      intro number given
      exact Datum.natural?_eq_none_iff.mp noNumber number
        (Option.some.inj (hasArity.symm.trans given))
    next arity number =>
    rw [Datum.natural?_eq_some_iff.mp number] at hasArity
    split at failed
    next noType =>
      cases failed
      apply Flaw.badType complete hasName filled hasArity
      intro type given
      exact Datum.text?_eq_none_iff.mp noType type (Option.some.inj (hasBody.symm.trans given))
    next body typed =>
    rw [Datum.text?_eq_some_iff.mp typed] at hasBody
    split at failed
    next noTexts =>
      cases failed
      cases given : Fields.get? fields "tyvars" with
      | none => simp [given, Datum.texts?] at noTexts
      | some value =>
        rw [given] at noTexts
        exact .badTyvars hasName filled hasArity hasBody given (Datum.texts?_eq_none_iff.mp noTexts)
    · cases failed
  · intro flaw
    cases flaw with
    | @notTable entry other =>
      cases entry with
      | table fields => exact absurd rfl (other fields)
      | _ => rfl
    | missingKey parts there missing =>
      rcases first_cases parts there with rfl | ⟨⟨name, hasName⟩, rfl | ⟨⟨arity, hasArity⟩, rfl⟩⟩
      · simp [ofDatum, required, missing, bind, Except.bind]
      · simp [ofDatum, required, missing, hasName, bind, Except.bind]
      · simp [ofDatum, required, missing, hasName, hasArity, bind, Except.bind]
    | emptyName complete empty =>
      obtain ⟨⟨name, hasName⟩, ⟨arity, hasArity⟩, body, hasBody⟩ := isComplete_iff.mp complete
      simp only [ofDatum, required, hasName, hasArity, hasBody, bind, Except.bind]
      cases name with
      | text name =>
        obtain rfl := empty name hasName
        rfl
      | _ => rfl
    | badArity complete name named other =>
      obtain ⟨-, ⟨arity, hasArity⟩, body, hasBody⟩ := isComplete_iff.mp complete
      have noNumber : arity.natural? = none := by
        apply Datum.natural?_eq_none_iff.mpr
        rintro number rfl
        exact other number hasArity
      simp [ofDatum, required, name, hasArity, hasBody, noNumber, bind, Except.bind]
    | badType complete name named arity other =>
      obtain ⟨-, -, body, hasBody⟩ := isComplete_iff.mp complete
      have noText : body.text? = none := by
        apply Datum.text?_eq_none_iff.mpr
        rintro type rfl
        exact other type hasBody
      simp [ofDatum, required, name, arity, hasBody, noText, bind, Except.bind]
    | badTyvars hasName named hasArity hasBody hasTyvars other =>
      have noTexts := Datum.texts?_eq_none_iff.mpr other
      simp [ofDatum, required, hasName, hasArity, hasBody, hasTyvars, noTexts, bind, Except.bind]

/-- Exactly the entries of the right shape describe a signature. -/
theorem isEntry_iff : IsEntry entry ↔ ∃ signature, Describes entry signature := by
  constructor
  · rintro ⟨fields, rfl, ⟨name, hasName, named⟩, ⟨arity, hasArity⟩, ⟨body, hasBody⟩, tyvars⟩
    cases given : Fields.get? fields "tyvars" with
    | none => exact ⟨⟨name, arity, [], body⟩, fields, rfl, hasName, named, hasArity,
        hasBody, by simp [given]⟩
    | some value =>
      obtain ⟨names, rfl⟩ := tyvars value given
      exact ⟨⟨name, arity, names, body⟩, fields, rfl, hasName, named, hasArity,
        hasBody, by simp [given]⟩
  · rintro ⟨signature, fields, rfl, fits⟩
    refine ⟨fields, rfl, ⟨_, fits.name, fits.named⟩, ⟨_, fits.arity⟩, ⟨_, fits.type⟩, ?_⟩
    intro value given
    have tyvars := fits.tyvars
    rw [given] at tyvars
    exact ⟨_, tyvars⟩

/-- What is wrong with an entry is told with the part of the document and the index at which it
stands. -/
theorem message_of_flaw (flaw : Flaw part index entry problem) :
    ∃ what, problem.message = part ++ "[" ++ toString index ++ "]: " ++ what := by
  unfold CatalogProblem.message
  simp only [toString, String.append_assoc]
  cases flaw with
  | notTable => exact ⟨"expected a table", by simp only [String.reduceAppend]⟩
  | @missingKey _ _ key =>
    have parts : "]: missing key " = "]: " ++ "missing key " := by simp
    exact ⟨"missing key " ++ Text.quoted key, by simp only [parts, String.append_assoc]⟩
  | emptyName => exact ⟨"name must be a non-empty string", by simp only [String.reduceAppend]⟩
  | @badArity _ name =>
    have parts : "]: arity of " = "]: " ++ "arity of " := by simp
    exact ⟨"arity of " ++ (name ++ " must be a non-negative integer"), by
      simp only [parts, String.append_assoc]⟩
  | @badType _ name =>
    have parts : "]: type of " = "]: " ++ "type of " := by simp
    exact ⟨"type of " ++ (name ++ " must be a string"), by simp only [parts, String.append_assoc]⟩
  | @badTyvars _ name =>
    have parts : "]: tyvars of " = "]: " ++ "tyvars of " := by simp
    exact ⟨"tyvars of " ++ (name ++ " must be a list of strings"), by
      simp only [parts, String.append_assoc]⟩

/-! ## A row of entries -/

theorem ofData_eq_ok_iff :
    ofData part index entries = .ok signatures ↔ List.Forall₂ Describes entries signatures := by
  induction entries generalizing index signatures with
  | nil => cases signatures <;> simp [ofData]
  | cons entry entries ih =>
    simp only [ofData, bind_eq_ok_iff, ofDatum_eq_ok_iff, ih]
    constructor
    · rintro ⟨signature, first, others, later, same⟩
      cases same
      exact .cons first later
    · rintro (_ | ⟨first, later⟩)
      exact ⟨_, first, _, later, rfl⟩

theorem forall_isEntry_iff :
    (∀ entry ∈ entries, IsEntry entry) ↔
    ∃ signatures, List.Forall₂ Describes entries signatures := by
  simp only [exists_forall₂_iff, isEntry_iff]

private theorem ofData_eq_error_iff : ofData part index entries = .error problem ↔
    ∃ before entry after, entries = before ++ entry :: after ∧ (∀ other ∈ before, IsEntry other) ∧
      Flaw part (index + before.length) entry problem := by
  -- the index moves on with every entry that is passed
  induction entries generalizing index with
  | nil => exact iff_of_false nofun (by rintro ⟨before, entry, after, parts, -⟩; simp at parts)
  | cons entry entries ih =>
    simp only [ofData, bind_eq_error_iff, ofDatum_eq_ok_iff, ofDatum_eq_error_iff, ih,
      reduceCtorEq, and_false, exists_false, or_false]
    constructor
    · rintro (flaw | ⟨signature, first, before, other, after, rfl, fine, flaw⟩)
      · exact ⟨[], entry, entries, rfl, nofun, flaw⟩
      · refine ⟨entry :: before, other, after, rfl, ?_, ?_⟩
        · exact List.forall_mem_cons.mpr ⟨isEntry_iff.mpr ⟨signature, first⟩, fine⟩
        · rwa [List.length_cons, Nat.add_comm before.length, ← Nat.add_assoc]
    · rintro ⟨_ | ⟨first, before⟩, other, after, parts, fine, flaw⟩
      · obtain ⟨rfl, -⟩ := List.cons.inj parts
        exact .inl flaw
      · obtain ⟨rfl, rfl⟩ := List.cons.inj parts
        obtain ⟨here, fine⟩ := List.forall_mem_cons.mp fine
        obtain ⟨signature, described⟩ := isEntry_iff.mp here
        refine .inr ⟨signature, described, before, other, after, rfl, fine, ?_⟩
        rwa [List.length_cons, Nat.add_comm before.length, ← Nat.add_assoc] at flaw

/-! ## Written entries -/

/-- The entry of a document that a signature is written as. -/
def written (signature : Signature) : Datum :=
  .table [
    ("name", .text signature.name),
    ("arity", .integer signature.arity),
    ("type", .text signature.scheme.body),
    ("tyvars", .array (signature.scheme.tyvars.map .text))]

theorem describes_written_iff : Describes signature.written signature ↔ signature.name ≠ "" := by
  constructor
  · rintro ⟨fields, same, fits⟩
    exact fits.named
  · intro named
    exact ⟨_, rfl, rfl, named, rfl, rfl, rfl⟩

private theorem forall₂_describes_map_written_iff :
    List.Forall₂ Describes (signatures.map written) signatures ↔
    ∀ signature ∈ signatures, signature.name ≠ "" := by
  simp only [List.forall₂_map_left_iff, List.forall₂_same, describes_written_iff]

end Signature

namespace Catalog

variable {document : Fields} {key : String} {entries : List Datum} {catalog : Catalog}
    {problem : CatalogProblem}

/-- Whether a document gives its module a name.  A document that does not speak of a module is about
`erlang`. -/
def IsNamed (document : Fields) (name : String) : Prop :=
  (document.get? "module").getD (.text "erlang") = .text name ∧ name ≠ ""

/-- Whether a document lists entries under a key.  A document that does not speak of the key lists
none. -/
def Lists (document : Fields) (key : String) (entries : List Datum) : Prop :=
  (document.get? key).getD (.array []) = .array entries

/-- Whether a document describes a catalog: it has the same name, and it lists the same signatures
in the same order. -/
structure Describes (document : Fields) (catalog : Catalog) : Prop where
  named : IsNamed document catalog.moduleName
  functions : ∃ entries, Lists document "function" entries ∧
    List.Forall₂ Signature.Describes entries catalog.functions
  operators : ∃ entries, Lists document "operator" entries ∧
    List.Forall₂ Signature.Describes entries catalog.operators

/-- Whether a document has the right shape, whatever catalog it describes. -/
structure HasShape (document : Fields) : Prop where
  named : ∃ name, IsNamed document name
  functions : ∃ entries, Lists document "function" entries ∧ ∀ entry ∈ entries,
    Signature.IsEntry entry
  operators : ∃ entries, Lists document "operator" entries ∧ ∀ entry ∈ entries,
    Signature.IsEntry entry

/-- The first thing that is wrong with a document. -/
inductive Flaw (document : Fields) : CatalogProblem → Prop
  | moduleName : (∀ name, ¬IsNamed document name) → Flaw document .moduleName
  | sections {name : String} : IsNamed document name →
      ¬((∃ entries, Lists document "function" entries) ∧ ∃ entries,
        Lists document "operator" entries) →
      Flaw document .sections
  | function {name : String} {before : List Datum} {entry : Datum} {after operators : List Datum}
      {problem : CatalogProblem} : IsNamed document name →
      Lists document "function" (before ++ entry :: after) →
      Lists document "operator" operators → (∀ other ∈ before, Signature.IsEntry other) →
      Signature.Flaw "function" before.length entry problem → Flaw document problem
  | operator {name : String} {functions before : List Datum} {entry : Datum} {after : List Datum}
      {problem : CatalogProblem} : IsNamed document name → Lists document "function" functions →
      Lists document "operator" (before ++ entry :: after) →
      (∀ other ∈ functions, Signature.IsEntry other) →
      (∀ other ∈ before, Signature.IsEntry other) →
      Signature.Flaw "operator" before.length entry problem →
      Flaw document problem

theorem listed?_eq_some_iff : listed? document key = some entries ↔ Lists document key entries := by
  unfold listed? Lists
  cases there : Fields.get? document key with
  | none => simp [eq_comm]
  | some value => cases value <;> simp

/-- Where the name and the two lists are in order, the entries are read one by one. -/
theorem ofDocument_of_lists {name : String} {functions operators : List Datum}
    (named : IsNamed document name) (hasFunctions : Lists document "function" functions)
    (hasOperators : Lists document "operator" operators) :
    ofDocument document = (do
      let functions ← Signature.ofData "function" 0 functions
      let operators ← Signature.ofData "operator" 0 operators
      .ok ⟨name, functions, operators⟩) := by
  unfold ofDocument
  rw [named.1, listed?_eq_some_iff.mpr hasFunctions, listed?_eq_some_iff.mpr hasOperators]
  split
  next never => cases never
  next empty => exact absurd (Option.some.inj empty) named.2
  next other _ same =>
    cases same
    rfl

theorem ofDocument_eq_ok_iff : ofDocument document = .ok catalog ↔ Describes document catalog := by
  constructor
  · intro read
    unfold ofDocument at read
    split at read
    · cases read
    · cases read
    next written filled named =>
    split at read
    case h_2 => cases read
    next functions operators hasFunctions hasOperators =>
    simp only [bind_eq_ok_iff, Signature.ofData_eq_ok_iff] at read
    obtain ⟨listedFunctions, readFunctions, listedOperators, readOperators, same⟩ := read
    cases same
    refine ⟨⟨Datum.text?_eq_some_iff.mp named, fun empty => filled empty⟩, ?_, ?_⟩
    · exact ⟨functions, listed?_eq_some_iff.mp hasFunctions, readFunctions⟩
    · exact ⟨operators, listed?_eq_some_iff.mp hasOperators, readOperators⟩
  · rintro ⟨named, ⟨functions, hasFunctions, readFunctions⟩, operators, hasOperators, readOperators⟩
    rw [ofDocument_of_lists named hasFunctions hasOperators]
    simp only [bind_eq_ok_iff, Signature.ofData_eq_ok_iff]
    exact ⟨_, readFunctions, _, readOperators, rfl⟩

theorem ofDocument_eq_error_iff : ofDocument document = .error problem ↔ Flaw document problem := by
  constructor
  · intro failed
    unfold ofDocument at failed
    split at failed
    next noText =>
      cases failed
      apply Flaw.moduleName
      rintro name ⟨given, -⟩
      rw [given] at noText
      cases noText
    next empty =>
      cases failed
      apply Flaw.moduleName
      rintro name ⟨given, filled⟩
      rw [given] at empty
      exact filled (Option.some.inj empty)
    next name filled named =>
    have isNamed : IsNamed document name :=
      ⟨Datum.text?_eq_some_iff.mp named, fun empty => filled empty⟩
    split at failed
    -- the entries are read, all functions before the first operator
    next functions operators hasFunctions hasOperators =>
      rw [listed?_eq_some_iff] at hasFunctions hasOperators
      simp only [bind_eq_error_iff, Signature.ofData_eq_error_iff, Signature.ofData_eq_ok_iff,
        reduceCtorEq, and_false, exists_false, or_false] at failed
      rcases failed with ⟨before, entry, after, rfl, fine, flaw⟩ |
        ⟨listed, read, before, entry, after, rfl, fine, flaw⟩
      · rw [Nat.zero_add] at flaw
        exact .function isNamed hasFunctions hasOperators fine flaw
      · rw [Nat.zero_add] at flaw
        exact .operator isNamed hasFunctions hasOperators
          (Signature.forall_isEntry_iff.mpr ⟨_, read⟩) fine flaw
    next others =>
      cases failed
      apply Flaw.sections isNamed
      rintro ⟨⟨functions, hasFunctions⟩, operators, hasOperators⟩
      exact others functions operators (listed?_eq_some_iff.mpr hasFunctions)
        (listed?_eq_some_iff.mpr hasOperators)
  · intro flaw
    cases flaw with
    | moduleName unnamed =>
      unfold ofDocument
      split
      · rfl
      · rfl
      next name filled named =>
        exact absurd ⟨Datum.text?_eq_some_iff.mp named, fun empty => filled empty⟩ (unnamed name)
    | sections named unlisted =>
      unfold ofDocument
      rw [named.1]
      split
      next never => cases never
      next empty => exact absurd (Option.some.inj empty) named.2
      split
      next functions operators hasFunctions hasOperators =>
        rw [listed?_eq_some_iff] at hasFunctions hasOperators
        exact absurd ⟨⟨functions, hasFunctions⟩, operators, hasOperators⟩ unlisted
      · rfl
    -- what comes before the entry is read, so the entry is the first that is not
    | function named hasFunctions hasOperators fine flaw =>
      rw [ofDocument_of_lists named hasFunctions hasOperators, bind_eq_error_iff]
      refine .inl (Signature.ofData_eq_error_iff.mpr ⟨_, _, _, rfl, fine, ?_⟩)
      rwa [Nat.zero_add]
    | operator named hasFunctions hasOperators functionsFine fine flaw =>
      obtain ⟨listed, read⟩ := Signature.forall_isEntry_iff.mp functionsFine
      rw [ofDocument_of_lists named hasFunctions hasOperators, bind_eq_error_iff]
      refine .inr ⟨listed, Signature.ofData_eq_ok_iff.mpr read, bind_eq_error_iff.mpr (.inl ?_)⟩
      refine Signature.ofData_eq_error_iff.mpr ⟨_, _, _, rfl, fine, ?_⟩
      rwa [Nat.zero_add]

/-- Exactly the documents of the right shape describe a catalog. -/
theorem hasShape_iff : HasShape document ↔ ∃ catalog, Describes document catalog := by
  constructor
  · rintro ⟨⟨name, named⟩, ⟨functions, hasFunctions, functionsFine⟩, operators, hasOperators,
      operatorsFine⟩
    obtain ⟨listedFunctions, readFunctions⟩ := Signature.forall_isEntry_iff.mp functionsFine
    obtain ⟨listedOperators, readOperators⟩ := Signature.forall_isEntry_iff.mp operatorsFine
    exact ⟨⟨name, listedFunctions, listedOperators⟩, named,
      ⟨functions, hasFunctions, readFunctions⟩, operators, hasOperators, readOperators⟩
  · rintro ⟨catalog, named, ⟨functions, hasFunctions, readFunctions⟩, operators, hasOperators,
      readOperators⟩
    exact ⟨⟨_, named⟩,
      ⟨functions, hasFunctions, Signature.forall_isEntry_iff.mpr ⟨_, readFunctions⟩⟩,
      operators, hasOperators, Signature.forall_isEntry_iff.mpr ⟨_, readOperators⟩⟩

/-! ## Written catalogs -/

/-- The document that a catalog is written as. -/
def written (catalog : Catalog) : Fields := [
  ("module", .text catalog.moduleName),
  ("function", .array (catalog.functions.map Signature.written)),
  ("operator", .array (catalog.operators.map Signature.written))]

private theorem describes_written_iff : Describes catalog.written catalog ↔
    catalog.moduleName ≠ "" ∧ ∀ signature ∈ catalog.functions ++ catalog.operators,
    signature.name ≠ "" := by
  rw [List.forall_mem_append]
  constructor
  · rintro ⟨named, ⟨functions, hasFunctions, readFunctions⟩, operators, hasOperators, readOperators⟩
    cases hasFunctions
    cases hasOperators
    exact ⟨named.2, Signature.forall₂_describes_map_written_iff.mp readFunctions,
      Signature.forall₂_describes_map_written_iff.mp readOperators⟩
  · rintro ⟨filled, functions, operators⟩
    exact ⟨⟨rfl, filled⟩, ⟨_, rfl, Signature.forall₂_describes_map_written_iff.mpr functions⟩,
      _, rfl, Signature.forall₂_describes_map_written_iff.mpr operators⟩

/-- A document is read as a catalog exactly if it has the right shape, and then the catalog is the
one that it describes.  Otherwise the first thing that is wrong is told, and if that is an entry,
the message begins with the part of the document and the index at which the entry stands.  A catalog
that is written and read again is the same, if its names can be read at all. -/
theorem ofDocument_iff (document : Fields) :
    ((∃ catalog, ofDocument document = .ok catalog) ↔ HasShape document) ∧
      (∀ catalog, ofDocument document = .ok catalog ↔ Describes document catalog) ∧
      (∀ problem, ofDocument document = .error problem ↔ Flaw document problem) ∧
      (∀ part index entry problem, Signature.Flaw part index entry problem →
        ∃ what, problem.message = part ++ "[" ++ toString index ++ "]: " ++ what) ∧
      ∀ catalog : Catalog, ofDocument catalog.written = .ok catalog ↔
        catalog.moduleName ≠ "" ∧ ∀ signature ∈ catalog.functions ++ catalog.operators,
        signature.name ≠ "" := by
  refine ⟨?_, fun catalog => ofDocument_eq_ok_iff, fun problem => ofDocument_eq_error_iff,
    fun part index entry problem => Signature.message_of_flaw, fun catalog => ?_⟩
  · simp only [ofDocument_eq_ok_iff, hasShape_iff]
  · exact ofDocument_eq_ok_iff.trans describes_written_iff

def sum : Signature := ⟨"+", 2, ⟨[], "t"⟩⟩

/-- The fields of an entry with a truth value for its arity. -/
def flagged : Fields := [("name", .text "+"), ("arity", .boolean true), ("type", .text "t")]

def unsound : Fields := [("operator", .array [sum.written, .table flagged])]

theorem ofDocument_unsound : ofDocument unsound = .error (.badArity "operator" 1 "+") ∧
    ∃ what, (CatalogProblem.badArity "operator" 1 "+").message = "operator" ++ "[" ++ toString 1 ++
      "]: " ++ what := by
  obtain ⟨-, -, failed, located, -⟩ := ofDocument_iff unsound
  have flaw : Signature.Flaw "operator" 1 (.table flagged) (.badArity "operator" 1 "+") := by
    apply Signature.Flaw.badArity (Signature.isComplete_iff.mpr ⟨⟨_, rfl⟩, ⟨_, rfl⟩, _, rfl⟩)
      rfl (by decide)
    intro arity number
    have flag : flagged.get? "arity" = some (.boolean true) := rfl
    cases flag.symm.trans number
  have fine : ∀ other ∈ [sum.written], Signature.IsEntry other := by
    simp only [List.forall_mem_singleton, Signature.isEntry_iff]
    exact ⟨sum, Signature.describes_written_iff.mpr (by decide)⟩
  refine ⟨(failed _).mpr ?_, located _ _ _ _ flaw⟩
  exact @Flaw.operator unsound "erlang" [] [sum.written] (.table flagged) [] _ ⟨rfl, by
    decide⟩ rfl rfl
    (List.forall_mem_nil _) fine flaw

end Catalog

end SignatureIndex
