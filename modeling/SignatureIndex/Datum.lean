import SignatureIndex.Decimal.Notation
import SignatureIndex.Text.Quoted

/-!
# Values of a document

What a settings file or a catalog holds once it has been read: a tree of named and listed values
whose shapes nobody has checked yet.  The readers of catalogs and settings take their own types out
of it and name the place where the shape is wrong.
-/

namespace SignatureIndex

/-- A value of a document.  A table keeps its fields in the order they were written. -/
inductive Datum where
  | null
  | boolean (value : Bool)
  | integer (value : Int)
  | float (value : Float)
  /-- A date, a time of day, or both, as written. -/
  | moment (written : String)
  | text (value : String)
  | array (items : List Datum)
  | table (fields : List (String × Datum))

/-- The fields of a table. -/
abbrev Fields := List (String × Datum)

namespace Fields

def get? (fields : Fields) (name : String) : Option Datum := fields.lookup name

/-- Replaces the value of a field that is there, and adds one that is not at the end. -/
def put (fields : Fields) (name : String) (value : Datum) : Fields :=
  if fields.any (·.1 == name) then
    fields.map fun field => if field.1 == name then (name, value) else field
  else fields ++ [(name, value)]

/-- The names of the fields, in order. -/
def names (fields : Fields) : List String := fields.map (·.1)

/-- Replacing the values of a name touches that name alone. -/
theorem lookup_map_replace (fields : Fields) (name other : String) (value : Datum) :
    (fields.map fun field => if field.1 == name then (name, value) else field).lookup other =
      if other = name ∧ fields.any (·.1 == name) then some value else fields.lookup other := by
  induction fields with
  | nil => simp
  | cons field fields ih =>
    obtain ⟨key, old⟩ := field
    rw [List.map_cons]
    by_cases here : key = name
    · subst here
      by_cases asked : other = key
      · simp [asked]
      · have missed : (other == key) = false := by simpa using asked
        rw [if_pos (by simp), List.lookup_cons, List.lookup_cons, missed, ih]
        simp [asked]
    · have differs : (key == name) = false := by simpa using here
      rw [if_neg (by simp [differs]), List.lookup_cons, List.lookup_cons, ih,
        List.any_cons, differs, Bool.false_or]
      by_cases asked : other = key
      · simp [asked, here]
      · have missed : (other == key) = false := by simpa using asked
        simp [missed]

/-- A field that was put has its value, and every other field keeps its own. -/
theorem get?_put (fields : Fields) (name other : String) (value : Datum) :
    (fields.put name value).get? other =
      if other = name then some value else fields.get? other := by
  unfold put get?
  split
  · next there =>
    rw [lookup_map_replace]
    simp [there]
  · next missing =>
    rw [List.lookup_append]
    by_cases asked : other = name
    · have none : fields.lookup name = none := by
        rw [List.lookup_eq_none_iff]
        intro field among
        simp only [List.any_eq_true, not_exists, not_and] at missing
        have apart : field.1 ≠ name := by simpa using missing field among
        simpa using apart.symm
      simp [asked, none]
    · have missed : (other == name) = false := by simpa using asked
      simp [asked, List.lookup_cons, missed]

end Fields

namespace Datum

mutual

def quote : Datum → String
  | .null => "None"
  | .boolean value => if value then "True" else "False"
  | .integer value => toString value
  | .float value => Decimal.Layout.message.renderFloat value
  | .moment written => written
  | .text value => Text.quoted value
  | .array items => "[" ++ ", ".intercalate (quoteItems items) ++ "]"
  | .table fields => "\x7b" ++ ", ".intercalate (quoteFields fields) ++ "\x7d"

/-- The items of an array, each as messages quote it. -/
def quoteItems : List Datum → List String
  | [] => []
  | item :: items => quote item :: quoteItems items

/-- The fields of a table, each as messages quote it. -/
def quoteFields : List (String × Datum) → List String
  | [] => []
  | (name, value) :: fields => (Text.quoted name ++ ": " ++ quote value) :: quoteFields fields

end

/-- The natural number that a value is, if it is one. -/
def natural? : Datum → Option Nat
  | .integer (.ofNat n) => some n
  | _ => none

/-- The text that a value is, if it is one. -/
def text? : Datum → Option String
  | .text value => some value
  | _ => none

/-- The texts that a value lists, if it is an array of nothing else. -/
def texts? : Datum → Option (List String)
  | .array items => items.mapM text?
  | _ => none

/-- Exactly the integers from zero on are natural numbers. -/
theorem natural?_eq_some_iff {d : Datum} {n : Nat} : d.natural? = some n ↔ d = integer n := by
  constructor
  · intro found
    unfold natural? at found
    split at found <;> simp_all
  · rintro rfl
    rfl

theorem text?_eq_some_iff {d : Datum} {text : String} : d.text? = some text ↔ d = .text text := by
  cases d <;> simp [text?]

@[simp] theorem natural?_natCast (n : Nat) : (integer n).natural? = some n :=
  natural?_eq_some_iff.mpr rfl

@[simp] theorem text?_text (value : String) : (text value).text? = some value :=
  text?_eq_some_iff.mpr rfl

/-- Exactly the arrays of texts list texts. -/
theorem texts?_eq_some_iff {d : Datum} {texts : List String} :
    d.texts? = some texts ↔ d = array (texts.map .text) := by
  cases d with
  | array items =>
    rw [texts?, array.injEq]
    induction items generalizing texts with
    | nil => simp [eq_comm]
    | cons item items ih =>
      simp only [List.mapM_cons, Option.bind_eq_bind, Option.bind_eq_some_iff, Option.pure_def,
        Option.some.injEq]
      constructor
      · rintro ⟨text, first, others, rest, rfl⟩
        simp [text?_eq_some_iff.mp first, ih.mp rest]
      · cases texts with
        | nil => simp
        | cons text texts =>
          rintro parts
          obtain ⟨rfl, rest⟩ := List.cons.inj parts
          exact ⟨text, rfl, texts, ih.mpr rest, rfl⟩
  | _ => simp [texts?]

@[simp] theorem texts?_texts (values : List String) :
    (array (values.map text)).texts? = some values :=
  texts?_eq_some_iff.mpr rfl

theorem natural?_eq_none_iff {d : Datum} : d.natural? = none ↔ ∀ n : Nat, d ≠ integer n := by
  simp only [Option.eq_none_iff_forall_ne_some, ne_eq, natural?_eq_some_iff]

theorem text?_eq_none_iff {d : Datum} : d.text? = none ↔ ∀ value, d ≠ text value := by
  simp only [Option.eq_none_iff_forall_ne_some, ne_eq, text?_eq_some_iff]

theorem texts?_eq_none_iff {d : Datum} : d.texts? = none ↔
    ∀ values : List String, d ≠ array (values.map text) := by
  simp only [Option.eq_none_iff_forall_ne_some, ne_eq, texts?_eq_some_iff]

end Datum

end SignatureIndex
