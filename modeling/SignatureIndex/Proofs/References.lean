import SignatureIndex.Ref
import SignatureIndex.Proofs.Numerals
import SignatureIndex.Proofs.Spellings

/-!
# References written and read

A reference is written without marks around its parts, so it can be read again only if its parts
leave no doubt where they end: the module and the name must hold something, but no colon and no
slash, and what comes first must not start with a blank, which trimming would take away.  All blanks
elsewhere are part of a name.

Whatever a reference was read from, with blanks around it, digits of other scripts or zeros in front
of its arity, it can be read again from what is written for it.
-/

namespace SignatureIndex.Ref

variable {bound : Option Nat} {ref : Ref} {moduleName : Option String} {name : String}
    {text digits : List Char}

/-- Whether a text can stand for a module or a name in a written reference. -/
def IsPart (text : String) : Prop := text ≠ "" ∧ ':' ∉ text.toList ∧ '/' ∉ text.toList

instance (text : String) : Decidable (IsPart text) := inferInstanceAs (Decidable (_ ∧ _ ∧ _))

/-- Whether a module, if there is one, and a name can stand in a written reference. -/
def AreParts (moduleName : Option String) (name : String) : Prop :=
  IsPart name ∧ ∀ given ∈ moduleName, IsPart given

instance (moduleName : Option String) (name : String) : Decidable (AreParts moduleName name) :=
  inferInstanceAs (Decidable (_ ∧ _))

/-- What a written reference starts with: its module, or its name if it is local. -/
def firstPart (ref : Ref) : String := ref.moduleName.getD ref.name

/-- Whether a reference stays what it is when it is written and read: its parts can stand in a
written reference, and it does not start with a blank. -/
def IsLegible (ref : Ref) : Prop :=
  AreParts ref.moduleName ref.name ∧ ∀ c ∈ ref.firstPart.toList.head?, Text.isBlank c = false

instance (ref : Ref) : Decidable ref.IsLegible := inferInstanceAs (Decidable (_ ∧ _))

/-- What is written for a module and a name. -/
def ownerText (moduleName : Option String) (name : String) : List Char :=
  match moduleName with
  | none => name.toList
  | some moduleName => moduleName.toList ++ ':' :: name.toList

/-! ## What is written -/

theorem toList_format (ref : Ref) :
    ref.format.toList = ownerText ref.moduleName ref.name ++
      '/' :: (toString ref.arity).toList := by
  unfold format ownerText
  cases ref.moduleName <;> simp

private theorem slash_not_mem_ownerText (parts : AreParts moduleName name) :
    '/' ∉ ownerText moduleName name := by
  obtain ⟨⟨-, -, named⟩, owned⟩ := parts
  cases moduleName with
  | none => exact named
  | some moduleName =>
    have free : '/' ∉ moduleName.toList := (owned moduleName rfl).2.2
    simp [ownerText, named, free]

private theorem isBlank_of_isDigit {c : Char} (digit : c.isDigit = true) :
    Text.isBlank c = false := by
  have range : '0'.toNat ≤ c.toNat ∧ c.toNat ≤ '9'.toNat := Char.isDigit_iff_toNat.mp digit
  simp only [Char.reduceToNat] at range
  simp [Text.isBlank]
  omega

/-- A written reference ends with a digit, which is no blank. -/
theorem getLast?_format_not_blank {c : Char} (last : ref.format.toList.getLast? = some c) :
    Text.isBlank c = false := by
  have some : (toString ref.arity).toList ≠ [] :=
    (Text.numeral?_eq_some_iff.mp (Text.numeral?_toString _)).1
  rw [toList_format, List.getLast?_append, List.getLast?_cons, List.getLast?_eq_some_getLast some,
    Option.getD_some, Option.some_or] at last
  cases last
  exact isBlank_of_isDigit (Text.isDigit_of_mem_toString (List.getLast_mem some))

/-- A written reference starts like its first part. -/
theorem head?_ownerText (parts : AreParts ref.moduleName ref.name) (rest : List Char) :
    (ownerText ref.moduleName ref.name ++ rest).head? = ref.firstPart.toList.head? := by
  have filled : ref.firstPart.toList ≠ [] := by
    rw [ne_eq, String.toList_eq_nil_iff, firstPart]
    cases given : ref.moduleName with
    | none => exact parts.1.1
    | some moduleName => exact (parts.2 moduleName given).1
  obtain ⟨c, others, chars⟩ := List.exists_cons_of_ne_nil filled
  cases given : ref.moduleName with
  | none => simp_all [firstPart, ownerText]
  | some moduleName => simp_all [firstPart, ownerText]

/-! ## What is read -/

private theorem isPart_ofList (filled : text ≠ []) (noColon : ':' ∉ text) (noSlash : '/' ∉ text) :
    IsPart (String.ofList text) := by
  refine ⟨?_, ?_, ?_⟩
  · simpa [← String.toList_eq_nil_iff] using filled
  · rwa [String.toList_ofList]
  · rwa [String.toList_ofList]

private theorem owner?_eq_some_iff (whole : '/' ∉ text) :
    owner? text = some (moduleName, name) ↔ text = ownerText moduleName name ∧
    AreParts moduleName name := by
  constructor
  · intro read
    have cut := Text.joined_pieces ':' text
    -- the pieces say how many colons there are
    have free : ∀ piece ∈ Text.pieces ':' text, ':' ∉ piece := fun _ => Text.not_mem_of_mem_pieces
    unfold owner? at read
    split at read
    · -- no colon: the whole text is the name
      next piece pieces =>
      rw [pieces] at cut free
      obtain rfl : piece = text := cut
      split at read
      · cases read
      next filled =>
        cases read
        have part := isPart_ofList (mt List.isEmpty_iff.mpr filled) (free piece (by simp)) whole
        exact ⟨String.toList_ofList.symm, part, by simp⟩
    · -- one colon: the module stands before it, and the name after it
      next first second pieces =>
      rw [pieces] at cut free
      obtain rfl : first ++ ':' :: second = text := cut
      simp only [List.mem_append, List.mem_cons, not_or] at whole
      split at read
      · cases read
      next filled =>
        cases read
        simp only [Bool.or_eq_true, not_or] at filled
        have modulePart :=
          isPart_ofList (mt List.isEmpty_iff.mpr filled.1) (free first (by simp)) whole.1
        have namePart :=
          isPart_ofList (mt List.isEmpty_iff.mpr filled.2) (free second (by simp)) whole.2.2
        refine ⟨by simp [ownerText], namePart, ?_⟩
        rintro _ ⟨⟩
        exact modulePart
    · cases read
  · rintro ⟨rfl, ⟨filled, noColon, -⟩, owned⟩
    unfold owner?
    cases moduleName with
    | none => simp [ownerText, Text.pieces_of_not_mem noColon, filled]
    | some moduleName =>
      obtain ⟨filledModule, noColonModule, -⟩ := owned moduleName rfl
      simp [ownerText, Text.pieces_append_cons noColonModule, Text.pieces_of_not_mem noColon,
        filled, filledModule]

/-- A text is taken apart at its only slash, and what stands before it at its only colon, if it has
one. -/
theorem parts?_eq_some_iff : parts? text = some ((moduleName, name), digits) ↔
    text = ownerText moduleName name ++ '/' :: digits ∧ AreParts moduleName name ∧
      digits ≠ [] ∧ ∀ c ∈ digits, Numeral.isDecimal c = true := by
  constructor
  · intro read
    have cut := Text.joined_pieces '/' text
    have free : ∀ piece ∈ Text.pieces '/' text, '/' ∉ piece := fun _ => Text.not_mem_of_mem_pieces
    unfold parts? at read
    split at read
    · next owner written pieces =>
      rw [pieces] at cut free
      obtain rfl : owner ++ '/' :: written = text := cut
      split at read
      · cases read
      next decimal =>
        obtain ⟨named, owned, same⟩ := Option.map_eq_some_iff.mp read
        cases same
        -- what stands before the slash has none, so it is taken apart at colons alone
        obtain ⟨rfl, parts⟩ := (owner?_eq_some_iff (free owner (by simp))).mp owned
        simp only [Bool.or_eq_true, Bool.not_eq_true', not_or, Bool.not_eq_false,
          List.all_eq_true] at decimal
        exact ⟨rfl, parts, mt List.isEmpty_iff.mpr decimal.1, decimal.2⟩
    · cases read
  · rintro ⟨rfl, parts, some, decimal⟩
    have whole := slash_not_mem_ownerText parts
    have digitsWhole : '/' ∉ digits := fun among => absurd (decimal _ among) (by decide)
    have read := (owner?_eq_some_iff whole).mpr ⟨rfl, parts⟩
    unfold parts?
    rw [Text.pieces_append_cons whole, Text.pieces_of_not_mem digitsWhole]
    simp [some, read, List.all_eq_true.mpr decimal]

/-- What is read as a reference, without the blanks around it, is what is written for the module and
the name, a slash, and some numeral of the arity. -/
theorem parseWithin_eq_ok_iff {text : String} : parseWithin bound text = .ok ref ↔
    ∃ digits, Text.trim text.toList = ownerText ref.moduleName ref.name ++ '/' :: digits ∧
      AreParts ref.moduleName ref.name ∧ Numeral.read bound digits = .ok ref.arity := by
  unfold parseWithin
  constructor
  · intro read
    split at read
    · cases read
    next moduleName name digits taken =>
      split at read
      next arity number =>
        cases read
        obtain ⟨trimmed, parts, -⟩ := parts?_eq_some_iff.mp taken
        exact ⟨digits, trimmed, parts, number⟩
      · cases read
  · rintro ⟨digits, trimmed, parts, number⟩
    have numeral :=
      Text.isSome_numeral?_iff.mp (Option.isSome_of_mem (Numeral.read_eq_ok_iff.mp number).1)
    rw [parts?_eq_some_iff.mpr ⟨trimmed, parts, numeral⟩]
    simp [number]

/-! ## What is read from what is written -/

/-- Whatever has been read is legible, and its arity is written with no more digits than were
read. -/
theorem isLegible_of_parseWithin {text : String} (read : parseWithin bound text = .ok ref) :
    ref.IsLegible ∧ Numeral.Admits bound ref.arity := by
  obtain ⟨digits, trimmed, parts, number⟩ := parseWithin_eq_ok_iff.mp read
  refine ⟨⟨parts, ?_⟩, Numeral.admits_of_read number⟩
  intro c first
  rw [← head?_ownerText parts ('/' :: digits), ← trimmed] at first
  exact Text.head?_trim_not_blank first

private theorem parseWithin_format_of_isLegible (legible : ref.IsLegible)
    (admitted : Numeral.Admits bound ref.arity) :
    parseWithin bound ref.format = .ok ref := by
  obtain ⟨parts, starts⟩ := legible
  have number := Numeral.read_toString_eq_ok_iff.mpr admitted
  -- a legible reference starts with no blank, and every reference ends with a digit
  have trimmed : Text.trim ref.format.toList = ref.format.toList := by
    refine Text.trim_eq_self_of_ends ?_ ?_
    · rw [toList_format, head?_ownerText parts]
      exact starts
    · exact fun c last => getLast?_format_not_blank last
  exact parseWithin_eq_ok_iff.mpr ⟨_, trimmed.trans (toList_format ref), parts, number⟩

/-- A reference is read back from what is written for it exactly if it is legible, and by a reader
with a bound only if its arity is written with no more digits than that.  What has been read once is
read back. -/
theorem parseWithin_format_eq_ok_iff :
    (∀ ref : Ref, parseWithin none ref.format = .ok ref ↔ ref.IsLegible) ∧
    (∀ (most : Nat) (ref : Ref), parseWithin (some most) ref.format = .ok ref ↔
      ref.IsLegible ∧ (toString ref.arity).length ≤ most) ∧
    ∀ (bound : Option Nat) (text : String) (ref : Ref), parseWithin bound text = .ok ref →
      parseWithin bound ref.format = .ok ref := by
  have readBack (bound : Option Nat) (ref : Ref) :
      parseWithin bound ref.format = .ok ref ↔ ref.IsLegible ∧ Numeral.Admits bound ref.arity :=
    ⟨isLegible_of_parseWithin, fun ⟨legible, admitted⟩ =>
      parseWithin_format_of_isLegible legible admitted⟩
  refine ⟨?_, ?_, ?_⟩
  · intro ref
    simp [readBack, Numeral.Admits]
  · intro most ref
    simp [readBack, Numeral.Admits]
  · intro bound text ref read
    exact (readBack bound ref).mpr (isLegible_of_parseWithin read)

/-- Blanks around a reference, and a zero and a digit of another script in its arity, are not what
is written for it; a blank inside is.  A local reference with a colon in its name is read as another
one. -/
theorem parseWithin_format_spaced :
    parseWithin none "\u00a0m: f/0٣\n" = .ok ⟨some "m", " f", 3⟩ ∧
      parseWithin none (format ⟨some "m", " f", 3⟩) = .ok ⟨some "m", " f", 3⟩ ∧
      parseWithin none (format ⟨none, "m:f", 3⟩) ≠ .ok ⟨none, "m:f", 3⟩ := by
  have read : parseWithin none "\u00a0m: f/0٣\n" = .ok ⟨some "m", " f", 3⟩ := by rfl
  have illegible : ¬IsLegible ⟨none, "m:f", 3⟩ := by decide
  exact ⟨read, parseWithin_format_eq_ok_iff.2.2 none _ _ read,
    mt (parseWithin_format_eq_ok_iff.1 _).mp illegible⟩

end SignatureIndex.Ref
