import SignatureIndex.Ref
import SignatureIndex.Proofs.Numerals

/-!
# Operators written and read

An operator is written as its name, a slash and its arity.  Its name may hold slashes too, and may
end in one, so only the last slash counts: everything before it is the name, which must hold
something, and everything after it must be a numeral.

Digits are looked for by a wider notion than numerals are read by.  Superscripts and circled digits
pass for digits, and are refused only when the numeral is read; so a text is refused in one of three
ways.
-/

namespace SignatureIndex.OperatorKey

variable {bound : Option Nat} {text : String} {key : OperatorKey} {flaw : ReferenceFlaw}
    {name digits : List Char}

/-- Whether the last slash of a text stands between these two parts of it, neither of which is
empty. -/
structure IsCut (text : String) (name digits : List Char) : Prop where
  whole : text.toList = name ++ '/' :: digits
  last : '/' ∉ digits
  named : name ≠ []
  filled : digits ≠ []

/-- Whether a text writes an operator: its name, the last slash, and decimal digits that come to its
arity.  There are no more of them than the reader takes. -/
def Writes (bound : Option Nat) (text : String) (key : OperatorKey) : Prop :=
  ∃ digits values, IsCut text key.name.toList digits ∧ Text.HasValues digits values ∧
    Text.digitsValue values = key.arity ∧ ∀ most ∈ bound, digits.length ≤ most

/-- Why a text is refused: it has no name or no digits around its last slash, its digits are too
many, or one of them belongs to no decimal numeral. -/
inductive Refuses (bound : Option Nat) (text : String) : ReferenceFlaw → Prop
  | operator : (∀ name digits, IsCut text name digits → ∃ c ∈ digits, Text.isDigit c = false) →
      Refuses bound text (.operator text)
  | tooLong {most : Nat} {name digits : List Char} : bound = some most → IsCut text name digits →
      (∀ c ∈ digits, Text.isDigit c = true) → most < Numeral.leadingDigits digits →
      Refuses bound text (.numeral (.tooLong most (Numeral.leadingDigits digits)))
  | notDecimal {name digits : List Char} : (∀ most ∈ bound, Numeral.leadingDigits digits ≤ most) →
      IsCut text name digits → (∀ c ∈ digits, Text.isDigit c = true) →
      (∃ c ∈ digits, Text.digitValue? c = none) →
      Refuses bound text (.numeral (.notDecimal (String.ofList digits)))

/-! ## The last slash -/

/-- What stands before the last slash of a text, and what stands after it. -/
theorem lastSlash_append (name : List Char) (last : '/' ∉ digits) :
    ((name ++ '/' :: digits).reverse.takeWhile (· ≠ '/')).reverse = digits ∧
      (((name ++ '/' :: digits).reverse.dropWhile (· ≠ '/')).drop 1).reverse = name := by
  have passed : ∀ c ∈ digits.reverse, decide (c ≠ '/') = true := by
    intro c among
    simpa using ne_of_mem_of_not_mem (List.mem_reverse.mp among) last
  have turned : (name ++ '/' :: digits).reverse = digits.reverse ++ '/' :: name.reverse := by simp
  rw [turned, List.takeWhile_append_of_pos passed, List.dropWhile_append_of_pos passed]
  simp

theorem IsCut.parts_eq {other others : List Char} (cut : IsCut text name digits)
    (again : IsCut text other others) : other = name ∧ others = digits := by
  have first := lastSlash_append name cut.last
  have second := lastSlash_append other again.last
  rw [← again.whole, cut.whole] at second
  exact ⟨second.2.symm.trans first.2, second.1.symm.trans first.1⟩

theorem parseWithin_of_isCut (cut : IsCut text name digits) : parseWithin bound text =
    if digits.all Text.isDigit then
      match Numeral.read bound digits with
      | .ok arity => .ok ⟨String.ofList name, arity⟩
      | .error flaw => .error (.numeral flaw)
    else .error (.operator text) := by
  obtain ⟨after, before⟩ := lastSlash_append name cut.last
  have named : name.isEmpty = false := by simpa using cut.named
  have filled : digits.isEmpty = false := by simpa using cut.filled
  unfold parseWithin
  rw [cut.whole]
  simp only [after, before, named, filled, Bool.false_or]
  cases digits.all Text.isDigit <;> rfl

/-- A text without a slash, or with nothing on one side of its last slash, is not read. -/
theorem parseWithin_of_not_isCut (uncut : ∀ name digits, ¬IsCut text name digits) :
    parseWithin bound text = .error (.operator text) := by
  have whole : text.toList.reverse.takeWhile (· ≠ '/') ++ text.toList.reverse.dropWhile (· ≠ '/') =
      text.toList.reverse := List.takeWhile_append_dropWhile
  have stopped := List.head?_dropWhile_not (fun c => decide (c ≠ '/')) text.toList.reverse
  have passed : '/' ∉ text.toList.reverse.takeWhile (· ≠ '/') := fun among => by
    simpa using List.mem_takeWhile_imp among
  unfold parseWithin
  dsimp only
  generalize text.toList.reverse.takeWhile (· ≠ '/') = after at *
  generalize text.toList.reverse.dropWhile (· ≠ '/') = before at *
  cases before with
  | nil => rfl
  | cons c before =>
    -- what stopped the search for the digits is the last slash
    obtain rfl : c = '/' := by simpa using stopped
    have parts : text.toList = before.reverse ++ '/' :: after.reverse := by
      rw [← List.reverse_reverse text.toList, ← whole]
      simp
    have empty : before = [] ∨ after = [] := by
      by_contra some
      obtain ⟨named, filled⟩ := not_or.mp some
      exact uncut _ _ ⟨parts, by simpa using passed, by simpa using named, by simpa using filled⟩
    rcases empty with rfl | rfl
    · rfl
    · simp

/-! ## What is read and what is refused -/

theorem parseWithin_eq_ok_iff : parseWithin bound text = .ok key ↔ Writes bound text key := by
  constructor
  · intro read
    by_cases cuts : ∃ name digits, IsCut text name digits
    · obtain ⟨name, digits, cut⟩ := cuts
      rw [parseWithin_of_isCut cut] at read
      split at read
      · split at read
        next arity number =>
          cases read
          obtain ⟨numeral, short⟩ := Numeral.read_eq_ok_iff.mp number
          obtain ⟨-, values, valued, sum⟩ := Text.numeral?_eq_some_iff.mp numeral
          exact ⟨digits, values, by simpa using cut, valued, sum, short⟩
        · cases read
      · cases read
    · simp only [not_exists] at cuts
      rw [parseWithin_of_not_isCut cuts] at read
      cases read
  · rintro ⟨digits, values, cut, valued, sum, short⟩
    have numeral := Text.numeral?_eq_some_iff.mpr ⟨cut.filled, values, valued, sum⟩
    -- every decimal digit is a digit in the wider sense
    have pass : digits.all Text.isDigit = true := by
      rw [List.all_eq_true]
      intro c among
      have decimal := (Text.isSome_numeral?_iff.mp (Option.isSome_of_mem numeral)).2 c among
      rw [Text.isDigit, decimal, Bool.true_or]
    rw [parseWithin_of_isCut cut, if_pos pass, Numeral.read_eq_ok_iff.mpr ⟨numeral, short⟩,
      String.ofList_toList]

theorem parseWithin_eq_error_iff : parseWithin bound text = .error flaw ↔
    Refuses bound text flaw := by
  constructor
  · intro failed
    -- a text is cut at its last slash, in one way at most
    by_cases cuts : ∃ name digits, IsCut text name digits
    · obtain ⟨name, digits, cut⟩ := cuts
      rw [parseWithin_of_isCut cut] at failed
      split at failed
      next pass =>
        have pass : ∀ c ∈ digits, Text.isDigit c = true := List.all_eq_true.mp pass
        split at failed
        · cases failed
        next reason unread =>
          cases failed
          rcases Numeral.read_eq_error_iff.mp unread with
            ⟨most, rfl, tooLong, rfl⟩ | ⟨short, noNumeral, rfl⟩
          · exact .tooLong rfl cut pass tooLong
          · -- digits that write no number are not all decimal
            refine .notDecimal short cut pass ?_
            by_contra decimal
            have numeral := Text.isSome_numeral?_iff.mpr ⟨cut.filled, fun c among =>
              Option.isSome_iff_ne_none.mpr fun none => decimal ⟨c, among, none⟩⟩
            rw [noNumeral] at numeral
            cases numeral
      next stray =>
        cases failed
        refine .operator fun other others again => ?_
        obtain ⟨-, rfl⟩ := cut.parts_eq again
        simpa using stray
    · simp only [not_exists] at cuts
      rw [parseWithin_of_not_isCut cuts] at failed
      cases failed
      exact .operator fun name digits cut => absurd cut (cuts name digits)
  · rintro (stray | ⟨given, cut, pass, tooLong⟩ |
      @⟨name, digits, short, cut, pass, c, among, loose⟩)
    · by_cases cuts : ∃ name digits, IsCut text name digits
      · obtain ⟨name, digits, cut⟩ := cuts
        obtain ⟨c, among, noDigit⟩ := stray name digits cut
        rw [parseWithin_of_isCut cut, if_neg fun pass => ?_]
        rw [List.all_eq_true.mp pass c among] at noDigit
        cases noDigit
      · exact parseWithin_of_not_isCut (by simpa using cuts)
    · rw [parseWithin_of_isCut cut, if_pos (List.all_eq_true.mpr pass),
        Numeral.read_eq_error_iff.mpr (.inl ⟨_, given, tooLong, rfl⟩)]
    · have noNumeral : Text.numeral? digits = none := by
        by_contra numeral
        have decimal :=
          (Text.isSome_numeral?_iff.mp (Option.isSome_iff_ne_none.mpr numeral)).2 c among
        rw [loose] at decimal
        cases decimal
      rw [parseWithin_of_isCut cut, if_pos (List.all_eq_true.mpr pass),
        Numeral.read_eq_error_iff.mpr (.inr ⟨short, noNumeral, rfl⟩)]

/-! ## What is read from what is written -/

private theorem isCut_format (named : key.name ≠ "") :
    IsCut key.format key.name.toList (toString key.arity).toList where
  whole := by simp [format]
  last among := absurd (Text.isDigit_of_mem_toString among) (by decide)
  named := by simpa using named
  filled := (Text.numeral?_eq_some_iff.mp (Text.numeral?_toString key.arity)).1

/-- An operator is read back from what is written for it, unless it has no name or the reader does
not take so many digits. -/
theorem writes_format_iff : Writes bound key.format key ↔
    key.name ≠ "" ∧ Numeral.Admits bound key.arity := by
  constructor
  · rintro ⟨digits, _, cut, -, -, short⟩
    have named : key.name ≠ "" := by simpa using cut.named
    -- the text can be cut in one place only
    obtain ⟨-, rfl⟩ := (isCut_format named).parts_eq cut
    exact ⟨named, fun most given => by simpa only [String.length_toList] using short most given⟩
  · rintro ⟨named, admitted⟩
    obtain ⟨-, values, valued, sum⟩ :=
      Text.numeral?_eq_some_iff.mp (Text.numeral?_toString key.arity)
    exact ⟨_, values, isCut_format named, valued, sum, fun most given => by
      simpa only [String.length_toList] using admitted most given⟩

/-- An operator is read exactly from a name that is not empty, a slash, and a numeral of its arity,
where the slash is the last one of the text and the numeral has no more digits than the reader
takes.  Every other text is refused: as no operator, if there are not a name and digits around its
last slash; because of its numeral, if that is too long, or if it has digits that are not decimal.
So every operator with a name, whatever slashes are in it, is read back from what is written for it,
unless its arity is written with more digits than the reader takes. -/
theorem parseWithin_iff (bound : Option Nat) :
    (∀ text key, parseWithin bound text = .ok key ↔ Writes bound text key) ∧
    (∀ text flaw, parseWithin bound text = .error flaw ↔ Refuses bound text flaw) ∧
    ∀ key, parseWithin bound key.format = .ok key ↔
    key.name ≠ "" ∧ Numeral.Admits bound key.arity :=
  ⟨fun _ _ => parseWithin_eq_ok_iff, fun _ _ => parseWithin_eq_error_iff,
    fun _ => parseWithin_eq_ok_iff.trans writes_format_iff⟩

example : parse "//٣" = .ok ⟨"/", 3⟩ := by rfl

example : parse "+/²" = .error (.numeral (.notDecimal "²")) := by rfl

/-- Zeros in front of the values of digits do not change what they come to. -/
theorem digitsValue_zeros (count : Nat) (values : List Nat) :
    Text.digitsValue (List.replicate count 0 ++ values) = Text.digitsValue values := by
  induction count with
  | zero => rfl
  | succ count ih =>
    rw [← ih]
    simp [Text.digitsValue, List.replicate_succ]

/-- A two with as many zeros in front as a numeral may have digits. -/
def paddedTwo : List Char := List.replicate Numeral.mostDigits '0' ++ ['2']

/-- The operator `+` with two arguments. -/
def padded : String := String.ofList ('+' :: '/' :: paddedTwo)

theorem isDecimal_of_mem_paddedTwo {c : Char} (among : c ∈ paddedTwo) :
    Numeral.isDecimal c = true := by
  rcases List.mem_append.mp among with zero | two
  · rw [List.eq_of_mem_replicate zero]
    decide
  · rw [List.mem_singleton.mp two]
    decide

private theorem leadingDigits_paddedTwo :
    Numeral.leadingDigits paddedTwo = Numeral.mostDigits + 1 := by
  rw [Numeral.leadingDigits, List.takeWhile_eq_self_iff.mpr fun _ => isDecimal_of_mem_paddedTwo]
  simp [paddedTwo]

private theorem isCut_padded : IsCut padded ['+'] paddedTwo where
  whole := String.toList_ofList
  last among := absurd (isDecimal_of_mem_paddedTwo among) (by decide)
  named := by simp
  filled := by simp [paddedTwo]

/-- A text that writes an operator, for readers that take any number of digits, is refused by the
usual one. -/
theorem parse_padded :
    Writes none padded ⟨"+", 2⟩ ∧ parse padded = .error (.numeral (.tooLong 4300 4301)) := by
  constructor
  · refine ⟨_, List.replicate Numeral.mostDigits 0 ++ [2], isCut_padded, ?_, ?_, nofun⟩
    · have zero : Text.digitValue? '0' = some 0 := by decide
      have two : Text.digitValue? '2' = some 2 := by decide
      simp [Text.HasValues, paddedTwo, zero, two]
    · exact digitsValue_zeros Numeral.mostDigits [2]
  · have pass : ∀ c ∈ paddedTwo, Text.isDigit c = true := by
      intro c among
      rw [Text.isDigit, ← Numeral.isDecimal, isDecimal_of_mem_paddedTwo among, Bool.true_or]
    have tooLong : Numeral.mostDigits < Numeral.leadingDigits paddedTwo := by
      rw [leadingDigits_paddedTwo]
      apply Nat.lt_succ_self
    have refused := parseWithin_eq_error_iff.mpr (.tooLong rfl isCut_padded pass tooLong)
    rwa [leadingDigits_paddedTwo] at refused

end SignatureIndex.OperatorKey
