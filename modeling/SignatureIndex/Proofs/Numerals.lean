import Mathlib.Algebra.Group.Nat.Defs
import Mathlib.Data.List.TakeWhile
import SignatureIndex.Numeral

/-!
# Numerals written and read

A number is written in ASCII digits without a zero in front, and what is written for it is read as
that number again.  No numeral of the number is shorter, in whatever digits it is written: so a
reader who has taken some numeral of a number also takes the written one, however many digits it
reads at most.
-/

namespace SignatureIndex

namespace Text

variable {c : Char} {cs : List Char} {value : Nat} {values : List Nat}

/-! ## Digits and their values -/

/-- Whether the characters of a text are digits of these values, one by one. -/
def HasValues (cs : List Char) (values : List Nat) : Prop := cs.map digitValue? = values.map some

private theorem mapM_digitValue?_eq_some_iff : cs.mapM digitValue? = some values ↔
    HasValues cs values := by
  unfold HasValues
  induction cs generalizing values with
  | nil => cases values <;> simp
  | cons c cs ih =>
    rw [List.mapM_cons, List.map_cons]
    cases values with
    | nil =>
      cases digitValue? c with
      | none => simp
      | some value => cases cs.mapM digitValue? <;> simp
    | cons value values =>
      rw [List.map_cons, List.cons.injEq, ← ih]
      cases digitValue? c with
      | none => simp
      | some first => cases cs.mapM digitValue? <;> simp

theorem numeral?_eq_some_iff :
    numeral? cs = some value ↔ cs ≠ [] ∧ ∃ values, HasValues cs values ∧
    digitsValue values = value := by
  cases cs with
  | nil => simp [numeral?]
  | cons c cs =>
    rw [numeral?, List.isEmpty_cons, if_neg Bool.false_ne_true, Option.map_eq_some_iff]
    simp only [mapM_digitValue?_eq_some_iff, ne_eq, reduceCtorEq, not_false_eq_true, true_and]

/-- Exactly the texts that consist of decimal digits, and of one at least, write a number. -/
theorem isSome_numeral?_iff : (numeral? cs).isSome = true ↔
    cs ≠ [] ∧ ∀ c ∈ cs, (digitValue? c).isSome = true := by
  have valued : (∃ values, HasValues cs values) ↔ ∀ c ∈ cs, (digitValue? c).isSome = true := by
    constructor
    · rintro ⟨values, valued⟩ c among
      have given : digitValue? c ∈ values.map some := valued ▸ List.mem_map_of_mem among
      obtain ⟨value, -, digit⟩ := List.mem_map.mp given
      simp [← digit]
    · intro digits
      refine ⟨cs.map fun c => (digitValue? c).getD 0, ?_⟩
      rw [HasValues, List.map_map, List.map_inj_left]
      intro c among
      obtain ⟨value, digit⟩ := Option.isSome_iff_exists.mp (digits c among)
      simp [digit]
  rw [← valued, Option.isSome_iff_exists]
  simp only [numeral?_eq_some_iff]
  constructor
  · rintro ⟨_, some, values, digits, -⟩
    exact ⟨some, values, digits⟩
  · rintro ⟨some, values, digits⟩
    exact ⟨_, some, values, digits, rfl⟩

/-- A number is smaller than the power of ten that its digits come to. -/
theorem digitsValue_lt (small : ∀ value ∈ values, value < 10) :
    digitsValue values < 10 ^ values.length := by
  -- the digits go on from any number, each of them making room for ten
  have after (total : Nat) : values.foldl (fun total value => 10 * total + value) total <
      (total + 1) * 10 ^ values.length := by
    induction values generalizing total with
    | nil => simp
    | cons value values ih =>
      obtain ⟨smallHere, smallRest⟩ := List.forall_mem_cons.mp small
      have room : (10 * total + value + 1) * 10 ^ values.length ≤
          (total + 1) * 10 * 10 ^ values.length :=
        Nat.mul_le_mul_right _ (by omega)
      rw [List.foldl_cons, List.length_cons, Nat.pow_succ', ← Nat.mul_assoc]
      exact Nat.lt_of_lt_of_le (ih smallRest _) room
  simpa [digitsValue] using after 0

private theorem lt_of_numeral? (read : numeral? cs = some value) : value < 10 ^ cs.length := by
  obtain ⟨-, values, valued, rfl⟩ := numeral?_eq_some_iff.mp read
  have small : ∀ value ∈ values, value < 10 := by
    intro value among
    have given : some value ∈ cs.map digitValue? := valued ▸ List.mem_map_of_mem among
    obtain ⟨c, -, digit⟩ := List.mem_map.mp given
    exact digitValue?_lt digit
  have sameLength : cs.length = values.length := by simpa using congrArg List.length valued
  rw [sameLength]
  exact digitsValue_lt small

/-! ## What is written for a number -/

private theorem digitValue?_of_isDigit (digit : c.isDigit = true) :
    digitValue? c = some (c.toNat - '0'.toNat) := by
  have range : '0'.toNat ≤ c.toNat ∧ c.toNat ≤ '9'.toNat := Char.isDigit_iff_toNat.mp digit
  -- the digits of ASCII are the first row
  have row : 48 ≤ c.toNat ∧ c.toNat < 58 := ⟨range.1, Nat.lt_succ_of_le range.2⟩
  simp [digitValue?, decimalZeros, row]

theorem isDigit_of_mem_toString (among : c ∈ (toString value).toList) : c.isDigit = true := by
  rw [Nat.toString_eq_repr, Nat.toList_repr] at among
  exact Nat.isDigit_of_mem_toDigits (by decide) (by decide) among

/-- What is written for a number is read as that number. -/
theorem numeral?_toString (value : Nat) : numeral? (toString value).toList = some value := by
  have written : (toString value).toList = Nat.toDigits 10 value := by
    rw [Nat.toString_eq_repr, Nat.toList_repr]
  refine numeral?_eq_some_iff.mpr ⟨?_, (toString value).toList.map fun c =>
    c.toNat - '0'.toNat, ?_, ?_⟩
  · rw [written]
    exact List.ne_nil_of_length_pos Nat.length_toDigits_pos
  · rw [HasValues, List.map_map, List.map_inj_left]
    intro c among
    exact digitValue?_of_isDigit (isDigit_of_mem_toString among)
  · rw [written, digitsValue, List.foldl_map]
    exact Nat.ofDigitChars_ten_toDigits

/-- Nothing shorter than what is written for a number is read as that number. -/
theorem length_toString_le_of_numeral? (read : numeral? cs = some value) :
    (toString value).length ≤ cs.length := by
  have some : 0 < cs.length := List.length_pos_iff.mpr (numeral?_eq_some_iff.mp read).1
  rw [Nat.toString_eq_repr, Nat.length_repr_le_iff some]
  exact lt_of_numeral? read

end Text

namespace Numeral

variable {bound : Option Nat} {digits : List Char} {value : Nat}

/-- A numeral is read if it writes a number and is not too long for the reader. -/
theorem read_eq_ok_iff : read bound digits = .ok value ↔
    Text.numeral? digits = some value ∧ ∀ most ∈ bound, digits.length ≤ most := by
  have any : readAny digits = .ok value ↔ Text.numeral? digits = some value := by
    unfold readAny
    cases Text.numeral? digits <;> simp
  cases bound with
  | none => simp [read, any]
  | some most =>
    simp only [read, Option.mem_def, Option.some.injEq, forall_eq']
    constructor
    · intro read
      split at read
      · cases read
      next short =>
        have number := any.mp read
        -- digits that write a number count one and all
        have whole : leadingDigits digits = digits.length := by
          have digitsOnly : ∀ c ∈ digits, isDecimal c = true :=
            (Text.isSome_numeral?_iff.mp (Option.isSome_of_mem number)).2
          rw [leadingDigits, List.takeWhile_eq_self_iff.mpr digitsOnly]
        exact ⟨number, by omega⟩
    · rintro ⟨number, short⟩
      have within : leadingDigits digits ≤ digits.length := (List.takeWhile_prefix _).length_le
      rw [if_neg (by omega), any.mpr number]

/-- A numeral is refused if it is too long for the reader, and otherwise if it writes no number. -/
theorem read_eq_error_iff {flaw : NumeralFlaw} : read bound digits = .error flaw ↔
    (∃ most, bound = some most ∧ most < leadingDigits digits ∧
      flaw = .tooLong most (leadingDigits digits)) ∨
      ((∀ most ∈ bound, leadingDigits digits ≤ most) ∧ Text.numeral? digits = none ∧
        flaw = .notDecimal (String.ofList digits)) := by
  have any : readAny digits = .error flaw ↔
      Text.numeral? digits = none ∧ flaw = .notDecimal (String.ofList digits) := by
    unfold readAny
    cases Text.numeral? digits <;> simp [eq_comm]
  cases bound with
  | none => simp [read, any]
  | some most =>
    simp only [read, Option.mem_def, Option.some.injEq, exists_eq_left', forall_eq']
    split
    next tooLong => simp [tooLong, Nat.not_le.mpr tooLong, eq_comm]
    next short => simp [short, Nat.not_lt.mp short, any]

/-- Whether a reader takes what is written for a number. -/
def Admits (bound : Option Nat) (value : Nat) : Prop :=
  ∀ most ∈ bound, (toString value).length ≤ most

theorem read_toString_eq_ok_iff : read bound (toString value).toList = .ok value ↔
    Admits bound value := by
  rw [read_eq_ok_iff, Text.numeral?_toString, eq_self, true_and, Admits]
  simp only [String.length_toList]

/-- A reader that has taken one numeral of a number takes the written one. -/
theorem admits_of_read (taken : read bound digits = .ok value) : Admits bound value := by
  obtain ⟨number, short⟩ := read_eq_ok_iff.mp taken
  intro most given
  exact Nat.le_trans (Text.length_toString_le_of_numeral? number) (short most given)

end Numeral

end SignatureIndex
