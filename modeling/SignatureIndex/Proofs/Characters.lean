import SignatureIndex.Declaration.OfAttribute

/-!
# Kinds of characters

Brackets and commas count in a group, capital letters start variables, quotation marks hide what is
between them.  A character that does none of this is *neutral*, and *inert* if it also keeps a
variable from starting right after it, as lower-case letters do.
-/

namespace SignatureIndex

open Text (isBlank)

/-- A character that ends the name before it without starting one: after such a character a letter
does the same as after any lower-case letter. -/
def isInert (c : Char) : Bool := bars c && !startsVariable c

/-- What a character literal may hold so that it does not matter: one such character, with a
backslash or without. -/
def isInertPayload : List Char → Bool
  | [c] => isInert c
  | [c, d] => c == '\\' && isInert d
  | _ => false

/-- A character that opens nothing, closes nothing and separates nothing, and that no variable
starts with. -/
def isNeutral (c : Char) : Bool :=
  !Group.isOpen c && !Group.isClose c && c != ',' && c != '<' && c != '>' && !startsVariable c

variable {c : Char}

/-! ## Marks -/

theorem eq_of_isMark (mark : Lexeme.isMark c = true) : c = Text.doubleMark ∨
    c = Text.apostrophe := by
  simpa [Lexeme.isMark] using mark

theorem isNeutral_of_isMark (mark : Lexeme.isMark c = true) : isNeutral c = true := by
  rcases eq_of_isMark mark with rfl | rfl <;> decide

private theorem bars_of_isMark (mark : Lexeme.isMark c = true) : bars c = false := by
  rcases eq_of_isMark mark with rfl | rfl <;> decide

theorem isBlank_of_dollar_or_isMark (starts : c = '$' ∨ Lexeme.isMark c = true) :
    isBlank c = false := by
  rcases starts with rfl | mark
  · decide
  · rcases eq_of_isMark mark with rfl | rfl <;> decide

theorem isNameChar_of_dollar_or_isMark (starts : c = '$' ∨ Lexeme.isMark c = true) :
    isNameChar c = false := by
  rcases starts with rfl | mark
  · decide
  · rcases eq_of_isMark mark with rfl | rfl <;> decide

theorem not_isMark_of_isBlank (blank : isBlank c = true) : Lexeme.isMark c = false := by
  cases mark : Lexeme.isMark c with
  | false => rfl
  | true =>
    rw [isBlank_of_dollar_or_isMark (.inr mark)] at blank
    cases blank

/-! ## Names -/

theorem isNameChar_of_isLower (lower : c.isLower = true) : isNameChar c = true := by
  have letter : (c.isUpper || c.isLower || c.isDigit) = true := by
    rw [lower, Bool.or_true, Bool.true_or]
  have alphanumeric : c.isAlphanum = true := letter
  simp only [isNameChar, alphanumeric, Bool.true_or]

theorem isNameChar_of_startsVariable (starts : startsVariable c = true) : isNameChar c = true := by
  simp only [startsVariable, Bool.or_eq_true, beq_iff_eq] at starts
  rcases starts with upper | rfl
  · have letter : (c.isUpper || c.isLower || c.isDigit) = true := by
      rw [upper, Bool.true_or, Bool.true_or]
    have alphanumeric : c.isAlphanum = true := letter
    simp only [isNameChar, alphanumeric, Bool.true_or]
  · decide

/-- A character of a name stands for itself. -/
theorem plain_of_isNameChar (name : isNameChar c = true) :
    (Lexeme.isMark c = false ∧ c ≠ '$' ∧ c ≠ '%') ∧ c ≠ '.' := by
  refine ⟨⟨?_, ?_, ?_⟩, ?_⟩
  · cases mark : Lexeme.isMark c with
    | false => rfl
    | true =>
      rw [isNameChar_of_dollar_or_isMark (.inr mark)] at name
      cases name
  all_goals
    rintro rfl
    exact absurd name (by decide)

/-- A dash, a name and one more character stand for themselves if that character does. -/
theorem plain_of_mem_head {name : List Char} {last : Char} (named : ∀ d ∈ name, isNameChar d = true)
    (plain : (Lexeme.isMark last = false ∧ last ≠ '$' ∧ last ≠ '%') ∧ last ≠ '.')
    (among : c ∈ '-' :: name ++ [last]) :
    (Lexeme.isMark c = false ∧ c ≠ '$' ∧ c ≠ '%') ∧ c ≠ '.' := by
  rw [List.mem_append, List.mem_cons, List.mem_singleton] at among
  rcases among with (rfl | among) | rfl
  · decide
  · exact plain_of_isNameChar (named c among)
  · exact plain

/-! ## Letters and digits -/

theorem isUpper_iff (c : Char) : c.isUpper = true ↔ 65 ≤ c.toNat ∧ c.toNat ≤ 90 := by
  change decide ('A'.val ≤ c.val ∧ c.val ≤ 'Z'.val) = true ↔ _
  rw [decide_eq_true_eq, UInt32.le_iff_toNat_le, UInt32.le_iff_toNat_le]
  rfl

theorem isLower_iff (c : Char) : c.isLower = true ↔ 97 ≤ c.toNat ∧ c.toNat ≤ 122 := by
  change (decide ('a'.val ≤ c.val) && decide (c.val ≤ 'z'.val)) = true ↔ _
  rw [Bool.and_eq_true, decide_eq_true_eq, decide_eq_true_eq, UInt32.le_iff_toNat_le,
    UInt32.le_iff_toNat_le]
  rfl

private theorem isDigit_iff (c : Char) : c.isDigit = true ↔ 48 ≤ c.toNat ∧ c.toNat ≤ 57 := by
  change (decide ('0'.val ≤ c.val) && decide (c.val ≤ '9'.val)) = true ↔ _
  rw [Bool.and_eq_true, decide_eq_true_eq, decide_eq_true_eq, UInt32.le_iff_toNat_le,
    UInt32.le_iff_toNat_le]
  rfl

theorem isAlphanum_iff (c : Char) :
    c.isAlphanum = true ↔ c.isUpper = true ∨ c.isLower = true ∨ c.isDigit = true := by
  change (c.isUpper || c.isLower || c.isDigit) = true ↔ _
  rw [Bool.or_eq_true, Bool.or_eq_true, or_assoc]

/-- A character after which no variable starts is a letter, a digit or one of four others. -/
theorem range_of_bars (barring : bars c = true) :
    (48 ≤ c.toNat ∧ c.toNat ≤ 57) ∨ (63 ≤ c.toNat ∧ c.toNat ≤ 90) ∨ (97 ≤ c.toNat ∧ c.toNat ≤ 122) ∨
      c.toNat = 95 ∨ c.toNat = 35 := by
  simp only [bars, isNameChar, Bool.or_eq_true, beq_iff_eq, isAlphanum_iff,
    isUpper_iff, isLower_iff, isDigit_iff] at barring
  rcases barring with (((letter | rfl) | rfl) | rfl) | rfl
  · omega
  all_goals decide

theorem isBlank_of_bars (barring : bars c = true) : isBlank c = false := by
  have range := range_of_bars barring
  simp only [isBlank, Bool.or_eq_false_iff, Bool.and_eq_false_iff, decide_eq_false_iff_not,
    beq_eq_false_iff_ne]
  omega

theorem not_bars_of_isBlank (blank : isBlank c = true) : bars c = false := by
  cases barring : bars c with
  | false => rfl
  | true =>
    rw [isBlank_of_bars barring] at blank
    cases blank

/-! ## Inert characters -/

theorem bars_of_isInert (inert : isInert c = true) : bars c = true := by
  simp only [isInert, Bool.and_eq_true] at inert
  exact inert.1

private theorem isNeutral_of_isInert (inert : isInert c = true) : isNeutral c = true := by
  have range := range_of_bars (bars_of_isInert inert)
  simp only [isInert, Bool.and_eq_true, Bool.not_eq_true'] at inert
  simp only [isNeutral, inert.2, Group.isOpen, Group.isClose, Bool.and_eq_true, Bool.not_eq_true',
    Bool.or_eq_false_iff, beq_eq_false_iff_ne, bne_iff_ne, ne_eq, Bool.not_false, and_true]
  refine ⟨⟨⟨⟨⟨⟨?_, ?_⟩, ?_⟩, ⟨?_, ?_⟩, ?_⟩, ?_⟩, ?_⟩, ?_⟩ <;>
  · rintro rfl
    revert range
    decide

theorem not_isMark_of_isInert (inert : isInert c = true) : Lexeme.isMark c = false := by
  cases mark : Lexeme.isMark c with
  | false => rfl
  | true =>
    have barring := bars_of_isInert inert
    rw [bars_of_isMark mark] at barring
    cases barring

theorem exists_of_isInertPayload {p : List Char} (inert : isInertPayload p = true) :
    ∃ d, isInert d = true ∧ (p = [d] ∨ p = ['\\', d]) := by
  fun_cases isInertPayload p with
  | case1 d => exact ⟨d, inert, .inl rfl⟩
  | case2 c d =>
    simp only [isInertPayload, Bool.and_eq_true, beq_iff_eq] at inert
    obtain ⟨rfl, inert⟩ := inert
    exact ⟨d, inert, .inr rfl⟩
  | case3 => simp_all [isInertPayload]

theorem of_mem_literal {payload : List Char} (inert : isInertPayload payload = true)
    (among : c ∈ '$' :: payload) : Lexeme.isMark c = false ∧ isNeutral c = true := by
  have dollar : Lexeme.isMark '$' = false ∧ isNeutral '$' = true := by decide
  have backslash : Lexeme.isMark '\\' = false ∧ isNeutral '\\' = true := by decide
  obtain ⟨d, inert, rfl | rfl⟩ := exists_of_isInertPayload inert
  · simp only [List.mem_cons, List.not_mem_nil, or_false] at among
    rcases among with rfl | rfl
    · exact dollar
    · exact ⟨not_isMark_of_isInert inert, isNeutral_of_isInert inert⟩
  · simp only [List.mem_cons, List.not_mem_nil, or_false] at among
    rcases among with rfl | rfl | rfl
    · exact dollar
    · exact backslash
    · exact ⟨not_isMark_of_isInert inert, isNeutral_of_isInert inert⟩

theorem isInert_of_isLower (lower : c.isLower = true) : isInert c = true := by
  have notUpper : c.isUpper = false := by
    rw [isLower_iff] at lower
    rw [Bool.eq_false_iff, ne_eq, isUpper_iff]
    omega
  have notUnderscore : c ≠ '_' := by
    rintro rfl
    cases lower
  have named : c.isAlphanum = true := (isAlphanum_iff c).mpr (.inr (.inl lower))
  simp [isInert, bars, isNameChar, startsVariable, named, notUpper, notUnderscore]

theorem startsVariable_of_isNeutral (neutral : isNeutral c = true) : startsVariable c = false := by
  simp only [isNeutral, Bool.and_eq_true, Bool.not_eq_true'] at neutral
  exact neutral.2

/-! ## Brackets -/

namespace Group

/-- A character that ends an item. -/
def isEnd (c : Char) : Bool := c == ',' || isClose c

theorem not_isClose_of_isOpen (opens : isOpen c = true) : isClose c = false := by
  simp only [isOpen, Bool.or_eq_true, beq_iff_eq] at opens
  rcases opens with (rfl | rfl) | rfl <;> decide

theorem not_bars_of_isClose (closes : isClose c = true) : bars c = false := by
  simp only [isClose, Bool.or_eq_true, beq_iff_eq] at closes
  rcases closes with (rfl | rfl) | rfl <;> decide

theorem not_isMark_of_isClose (closes : isClose c = true) : Lexeme.isMark c = false := by
  simp only [isClose, Bool.or_eq_true, beq_iff_eq] at closes
  rcases closes with (rfl | rfl) | rfl <;> decide

theorem not_isEnd_of_isNeutral (neutral : isNeutral c = true) : isEnd c = false := by
  simp only [isNeutral, Bool.and_eq_true, Bool.not_eq_true', bne_iff_ne, ne_eq] at neutral
  obtain ⟨⟨⟨⟨⟨-, notClose⟩, notComma⟩, -⟩, -⟩, -⟩ := neutral
  simp [isEnd, notClose, notComma]

end Group

end SignatureIndex
