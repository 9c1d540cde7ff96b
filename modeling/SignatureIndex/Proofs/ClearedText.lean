import SignatureIndex.Proofs.Adjacency

/-!
# Texts without their comments

A text is gone through twice.  The first reader blanks its comments out, the second looks in what is
left for the ends of forms, and to the second a percent sign is a character like any other.  Both go
from one lexeme to the next and keep count of the offset.  On a text whose comments are blanked out
they meet the same lexemes at the same offsets: those that the first reader met in the text itself,
and a blank for every character of a comment.  So nothing but comments changes, the second reader
never gets stuck at a mark without a match, and blanking out comments again changes nothing.
-/

namespace SignatureIndex

namespace Lexeme

/-- Reads the lexeme that starts with `c` where no comments are expected. -/
def nextCleared? (c : Char) (cs : List Char) : Option (Lexeme × List Char) :=
  if c = '%' then some (plain c, cs) else next? c cs

def IsComment (lexeme : Lexeme) : Prop := ∃ written, lexeme = comment written

section Reading

variable (next : Char → List Char → Option (Lexeme × List Char))

/-- Whether reading a text one lexeme at a time comes to an offset, with the rest of the text still
to be read. -/
inductive Comes : List Char → Nat → List Char → Prop
  | start (text : List Char) : Comes text 0 text
  | step {c : Char} {cs rest left : List Char} {lexeme : Lexeme} {place : Nat} :
      next c cs = some (lexeme, rest) → Comes rest place left →
        Comes (c :: cs) (lexeme.text.length + place) left

/-- Whether reading a text meets a lexeme at an offset. -/
def Meets (text : List Char) (place : Nat) (lexeme : Lexeme) : Prop :=
  ∃ c cs rest, Comes next text place (c :: cs) ∧ next c cs = some (lexeme, rest)

/-- Whether reading a text gets no further at an offset, though something is left there. -/
def Sticks (text : List Char) (place : Nat) : Prop :=
  ∃ c cs, Comes next text place (c :: cs) ∧ next c cs = none

end Reading

/-- Whether a place of a text lies in a comment, from its percent sign to the end of its line. -/
def IsCommented (text : List Char) (place : Nat) : Prop :=
  ∃ start written, Meets next? text start (.comment written) ∧ start ≤ place ∧
  place < start + written.length

/-! ## From one lexeme to the next -/

variable {next : Char → List Char → Option (Lexeme × List Char)}
variable {c : Char} {cs rest text : List Char} {first lexeme : Lexeme} {place : Nat}

theorem not_comes_nil {left : List Char} : ¬Comes next [] place (c :: left) := by
  rintro ⟨⟩

theorem not_meets_nil : ¬Meets next [] place lexeme := by
  rintro ⟨_, _, _, comes, -⟩
  exact not_comes_nil comes

theorem not_sticks_nil : ¬Sticks next [] place := by
  rintro ⟨_, _, comes, -⟩
  exact not_comes_nil comes

theorem not_isCommented_nil : ¬IsCommented [] place := by
  rintro ⟨_, _, meets, -⟩
  exact not_meets_nil meets

theorem comes_cons_iff {d : Char} {ds : List Char} (found : next c cs = some (first, rest)) :
    Comes next (c :: cs) place (d :: ds) ↔ (place = 0 ∧ d = c ∧ ds = cs) ∨
      ∃ further, place = first.text.length + further ∧ Comes next rest further (d :: ds) := by
  constructor
  · intro comes
    cases comes with
    | start => exact .inl ⟨rfl, rfl, rfl⟩
    | step other later =>
      rw [found] at other
      cases other
      exact .inr ⟨_, rfl, later⟩
  · rintro (⟨rfl, rfl, rfl⟩ | ⟨further, rfl, later⟩)
    · exact .start _
    · exact .step found later

theorem meets_cons_iff (found : next c cs = some (first, rest)) :
    Meets next (c :: cs) place lexeme ↔ (place = 0 ∧ lexeme = first) ∨
      ∃ further, place = first.text.length + further ∧ Meets next rest further lexeme := by
  unfold Meets
  simp only [comes_cons_iff found]
  constructor
  · rintro ⟨d, ds, after, ⟨rfl, rfl, rfl⟩ | ⟨further, rfl, later⟩, read⟩
    · rw [found] at read
      cases read
      exact .inl ⟨rfl, rfl⟩
    · exact .inr ⟨further, rfl, d, ds, after, later, read⟩
  · rintro (⟨rfl, rfl⟩ | ⟨further, rfl, d, ds, after, later, read⟩)
    · exact ⟨c, cs, rest, .inl ⟨rfl, rfl, rfl⟩, found⟩
    · exact ⟨d, ds, after, .inr ⟨further, rfl, later⟩, read⟩

theorem sticks_cons_iff (found : next c cs = some (first, rest)) :
    Sticks next (c :: cs) place ↔ ∃ further, place = first.text.length + further ∧
    Sticks next rest further := by
  unfold Sticks
  simp only [comes_cons_iff found]
  constructor
  · rintro ⟨d, ds, ⟨rfl, rfl, rfl⟩ | ⟨further, rfl, later⟩, stuck⟩
    · rw [found] at stuck
      cases stuck
    · exact ⟨further, rfl, d, ds, later, stuck⟩
  · rintro ⟨further, rfl, d, ds, later, stuck⟩
    exact ⟨d, ds, .inr ⟨further, rfl, later⟩, stuck⟩

theorem isCommented_cons_iff (found : next? c cs = some (first, rest)) :
    IsCommented (c :: cs) place ↔ (first.IsComment ∧ place < first.text.length) ∨
      ∃ further, place = first.text.length + further ∧ IsCommented rest further := by
  unfold IsCommented
  simp only [meets_cons_iff found]
  constructor
  · rintro ⟨start, written, ⟨rfl, rfl⟩ | ⟨further, rfl, later⟩, after, before⟩
    · exact .inl ⟨⟨written, rfl⟩, by simpa [Lexeme.text] using before⟩
    · exact .inr ⟨place - first.text.length, by omega, further, written, later, by omega, by omega⟩
  · rintro (⟨⟨written, rfl⟩, before⟩ | ⟨_, rfl, further, written, later, after, before⟩)
    · exact ⟨0, written, .inl ⟨rfl, rfl⟩, Nat.zero_le _, by simpa [Lexeme.text] using before⟩
    · exact ⟨_, written, .inr ⟨further, rfl, later⟩, by omega, by omega⟩

/-- What is met at an offset stands there. -/
theorem Meets.drop_eq
    (whole : ∀ {c cs lexeme rest}, next c cs = some (lexeme, rest) → lexeme.text ++ rest = c :: cs)
    (meets : Meets next text place lexeme) : ∃ rest, text.drop place = lexeme.text ++ rest := by
  obtain ⟨c, cs, rest, comes, found⟩ := meets
  refine ⟨rest, ?_⟩
  rw [whole found]
  clear found
  generalize c :: cs = left at comes
  induction comes with
  | start text => rfl
  | step read _ ih =>
    rw [← whole read, List.drop_length_add_append]
    exact ih

/-- All of a text is read unless the reader gets stuck. -/
theorem matched_iff_not_sticks : (ofText text).2 = [] ↔ ∀ place, ¬Sticks next? text place := by
  fun_induction ofText text with
  | case1 => exact ⟨fun _ _ => not_sticks_nil, fun _ => rfl⟩
  | case2 c cs none =>
    refine ⟨fun left => absurd left (List.cons_ne_nil c cs), fun free => ?_⟩
    exact absurd ⟨c, cs, .start _, none⟩ (free 0)
  | case3 c cs lexeme rest found _ lexemes unmatched deeper ih =>
    rw [deeper] at ih
    simp only [ih, sticks_cons_iff found]
    constructor
    · rintro free place ⟨further, -, stuck⟩
      exact free further stuck
    · exact fun free further stuck => free _ ⟨further, rfl, stuck⟩

/-! ## Reading what is left -/

section Cleared

variable (alike : ∀ c cs, c ≠ '%' → next c cs = next? c cs)
include alike

/-- A lexeme that is no comment is met again. -/
theorem exists_step_blanked {lexemes : List Lexeme} (found : next? c cs = some (first, rest))
    (other : ¬first.IsComment) (later : ofText rest = (lexemes, [])) :
    ∃ d ds, first.blanked ++ lexemes.flatMap blanked = d :: ds ∧
      next d ds = some (first, lexemes.flatMap blanked) := by
  have noPercent : c ≠ '%' := by
    rintro rfl
    cases found
    exact other ⟨_, rfl⟩
  obtain ⟨ds, starts, again⟩ := exists_next_blanked found other later
  exact ⟨c, ds, starts, by rw [alike c ds noPercent, again]⟩

theorem next_blank (cs : List Char) : next ' ' cs = some (plain ' ', cs) := by
  rw [alike ' ' cs (by decide)]
  rfl

/-- Blanks are met one by one. -/
theorem meets_blanks_iff (blanks : Nat) (text : List Char) :
    Meets next (List.replicate blanks ' ' ++ text) place lexeme ↔
      (place < blanks ∧ lexeme = plain ' ') ∨ ∃ further, place = blanks + further ∧
      Meets next text further lexeme := by
  induction blanks generalizing place with
  | zero => simp
  | succ blanks ih =>
    have one : (plain ' ').text.length = 1 := rfl
    rw [List.replicate_succ, List.cons_append, meets_cons_iff (next_blank alike _), one]
    simp only [ih]
    constructor
    · rintro (⟨rfl, rfl⟩ | ⟨_, rfl, ⟨before, rfl⟩ | ⟨further, rfl, later⟩⟩)
      · exact .inl ⟨Nat.succ_pos blanks, rfl⟩
      · exact .inl ⟨by omega, rfl⟩
      · exact .inr ⟨further, by omega, later⟩
    · rintro (⟨before, rfl⟩ | ⟨further, rfl, later⟩)
      · rcases Nat.eq_zero_or_pos place with rfl | after
        · exact .inl ⟨rfl, rfl⟩
        · exact .inr ⟨place - 1, by omega, .inl ⟨by omega, rfl⟩⟩
      · exact .inr ⟨blanks + further, by omega, .inr ⟨further, rfl, later⟩⟩

private theorem sticks_blanks_iff (blanks : Nat) (text : List Char) :
    Sticks next (List.replicate blanks ' ' ++ text) place ↔
      ∃ further, place = blanks + further ∧ Sticks next text further := by
  induction blanks generalizing place with
  | zero => simp
  | succ blanks ih =>
    have one : (plain ' ').text.length = 1 := rfl
    rw [List.replicate_succ, List.cons_append, sticks_cons_iff (next_blank alike _), one]
    simp only [ih]
    constructor
    · rintro ⟨_, rfl, further, rfl, later⟩
      exact ⟨further, by omega, later⟩
    · rintro ⟨further, rfl, later⟩
      exact ⟨blanks + further, by omega, further, rfl, later⟩

/-- What is met where comments are blanked out: the other lexemes of the text, and a blank for every
character of a comment. -/
theorem meets_blanked_iff (closed : (ofText text).2 = []) :
    Meets next ((ofText text).1.flatMap blanked) place lexeme ↔
      (Meets next? text place lexeme ∧ ¬lexeme.IsComment) ∨
      (IsCommented text place ∧ lexeme = plain ' ') := by
  fun_induction ofText text generalizing place with
  | case1 => simp [not_meets_nil, not_isCommented_nil]
  | case2 c cs none => exact absurd closed (List.cons_ne_nil c cs)
  | case3 c cs first rest found _ lexemes unmatched deeper ih =>
    obtain rfl : unmatched = [] := closed
    rw [deeper] at ih
    simp only [List.flatMap_cons, meets_cons_iff found, isCommented_cons_iff found]
    by_cases comment : first.IsComment
    · obtain ⟨written, rfl⟩ := comment
      have length : (Lexeme.comment written).text.length = written.length := rfl
      -- each blank of the comment is met by itself
      rw [blanked, meets_blanks_iff alike, length]
      simp only [ih rfl]
      constructor
      · rintro (⟨before, rfl⟩ | ⟨further, rfl, ⟨later, other⟩ | ⟨within, rfl⟩⟩)
        · exact .inr ⟨.inl ⟨⟨written, rfl⟩, before⟩, rfl⟩
        · exact .inl ⟨.inr ⟨further, rfl, later⟩, other⟩
        · exact .inr ⟨.inr ⟨further, rfl, within⟩, rfl⟩
      · rintro (⟨⟨-, rfl⟩ | ⟨further, rfl, later⟩, other⟩ |
          ⟨⟨-, before⟩ | ⟨further, rfl, within⟩, rfl⟩)
        · exact absurd ⟨written, rfl⟩ other
        · exact .inr ⟨further, rfl, .inl ⟨later, other⟩⟩
        · exact .inl ⟨before, rfl⟩
        · exact .inr ⟨further, rfl, .inr ⟨within, rfl⟩⟩
    · obtain ⟨d, ds, starts, again⟩ := exists_step_blanked alike found comment deeper
      -- another lexeme is read again as it was
      rw [starts, meets_cons_iff again]
      simp only [ih rfl]
      constructor
      · rintro (⟨rfl, rfl⟩ | ⟨further, rfl, ⟨later, other⟩ | ⟨within, rfl⟩⟩)
        · exact .inl ⟨.inl ⟨rfl, rfl⟩, comment⟩
        · exact .inl ⟨.inr ⟨further, rfl, later⟩, other⟩
        · exact .inr ⟨.inr ⟨further, rfl, within⟩, rfl⟩
      · rintro (⟨⟨rfl, rfl⟩ | ⟨further, rfl, later⟩, other⟩ |
          ⟨⟨isComment, -⟩ | ⟨further, rfl, within⟩, rfl⟩)
        · exact .inl ⟨rfl, rfl⟩
        · exact .inr ⟨further, rfl, .inl ⟨later, other⟩⟩
        · exact absurd isComment comment
        · exact .inr ⟨further, rfl, .inr ⟨within, rfl⟩⟩

private theorem not_sticks_blanked (closed : (ofText text).2 = []) :
    ¬Sticks next ((ofText text).1.flatMap blanked) place := by
  fun_induction ofText text generalizing place with
  | case1 => exact not_sticks_nil
  | case2 c cs none => exact absurd closed (List.cons_ne_nil c cs)
  | case3 c cs first rest found _ lexemes unmatched deeper ih =>
    obtain rfl : unmatched = [] := closed
    rw [deeper] at ih
    intro stuck
    rw [List.flatMap_cons] at stuck
    by_cases comment : first.IsComment
    · obtain ⟨written, rfl⟩ := comment
      rw [blanked, sticks_blanks_iff alike] at stuck
      obtain ⟨further, -, later⟩ := stuck
      exact ih rfl later
    · obtain ⟨d, ds, starts, again⟩ := exists_step_blanked alike found comment deeper
      rw [starts, sticks_cons_iff again] at stuck
      obtain ⟨further, -, later⟩ := stuck
      exact ih rfl later

end Cleared

/-- Where a comment is blanked out there are blanks, and everywhere else the text is as before. -/
theorem getElem?_blanked (closed : (ofText text).2 = []) (place : Nat) :
    (IsCommented text place → ((ofText text).1.flatMap blanked)[place]? = some ' ') ∧
      (¬IsCommented text place → ((ofText text).1.flatMap blanked)[place]? = text[place]?) := by
  fun_induction ofText text generalizing place with
  | case1 => exact ⟨fun commented => absurd commented not_isCommented_nil, fun _ => rfl⟩
  | case2 c cs none => exact absurd closed (List.cons_ne_nil c cs)
  | case3 c cs first rest found _ lexemes unmatched deeper ih =>
    obtain rfl : unmatched = [] := closed
    rw [deeper] at ih
    rw [← append_of_next? found, List.flatMap_cons, List.getElem?_append, List.getElem?_append,
      length_blanked, append_of_next? found, isCommented_cons_iff found]
    by_cases inside : place < first.text.length
    · -- the place lies in the first lexeme, so it is commented exactly if that is a comment
      have within : ((first.IsComment ∧ place < first.text.length) ∨
          ∃ further, place = first.text.length + further ∧ IsCommented rest further) ↔
          first.IsComment := by
        constructor
        · rintro (⟨comment, -⟩ | ⟨further, rfl, -⟩)
          · exact comment
          · omega
        · exact fun comment => .inl ⟨comment, inside⟩
      rw [within, if_pos inside, if_pos inside]
      constructor
      · rintro ⟨written, rfl⟩
        exact List.getElem?_replicate_of_lt inside
      · intro other
        cases first with
        | comment written => exact absurd ⟨written, rfl⟩ other
        | quoted | literal | plain => rfl
    · -- the place lies behind it
      have within : ((first.IsComment ∧ place < first.text.length) ∨
          ∃ further, place = first.text.length + further ∧ IsCommented rest further) ↔
          IsCommented rest (place - first.text.length) := by
        constructor
        · rintro (⟨-, before⟩ | ⟨further, rfl, later⟩)
          · exact absurd before inside
          · rwa [Nat.add_sub_cancel_left]
        · exact fun later => .inr ⟨_, by omega, later⟩
      rw [within, if_neg inside, if_neg inside]
      exact ih rfl _

/-- No line feed lies in a comment. -/
theorem not_isCommented_of_feed (feed : text[place]? = some '\n') : ¬IsCommented text place := by
  rintro ⟨start, written, meets, after, before⟩
  obtain ⟨rest, stands⟩ := meets.drop_eq append_of_next?
  obtain ⟨c, cs, left, -, found⟩ := meets
  obtain ⟨further, rfl⟩ := Nat.exists_eq_add_of_le after
  have among : '\n' ∈ written := by
    rw [← List.getElem?_drop, stands,
      List.getElem?_append_left (by simpa [Lexeme.text] using before)] at feed
    exact List.mem_of_getElem? feed
  cases next?_eq_some_iff.mp found with
  | comment percent =>
    subst percent
    rcases List.mem_cons.mp among with same | among
    · cases same
    · have inLine := List.all_eq_true.mp List.all_takeWhile _ among
      simp at inLine

private theorem append_of_nextCleared? (found : nextCleared? c cs = some (lexeme, rest)) :
    lexeme.text ++ rest = c :: cs := by
  unfold nextCleared? at found
  split at found
  · cases found
    rfl
  · exact append_of_next? found

end Lexeme

/-! ## What blanking out comments comes to -/

open Lexeme (Meets Sticks IsCommented next? nextCleared?)

variable {text clean : List Char}

/-- What is left of a text without its comments. -/
structure Clears (text clean : List Char) : Prop where
  length_eq : clean.length = text.length
  blank : ∀ place : Nat, IsCommented text place → clean[place]? = some ' '
  kept : ∀ place : Nat, ¬IsCommented text place → clean[place]? = text[place]?
  /-- No line feed lies in a comment. -/
  feed : ∀ place : Nat, text[place]? = some '\n' → clean[place]? = some '\n'
  /-- Nothing of a string, a quoted atom or a literal lies in a comment. -/
  stands : ∀ place lexeme, Meets next? text place lexeme → ¬lexeme.IsComment →
    (clean.drop place).take lexeme.text.length = lexeme.text
  /-- A reader that expects no comments meets the other lexemes where they were, and blanks in the
  place of comments. -/
  meets_iff : ∀ place lexeme, Meets nextCleared? clean place lexeme ↔
    (Meets next? text place lexeme ∧ ¬lexeme.IsComment) ∨
    (IsCommented text place ∧ lexeme = .plain ' ')
  /-- A reader that expects comments meets the same, so it meets none. -/
  alike : ∀ place lexeme, Meets next? clean place lexeme ↔ Meets nextCleared? clean place lexeme
  free : ∀ place lexeme, Meets next? clean place lexeme → ¬lexeme.IsComment
  not_sticks : ∀ place, ¬Sticks nextCleared? clean place
  matched : (Lexeme.ofText clean).2 = []
  again : blankComments clean = .ok clean

theorem Clears.unique {other : List Char} (clears : Clears text clean)
    (clearsToo : Clears text other) : other = clean := by
  refine List.ext_getElem? fun place => ?_
  by_cases commented : IsCommented text place
  · rw [clears.blank place commented, clearsToo.blank place commented]
  · rw [clears.kept place commented, clearsToo.kept place commented]

private theorem clears_blanked (closed : (Lexeme.ofText text).2 = []) :
    Clears text ((Lexeme.ofText text).1.flatMap Lexeme.blanked) := by
  have blanked := Form.blankComments_of_closed closed
  generalize output : (Lexeme.ofText text).1.flatMap Lexeme.blanked = clean at blanked
  -- what a reader makes of a percent sign is all the same, as long as it takes everything else as
  -- before
  have expectsSome : ∀ c cs, c ≠ '%' → next? c cs = next? c cs := fun _ _ _ => rfl
  have expectsNone : ∀ c cs, c ≠ '%' → nextCleared? c cs = next? c cs :=
    fun _ _ other => if_neg other
  have meets {next : Char → List Char → Option (Lexeme × List Char)}
      (alike : ∀ c cs, c ≠ '%' → next c cs = next? c cs) (place : Nat) (lexeme : Lexeme) :
      Meets next clean place lexeme ↔
        (Meets next? text place lexeme ∧ ¬lexeme.IsComment) ∨
        (IsCommented text place ∧ lexeme = .plain ' ') := by
    rw [← output]
    exact Lexeme.meets_blanked_iff alike closed
  have notSticks {next : Char → List Char → Option (Lexeme × List Char)}
      (alike : ∀ c cs, c ≠ '%' → next c cs = next? c cs) (place : Nat) :
      ¬Sticks next clean place := by
    rw [← output]
    exact Lexeme.not_sticks_blanked alike closed
  have matched := Lexeme.matched_iff_not_sticks.mpr (notSticks expectsSome)
  have free (place : Nat) (lexeme : Lexeme) (met : Meets next? clean place lexeme) :
      ¬lexeme.IsComment := by
    rcases (meets expectsSome place lexeme).mp met with ⟨-, other⟩ | ⟨-, rfl⟩
    · exact other
    · rintro ⟨written, ⟨⟩⟩
  have places (place : Nat) := Lexeme.getElem?_blanked closed place
  rw [output] at places
  constructor
  case length_eq => exact length_blankComments blanked
  case blank => exact fun place => (places place).1
  case kept => exact fun place => (places place).2
  case feed =>
    intro place feed
    rw [(places place).2 (Lexeme.not_isCommented_of_feed feed), feed]
  case stands =>
    intro place lexeme met other
    obtain ⟨rest, stands⟩ :=
      ((meets expectsNone place lexeme).mpr (.inl ⟨met, other⟩)).drop_eq
        Lexeme.append_of_nextCleared?
    rw [stands, List.take_left]
  case meets_iff => exact meets expectsNone
  case alike =>
    exact fun place lexeme =>
      (meets expectsSome place lexeme).trans (meets expectsNone place lexeme).symm
  case free => exact free
  case not_sticks => exact notSticks expectsNone
  case matched => exact matched
  case again =>
    -- no place is in a comment any more, so every place is kept
    have outside (place : Nat) : ¬IsCommented clean place := by
      rintro ⟨start, written, met, -⟩
      exact free start _ met ⟨written, rfl⟩
    rw [Form.blankComments_of_closed matched]
    exact congrArg Except.ok <| List.ext_getElem? fun place =>
      (Lexeme.getElem?_blanked matched place).2 (outside place)

/-- Comments are blanked out of exactly the texts whose reader never gets stuck, and what is left is
the text without its comments. -/
theorem blankComments_eq_ok_iff :
    blankComments text = .ok clean ↔ (∀ place, ¬Sticks next? text place) ∧ Clears text clean := by
  constructor
  · intro blanked
    obtain ⟨closed, rfl⟩ := Form.closed_of_blankComments blanked
    exact ⟨Lexeme.matched_iff_not_sticks.mp closed, clears_blanked closed⟩
  · rintro ⟨free, clears⟩
    have closed := Lexeme.matched_iff_not_sticks.mpr free
    rw [(clears_blanked closed).unique clears]
    exact Form.blankComments_of_closed closed

/-- A text in which percent signs stand in an atom, a string and a literal, and marks and dots in
its comments. -/
def motley : List Char := "'%' $% \"\\\"%\". % it's $\n$\\\" %%.\nx. $".toList

/-- The text without its comments. -/
def motley.left : List Char := "'%' $% \"\\\"%\".         \n$\\\"    \nx. $".toList

theorem blankComments_motley : blankComments motley = .ok motley.left ∧
    Clears motley motley.left := by
  have blanked : blankComments motley = .ok motley.left := by
    have closed : (Lexeme.ofText motley).2 = [] := by decide +kernel
    rw [Form.blankComments_of_closed closed]
    exact congrArg Except.ok (by decide +kernel)
  exact ⟨blanked, (blankComments_eq_ok_iff.mp blanked).2⟩

end SignatureIndex
