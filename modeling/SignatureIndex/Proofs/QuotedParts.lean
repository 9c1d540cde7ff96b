import SignatureIndex.Proofs.Characters

/-!
# Where quoted parts end

A quoted part is a mark, a payload and the mark again.  A payload is told by what it consists of,
and the search for the end of a quoted part finds exactly the payloads.

Quoted parts are blanked out from mark to mark, and a mark without a match stays.  So what is left
of a text may depend on what comes after it.  It does not if the text is *settled*: each of its
marks has its match in the text itself, or can have none because a line feed is taken along by a
backslash first.  In a text that is not settled some mark waits for the next one of its kind.
-/

namespace SignatureIndex

open Blanking (payload? blankFrom)

/-- What can stand between two marks: any characters but the mark, where a backslash takes the
character after it along, which may be the mark or a backslash but no line feed. -/
inductive IsPayload (mark : Char) : List Char → Prop where
  | nil : IsPayload mark []
  | plain {c : Char} {body : List Char} :
      c ≠ mark → c ≠ '\\' → IsPayload mark body → IsPayload mark (c :: body)
  | escaped {c : Char} {body : List Char} :
      c ≠ '\n' → IsPayload mark body → IsPayload mark ('\\' :: c :: body)

/-- Whether a backslash takes a line feed along. -/
def Lexeme.escapesFeed : List Char → Bool
  | [] | [_] => false
  | c :: d :: cs => if c = '\\' then d == '\n' || escapesFeed cs else escapesFeed (d :: cs)

/-- Whether every mark of a text has its match in it, or has none whatever comes after it, where
`inside` characters are left of the quoted part that the text starts in. -/
def isSettledFrom (inside : Nat) : List Char → Bool
  | [] => inside == 0
  | c :: cs =>
    match inside with
    | 0 =>
      if Lexeme.isMark c then
        match payload? c cs with
        | some count => isSettledFrom (count + 1) cs
        | none => Lexeme.escapesFeed cs && isSettledFrom 0 cs
      else isSettledFrom 0 cs
    | inside + 1 => isSettledFrom inside cs

variable {c mark : Char} {s rest body text : List Char}

/-! ## Payloads -/

theorem ne_backslash_of_isMark (isMark : Lexeme.isMark mark = true) : mark ≠ '\\' := by
  rcases eq_of_isMark isMark with rfl | rfl <;> decide

theorem isPayload_of_all (plain : body.all (fun c => c != mark && c != '\\') = true) :
    IsPayload mark body := by
  induction body with
  | nil => exact .nil
  | cons c body ih =>
    simp only [List.all_cons, Bool.and_eq_true, bne_iff_ne] at plain
    exact .plain plain.1.1 plain.1.2 (ih (by simpa using plain.2))

/-- A payload is found as a whole. -/
theorem IsPayload.payload?_append (payload : IsPayload mark body) (notBackslash : mark ≠ '\\')
    (rest : List Char) : payload? mark (body ++ mark :: rest) = some body.length := by
  induction payload with
  | nil => cases rest <;> simp [payload?, notBackslash]
  | @plain c body notMark plain _ ih =>
    cases body with
    | nil => cases rest <;> simp_all [payload?]
    | cons d body => simp_all [payload?]
  | escaped notFeed _ ih => simp [payload?, notFeed, ih]

/-- What is found is a payload. -/
theorem exists_isPayload {count : Nat} (closed : payload? mark text = some count) :
    ∃ body rest, text = body ++ mark :: rest ∧ body.length = count ∧ IsPayload mark body ∧
    mark ≠ '\\' := by
  fun_induction payload? mark text generalizing count with
  | case1 => cases closed
  | case2 c here => -- the mark ends the text
    obtain ⟨rfl, notBackslash⟩ := here
    cases closed
    exact ⟨[], [], rfl, rfl, .nil, notBackslash⟩
  | case3 => cases closed
  | case4 => cases closed
  | case5 d cs notFeed ih => -- a backslash takes a character along
    obtain ⟨inner, found, rfl⟩ := Option.map_eq_some_iff.mp closed
    obtain ⟨body, rest, rfl, rfl, payload, notBackslash⟩ := ih found
    exact ⟨'\\' :: d :: body, rest, rfl, rfl, .escaped notFeed payload, notBackslash⟩
  | case6 d cs notBackslash => -- the mark
    cases closed
    exact ⟨[], d :: cs, rfl, rfl, .nil, notBackslash⟩
  | case7 c d cs plain notMark ih => -- any other character
    obtain ⟨inner, found, rfl⟩ := Option.map_eq_some_iff.mp closed
    obtain ⟨body, rest, whole, rfl, payload, notBackslash⟩ := ih found
    exact ⟨c :: body, rest, by rw [whole]; rfl, rfl, .plain notMark plain payload, notBackslash⟩

/-- There is nothing to find exactly if no payload is closed. -/
theorem payload?_eq_none_iff (notBackslash : mark ≠ '\\') :
    payload? mark text = none ↔
      ∀ body after, IsPayload mark body → text ≠ body ++ mark :: after := by
  constructor
  · rintro unmatched body after payload rfl
    rw [payload.payload?_append notBackslash] at unmatched
    cases unmatched
  · intro noPayload
    cases closed : payload? mark text with
    | none => rfl
    | some count =>
      obtain ⟨body, after, whole, -, payload, -⟩ := exists_isPayload closed
      exact absurd whole (noPayload body after payload)

/-- A quoted part that ends does so at its first mark, whatever comes after that. -/
theorem payload?_eq_some {mark : Char} {count : Nat} (closed : payload? mark s = some count) :
    ∃ body rest, s = body ++ mark :: rest ∧ body.length = count ∧
      ∀ other, payload? mark (body ++ mark :: other) = some count := by
  obtain ⟨body, rest, whole, rfl, payload, notBackslash⟩ := exists_isPayload closed
  exact ⟨body, rest, whole, rfl, payload.payload?_append notBackslash⟩

theorem payload?_append {mark : Char} {count : Nat} (closed : payload? mark s = some count)
    (rest : List Char) : payload? mark (s ++ rest) = some count ∧ count < s.length := by
  obtain ⟨body, after, rfl, rfl, stays⟩ := payload?_eq_some closed
  constructor
  · rw [List.append_assoc, List.cons_append]
    exact stays _
  · simp only [List.length_append, List.length_cons]
    omega

/-- A mark that is unmatched in a text is unmatched in every beginning of it. -/
theorem payload?_of_append {mark : Char} (unmatched : payload? mark (s ++ rest) = none) :
    payload? mark s = none := by
  cases closed : payload? mark s with
  | none => rfl
  | some count =>
    rw [(payload?_append closed rest).1] at unmatched
    cases unmatched

private theorem getLast?_ne_of_cons {d : Char} (last : (c :: s).getLast? ≠ some d) :
    s.getLast? ≠ some d := by
  cases s with
  | nil => simp
  | cons e s => simpa using last

/-- A quoted part is never closed if a line feed is taken along before its end. -/
theorem payload?_append_eq_none {mark : Char} (unmatched : payload? mark s = none)
    (escapes : Lexeme.escapesFeed s = true) (rest : List Char) :
    payload? mark (s ++ rest) = none := by
  fun_induction payload? mark s with
  | case1 => cases escapes
  | case2 => cases unmatched
  | case3 => cases escapes
  | case4 cs => simp [payload?]
  | case5 d cs notFeed ih =>
    have later : Lexeme.escapesFeed cs = true := by
      simpa [Lexeme.escapesFeed, notFeed] using escapes
    simp [payload?, notFeed, ih (Option.map_eq_none_iff.mp unmatched) later]
  | case6 => cases unmatched
  | case7 c d cs notBackslash notMark ih =>
    have later : Lexeme.escapesFeed (d :: cs) = true := by
      simpa [Lexeme.escapesFeed, notBackslash] using escapes
    have next := ih (Option.map_eq_none_iff.mp unmatched) later
    rw [List.cons_append] at next
    simp [payload?, notBackslash, notMark, next]

/-- A quoted part that takes no line feed along is closed by the next mark at the latest. -/
theorem payload?_append_mark {mark : Char} (unmatched : payload? mark s = none)
    (free : Lexeme.escapesFeed s = false) (notBackslash : mark ≠ '\\')
    (last : s.getLast? ≠ some '\\') (rest : List Char) :
    payload? mark (s ++ mark :: rest) = some s.length := by
  fun_induction payload? mark s with
  | case1 => cases rest <;> simp [payload?, notBackslash]
  | case2 => cases unmatched
  | case3 c other =>
    -- no backslash is left over at the end of the text
    have here : c ≠ '\\' := by simpa using last
    have notMark : c ≠ mark := fun same => other ⟨same, here⟩
    cases rest <;> simp [payload?, here, notMark, notBackslash]
  | case4 cs => simp [Lexeme.escapesFeed] at free
  | case5 d cs notFeed ih =>
    have later : Lexeme.escapesFeed cs = false := by simpa [Lexeme.escapesFeed, notFeed] using free
    have next :=
      ih (Option.map_eq_none_iff.mp unmatched) later
        (getLast?_ne_of_cons (getLast?_ne_of_cons last))
    simp [payload?, notFeed, next]
  | case6 => cases unmatched
  | case7 c d cs other notMark ih =>
    have later : Lexeme.escapesFeed (d :: cs) = false := by
      simpa [Lexeme.escapesFeed, other] using free
    have next := ih (Option.map_eq_none_iff.mp unmatched) later (getLast?_ne_of_cons last)
    rw [List.cons_append] at next
    simp [payload?, other, notMark, next]

/-! ## Blanking -/

theorem blankFrom_append (count : Nat) {body rest : List Char} (long : body.length = count)
    (c : Char) : blankFrom (count + 1) (body ++ c :: rest) =
      List.replicate count ' ' ++ c :: blankFrom 0 rest := by
  induction body generalizing count with
  | nil =>
    subst long
    rfl
  | cons d body ih =>
    subst long
    rw [List.length_cons, List.cons_append, blankFrom, ih body.length rfl]
    rfl

theorem blankQuoted_cons (unmatched : Lexeme.isMark c = true → payload? c s = none) :
    blankQuoted (c :: s) = c :: blankQuoted s := by
  rw [blankQuoted, blankFrom]
  split
  · next mark => rw [unmatched mark]; rfl
  · rfl

theorem blankQuoted_append {front : List Char} (plain : ∀ c ∈ front, Lexeme.isMark c = false)
    (s : List Char) : blankQuoted (front ++ s) = front ++ blankQuoted s := by
  induction front with
  | nil => rfl
  | cons c front ih =>
    have notMark := plain c (by simp)
    rw [List.cons_append, blankQuoted_cons (by simp [notMark]),
      ih fun d among => plain d (by simp [among])]
    rfl

theorem blankQuoted_eq_self (plain : ∀ c ∈ s, Lexeme.isMark c = false) : blankQuoted s = s := by
  have whole := blankQuoted_append plain []
  rw [List.append_nil] at whole
  exact whole.trans (List.append_nil s)

/-- A quoted part from mark to mark. -/
theorem blankQuoted_quoted {body : List Char} (mark : Lexeme.isMark c = true)
    (closes : payload? c (body ++ [c]) = some body.length) :
    blankQuoted (c :: (body ++ [c])) = c :: (List.replicate body.length ' ' ++ [c]) := by
  rw [blankQuoted, blankFrom, if_pos mark, closes]
  simp only [blankFrom_append body.length rfl, blankFrom]

theorem exists_blankQuoted_cons (c : Char) (s : List Char) :
    ∃ rest, blankQuoted (c :: s) = c :: rest := by
  rw [blankQuoted, blankFrom]
  by_cases mark : Lexeme.isMark c = true
  · rw [if_pos mark]
    cases payload? c s with
    | none => exact ⟨_, rfl⟩
    | some count => exact ⟨_, rfl⟩
  · rw [if_neg mark]
    exact ⟨_, rfl⟩

/-- What counts of a character is the character, unless it is blanked out. -/
theorem eq_of_mem_zip_blankFrom {inside : Nat} {m d : Char}
    (among : (m, d) ∈ (blankFrom inside s).zip s) : m = d ∨ m = ' ' := by
  fun_induction blankFrom inside s with
  | case1 => simp at among
  | case2 c cs mark count closed ih | case3 c cs mark unmatched ih | case4 c cs plain ih
  | case5 c cs ih =>
    rcases List.mem_cons.mp among with same | among
    · obtain ⟨rfl, rfl⟩ := Prod.mk.inj same
      exact .inl rfl
    · exact ih among
  | case6 c cs inside ih =>
    rcases List.mem_cons.mp among with same | among
    · exact .inr (Prod.mk.inj same).1
    · exact ih among

/-! ## Settled texts -/

theorem isSettledFrom_of_plain (plain : ∀ c ∈ s, Lexeme.isMark c = false) :
    isSettledFrom 0 s = true := by
  induction s with
  | nil => rfl
  | cons c s ih =>
    rw [isSettledFrom, if_neg (by simp [plain c])]
    exact ih fun d among => plain d (by simp [among])

theorem isSettledFrom_length (s : List Char) : isSettledFrom s.length s = true := by
  induction s with
  | nil => rfl
  | cons c s ih => exact ih

/-- How a settled text is blanked does not depend on what comes after it. -/
theorem blankFrom_append_of_isSettledFrom {inside : Nat} (settled : isSettledFrom inside s = true)
    (rest : List Char) :
    blankFrom inside (s ++ rest) = blankFrom inside s ++ blankFrom 0 rest := by
  fun_induction isSettledFrom inside s with
  | case1 inside =>
    obtain rfl : inside = 0 := by simpa using settled
    rfl
  | case2 c cs mark count closed ih =>
    rw [List.cons_append, blankFrom, blankFrom, if_pos mark, if_pos mark, closed,
      (payload?_append closed rest).1]
    exact congrArg (c :: ·) (ih settled)
  | case3 c cs mark unmatched ih =>
    rw [Bool.and_eq_true] at settled
    rw [List.cons_append, blankFrom, blankFrom, if_pos mark, if_pos mark, unmatched,
      payload?_append_eq_none unmatched settled.1]
    exact congrArg (c :: ·) (ih settled.2)
  | case4 c cs plain ih =>
    rw [List.cons_append, blankFrom, blankFrom, if_neg plain, if_neg plain]
    exact congrArg (c :: ·) (ih settled)
  | case5 c cs inside ih =>
    cases inside with
    | zero => exact congrArg (c :: ·) (ih settled)
    | succ inside => exact congrArg (' ' :: ·) (ih settled)

/-- Some mark of a text that is not settled has its match only after the text. -/
theorem exists_mark_of_not_isSettledFrom {inside : Nat} (unsettled : isSettledFrom inside s = false)
    (within : inside ≤ s.length) (last : s.getLast? ≠ some '\\') :
    ∃ mark front, Lexeme.isMark mark = true ∧ ∀ rest,
      blankFrom inside (s ++ mark :: rest) = front ++ mark :: blankFrom 0 rest := by
  fun_induction isSettledFrom inside s with
  | case1 inside =>
    obtain rfl : inside = 0 := Nat.le_zero.mp within
    cases unsettled
  | case2 c cs isMark count closed ih =>
    obtain ⟨mark, front, marks, blanked⟩ :=
      ih unsettled (payload?_append closed []).2 (getLast?_ne_of_cons last)
    refine ⟨mark, c :: front, marks, fun rest => ?_⟩
    rw [List.cons_append, blankFrom, if_pos isMark, (payload?_append closed _).1]
    exact congrArg (c :: ·) (blanked rest)
  | case3 c cs isMark unmatched ih =>
    cases escapes : Lexeme.escapesFeed cs with
    | true =>
      -- the mark itself never has a match
      rw [escapes, Bool.true_and] at unsettled
      obtain ⟨mark, front, marks, blanked⟩ :=
        ih unsettled (Nat.zero_le _) (getLast?_ne_of_cons last)
      refine ⟨mark, c :: front, marks, fun rest => ?_⟩
      rw [List.cons_append, blankFrom, if_pos isMark, payload?_append_eq_none unmatched escapes]
      exact congrArg (c :: ·) (blanked rest)
    | false =>
      -- the mark waits for the next one of its kind
      have notBackslash : c ≠ '\\' := by
        rintro rfl
        cases isMark
      refine ⟨c, c :: List.replicate cs.length ' ', isMark, fun rest => ?_⟩
      rw [List.cons_append, blankFrom, if_pos isMark,
        payload?_append_mark unmatched escapes notBackslash (getLast?_ne_of_cons last)]
      exact congrArg (c :: ·) (blankFrom_append cs.length rfl c)
  | case4 c cs plain ih =>
    obtain ⟨mark, front, marks, blanked⟩ := ih unsettled (Nat.zero_le _) (getLast?_ne_of_cons last)
    refine ⟨mark, c :: front, marks, fun rest => ?_⟩
    rw [List.cons_append, blankFrom, if_neg plain]
    exact congrArg (c :: ·) (blanked rest)
  | case5 c cs inside ih =>
    obtain ⟨mark, front, marks, blanked⟩ :=
      ih unsettled (Nat.le_of_succ_le_succ within) (getLast?_ne_of_cons last)
    cases inside with
    | zero => exact ⟨mark, c :: front, marks, fun rest => congrArg (c :: ·) (blanked rest)⟩
    | succ inside =>
      exact ⟨mark, ' ' :: front, marks, fun rest => congrArg (' ' :: ·) (blanked rest)⟩

/-- The last character of a settled text is not blanked out. -/
theorem getLast?_blankFrom {inside : Nat} (settled : isSettledFrom inside s = true) :
    (blankFrom inside s).getLast? = s.getLast? := by
  fun_induction isSettledFrom inside s with
  | case1 => rfl
  | case2 c cs mark count closed ih =>
    rw [blankFrom, if_pos mark, closed]
    simp only [List.getLast?_cons, ih settled]
  | case3 c cs mark unmatched ih =>
    rw [Bool.and_eq_true] at settled
    rw [blankFrom, if_pos mark, unmatched]
    simp only [List.getLast?_cons, ih settled.2]
  | case4 c cs plain ih =>
    rw [blankFrom, if_neg plain]
    simp only [List.getLast?_cons, ih settled]
  | case5 c cs inside ih =>
    cases inside with
    | zero => simp only [blankFrom, List.getLast?_cons, ih settled]
    | succ inside =>
      -- some more is left of the quoted part
      cases cs with
      | nil => cases settled
      | cons d cs =>
        rw [blankFrom, List.getLast?_cons, ih settled]
        simp only [List.getLast?_cons, Option.getD_some]

end SignatureIndex
