import SignatureIndex.Proofs.QuotedParts

/-!
# Strings and quoted atoms, told by what they hold

A quoted part is a mark, a payload and the mark again.  The text with its quoted parts blanked out
is told here by what it consists of, and not by the steps that blank it, and blanking gives exactly
this text.  Where all quoted parts of a text are closed in it, nothing that comes after it can
change what is left of it.
-/

namespace SignatureIndex

open Blanking (payload? blankFrom)

/-- A text with blanks in place of all payloads of its strings and quoted atoms, read from left to
right.  A mark that has no match in the rest of the text stays. -/
inductive IsBlanked : List Char → List Char → Prop where
  | nil : IsBlanked [] []
  | quoted {mark : Char} {body rest marks : List Char} :
      Lexeme.isMark mark = true → IsPayload mark body → IsBlanked rest marks →
      IsBlanked (mark :: (body ++ mark :: rest))
        (mark :: (List.replicate body.length ' ' ++ mark :: marks))
  | kept {c : Char} {rest marks : List Char} :
      (Lexeme.isMark c = true → ∀ body after, IsPayload c body → rest ≠ body ++ c :: after) →
      IsBlanked rest marks → IsBlanked (c :: rest) (c :: marks)

/-- A text in which every string and every quoted atom is closed. -/
inductive ClosesQuotes : List Char → Prop where
  | nil : ClosesQuotes []
  | plain {c : Char} {rest : List Char} :
      Lexeme.isMark c = false → ClosesQuotes rest → ClosesQuotes (c :: rest)
  | quoted {mark : Char} {body rest : List Char} :
      Lexeme.isMark mark = true → IsPayload mark body → ClosesQuotes rest →
      ClosesQuotes (mark :: (body ++ mark :: rest))

variable {mark : Char} {body text marks : List Char}

/-! ## Blanking -/

theorem blankQuoted_payload (isMark : Lexeme.isMark mark = true) (payload : IsPayload mark body)
    (rest : List Char) :
    blankQuoted (mark :: (body ++ mark :: rest)) =
      mark :: (List.replicate body.length ' ' ++ mark :: blankQuoted rest) := by
  rw [blankQuoted, blankFrom, if_pos isMark,
    payload.payload?_append (ne_backslash_of_isMark isMark)]
  exact congrArg (mark :: ·) (blankFrom_append body.length rfl mark)

/-- Blanking out quoted parts blanks out exactly the payloads. -/
theorem isBlanked_blankQuoted (text : List Char) : IsBlanked text (blankQuoted text) := by
  -- a quoted part is taken at once, so the induction is on the length
  induction length : text.length using Nat.strongRecOn generalizing text with
  | ind n ih =>
    subst length
    cases text with
    | nil => exact .nil
    | cons c rest =>
      have kept (unmatched : Lexeme.isMark c = true → payload? c rest = none) :
          IsBlanked (c :: rest) (blankQuoted (c :: rest)) := by
        rw [blankQuoted_cons unmatched]
        refine .kept (fun isMark => ?_) (ih rest.length (by simp) rest rfl)
        exact (payload?_eq_none_iff (ne_backslash_of_isMark isMark)).mp (unmatched isMark)
      cases isMark : Lexeme.isMark c with
      | false => exact kept (by simp [isMark])
      | true =>
        cases closed : payload? c rest with
        | none => exact kept fun _ => closed
        | some count =>
          obtain ⟨body, after, rfl, -, payload, -⟩ := exists_isPayload closed
          have shorter : after.length < (c :: (body ++ c :: after)).length := by
            simp only [List.length_cons, List.length_append]
            omega
          rw [blankQuoted_payload isMark payload]
          exact .quoted isMark payload (ih after.length shorter after rfl)

theorem IsBlanked.eq_blankQuoted (blanked : IsBlanked text marks) : marks = blankQuoted text := by
  induction blanked with
  | nil => rfl
  | quoted isMark payload _ ih => rw [blankQuoted_payload isMark payload, ih]
  | kept noPayload _ ih =>
    rw [blankQuoted_cons, ih]
    intro isMark
    exact (payload?_eq_none_iff (ne_backslash_of_isMark isMark)).mpr (noPayload isMark)

/-! ## Closed quotes -/

theorem closesQuotes_of_plain (plain : ∀ c ∈ text, Lexeme.isMark c = false) :
    ClosesQuotes text := by
  induction text with
  | nil => exact .nil
  | cons c text ih => exact .plain (plain c (by simp)) (ih fun d among => plain d (by simp [among]))

/-- Where all quoted parts are closed, nothing depends on what comes after the text. -/
theorem ClosesQuotes.isSettledFrom (closed : ClosesQuotes text) : isSettledFrom 0 text = true := by
  induction closed with
  | nil => rfl
  | plain notMark _ ih =>
    rw [SignatureIndex.isSettledFrom, notMark]
    exact ih
  | @quoted mark body rest isMark payload _ ih =>
    have skipped (skip : List Char) :
        SignatureIndex.isSettledFrom (skip.length + 1) (skip ++ mark :: rest) = true := by
      induction skip with
      | nil => exact ih
      | cons d skip inner => exact inner
    rw [SignatureIndex.isSettledFrom, if_pos isMark,
      payload.payload?_append (ne_backslash_of_isMark isMark)]
    exact skipped body

end SignatureIndex
