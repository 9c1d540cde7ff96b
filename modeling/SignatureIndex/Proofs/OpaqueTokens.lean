import SignatureIndex.Proofs.Lexemes
import SignatureIndex.Proofs.LikeSignatures

/-!
# Tokens that cannot be looked into

The scanner takes strings, quoted atoms and character literals as wholes.  What declares a function
is read by different means, which know nothing of character literals and lose hold of a quoted part
at a line feed with a backslash before it.  So a token is a whole there too only if it is of a
certain kind.  What a character literal holds must look like the inside of a name.  A quoted part
must be free of line feeds with a backslash before them, unless it is a string and what is left of
it does not count.  And the tokens before it must not have led astray already.
-/

namespace SignatureIndex

/-! ## Sound tokens -/

namespace Lexeme

/-- A token that does not lead astray. -/
def isSound : Lexeme → Bool
  | quoted written => !escapesFeed (written.drop 1)
  | literal written | comment written => written.all fun c => !isMark c
  | plain c => !isMark c

/-- Letters that can stand in a token instead of what it holds: one of them in a literal. -/
def fits (letters : List Char) : Lexeme → Bool
  | literal _ => letters.length == 1 && letters.all Char.isLower
  | _ => letters.all Char.isLower

/-- A token with letters in place of what it holds. -/
def overwrite (letters : List Char) : Lexeme → Lexeme
  | quoted (mark :: _) => quoted (mark :: (letters ++ [mark]))
  | literal (dollar :: _) => literal (dollar :: letters)
  | lexeme => lexeme

/-- A literal that is not cut off, or a quoted part from mark to mark. -/
inductive IsWhole : Lexeme → Prop where
  | literal {payload : List Char} : isLiteralBody payload = true →
      IsWhole (.literal ('$' :: payload))
  | quoted {mark : Char} {written : List Char} : isMark mark = true →
      close? mark written = some (written, []) → IsWhole (.quoted (mark :: written))

/-- Whether a token holds what it must so that it does not matter what it holds.  A quoted part must
be closed where the scanner closes it, but for strings that come to nothing all the same. -/
def isSealed : Lexeme → Bool
  | literal (_ :: payload) => isInertPayload payload
  | quoted (mark :: written) =>
    !escapesFeed written || mark == Text.doubleMark && isStill (mark :: written)
  | _ => false

end Lexeme

/-- A token is opaque if it does not matter what it holds, in whichever spec it stands, as long as
all tokens before it are sound. -/
def IsOpaque (token : Lexeme) : Prop :=
  ∀ (kind : String) (span : Span) (text : List Char) (before after : List Lexeme)
      (letters : List Char),
    Lexeme.ofText text = (before ++ token :: after, []) →
    (∀ lexeme ∈ before, lexeme.isSound = true) → token.fits letters = true →
    Declaration.signature? (Declaration.ofSpec ⟨kind, String.ofList text, span⟩) =
      Declaration.signature? (Declaration.ofSpec ⟨kind,
        String.ofList ((before ++ token.overwrite letters :: after).flatMap Lexeme.text), span⟩)

/-- The two ways of closing a quoted part agree exactly if it takes no line feed along. -/
theorem payload?_of_close? {mark : Char} {s written rest : List Char}
    (closed : Lexeme.close? mark s = some (written, rest)) :
    ∃ body, written = body ++ [mark] ∧ ∀ other, Blanking.payload? mark (body ++ mark :: other) =
      if Lexeme.escapesFeed written then none else some body.length := by
  fun_induction Lexeme.close? mark s generalizing written with
  | case1 => cases closed
  | case2 c here => -- the mark ends the text
    obtain ⟨rfl, notBackslash⟩ := here
    cases closed
    refine ⟨[], rfl, fun other => ?_⟩
    cases other <;> simp [Blanking.payload?, Lexeme.escapesFeed, notBackslash]
  | case3 => cases closed
  | case4 d cs ih => -- a backslash takes `d` along
    obtain ⟨⟨inner, after⟩, found, same⟩ := Option.map_eq_some_iff.mp closed
    cases same
    obtain ⟨body, rfl, closes⟩ := ih found
    refine ⟨'\\' :: d :: body, rfl, fun other => ?_⟩
    have next := closes other
    -- a line feed after the backslash is where the two ways part
    by_cases feed : d = '\n'
    · simp [Blanking.payload?, Lexeme.escapesFeed, feed]
    · by_cases later : Lexeme.escapesFeed (body ++ [mark]) = true
      · simp_all [Blanking.payload?, Lexeme.escapesFeed]
      · simp_all [Blanking.payload?, Lexeme.escapesFeed]
  | case5 d cs notBackslash => -- the mark
    cases closed
    refine ⟨[], rfl, fun other => ?_⟩
    cases other <;> simp [Blanking.payload?, Lexeme.escapesFeed, notBackslash]
  | case6 c d cs notBackslash notMark ih => -- any other character
    obtain ⟨⟨inner, after⟩, found, same⟩ := Option.map_eq_some_iff.mp closed
    cases same
    obtain ⟨body, rfl, closes⟩ := ih found
    refine ⟨c :: body, rfl, fun other => ?_⟩
    have next := closes other
    cases body with
    | nil => simp_all [Blanking.payload?, Lexeme.escapesFeed]
    | cons e body =>
      by_cases later : Lexeme.escapesFeed (e :: body ++ [mark]) = true
      · simp_all [Blanking.payload?, Lexeme.escapesFeed]
      · simp_all [Blanking.payload?, Lexeme.escapesFeed]

/-! ## Reading tokens one by one -/

section Reading

variable {c : Char} {cs rest : List Char} {lexeme : Lexeme}

/-- A quoted part that takes no line feed along can be written over. -/
theorem hidden_of_next? {written : List Char}
    (found : Lexeme.next? c cs = some (.quoted written, rest)) :
    ∃ body, written = c :: (body ++ [c]) ∧ Lexeme.isMark c = true ∧
      (Lexeme.isSound (.quoted written) = true → Hidden c (body ++ [c])) := by
  cases next?_eq_some_iff.mp found with
  | quoted mark closed =>
    obtain ⟨body, rfl, closes⟩ := payload?_of_close? closed
    refine ⟨body, rfl, mark, fun sound => .quoted mark fun other => ?_⟩
    have free : Lexeme.escapesFeed (body ++ [c]) = false := by
      simpa [Lexeme.isSound] using sound
    rw [closes other, free]
    rfl

theorem Alike.append_plain {s t : List Char} (alike : Alike s t) {front : List Char}
    (plain : ∀ d ∈ front, Lexeme.isMark d = false) : Alike (front ++ s) (front ++ t) := by
  induction front with
  | nil => exact alike
  | cons d front ih =>
    refine .same (fun mark => ?_) (ih fun e among => plain e (by simp [among]))
    rw [plain d (by simp)] at mark
    cases mark

/-- A sound token in front of texts that are alike. -/
theorem Alike.append_text {s t : List Char} (alike : Alike s t)
    (found : Lexeme.next? c cs = some (lexeme, rest)) (sound : lexeme.isSound = true) :
    Alike (lexeme.text ++ s) (lexeme.text ++ t) := by
  cases lexeme with
  | quoted written =>
    -- a sound quoted part is a token with the same payload in both
    obtain ⟨body, rfl, -, hides⟩ := hidden_of_next? found
    exact .token (hides sound) (hides sound) alike
  | literal written | comment written =>
    refine alike.append_plain fun d among => ?_
    simpa using List.all_eq_true.mp sound d among
  | plain d =>
    refine alike.append_plain fun e among => ?_
    obtain rfl := List.mem_singleton.mp among
    simpa [Lexeme.isSound] using sound

private theorem Alike.append_texts {s t text : List Char} (alike : Alike s t)
    {before after : List Lexeme} {unmatched : List Char}
    (read : Lexeme.ofText text = (before ++ after, unmatched))
    (sound : ∀ lexeme ∈ before, lexeme.isSound = true) :
    Alike (before.flatMap Lexeme.text ++ s) (before.flatMap Lexeme.text ++ t) := by
  induction before generalizing text with
  | nil => exact alike
  | cons lexeme before ih =>
    obtain ⟨c, cs, rest, -, found, later⟩ := exists_next_of_ofText read
    have inner := ih later fun other among => sound other (by simp [among])
    rw [List.flatMap_cons, List.append_assoc, List.append_assoc]
    exact inner.append_text found (sound lexeme (by simp))

end Reading

/-- A token that can be written over is opaque. -/
theorem isOpaque_of_hidden {c : Char} {p : List Char} {token : Lexeme}
    (written : token.text = c :: p) (hidden : Hidden c p)
    (overwritten : ∀ letters, token.fits letters = true →
      ∃ q, (token.overwrite letters).text = c :: q ∧ Hidden c q) : IsOpaque token := by
  intro kind span text before after letters read sound fits
  obtain ⟨q, other, hiddenOther⟩ := overwritten letters fits
  have whole := Lexeme.flatMap_text_ofText text
  rw [read, List.append_nil, List.flatMap_append, List.flatMap_cons, written] at whole
  -- the two texts differ only inside the token
  rw [List.flatMap_append, List.flatMap_cons, other, ← whole]
  refine signature?_of_alike ?_ kind span
  exact Alike.append_texts (.token hidden hiddenOther (.refl _)) read sound

/-! ## Tokens that are opaque -/

/-- A quoted part of letters ends at the first mark after them. -/
theorem payload?_of_isLower {mark : Char} (isMark : Lexeme.isMark mark = true) {letters : List Char}
    (lower : letters.all Char.isLower = true) (rest : List Char) :
    Blanking.payload? mark (letters ++ mark :: rest) = some letters.length := by
  have notBackslash : mark ≠ '\\' := by
    rcases eq_of_isMark isMark with rfl | rfl <;> decide
  induction letters with
  | nil => cases rest <;> simp [Blanking.payload?, notBackslash]
  | cons c letters ih =>
    rw [List.all_cons, Bool.and_eq_true] at lower
    have letter : c ≠ '\\' := by
      rintro rfl
      cases lower.1
    have other : c ≠ mark := by
      rintro rfl
      have inert := isInert_of_isLower lower.1
      rw [not_isMark_of_isInert inert] at isMark
      cases isMark
    have next := ih lower.2
    cases letters <;> simp_all [Blanking.payload?]

private theorem isOpaque_literal {payload : List Char} (inert : isInertPayload payload = true) :
    IsOpaque (.literal ('$' :: payload)) := by
  refine isOpaque_of_hidden rfl (.literal inert) fun letters fits => ?_
  simp only [Lexeme.fits, Bool.and_eq_true, beq_iff_eq] at fits
  obtain ⟨one, lower⟩ := fits
  obtain ⟨letter, rfl⟩ := List.length_eq_one_iff.mp one
  rw [List.all_cons, Bool.and_eq_true] at lower
  exact ⟨[letter], rfl, .literal (isInert_of_isLower lower.1)⟩

private theorem isOpaque_quoted {mark : Char} {written : List Char}
    (isMark : Lexeme.isMark mark = true) (closed : Lexeme.close? mark written = some (written, []))
    (free : Lexeme.escapesFeed written = false) : IsOpaque (.quoted (mark :: written)) := by
  obtain ⟨body, rfl, closes⟩ := payload?_of_close? closed
  refine isOpaque_of_hidden rfl (.quoted isMark fun rest => ?_) fun letters fits => ?_
  · rw [closes rest, free]
    rfl
  · exact ⟨letters ++ [mark], rfl, .quoted isMark (payload?_of_isLower isMark fits)⟩

private theorem isOpaque_string {written : List Char}
    (closed : Lexeme.close? Text.doubleMark written = some (written, []))
    (still : isStill (Text.doubleMark :: written) = true) :
    IsOpaque (.quoted (Text.doubleMark :: written)) := by
  obtain ⟨body, rfl, -⟩ := payload?_of_close? closed
  refine isOpaque_of_hidden rfl (.string still) fun letters fits => ?_
  exact ⟨letters ++ [Text.doubleMark], rfl, .quoted rfl (payload?_of_isLower rfl fits)⟩

/-- Sealed tokens are opaque. -/
theorem isOpaque_of_isSealed {token : Lexeme} (whole : token.IsWhole)
    (isSealed : token.isSealed = true) : IsOpaque token := by
  cases whole with
  | literal _ => exact isOpaque_literal isSealed
  | @quoted mark written isMark closed =>
    simp only [Lexeme.isSealed, Bool.or_eq_true, Bool.and_eq_true, Bool.not_eq_true', beq_iff_eq]
      at isSealed
    rcases isSealed with free | ⟨rfl, still⟩
    · exact isOpaque_quoted isMark closed free
    · exact isOpaque_string closed still

end SignatureIndex
