import SignatureIndex.Text.Blank
import SignatureIndex.Text.Quoted

/-!
# Lexemes

The text of a source file falls into strings and quoted atoms, character literals, comments, and all
the other characters one by one.  That is all that has to be known to find where its forms end.
Every character of the text belongs to exactly one lexeme, up to a quotation mark that is never
matched.
-/

namespace SignatureIndex

/-- A part of a source text. -/
inductive Lexeme where
  /-- A string or a quoted atom, with its marks. -/
  | quoted (written : List Char)
  /-- A dollar and the character it stands before, which may be missing at the end of the text. -/
  | literal (written : List Char)
  /-- A percent sign and the rest of its line. -/
  | comment (written : List Char)
  | plain (c : Char)
  deriving DecidableEq, Repr

namespace Lexeme

def text : Lexeme → List Char
  | quoted written | literal written | comment written => written
  | plain c => [c]

def isMark (c : Char) : Bool := c == Text.doubleMark || c == Text.apostrophe

/-- The characters up to and with the closing mark, and the rest.  A backslash takes the character
after it along, whatever it is. -/
def close? (mark : Char) : List Char → Option (List Char × List Char)
  | [] => none
  | [c] => if c = mark ∧ c ≠ '\\' then some ([c], []) else none
  | c :: d :: cs =>
    if c = '\\' then (close? mark cs).map fun (body, rest) => (c :: d :: body, rest)
    else if c = mark then some ([c], d :: cs)
    else (close? mark (d :: cs)).map fun (body, rest) => (c :: body, rest)

/-- The characters of a literal after its dollar, and the rest. -/
def literalBody : List Char → List Char × List Char
  | [] => ([], [])
  | [c] => ([c], [])
  | c :: d :: cs => if c = '\\' then ([c, d], cs) else ([c], d :: cs)

/-- The lexeme that starts with `c`, and the rest; there is none if `c` is a mark without a
match. -/
def next? (c : Char) (cs : List Char) : Option (Lexeme × List Char) :=
  if isMark c then (close? c cs).map fun (body, rest) => (quoted (c :: body), rest)
  else if c = '$' then
    let (body, rest) := literalBody cs
    some (literal (c :: body), rest)
  else if c = '%' then
    some (comment (c :: cs.takeWhile (· ≠ '\n')), cs.dropWhile (· ≠ '\n'))
  else some (plain c, cs)

/-- Closing a quoted part loses nothing. -/
theorem append_of_close? {mark : Char} {cs body rest : List Char}
    (closed : close? mark cs = some (body, rest)) : body ++ rest = cs := by
  fun_induction close? mark cs generalizing body with
  | case1 => -- nothing is left
    cases closed
  | case2 c here => -- the mark ends the text
    simp_all
  | case3 => -- the text ends without a mark
    cases closed
  | case4 d cs ih => -- a backslash takes `d` along
    obtain ⟨⟨inner, after⟩, found, same⟩ := Option.map_eq_some_iff.mp closed
    cases same
    simp [ih found]
  | case5 d cs _ => -- the mark
    cases closed
    rfl
  | case6 c d cs _ _ ih => -- any other character
    obtain ⟨⟨inner, after⟩, found, same⟩ := Option.map_eq_some_iff.mp closed
    cases same
    simp [ih found]

/-- Reading a literal loses nothing. -/
theorem append_literalBody (cs : List Char) : (literalBody cs).1 ++ (literalBody cs).2 = cs := by
  fun_cases literalBody cs <;> simp

/-- Reading a lexeme loses nothing. -/
theorem append_of_next? {c : Char} {cs rest : List Char} {lexeme : Lexeme}
    (found : next? c cs = some (lexeme, rest)) : lexeme.text ++ rest = c :: cs := by
  unfold next? at found
  split at found
  · -- A string or a quoted atom
    obtain ⟨⟨body, after⟩, closed, same⟩ := Option.map_eq_some_iff.mp found
    cases same
    simp [text, append_of_close? closed]
  · split at found
    · -- A character literal
      cases found
      exact congrArg (c :: ·) (append_literalBody cs)
    · split at found
      · -- A comment
        cases found
        simp [text, List.takeWhile_append_dropWhile]
      · -- Any other character
        cases found
        rfl

/-- Every lexeme has a character. -/
theorem text_ne_nil_of_next? {c : Char} {cs rest : List Char} {lexeme : Lexeme}
    (found : next? c cs = some (lexeme, rest)) : lexeme.text ≠ [] := by
  unfold next? at found
  split at found
  · obtain ⟨⟨body, after⟩, _, same⟩ := Option.map_eq_some_iff.mp found
    cases same
    simp [text]
  · split at found
    · cases found
      simp [text]
    · split at found <;>
      · cases found
        simp [text]

/-- Reading a lexeme leaves at most what follows its first character. -/
theorem length_le_of_next? {c : Char} {cs rest : List Char} {lexeme : Lexeme}
    (found : next? c cs = some (lexeme, rest)) : rest.length ≤ cs.length := by
  -- The lexeme and the rest make up the text, and the lexeme has at least one character.
  have whole := congrArg List.length (append_of_next? found)
  have taken := List.length_pos_iff.mpr (text_ne_nil_of_next? found)
  simp only [List.length_append, List.length_cons] at whole
  omega

/-- The lexemes of a text up to the first mark without a match, and the text from that mark on. -/
def ofText : List Char → List Lexeme × List Char
  | [] => ([], [])
  | c :: cs =>
    match found : next? c cs with
    | none => ([], c :: cs)
    | some (lexeme, rest) =>
      have := length_le_of_next? found
      let (lexemes, unmatched) := ofText rest
      (lexeme :: lexemes, unmatched)
termination_by cs => cs.length

/-- The lexemes and the unmatched part make up the text. -/
theorem flatMap_text_ofText (cs : List Char) :
    (ofText cs).1.flatMap text ++ (ofText cs).2 = cs := by
  fun_induction ofText cs with
  | case1 => rfl
  | case2 c cs none => simp
  | case3 c cs lexeme rest found _ lexemes unmatched deeper ih =>
    rw [deeper] at ih
    simp only [List.flatMap_cons, List.append_assoc]
    rw [ih]
    exact append_of_next? found

/-- A lexeme with a blank for every character of a comment. -/
def blanked : Lexeme → List Char
  | comment written => List.replicate written.length ' '
  | lexeme => lexeme.text

/-- Blanking a comment keeps every other offset in place. -/
theorem length_blanked (lexeme : Lexeme) : lexeme.blanked.length = lexeme.text.length := by
  cases lexeme <;> simp [blanked, text]

end Lexeme

/-- The text with its comments blanked out, or the offset of the first mark without a match. -/
def blankComments (text : List Char) : Except Nat (List Char) :=
  let (lexemes, unmatched) := Lexeme.ofText text
  if unmatched.isEmpty then .ok (lexemes.flatMap Lexeme.blanked)
  else .error (text.length - unmatched.length)

/-- Blanking comments keeps the length of the text. -/
theorem length_blankComments {text clean : List Char} (closed : blankComments text = .ok clean) :
    clean.length = text.length := by
  unfold blankComments at closed
  -- Lexeme by lexeme the lengths agree, and nothing is left unmatched.
  have whole := Lexeme.flatMap_text_ofText text
  split at closed
  next lexemes unmatched parts =>
  rw [parts] at whole
  split at closed
  · next none =>
    cases closed
    have none : unmatched = [] := by simpa using none
    subst none
    rw [← whole]
    simp [List.length_flatMap, Lexeme.length_blanked]
  · cases closed

end SignatureIndex
