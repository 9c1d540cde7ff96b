import SignatureIndex.Source.Lexeme

/-!
# Forms

A text without comments is cut into forms at its terminating dots.  A dot terminates a form when it
is a lexeme of its own, does not follow another such dot, and a blank or the end of the text comes
after it.  What stands after the last terminating dot belongs to no form.
-/

namespace SignatureIndex

/-- The characters before a terminating dot, and the offset at which they start. -/
structure Form where
  offset : Nat
  text : List Char
  deriving DecidableEq, Repr

namespace Form

/-- Whether a blank or the end comes next. -/
def endsBefore : List Lexeme → Bool
  | [] => true
  | .plain c :: _ => Text.isBlank c
  | _ :: _ => false

/-- Puts characters before the first form, or before what is left over if there is no form. -/
def prepend (text : List Char) : List (List Char) × List Char → List (List Char) × List Char
  | ([], rest) => ([], text ++ rest)
  | (form :: forms, rest) => ((text ++ form) :: forms, rest)

/-- The texts of the forms of a row of lexemes, and what is left over.  `afterDot` tells whether a
dot comes right before the row. -/
def cut (afterDot : Bool) : List Lexeme → List (List Char) × List Char
  | [] => ([], [])
  | lexeme :: lexemes =>
    let isDot := lexeme == .plain '.'
    let (forms, rest) := cut isDot lexemes
    -- The last of two or three dots in a row belongs to the form.
    if isDot && !afterDot && endsBefore lexemes then ([] :: forms, rest)
    else prepend lexeme.text (forms, rest)

/-- Texts that follow each other with a dot after each, as forms. -/
def place (offset : Nat) : List (List Char) → List Form
  | [] => []
  | text :: texts => ⟨offset, text⟩ :: place (offset + text.length + 1) texts

/-- The forms of a text, and what is left over after the last of them. -/
def split (text : List Char) : List Form × List Char :=
  let (lexemes, unmatched) := Lexeme.ofText text
  let (texts, rest) := cut false lexemes
  (place 0 texts, rest ++ unmatched)

/-- Forms, each followed by its dot, and then what is left over. -/
def written (forms : List (List Char)) (rest : List Char) : List Char :=
  forms.flatMap (fun text => text ++ ['.']) ++ rest

theorem written_prepend (text : List Char) (cutting : List (List Char) × List Char) :
    written (prepend text cutting).1 (prepend text cutting).2 =
      text ++ written cutting.1 cutting.2 := by
  obtain ⟨_ | ⟨form, forms⟩, rest⟩ := cutting <;> simp [prepend, written]

/-- Cutting loses nothing but the terminating dots. -/
theorem written_cut (afterDot : Bool) (lexemes : List Lexeme) :
    written (cut afterDot lexemes).1 (cut afterDot lexemes).2 = lexemes.flatMap Lexeme.text := by
  induction lexemes generalizing afterDot with
  | nil => rfl
  | cons lexeme lexemes ih =>
    have deeper := ih (lexeme == .plain '.')
    unfold cut
    simp only [List.flatMap_cons]
    split
    · -- The dot that was dropped is written again after the form.
      next terminates =>
      simp only [Bool.and_eq_true, beq_iff_eq] at terminates
      rw [← deeper, terminates.1.1]
      simp [written, Lexeme.text]
    · rw [written_prepend, deeper]

/-- Placing forms keeps their texts. -/
theorem map_text_place (offset : Nat) (texts : List (List Char)) :
    (place offset texts).map Form.text = texts := by
  induction texts generalizing offset with
  | nil => rfl
  | cons text texts ih => simp [place, ih]

/-- The forms of a text, each with its dot, and what is left over make up the text. -/
theorem written_split (text : List Char) :
    written ((split text).1.map Form.text) (split text).2 = text := by
  have whole := Lexeme.flatMap_text_ofText text
  have kept := written_cut false (Lexeme.ofText text).1
  rw [← kept] at whole
  simp only [split, map_text_place]
  refine Eq.trans ?_ whole
  simp [written]

end Form

end SignatureIndex
