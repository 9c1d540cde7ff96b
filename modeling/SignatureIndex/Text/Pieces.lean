/-!
# Pieces

Cutting a text at every place where one character stands, and putting the pieces back together.  The
two undo each other, and no piece holds the character.
-/

namespace SignatureIndex.Text

/-- The pieces of a text between the places where `sep` stands.  There is always one more piece than
there are such places. -/
def pieces (sep : Char) : List Char → List (List Char)
  | [] => [[]]
  | c :: cs =>
    if c = sep then [] :: pieces sep cs
    else
      match pieces sep cs with
      | [] => [[c]]
      | piece :: rest => (c :: piece) :: rest

/-- The pieces with `sep` between them. -/
def joined (sep : Char) : List (List Char) → List Char
  | [] => []
  | [piece] => piece
  | piece :: next :: rest => piece ++ sep :: joined sep (next :: rest)

theorem pieces_ne_nil (sep : Char) (cs : List Char) : pieces sep cs ≠ [] := by
  cases cs with
  | nil => simp [pieces]
  | cons c cs =>
    unfold pieces
    split
    · simp
    · split <;> simp

/-- Joining the pieces gives the text back. -/
theorem joined_pieces (sep : Char) (cs : List Char) : joined sep (pieces sep cs) = cs := by
  induction cs with
  | nil => rfl
  | cons c cs ih =>
    unfold pieces
    split
    · -- The text is cut right here.
      next same =>
      cases tail : pieces sep cs with
      | nil => exact absurd tail (pieces_ne_nil sep cs)
      | cons piece rest => simp [joined, ← tail, ih, same]
    · -- The character goes to the front of the first piece.
      split
      · next tail => exact absurd tail (pieces_ne_nil sep cs)
      · next piece rest tail =>
        rw [tail] at ih
        cases rest <;> simp_all [joined]

/-- No piece holds the character that the text is cut at. -/
theorem not_mem_of_mem_pieces {sep : Char} {cs piece : List Char} (among : piece ∈ pieces sep cs) :
    sep ∉ piece := by
  induction cs generalizing piece with
  | nil => simp_all [pieces]
  | cons c cs ih =>
    unfold pieces at among
    split at among
    · -- The text is cut right here: the piece is the empty one, or one of the rest.
      rcases List.mem_cons.mp among with rfl | among
      · simp
      · exact ih among
    · split at among <;> grind

end SignatureIndex.Text
