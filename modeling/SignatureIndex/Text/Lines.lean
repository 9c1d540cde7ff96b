/-!
# Lines

Two units that end a line together, a carriage return and a line feed, are first joined into one;
after that every break is a single unit, and a text is cut at each of them.  The same two steps
serve characters and bytes, which differ only in which units break a line.
-/

namespace SignatureIndex.Text

/-- Every `cr` that a `lf` follows is dropped. -/
def joinPairs {α : Type} [DecidableEq α] (cr lf : α) : List α → List α
  | [] => []
  | c :: cs => if c = cr ∧ cs.head? = some lf then joinPairs cr lf cs else c :: joinPairs cr lf cs

/-- The pieces between the breaks.  A break ends a piece, so nothing follows a final one. -/
def splitAtBreaks {α : Type} (isBreak : α → Bool) : List α → List (List α)
  | [] => []
  | c :: cs =>
    if isBreak c then [] :: splitAtBreaks isBreak cs
    else
      match splitAtBreaks isBreak cs with
      | [] => [[c]]
      | piece :: pieces => (c :: piece) :: pieces

/-- No piece holds a break. -/
theorem not_isBreak_of_mem_splitAtBreaks {α : Type} {isBreak : α → Bool} {cs piece : List α} {c : α}
    (among : piece ∈ splitAtBreaks isBreak cs) (held : c ∈ piece) : isBreak c = false := by
  induction cs generalizing piece with
  | nil => simp [splitAtBreaks] at among
  | cons d ds ih =>
    unfold splitAtBreaks at among
    split at among
    · -- A break comes first: the piece is the empty one before it, or one of the rest.
      rcases List.mem_cons.mp among with rfl | among
      · simp at held
      · exact ih among held
    · -- Any other character goes to the front of the first piece.
      split at among <;> grind

/-- The carriage return and line feed pairs of a text become line feeds. -/
def joinCrLf (cs : List Char) : List Char := joinPairs '\r' '\n' cs

/-- The characters that end a line of text for display. -/
def isLineBreak (c : Char) : Bool :=
  let code := c.toNat
  (10 ≤ code && code ≤ 13) || (28 ≤ code && code ≤ 30) || code == 0x85 || code == 0x2028 ||
    code == 0x2029

/-- The lines of a text, without their ends. -/
def lines (cs : List Char) : List (List Char) := splitAtBreaks isLineBreak (joinCrLf cs)

/-- Every way of ending a line with a carriage return becomes a line feed. -/
def unifyNewlines (cs : List Char) : List Char :=
  (joinCrLf cs).map fun c => if c = '\r' then '\n' else c

/-- Bytes end a line with a line feed, a carriage return, or the two together. -/
def byteLines (bytes : List UInt8) : List (List UInt8) :=
  splitAtBreaks (fun b => b == 10 || b == 13) (joinPairs 13 10 bytes)

end SignatureIndex.Text
