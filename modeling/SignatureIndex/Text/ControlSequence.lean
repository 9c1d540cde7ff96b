/-!
# Control sequences

A terminal takes certain sequences of characters for commands: an escape and a bracket, parameters,
intermediate characters, and a final one.  Text that does not go to a terminal is written without
them.
-/

namespace SignatureIndex.Text

def escape : Char := '\x1b'

/-- The characters that parameters are made of. -/
def isParameter (c : Char) : Bool := '0' ≤ c && c ≤ '?'

/-- The characters that may stand between parameters and the final character. -/
def isIntermediate (c : Char) : Bool := ' ' ≤ c && c ≤ '/'

/-- The characters that end a control sequence. -/
def isFinal (c : Char) : Bool := '@' ≤ c && c ≤ '~'

/-- The text after a control sequence, given the text after its escape. -/
def afterSequence? : List Char → Option (List Char)
  | '[' :: cs =>
    match (cs.dropWhile isParameter).dropWhile isIntermediate with
    | c :: rest => if isFinal c then some rest else none
    | [] => none
  | _ => none

/-- A control sequence is not empty. -/
theorem length_lt_of_afterSequence? {cs rest : List Char} (found : afterSequence? cs = some rest) :
    rest.length < cs.length := by
  unfold afterSequence? at found
  split at found
  · next inner =>
    -- Each of the two parts that are skipped is at the start of what comes before it.
    have parameters := (List.dropWhile_sublist isParameter (l := inner)).length_le
    have intermediates :=
      (List.dropWhile_sublist isIntermediate (l := inner.dropWhile isParameter)).length_le
    split at found
    · next c after same =>
      split at found
      · cases found
        rw [same] at intermediates
        simp only [List.length_cons] at intermediates ⊢
        omega
      · cases found
    · cases found
  · cases found

/-- A text without its control sequences. -/
def withoutSequences : List Char → List Char
  | [] => []
  | c :: cs =>
    if c = escape then
      match found : afterSequence? cs with
      | some rest =>
        have := length_lt_of_afterSequence? found
        withoutSequences rest
      | none => c :: withoutSequences cs
    else c :: withoutSequences cs
termination_by cs => cs.length
decreasing_by
  all_goals simp only [List.length_cons]; omega

/-- A text without its control sequences. -/
def plain (text : String) : String := String.ofList (withoutSequences text.toList)

/-- Nothing is taken from a text without escapes. -/
theorem withoutSequences_of_not_mem {cs : List Char} (free : escape ∉ cs) :
    withoutSequences cs = cs := by
  induction cs with
  | nil => rw [withoutSequences]
  | cons c cs ih =>
    rw [List.mem_cons, not_or] at free
    rw [withoutSequences, if_neg (Ne.symm free.1), ih free.2]

end SignatureIndex.Text
