/-!
# Blank characters

The notion of a blank that every reader of text in this library shares: the ASCII blanks, the four
information separators, and the blanks of Unicode.  Trimming removes them from the ends of a text
and never touches what stands between two other characters.
-/

namespace SignatureIndex.Text

/-- The control characters that end or advance a line, the information separators, and every
character of Unicode that is a space or a separator of lines or paragraphs. -/
def isBlank (c : Char) : Bool :=
  let code := c.toNat
  (9 ≤ code && code ≤ 13) || (28 ≤ code && code ≤ 32) || code == 0x85 || code == 0xA0 ||
    code == 0x1680 || (0x2000 ≤ code && code ≤ 0x200A) || code == 0x2028 || code == 0x2029 ||
    code == 0x202F || code == 0x205F || code == 0x3000

/-- A text without the blanks it starts with. -/
def trimStart (cs : List Char) : List Char := cs.dropWhile isBlank

/-- A text without the blanks it ends with. -/
def trimEnd (cs : List Char) : List Char := (cs.reverse.dropWhile isBlank).reverse

/-- A text without the blanks at either end. -/
def trim (cs : List Char) : List Char := trimEnd (trimStart cs)

/-- What trimming leaves never starts with a blank. -/
theorem head?_trimStart_not_blank {cs : List Char} {c : Char}
    (first : (trimStart cs).head? = some c) : isBlank c = false := by
  have kept := List.head?_dropWhile_not isBlank cs
  unfold trimStart at first
  rw [first] at kept
  simpa using kept

/-- Trimming leaves nothing that starts with a blank, from whichever end it is trimmed last. -/
theorem head?_trim_not_blank {cs : List Char} {c : Char} (first : (trim cs).head? = some c) :
    isBlank c = false := by
  -- what is trimmed at its end keeps its start
  have isPrefix : trim cs <+: trimStart cs := by
    have isSuffix := List.dropWhile_suffix isBlank (l := (trimStart cs).reverse)
    rw [← List.reverse_reverse (trimStart cs)]
    exact List.reverse_prefix.mpr isSuffix
  obtain ⟨rest, whole⟩ := isPrefix
  have started : (trimStart cs).head? = some c := by
    rw [← whole, List.head?_append, first, Option.some_or]
  exact head?_trimStart_not_blank started

/-- A text that neither starts nor ends with a blank stays as it is. -/
theorem trim_eq_self_of_ends {cs : List Char} (starts : ∀ c ∈ cs.head?, isBlank c = false)
    (ends : ∀ c ∈ cs.getLast?, isBlank c = false) : trim cs = cs := by
  have kept {ds : List Char} (starts : ∀ c ∈ ds.head?, isBlank c = false) :
      ds.dropWhile isBlank = ds := by
    cases ds with
    | nil => rfl
    | cons d ds => exact List.dropWhile_cons_of_neg (by simp [starts d rfl])
  have keptReverse : cs.reverse.dropWhile isBlank = cs.reverse := kept (by simpa using ends)
  rw [trim, trimStart, kept starts, trimEnd, keptReverse, List.reverse_reverse]

/-- Whether a text holds anything but blanks. -/
def isAllBlank (cs : List Char) : Bool := cs.all isBlank

end SignatureIndex.Text
