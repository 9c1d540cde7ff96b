import SignatureIndex.Proofs.LineEnds
import SignatureIndex.Proofs.Positions

/-!
# Displayed lines and numbered lines

Positions number the lines of a source by its line feeds, while the lines that are shown end at
every break, of which there are eleven kinds.  Where a character is shown can be told as its
position can, by counting the breaks before it and the characters since the last of them.  The two
differ from the first break on that is no line feed: from there a position names an earlier line
than the one that holds the character.  So the line that a position names holds the character it was
taken of, throughout a source, exactly if line feeds are its only breaks.
-/

namespace SignatureIndex

namespace Text

variable {isBreak : Char → Bool} {front back text : List Char} {c : Char}

/-! ## Pairs -/

/-- Without line feeds there are no pairs. -/
theorem joinCrLf_of_not_mem (free : '\n' ∉ text) : joinCrLf text = text := by
  unfold joinCrLf
  induction text with
  | nil => rfl
  | cons d text ih =>
    obtain ⟨-, free⟩ := not_or.mp (mt List.mem_cons.mpr free)
    have noPair : ¬(d = '\r' ∧ text.head? = some '\n') :=
      fun pair => free (List.mem_of_head? pair.2)
    rw [joinPairs, if_neg noPair, ih free]

/-- Joining pairs only takes characters away. -/
theorem joinCrLf_sublist (text : List Char) : (joinCrLf text).Sublist text := by
  unfold joinCrLf
  induction text with
  | nil => exact .slnil
  | cons d text ih =>
    rw [joinPairs]
    split
    · exact ih.cons d
    · exact ih.cons_cons d

/-- What joining pairs takes away is no line feed. -/
theorem count_joinCrLf (text : List Char) : (joinCrLf text).count '\n' = text.count '\n' := by
  unfold joinCrLf
  induction text with
  | nil => rfl
  | cons d text ih =>
    rw [joinPairs]
    split
    next pair => simp [ih, pair.1]
    · simp [List.count_cons, ih]

/-- What a text ends with is not part of a pair that goes on. -/
theorem getLast?_joinCrLf (text : List Char) : (joinCrLf text).getLast? = text.getLast? := by
  unfold joinCrLf
  induction text with
  | nil => rfl
  | cons d text ih =>
    rw [joinPairs]
    split
    next pair =>
      obtain ⟨rest, rfl⟩ := List.head?_eq_some_iff.mp pair.2
      rw [ih, List.getLast?_cons_cons]
    · rw [List.getLast?_cons, List.getLast?_cons, ih]

/-! ## Breaks -/

/-- How many characters follow the last break of a text. -/
def sinceBreak (isBreak : Char → Bool) (text : List Char) : Nat :=
  (text.reverse.takeWhile (!isBreak ·)).length

/-- A text is cut into what its last break ends and what follows that break. -/
theorem exists_parts_sinceBreak (isBreak : Char → Bool) (text : List Char) :
    ∃ front last, text = front ++ last ∧ (∀ c ∈ front.getLast?, isBreak c = true) ∧ ∀ c ∈ last,
    isBreak c = false := by
  refine ⟨(text.reverse.dropWhile (!isBreak ·)).reverse,
    (text.reverse.takeWhile (!isBreak ·)).reverse, ?_, ?_, ?_⟩
  · rw [← List.reverse_append, List.takeWhile_append_dropWhile, List.reverse_reverse]
  · intro c last
    have stopped := List.head?_dropWhile_not (!isBreak ·) text.reverse
    rw [List.getLast?_reverse] at last
    rw [last] at stopped
    simpa using stopped
  · intro c among
    have passed := List.all_takeWhile (p := (!isBreak ·)) (l := text.reverse)
    simpa using List.all_eq_true.mp passed c (List.mem_reverse.mp among)

/-- What follows the last element of a row that fails a test is found from the end of the row. -/
theorem takeWhile_reverse_append {α : Type} {p : α → Bool} {front back : List α}
    (closed : ∀ a ∈ front.getLast?, p a = false) (free : ∀ a ∈ back, p a = true) :
    (front ++ back).reverse.takeWhile p = back.reverse := by
  have passed : ∀ a ∈ back.reverse, p a = true := fun a among => free a (List.mem_reverse.mp among)
  have stopped : front.reverse.takeWhile p = [] := by
    cases parts : front.reverse with
    | nil => rfl
    | cons a rest =>
      have last : front.getLast? = some a := by rw [← List.head?_reverse, parts, List.head?_cons]
      exact List.takeWhile_cons_of_neg (by simp [closed a last])
  rw [List.reverse_append, List.takeWhile_append_of_pos passed, stopped, List.append_nil]

theorem sinceBreak_append (closed : ∀ c ∈ front.getLast?, isBreak c = true)
    (free : ∀ c ∈ back, isBreak c = false) : sinceBreak isBreak (front ++ back) = back.length := by
  have closed : ∀ c ∈ front.getLast?, (!isBreak c) = false := fun c last => by simp [closed c last]
  have free : ∀ c ∈ back, (!isBreak c) = true := fun c among => by simp [free c among]
  rw [sinceBreak, takeWhile_reverse_append closed free, List.length_reverse]

theorem splitAtBreaks_ne_nil (some : text ≠ []) : splitAtBreaks isBreak text ≠ [] := by
  obtain ⟨c, text, rfl⟩ := List.exists_cons_of_ne_nil some
  rw [splitAtBreaks]
  split
  · simp
  · split <;> simp

section Closed

variable (closed : ∀ c ∈ front.getLast?, isBreak c = true)
include closed

/-- What a break ends is cut into pieces of its own. -/
theorem splitAtBreaks_append (back : List Char) :
    splitAtBreaks isBreak (front ++ back) = splitAtBreaks isBreak front ++
      splitAtBreaks isBreak back := by
  induction front with
  | nil => rfl
  | cons c front ih =>
    cases front with
    | nil => simp [splitAtBreaks, closed c rfl]
    | cons d front =>
      have rest := ih (by simpa using closed)
      have filled : splitAtBreaks isBreak (d :: front) ≠ [] :=
        splitAtBreaks_ne_nil (List.cons_ne_nil d front)
      rw [List.cons_append, splitAtBreaks, splitAtBreaks, rest]
      obtain ⟨piece, pieces, cut⟩ := List.exists_cons_of_ne_nil filled
      rw [cut]
      split <;> rfl

/-- There are as many pieces as breaks. -/
theorem length_splitAtBreaks : (splitAtBreaks isBreak front).length = front.countP isBreak := by
  induction front with
  | nil => rfl
  | cons c front ih =>
    cases front with
    | nil => simp [splitAtBreaks, closed c rfl]
    | cons d front =>
      have rest := ih (by simpa using closed)
      obtain ⟨piece, pieces, cut⟩ :=
        List.exists_cons_of_ne_nil (splitAtBreaks_ne_nil (List.cons_ne_nil d front))
      rw [splitAtBreaks, List.countP_cons, ← rest, cut]
      split <;> simp [*]

end Closed

/-- Up to the next break, a text belongs to one piece. -/
theorem exists_splitAtBreaks_eq_cons (free : ∀ c ∈ front, isBreak c = false)
    (other : isBreak c = false) (back : List Char) :
    ∃ rest pieces, splitAtBreaks isBreak (front ++ c :: back) = (front ++ c :: rest) :: pieces := by
  induction front with
  | nil =>
    rw [List.nil_append, splitAtBreaks, if_neg (by simp [other])]
    cases splitAtBreaks isBreak back with
    | nil => exact ⟨[], [], rfl⟩
    | cons piece pieces => exact ⟨piece, pieces, rfl⟩
  | cons d front ih =>
    obtain ⟨here, later⟩ := List.forall_mem_cons.mp free
    obtain ⟨rest, pieces, cut⟩ := ih later
    rw [List.cons_append, splitAtBreaks, if_neg (by simp [here]), cut]
    exact ⟨rest, pieces, rfl⟩

/-- A character that is no break stands in the piece that has as many before it as there are breaks
before the character, after as many characters as there are since the last break. -/
theorem exists_getElem?_splitAtBreaks (other : isBreak c = false) (front back : List Char) :
    ∃ piece, (splitAtBreaks isBreak (front ++ c :: back))[front.countP isBreak]? = some piece ∧
      piece[sinceBreak isBreak front]? = some c := by
  obtain ⟨front, last, rfl, closed, free⟩ := exists_parts_sinceBreak isBreak front
  obtain ⟨rest, pieces, cut⟩ := exists_splitAtBreaks_eq_cons free other back
  have none : last.countP isBreak = 0 := List.countP_eq_zero.mpr fun d among => by
    simp [free d among]
  rw [List.append_assoc, splitAtBreaks_append closed, cut, sinceBreak_append closed free,
    List.countP_append, none, Nat.add_zero, ← length_splitAtBreaks closed]
  exact ⟨last ++ c :: rest, by simp, by simp⟩

end Text

namespace Source

variable {source : Source} {offset : Nat} {c : Char}

open Text (isLineBreak joinCrLf sinceBreak)

/-! ## Where a position is -/

private theorem walkedTo_of_not_mem {text : List Char} (free : '\n' ∉ text) (line column : Nat) :
    walkedTo line column text.length text = (line, column + text.length) := by
  induction text generalizing column with
  | nil => rfl
  | cons d text ih =>
    obtain ⟨other, free⟩ := not_or.mp (mt List.mem_cons.mpr free)
    rw [List.length_cons, walkedTo, if_neg (Ne.symm other), ih free]
    exact Prod.ext rfl (by simp; omega)

/-- A position tells how many line feeds are before it, and how many characters since the last of
them. -/
theorem position_eq (within : offset ≤ source.content.length) : source.position offset =
    ((source.content.take offset).count '\n' + 1,
      sinceBreak (· == '\n') (source.content.take offset) + 1) := by
  refine Prod.ext (fst_position source offset) ?_
  have length : (source.content.take offset).length = offset := List.length_take_of_le within
  obtain ⟨front, last, parts, closed, free⟩ :=
    Text.exists_parts_sinceBreak (· == '\n') (source.content.take offset)
  -- the last line feed before the offset starts a line, on which the rest of the walk stays
  have started : (walkedTo 1 1 front.length front).2 = 1 := by
    rcases List.eq_nil_or_concat front with rfl | ⟨before, d, rfl⟩
    · rfl
    · obtain rfl : d = '\n' := by simpa using closed
      rw [List.concat_eq_append, walkedTo_feed]
  have lastFree : '\n' ∉ last := fun among => by simpa using free _ among
  have walked := walkedTo_append_left (Nat.le_of_eq length.symm) 1 1 (source.content.drop offset)
  rw [List.take_append_drop] at walked
  have steps : offset = front.length + last.length := by rw [← length, parts, List.length_append]
  rw [parts, Text.sinceBreak_append closed free, position, walked, parts, steps, walkedTo_append,
    walkedTo_of_not_mem lastFree, started, Nat.add_comm]

/-! ## Where a character is shown -/

/-- The breaks of a text that end a line for display but not for numbering: those that are no line
feeds, where a carriage return is part of the line feed that follows it. -/
def strayBreaks (text : List Char) : Nat := (joinCrLf text).countP fun c =>
    isLineBreak c && c != '\n'

/-- The line on which the character at an offset is shown, and its place on that line, both counted
from one. -/
def shownAt (source : Source) (offset : Nat) : Nat × Nat :=
  let before := joinCrLf (source.content.take offset)
  (before.countP isLineBreak + 1, sinceBreak isLineBreak before + 1)

theorem toList_lineAt (source : Source) (number : Nat) :
    (source.lineAt (number + 1 : Nat)).toList = (Text.lines source.content)[number]?.getD [] := by
  have counted : (1 : Int) ≤ (number + 1 : Nat) := by omega
  have before : ((number + 1 : Nat) : Int).toNat - 1 = number := by omega
  rw [lineAt, if_pos counted, before, lines, List.getElem?_map]
  cases (Text.lines source.content)[number]? <;> simp

/-- No line that is shown holds a break. -/
theorem not_isLineBreak_of_mem_lineAt {number : Nat}
    (among : c ∈ (source.lineAt (number + 1 : Nat)).toList) :
    isLineBreak c = false := by
  rw [toList_lineAt] at among
  cases line : (Text.lines source.content)[number]? with
  | none => simp [line] at among
  | some piece =>
    rw [line] at among
    exact Text.not_isBreak_of_mem_splitAtBreaks (List.mem_of_getElem? line) among

/-- A character that is no break is shown. -/
theorem getElem?_lineAt_shownAt (stands : source.content[offset]? = some c)
    (other : isLineBreak c = false) :
    (source.lineAt (source.shownAt offset).1).toList[(source.shownAt offset).2 - 1]? = some c := by
  have noFeed : c ≠ '\n' := by
    rintro rfl
    exact absurd other (by decide)
  have noReturn : c ≠ '\r' := by
    rintro rfl
    exact absurd other (by decide)
  obtain ⟨within, here⟩ := List.getElem?_eq_some_iff.mp stands
  have parts :
      source.content = source.content.take offset ++ c :: source.content.drop (offset + 1) := by
    rw [← here, ← List.drop_eq_getElem_cons within, List.take_append_drop]
  have joined : joinCrLf source.content =
      joinCrLf (source.content.take offset) ++
        c :: joinCrLf (source.content.drop (offset + 1)) := by
    rw [← Text.joinCrLf_cons noReturn,
      ← Text.joinCrLf_append_of_apart (.inl (by simpa using noFeed)), ← parts]
  obtain ⟨piece, shown, place⟩ :=
    Text.exists_getElem?_splitAtBreaks other (joinCrLf (source.content.take offset))
    (joinCrLf (source.content.drop (offset + 1)))
  rw [shownAt, toList_lineAt, Text.lines, joined, shown]
  exact place

/-! ## Where the two agree -/

/-- A character is shown as many lines further down as there are stray breaks before it. -/
theorem fst_shownAt (source : Source) (offset : Nat) :
    (source.shownAt offset).1 = (source.position offset).1 +
      strayBreaks (source.content.take offset) := by
  -- every break is a line feed or another
  have breaks (text : List Char) : text.countP isLineBreak =
      text.count '\n' + text.countP fun c => isLineBreak c && c != '\n' := by
    induction text with
    | nil => rfl
    | cons c text ih =>
      by_cases feed : c = '\n'
      · subst feed
        simp [ih, show isLineBreak '\n' = true from rfl]
        omega
      · rw [List.countP_cons, List.count_cons_of_ne feed, List.countP_cons, ih]
        simp [feed, Nat.add_assoc]
  rw [fst_position, shownAt, breaks, Text.count_joinCrLf, strayBreaks, Nat.add_right_comm]

private theorem shownAt_eq_position (within : offset ≤ source.content.length)
    (none : strayBreaks (source.content.take offset) = 0) :
    source.shownAt offset = source.position offset := by
  refine Prod.ext (by rw [fst_shownAt, none, Nat.add_zero]) ?_
  obtain ⟨early, last, parts, closed, free⟩ :=
    Text.exists_parts_sinceBreak (· == '\n') (source.content.take offset)
  have lastFree : '\n' ∉ last := fun among => by simpa using free _ among
  have apart : early.getLast? ≠ some '\r' := fun ends => absurd (closed _ ends) (by decide)
  have joined : joinCrLf (source.content.take offset) = joinCrLf early ++ last := by
    rw [parts, Text.joinCrLf_append_of_apart (.inr apart), Text.joinCrLf_of_not_mem lastFree]
  have closedJoined : ∀ c ∈ (joinCrLf early).getLast?, isLineBreak c = true := by
    intro c ends
    rw [Text.getLast?_joinCrLf] at ends
    obtain rfl : c = '\n' := by simpa using closed c ends
    decide
  -- without stray breaks, only a line feed could end a line
  have freeJoined : ∀ c ∈ last, isLineBreak c = false := by
    intro c among
    rw [strayBreaks, List.countP_eq_zero, joined] at none
    have noStray := none c (List.mem_append_right _ among)
    have noFeed : c ≠ '\n' := fun feed => lastFree (feed ▸ among)
    simpa [noFeed] using noStray
  rw [position_eq within, shownAt, joined, Text.sinceBreak_append closedJoined freeJoined, parts,
    Text.sinceBreak_append closed free]

/-- Throughout a source, the line that a position names holds the character it was taken of, exactly
if line feeds are the only breaks of the source.  A character that is no break is shown as many
lines further down as there are stray breaks before it, and so where its position says exactly if
there are none. -/
theorem lineAt_position (source : Source) :
    ((∀ offset c, source.content[offset]? = some c → c ≠ '\n' →
        (source.lineAt (source.position offset).1).toList[(source.position offset).2 - 1]? =
          some c) ↔
      ∀ c ∈ source.content, isLineBreak c = true → c = '\n') ∧
    ∀ offset c, source.content[offset]? = some c → isLineBreak c = false →
      (source.lineAt (source.shownAt offset).1).toList[(source.shownAt offset).2 - 1]? = some c ∧
      (source.shownAt offset).1 = (source.position offset).1 +
        strayBreaks (source.content.take offset) ∧
      (source.shownAt offset = source.position offset ↔
        strayBreaks (source.content.take offset) = 0) := by
  have agree {offset : Nat} {c : Char} (stands : source.content[offset]? = some c) :
      source.shownAt offset = source.position offset ↔
      strayBreaks (source.content.take offset) = 0 := by
    constructor
    · intro same
      have lines := fst_shownAt source offset
      rw [same] at lines
      omega
    · exact shownAt_eq_position (Nat.le_of_lt (List.getElem?_eq_some_iff.mp stands).1)
  refine ⟨⟨?_, ?_⟩, fun offset c stands other =>
    ⟨getElem?_lineAt_shownAt stands other, fst_shownAt source offset, agree stands⟩⟩
  · -- a break that is no line feed would have to be shown
    intro held c among isBreak
    refine Decidable.byContradiction fun other => ?_
    obtain ⟨offset, stands⟩ := List.mem_iff_getElem?.mp among
    have shown := List.mem_of_getElem? (held offset c stands other)
    rw [fst_position] at shown
    exact absurd isBreak (by simp [not_isLineBreak_of_mem_lineAt shown])
  · -- without stray breaks a character is shown where its position says
    intro feedsOnly offset c stands noFeed
    have other : isLineBreak c = false :=
      Bool.eq_false_iff.mpr (mt (feedsOnly c (List.mem_of_getElem? stands)) noFeed)
    have none : strayBreaks (source.content.take offset) = 0 := by
      rw [strayBreaks, List.countP_eq_zero]
      intro d joined
      have among := List.mem_of_mem_take ((Text.joinCrLf_sublist _).mem joined)
      by_cases isBreak : isLineBreak d = true
      · simp [feedsOnly d among isBreak]
      · simp [isBreak]
    rw [← (agree stands).mpr none]
    exact getElem?_lineAt_shownAt stands other

/-- A carriage return right before a line feed ends its line together with it, so the line after
them is shown where it is numbered.  A form feed ends a line that is not numbered, and all that
follows is shown one line further down. -/
theorem lineAt_position_ragged :
    let source : Source := ⟨Path.ofString "m.erl", .utf8, ['a', '\r', '\n', 'b', '\x0c', 'c']⟩
    source.content[3]? = some 'b' ∧ source.shownAt 3 = source.position 3 ∧
      source.position 3 = (2, 1) ∧ (source.lineAt 2).toList[0]? = some 'b' ∧
      source.content[5]? = some 'c' ∧ source.shownAt 5 ≠ source.position 5 ∧
      source.position 5 = (2, 3) ∧
      (source.lineAt 3).toList[0]? = some 'c' := by
  intro source
  have agrees := ((lineAt_position source).2 3 'b' rfl (by decide)).2.2.mpr (by decide)
  have differs := mt ((lineAt_position source).2 5 'c' rfl (by decide)).2.2.mp (by decide)
  exact ⟨rfl, agrees, by
    decide, ((lineAt_position source).2 3 'b' rfl (by decide)).1, rfl, differs, by decide,
    ((lineAt_position source).2 5 'c' rfl (by decide)).1⟩

/-- After a form feed a position names a line that does not hold the character. -/
theorem lineAt_position_formFeed : ∃ source, ofBytes (Path.ofString "m.erl")
    [0x0C, 0x61, 0x0A] = .ok source ∧ source.content[1]? = some 'a' ∧ source.position 1 = (1, 2) ∧
      (source.lineAt (source.position 1).1).toList[(source.position 1).2 - 1]? ≠ some 'a' := by
  have decoded : Text.Utf8.decode [0x0C, 0x61, 0x0A] = .ok ['\x0c', 'a', '\n'] := by
    rw [Text.Utf8.decode_cons_char rfl, Text.Utf8.decode_cons_char rfl,
      Text.Utf8.decode_cons_char rfl, Text.Utf8.decode]
    rfl
  refine ⟨⟨Path.ofString "m.erl", .utf8, ['\x0c', 'a', '\n']⟩, ?_, rfl, by decide, by decide⟩
  exact congrArg (Except.map _) decoded

end Source

end SignatureIndex
