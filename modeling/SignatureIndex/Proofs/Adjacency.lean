import SignatureIndex.Proofs.Characters
import SignatureIndex.Proofs.Lexemes
import SignatureIndex.Source.Item

/-!
# The forms of texts in a row

A text is taken apart twice, once to find its comments and once to find its forms.  The second time
finds the lexemes of the first again, with blanks in the place of comments.  So the forms of two
texts in a row are those of the first and then those of the second, if the first leaves nothing
open: no quoted part, no form without a dot, and neither a comment nor a row of dots that would go
on in the second.
-/

namespace SignatureIndex

/-- What becomes of a lexeme when comments are blanked out. -/
def Lexeme.hushed : Lexeme → List Lexeme
  | comment written => List.replicate written.length (plain ' ')
  | lexeme => [lexeme]

/-! ## Taking a text apart twice -/

/-- A lexeme that is no comment is read again where the comments after it are blanked out. -/
theorem exists_next_blanked {c : Char} {cs rest : List Char} {lexeme : Lexeme}
    {lexemes : List Lexeme} (found : Lexeme.next? c cs = some (lexeme, rest))
    (other : ¬∃ written, lexeme = .comment written) (later : Lexeme.ofText rest = (lexemes, [])) :
    ∃ ds, lexeme.blanked ++ lexemes.flatMap Lexeme.blanked = c :: ds ∧
      Lexeme.next? c ds = some (lexeme, lexemes.flatMap Lexeme.blanked) := by
  have kept : lexeme.blanked = lexeme.text := by
    cases lexeme with
    | comment written => exact absurd ⟨written, rfl⟩ other
    | quoted | literal | plain => rfl
  -- blanking comments leaves a text empty only if it was empty before
  have empty : (lexemes.flatMap Lexeme.blanked).isEmpty = rest.isEmpty := by
    have whole := congrArg List.length (Lexeme.flatMap_text_ofText rest)
    rw [later] at whole
    simp only [List.append_nil, List.length_flatMap] at whole
    rw [Bool.eq_iff_iff, List.isEmpty_iff_length_eq_zero, List.isEmpty_iff_length_eq_zero, ← whole,
      List.length_flatMap]
    simp only [Lexeme.length_blanked]
  have stops : lexeme.stopsAt (lexemes.flatMap Lexeme.blanked) = true := by
    have ends := stopsAt_of_next? found
    cases lexeme with
    | comment written => exact absurd ⟨written, rfl⟩ other
    | quoted | plain => rfl
    | literal written => simpa [Lexeme.stopsAt, empty] using ends
  rw [kept]
  exact next?_of_stopsAt found stops

theorem ofText_blanked {text : List Char} {lexemes : List Lexeme}
    (read : Lexeme.ofText text = (lexemes, [])) :
    Lexeme.ofText (lexemes.flatMap Lexeme.blanked) = (lexemes.flatMap Lexeme.hushed, []) := by
  induction lexemes generalizing text with
  | nil => exact ofText_nil
  | cons lexeme lexemes ih =>
    obtain ⟨c, cs, rest, rfl, found, later⟩ := exists_next_of_ofText read
    have again := ih later
    by_cases comment : ∃ written, lexeme = .comment written
    · obtain ⟨written, rfl⟩ := comment
      have blanks : ∀ d ∈ List.replicate written.length ' ',
          Lexeme.isMark d = false ∧ d ≠ '$' ∧ d ≠ '%' := by
        intro d among
        rw [List.eq_of_mem_replicate among]
        decide
      have both := ofText_append_plain blanks again
      rw [List.map_replicate] at both
      exact both
    · have kept : lexeme.hushed = [lexeme] := by
        cases lexeme with
        | comment written => exact absurd ⟨written, rfl⟩ comment
        | quoted | literal | plain => rfl
      obtain ⟨ds, same, next⟩ := exists_next_blanked found comment later
      rw [List.flatMap_cons, List.flatMap_cons, kept, same, ofText_of_next? next, again]
      rfl

/-- The lexemes of a text whose comments are blanked out. -/
def Lexeme.ofCleared (text : List Char) : List Lexeme := (ofText text).1.flatMap hushed

namespace Form

/-- The texts of the forms of a text whose comments are blanked out, and what is left over. -/
def cutText (text : List Char) : List (List Char) × List Char := cut false (Lexeme.ofCleared text)

/-- Whether a text is a complete row of forms: nothing quoted is left open in it, and nothing but
blanks comes after its last terminating dot. -/
def IsComplete (text : List Char) : Prop :=
  ∃ clean, blankComments text = .ok clean ∧ Text.isAllBlank (split clean).2 = true

theorem blankComments_of_closed {text : List Char} (closed : (Lexeme.ofText text).2 = []) :
    blankComments text = .ok ((Lexeme.ofText text).1.flatMap Lexeme.blanked) := by
  simp only [blankComments, closed, List.isEmpty_nil, if_true]

theorem closed_of_blankComments {text clean : List Char}
    (blanked : blankComments text = .ok clean) : (Lexeme.ofText text).2 = [] ∧
    clean = (Lexeme.ofText text).1.flatMap Lexeme.blanked := by
  simp only [blankComments] at blanked
  split at blanked
  · next empty =>
    cases blanked
    exact ⟨List.isEmpty_iff.mp empty, rfl⟩
  · cases blanked

theorem split_of_blankComments {text clean : List Char} (blanked : blankComments text = .ok clean) :
    split clean = (place 0 (cutText text).1, (cutText text).2) := by
  obtain ⟨closed, rfl⟩ := closed_of_blankComments blanked
  have again := ofText_blanked (Prod.ext rfl closed : Lexeme.ofText text = (_, []))
  simp only [split, again, List.append_nil]
  rfl

theorem isComplete_iff {text : List Char} :
    IsComplete text ↔ (Lexeme.ofText text).2 = [] ∧ Text.isAllBlank (cutText text).2 = true := by
  constructor
  · rintro ⟨clean, blanked, blank⟩
    rw [split_of_blankComments blanked] at blank
    exact ⟨(closed_of_blankComments blanked).1, blank⟩
  · rintro ⟨closed, blank⟩
    have blanked := blankComments_of_closed closed
    exact ⟨_, blanked, by rwa [split_of_blankComments blanked]⟩

/-! ## Cutting rows of lexemes -/

@[simp] theorem prepend_nil (cutting : List (List Char) × List Char) :
    prepend [] cutting = cutting := by
  obtain ⟨_ | ⟨form, forms⟩, rest⟩ := cutting <;> rfl

theorem prepend_append (first second : List Char) (cutting : List (List Char) × List Char) :
    prepend (first ++ second) cutting = prepend first (prepend second cutting) := by
  obtain ⟨_ | ⟨form, forms⟩, rest⟩ := cutting <;> simp [prepend]

/-- The forms of one cutting, and then those of another that goes on where the first left off. -/
def join (first second : List (List Char) × List Char) : List (List Char) × List Char :=
  (first.1 ++ (prepend first.2 second).1, (prepend first.2 second).2)

private theorem prepend_join (text : List Char) (first second : List (List Char) × List Char) :
    prepend text (join first second) = join (prepend text first) second := by
  obtain ⟨_ | ⟨form, forms⟩, rest⟩ := first
  · exact (prepend_append text rest second).symm
  · rfl

theorem cut_cons (afterDot : Bool) (lexeme : Lexeme) (lexemes : List Lexeme) :
    cut afterDot (lexeme :: lexemes) =
      if (lexeme == .plain '.' && !afterDot && endsBefore lexemes) = true then
        ([] :: (cut (lexeme == .plain '.') lexemes).1, (cut (lexeme == .plain '.') lexemes).2)
      else prepend lexeme.text (cut (lexeme == .plain '.') lexemes) := rfl

/-- Whether a dot comes right before what follows a row of lexemes. -/
def endsInDot (afterDot : Bool) (lexemes : List Lexeme) : Bool :=
  (lexemes.getLast?.map (· == .plain '.')).getD afterDot

theorem endsInDot_cons (afterDot : Bool) (lexeme : Lexeme) (lexemes : List Lexeme) :
    endsInDot afterDot (lexeme :: lexemes) = endsInDot (lexeme == .plain '.') lexemes := by
  unfold endsInDot
  rw [List.getLast?_cons]
  cases lexemes.getLast? <;> rfl

theorem endsInDot_eq_false_iff {lexemes : List Lexeme} :
    endsInDot false lexemes = false ↔ lexemes.getLast? ≠ some (.plain '.') := by
  unfold endsInDot
  cases lexemes.getLast? <;> simp

/-- Two rows of lexemes are cut one after the other, if a dot between them ends a form either
way. -/
theorem cut_append (afterDot : Bool) (first second : List Lexeme)
    (apart : first.getLast? = some (.plain '.') → endsBefore second = true) :
    cut afterDot (first ++ second) =
      join (cut afterDot first) (cut (endsInDot afterDot first) second) := by
  induction first generalizing afterDot with
  | nil => exact (prepend_nil _).symm
  | cons lexeme lexemes ih =>
    have apartLater : lexemes.getLast? = some (.plain '.') → endsBefore second = true := by
      intro isLast
      apply apart
      rw [List.getLast?_cons, isLast]
      rfl
    -- whether the first lexeme ends a form is seen before the second row starts
    have same : (lexeme == .plain '.' && !afterDot && endsBefore (lexemes ++ second)) =
        (lexeme == .plain '.' && !afterDot && endsBefore lexemes) := by
      cases lexemes with
      | nil =>
        cases isDot : lexeme == .plain '.' with
        | false => rfl
        | true =>
          have ends := apart (congrArg some (eq_of_beq isDot))
          rw [List.nil_append, ends]
          rfl
      | cons next lexemes => cases next <;> rfl
    rw [List.cons_append, endsInDot_cons, cut_cons, cut_cons, same, ih _ apartLater]
    split
    · rfl
    · exact prepend_join _ _ _

private theorem cut_of_not_dot (afterDot : Bool) {lexemes : List Lexeme}
    (other : lexemes.head? ≠ some (.plain '.')) : cut afterDot lexemes = cut false lexemes := by
  cases lexemes with
  | nil => rfl
  | cons lexeme lexemes =>
    have notDot : (lexeme == .plain '.') = false := by simpa using other
    rw [cut_cons, cut_cons, notDot]
    rfl

/-- Characters without dots are left over. -/
theorem cut_map_plain (afterDot : Bool) {front : List Char} (noDot : '.' ∉ front) :
    cut afterDot (front.map .plain) = ([], front) := by
  induction front generalizing afterDot with
  | nil => rfl
  | cons c front ih =>
    rw [List.mem_cons, not_or] at noDot
    have notDot : (Lexeme.plain c == .plain '.') = false := by simpa using Ne.symm noDot.1
    rw [List.map_cons, cut_cons, notDot, ih _ noDot.2]
    rfl

/-! ## Two texts -/

/-- Whether nothing at the end of the first text goes on in the second. -/
def PartsFrom (first second : List Char) : Prop :=
  (∀ last ∈ (Lexeme.ofText first).1.getLast?, last.stopsAt second = true) ∧
    ((Lexeme.ofCleared first).getLast? = some (.plain '.') → second.head?.all Text.isBlank = true)

variable {first second : List Char}

theorem ofText_append_of_partsFrom (closed : (Lexeme.ofText first).2 = [])
    (parts : PartsFrom first second) :
    Lexeme.ofText (first ++ second) =
      ((Lexeme.ofText first).1 ++ (Lexeme.ofText second).1, (Lexeme.ofText second).2) :=
  ofText_append (Prod.ext rfl closed) second parts.1

/-- A blank is a lexeme of its own. -/
theorem ofCleared_of_blank (blank : second.head?.all Text.isBlank = true) :
    endsBefore (Lexeme.ofCleared second) = true ∧
      (Lexeme.ofCleared second).head? ≠ some (.plain '.') := by
  unfold Lexeme.ofCleared
  cases second with
  | nil =>
    rw [ofText_nil]
    exact ⟨rfl, nofun⟩
  | cons c second =>
    have isBlank : Text.isBlank c = true := by simpa using blank
    have notDollar : c ≠ '$' := by
      rintro rfl
      exact absurd isBlank (by decide)
    have notPercent : c ≠ '%' := by
      rintro rfl
      exact absurd isBlank (by decide)
    have notDot : c ≠ '.' := by
      rintro rfl
      exact absurd isBlank (by decide)
    have next : Lexeme.next? c second = some (.plain c, second) :=
      next?_eq_some_iff.mpr (.plain (not_isMark_of_isBlank isBlank) notDollar notPercent)
    rw [ofText_of_next? next]
    exact ⟨isBlank, fun same => notDot (Lexeme.plain.inj (Option.some.inj same))⟩

/-- Two texts are cut one after the other. -/
theorem cutText_append (closed : (Lexeme.ofText first).2 = []) (parts : PartsFrom first second) :
    cutText (first ++ second) = join (cutText first) (cutText second) := by
  have cleared : Lexeme.ofCleared (first ++ second) =
      Lexeme.ofCleared first ++ Lexeme.ofCleared second := by
    unfold Lexeme.ofCleared
    rw [ofText_append_of_partsFrom closed parts, List.flatMap_append]
  have apart isDot := (ofCleared_of_blank (parts.2 isDot)).1
  have sameState : cut (endsInDot false (Lexeme.ofCleared first)) (Lexeme.ofCleared second) =
      cut false (Lexeme.ofCleared second) := by
    by_cases isDot : (Lexeme.ofCleared first).getLast? = some (.plain '.')
    · exact cut_of_not_dot _ (ofCleared_of_blank (parts.2 isDot)).2
    · rw [endsInDot_eq_false_iff.mpr isDot]
  rw [cutText, cleared, cut_append false _ _ apart, sameState]
  rfl

/-! ## Complete texts -/

/-- A last lexeme that is no dot is left over. -/
theorem exists_append_of_cut_concat (afterDot : Bool) (lexemes : List Lexeme) {last : Lexeme}
    (notDot : last ≠ .plain '.') :
    ∃ front, (cut afterDot (lexemes ++ [last])).2 = front ++ last.text := by
  induction lexemes generalizing afterDot with
  | nil =>
    have other : (last == .plain '.') = false := by simpa using notDot
    refine ⟨[], ?_⟩
    rw [List.nil_append, cut_cons, other]
    exact List.append_nil last.text
  | cons lexeme lexemes ih =>
    obtain ⟨front, leftOver⟩ := ih (lexeme == .plain '.')
    rw [List.cons_append, cut_cons]
    split
    · exact ⟨front, leftOver⟩
    · cases cutting : cut (lexeme == .plain '.') (lexemes ++ [last]) with
      | mk forms rest =>
        obtain rfl : rest = front ++ last.text := by simpa [cutting] using leftOver
        cases forms with
        | nil => exact ⟨lexeme.text ++ front, (List.append_assoc _ _ _).symm⟩
        | cons form forms => exact ⟨front, rfl⟩

/-- A complete text ends neither in a quoted part nor in a literal. -/
theorem last_of_isComplete {last : Lexeme} (complete : IsComplete first)
    (isLast : (Lexeme.ofText first).1.getLast? = some last) :
    (∃ c, last = .plain c) ∨ ∃ written, last = .comment written := by
  obtain ⟨before, parts⟩ := List.getLast?_eq_some_iff.mp isLast
  have among : last ∈ (Lexeme.ofText first).1 := List.mem_of_getLast? isLast
  obtain ⟨c, cs, rest, found⟩ := exists_next_of_mem_ofText among
  have blank := (isComplete_iff.mp complete).2
  -- what starts with a mark or a dollar would be left over, and it is not blank
  have notLeft (starts : c = '$' ∨ Lexeme.isMark c = true) (begins : last.text.head? = some c)
      (kept : last.hushed = [last]) (notDot : last ≠ .plain '.') : False := by
    have cleared : Lexeme.ofCleared first = before.flatMap Lexeme.hushed ++ [last] := by
      rw [Lexeme.ofCleared, parts, List.flatMap_append, List.flatMap_singleton, kept]
    obtain ⟨front, leftOver⟩ :=
      exists_append_of_cut_concat false (before.flatMap Lexeme.hushed) notDot
    rw [cutText, cleared, leftOver, Text.isAllBlank, List.all_append, Bool.and_eq_true] at blank
    have inText := List.all_eq_true.mp blank.2 c (List.mem_of_mem_head? begins)
    rw [isBlank_of_dollar_or_isMark starts] at inText
    cases inText
  cases next?_eq_some_iff.mp found with
  | quoted mark closed => exact (notLeft (.inr mark) rfl rfl nofun).elim
  | literal dollar => exact (notLeft (.inl dollar) rfl rfl nofun).elim
  | comment => exact .inr ⟨_, rfl⟩
  | plain => exact .inl ⟨_, rfl⟩

/-- A line feed ends whatever a complete text leaves open. -/
theorem partsFrom_feed (complete : IsComplete first) (second : List Char) :
    PartsFrom first ('\n' :: second) := by
  refine ⟨fun last isLast => ?_, fun _ => rfl⟩
  rcases last_of_isComplete complete isLast with ⟨c, rfl⟩ | ⟨written, rfl⟩
  · rfl
  · rfl

/-- A text leaves nothing open if its last lexeme stands for itself and is no dot. -/
theorem partsFrom_of_last {c : Char} (isLast : (Lexeme.ofText first).1.getLast? = some (.plain c))
    (notDot : c ≠ '.') (second : List Char) : PartsFrom first second := by
  constructor
  · intro last same
    obtain rfl : Lexeme.plain c = last := Option.some.inj (isLast.symm.trans same)
    rfl
  · intro isDot
    obtain ⟨before, parts⟩ := List.getLast?_eq_some_iff.mp isLast
    have kept : (Lexeme.plain c).hushed = [.plain c] := rfl
    rw [Lexeme.ofCleared, parts, List.flatMap_append, List.flatMap_singleton, kept,
      List.getLast?_concat] at isDot
    cases isDot
    exact absurd rfl notDot

/-- A complete text that ends a line leaves nothing open. -/
theorem partsFrom_of_line (complete : IsComplete first)
    (line : first = [] ∨ first.getLast? = some '\n')
    (second : List Char) : PartsFrom first second := by
  rcases line with rfl | line
  · rw [PartsFrom, Lexeme.ofCleared, ofText_nil]
    exact ⟨nofun, nofun⟩
  have whole := Lexeme.flatMap_text_ofText first
  rw [(isComplete_iff.mp complete).1, List.append_nil] at whole
  -- what the text ends in decides whether more text joins its last lexeme
  cases isLast : (Lexeme.ofText first).1.getLast? with
  | none =>
    rw [List.getLast?_eq_none_iff.mp isLast] at whole
    rw [← whole] at line
    cases line
  | some last =>
    obtain ⟨before, parts⟩ := List.getLast?_eq_some_iff.mp isLast
    rw [parts, List.flatMap_append, List.flatMap_singleton] at whole
    rw [← whole, List.getLast?_append] at line
    rcases last_of_isComplete complete isLast with ⟨c, rfl⟩ | ⟨written, rfl⟩
    · obtain rfl : c = '\n' := Option.some.inj line
      exact partsFrom_of_last isLast (by decide) second
    · -- a comment ends before the line feed
      obtain ⟨c, cs, rest, found⟩ := exists_next_of_mem_ofText (List.mem_of_getLast? isLast)
      cases next?_eq_some_iff.mp found with
      | comment percent =>
        subst percent
        rw [Lexeme.text, List.getLast?_cons, Option.some_or] at line
        rcases List.mem_cons.mp (List.mem_of_getLast? (List.getLast?_cons.trans line))
          with same | among
        · cases same
        · have inLine := List.all_eq_true.mp List.all_takeWhile _ among
          simp at inLine

end Form

/-! ## Items -/

/-- The items of forms that stand one after the other from some offset on. -/
def Item.ofTexts (source : Source) (offset : Nat) (texts : List (List Char)) : List Item :=
  (Form.place offset texts).filterMap (Item.ofForm? source)

variable {source : Source} {blanks : List Char}

theorem trimStart_append_of_blank (blank : Text.isAllBlank blanks = true) (text : List Char) :
    Text.trimStart (blanks ++ text) = Text.trimStart text :=
  List.dropWhile_append_of_pos (List.all_eq_true.mp blank)

/-- A form contributes the same if the blanks before it are no part of it. -/
theorem Item.ofForm?_blanks (blank : Text.isAllBlank blanks = true) (offset : Nat)
    (text : List Char) : Item.ofForm? source ⟨offset, blanks ++ text⟩ =
      Item.ofForm? source ⟨offset + blanks.length, text⟩ := by
  unfold Item.ofForm?
  rw [trimStart_append_of_blank blank, List.length_append, Nat.add_assoc]

private theorem Item.ofTexts_prepend (blank : Text.isAllBlank blanks = true) (offset : Nat)
    (cutting : List (List Char) × List Char) :
    Item.ofTexts source offset (Form.prepend blanks cutting).1 =
      Item.ofTexts source (offset + blanks.length) cutting.1 := by
  obtain ⟨_ | ⟨form, forms⟩, rest⟩ := cutting
  · rfl
  · simp only [Form.prepend, Item.ofTexts, Form.place, List.filterMap_cons,
      Item.ofForm?_blanks blank, List.length_append, Nat.add_assoc]

private theorem Form.place_append (offset : Nat) (first second : List (List Char)) :
    Form.place offset (first ++ second) =
      Form.place offset first ++ Form.place (offset + (Form.written first []).length) second := by
  induction first generalizing offset with
  | nil => rfl
  | cons text texts ih =>
    have length : offset + text.length + 1 + (Form.written texts []).length =
        offset + (Form.written (text :: texts) []).length := by
      simp only [Form.written, List.flatMap_cons, List.append_nil, List.length_append,
        List.length_singleton]
      omega
    rw [List.cons_append, Form.place, Form.place, ih, length]
    rfl

/-- What is cut is as long as the text. -/
theorem Form.length_cutText {text : List Char} (closed : (Lexeme.ofText text).2 = []) :
    (Form.written (Form.cutText text).1 []).length + (Form.cutText text).2.length =
      text.length := by
  have whole :=
    congrArg List.length (Form.written_split ((Lexeme.ofText text).1.flatMap Lexeme.blanked))
  have blanked := Form.blankComments_of_closed closed
  rw [Form.split_of_blankComments blanked, Form.map_text_place,
    length_blankComments blanked] at whole
  rw [← whole]
  simp [Form.written]

variable {first second : List Char}

/-- The items of two texts in a row are those of the first, and then those of the second in its
place. -/
theorem Item.ofTexts_append (complete : Form.IsComplete first) (parts : Form.PartsFrom first second)
    (offset : Nat) :
    Item.ofTexts source offset (Form.cutText (first ++ second)).1 =
      Item.ofTexts source offset (Form.cutText first).1 ++
        Item.ofTexts source (offset + first.length) (Form.cutText second).1 := by
  obtain ⟨closed, blank⟩ := Form.isComplete_iff.mp complete
  have length := Form.length_cutText closed
  rw [Form.cutText_append closed parts, Form.join, Item.ofTexts, Form.place_append,
    List.filterMap_append]
  congr 1
  rw [← length, ← Nat.add_assoc]
  exact Item.ofTexts_prepend blank _ _

namespace Sheet

private theorem unfinished?_blanks (blank : Text.isAllBlank blanks = true) (rest : List Char) :
    unfinished? source (blanks ++ rest) = unfinished? source rest := by
  unfold unfinished?
  rw [trimStart_append_of_blank blank]

private theorem unfinished?_append (complete : Form.IsComplete first)
    (parts : Form.PartsFrom first second) : unfinished? source (Form.cutText (first ++ second)).2 =
      unfinished? source (Form.cutText second).2 := by
  obtain ⟨closed, blank⟩ := Form.isComplete_iff.mp complete
  rw [Form.cutText_append closed parts]
  obtain ⟨_ | ⟨form, forms⟩, rest⟩ := Form.cutText second
  · exact unfinished?_blanks blank rest
  · rfl

theorem unfinished?_eq_none_iff {rest : List Char} :
    unfinished? source rest = none ↔ (Text.trimStart rest).isEmpty = true := by
  simp [unfinished?]

/-- The items of a part of a file that starts at some offset, and the form without a dot that the
part ends in, unless something quoted is left open in it. -/
def part? (source : Source) (offset : Nat) (text : List Char) : Option (List Item × Option Span) :=
  if (Lexeme.ofText text).2 = [] then
    some (Item.ofTexts source offset (Form.cutText text).1,
      unfinished? source (Form.cutText text).2)
  else none

theorem part?_nil (offset : Nat) : part? source offset [] = some ([], none) := by
  rw [part?, Form.cutText, Lexeme.ofCleared, ofText_nil]
  rfl

/-- After a complete part a file goes on with the items of the next. -/
theorem part?_append (complete : Form.IsComplete first) (parts : Form.PartsFrom first second)
    (offset : Nat) :
    part? source offset (first ++ second) = (part? source (offset + first.length) second).map
      fun later => (Item.ofTexts source offset (Form.cutText first).1 ++ later.1, later.2) := by
  have closed := (Form.isComplete_iff.mp complete).1
  unfold part?
  rw [Form.ofText_append_of_partsFrom closed parts, Item.ofTexts_append complete parts,
    unfinished?_append complete parts]
  split
  · rfl
  · rfl

/-- A file is read as a sheet exactly if it is read as one part. -/
theorem ofSource_eq_ok_iff {sheet : Sheet} :
    ofSource source = .ok sheet ↔
      sheet.path = source.path ∧ part? source 0 source.content =
        some (sheet.items, sheet.unfinished) := by
  unfold part?
  split
  · next closed =>
    have blanked := Form.blankComments_of_closed closed
    have read : ofSource source =
        .ok ⟨source.path, Item.ofTexts source 0 (Form.cutText source.content).1,
        unfinished? source (Form.cutText source.content).2⟩ := by
      simp only [ofSource, blanked, Form.split_of_blankComments blanked]
      rfl
    rw [read]
    constructor
    · rintro ⟨⟩
      exact ⟨rfl, rfl⟩
    · intro same
      obtain ⟨path, items, unfinished⟩ := sheet
      obtain ⟨rfl, same⟩ := same
      cases same
      rfl
  · next unclosed =>
    constructor
    · intro read
      unfold ofSource at read
      split at read
      · cases read
      · next clean blanked => exact absurd (Form.closed_of_blankComments blanked).1 unclosed
    · rintro ⟨-, ⟨⟩⟩

end Sheet

end SignatureIndex
