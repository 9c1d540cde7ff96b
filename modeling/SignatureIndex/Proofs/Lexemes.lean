import SignatureIndex.Source.Lexeme

/-!
# Lexemes in a row

What a lexeme takes of a text is known once it ends: the same lexeme is read in front of any other
text, if it ends there too.  Only a literal that is cut off and a comment look at what comes next.
So the lexemes of two texts in a row are those of the first and then those of the second, whenever
the last lexeme of the first ends before the second.
-/

namespace SignatureIndex

namespace Lexeme

/-- What stands after the dollar of a literal that is not cut off. -/
def isLiteralBody : List Char → Bool
  | [c] => c != '\\'
  | [c, _] => c == '\\'
  | _ => false

/-- Whether a lexeme ends where a text comes after it. -/
def stopsAt (text : List Char) : Lexeme → Bool
  | literal written => text.isEmpty || isLiteralBody (written.drop 1)
  | comment _ => text.head?.all (· == '\n')
  | quoted _ | plain _ => true

end Lexeme

variable {c : Char} {cs rest : List Char} {lexeme : Lexeme}

/-! ## One lexeme -/

theorem literalBody_append {payload : List Char} (whole : Lexeme.isLiteralBody payload = true)
    (rest : List Char) : Lexeme.literalBody (payload ++ rest) = (payload, rest) := by
  rcases payload with _ | ⟨d, _ | ⟨e, _ | ⟨f, payload⟩⟩⟩
  · cases whole
  · have notBackslash : d ≠ '\\' := by simpa [Lexeme.isLiteralBody] using whole
    cases rest <;> simp [Lexeme.literalBody, notBackslash]
  · have backslash : d = '\\' := by simpa [Lexeme.isLiteralBody] using whole
    cases rest <;> simp [Lexeme.literalBody, backslash]
  · cases whole

/-- A literal is cut off only by the end of the text. -/
theorem isLiteralBody_literalBody (more : (Lexeme.literalBody cs).2 ≠ []) :
    Lexeme.isLiteralBody (Lexeme.literalBody cs).1 = true := by
  fun_cases Lexeme.literalBody cs with
  | case1 => exact absurd rfl more
  | case2 => exact absurd rfl more
  | case3 d cs => rfl
  | case4 c d cs notBackslash => simpa [Lexeme.isLiteralBody] using notBackslash

private theorem literalBody_self (cs : List Char) :
    Lexeme.literalBody (Lexeme.literalBody cs).1 = ((Lexeme.literalBody cs).1, []) := by
  fun_cases Lexeme.literalBody cs with
  | case1 => rfl
  | case2 => rfl
  | case3 d cs => rfl
  | case4 c d cs notBackslash => rfl

theorem close?_append {mark : Char} {s written rest : List Char}
    (closed : Lexeme.close? mark s = some (written, rest)) (more : List Char) :
    Lexeme.close? mark (s ++ more) = some (written, rest ++ more) := by
  fun_induction Lexeme.close? mark s generalizing written with
  | case1 => cases closed
  | case2 c here => -- the mark ends the text
    obtain ⟨rfl, notBackslash⟩ := here
    cases closed
    cases more <;> simp [Lexeme.close?, notBackslash]
  | case3 => cases closed
  | case4 d cs ih => -- a backslash takes `d` along
    obtain ⟨⟨inner, after⟩, found, same⟩ := Option.map_eq_some_iff.mp closed
    cases same
    simp [Lexeme.close?, ih found]
  | case5 d cs notBackslash => -- the mark
    cases closed
    simp [Lexeme.close?, notBackslash]
  | case6 c d cs notBackslash notMark ih => -- any other character
    obtain ⟨⟨inner, after⟩, found, same⟩ := Option.map_eq_some_iff.mp closed
    cases same
    have next := ih found
    rw [List.cons_append] at next
    simp [Lexeme.close?, notBackslash, notMark, next]

/-- A quoted part is closed within what it takes. -/
theorem close?_self {mark : Char} {s written rest : List Char}
    (closed : Lexeme.close? mark s = some (written, rest)) :
    Lexeme.close? mark written = some (written, []) := by
  fun_induction Lexeme.close? mark s generalizing written with
  | case1 => cases closed
  | case2 c here => -- the mark ends the text
    obtain ⟨rfl, notBackslash⟩ := here
    cases closed
    simp [Lexeme.close?, notBackslash]
  | case3 => cases closed
  | case4 d cs ih => -- a backslash takes `d` along
    obtain ⟨⟨inner, after⟩, found, same⟩ := Option.map_eq_some_iff.mp closed
    cases same
    simp [Lexeme.close?, ih found]
  | case5 d cs notBackslash => -- the mark
    cases closed
    simp [Lexeme.close?, notBackslash]
  | case6 c d cs notBackslash notMark ih => -- any other character
    obtain ⟨⟨inner, after⟩, found, same⟩ := Option.map_eq_some_iff.mp closed
    cases same
    have next := ih found
    cases inner with
    | nil => cases next
    | cons e inner => simp [Lexeme.close?, notBackslash, notMark, next]

/-- A quoted part ends in its mark. -/
theorem exists_body_of_close? {mark : Char} {s written rest : List Char}
    (closed : Lexeme.close? mark s = some (written, rest)) : ∃ body, written = body ++ [mark] := by
  fun_induction Lexeme.close? mark s generalizing written with
  | case1 => cases closed
  | case2 c here => -- the mark ends the text
    obtain ⟨rfl, -⟩ := here
    cases closed
    exact ⟨[], rfl⟩
  | case3 => cases closed
  | case4 d cs ih => -- a backslash takes `d` along
    obtain ⟨⟨inner, after⟩, found, same⟩ := Option.map_eq_some_iff.mp closed
    cases same
    obtain ⟨body, rfl⟩ := ih found
    exact ⟨'\\' :: d :: body, rfl⟩
  | case5 d cs notBackslash => -- the mark
    cases closed
    exact ⟨[], rfl⟩
  | case6 c d cs notBackslash notMark ih => -- any other character
    obtain ⟨⟨inner, after⟩, found, same⟩ := Option.map_eq_some_iff.mp closed
    cases same
    obtain ⟨body, rfl⟩ := ih found
    exact ⟨c :: body, rfl⟩

/-- A quoted part with a mark in it is closed there, or at a later mark. -/
theorem exists_later_of_close? {mark : Char} {front more written rest : List Char}
    (unmarked : mark ∉ front)
    (closed : Lexeme.close? mark (front ++ mark :: more) = some (written, rest)) :
    ∃ later, written = front ++ mark :: later ∧ (later = [] ∨ mark ∈ later) := by
  obtain ⟨body, rfl⟩ := exists_body_of_close? closed
  have parts : body ++ mark :: rest = front ++ mark :: more := by
    simpa using Lexeme.append_of_close? closed
  rcases List.append_eq_append_iff.mp parts with
    ⟨_ | ⟨c, cs⟩, rfl, marks⟩ | ⟨_ | ⟨c, cs⟩, rfl, marks⟩
  · exact ⟨[], by simp, .inl rfl⟩
  · obtain ⟨rfl, -⟩ := List.cons.inj marks
    exact absurd (by simp) unmarked
  · exact ⟨[], by simp, .inl rfl⟩
  · obtain ⟨rfl, -⟩ := List.cons.inj marks
    exact ⟨cs ++ [mark], by simp, .inr (by simp)⟩

/-- The four kinds of lexemes, by the character that each starts with. -/
inductive Lexeme.Starts (c : Char) (cs : List Char) : Lexeme → List Char → Prop
  | quoted {written rest} : Lexeme.isMark c = true → Lexeme.close? c cs = some (written, rest) →
      Starts c cs (.quoted (c :: written)) rest
  | literal : c = '$' →
      Starts c cs (.literal (c :: (Lexeme.literalBody cs).1)) (Lexeme.literalBody cs).2
  | comment : c = '%' →
      Starts c cs (.comment (c :: cs.takeWhile (· ≠ '\n'))) (cs.dropWhile (· ≠ '\n'))
  | plain : Lexeme.isMark c = false → c ≠ '$' → c ≠ '%' → Starts c cs (.plain c) cs

theorem next?_eq_some_iff :
    Lexeme.next? c cs = some (lexeme, rest) ↔ Lexeme.Starts c cs lexeme rest := by
  constructor
  · intro found
    unfold Lexeme.next? at found
    split at found
    · next mark =>
      obtain ⟨⟨written, after⟩, closed, same⟩ := Option.map_eq_some_iff.mp found
      cases same
      exact .quoted mark closed
    next notMark =>
    split at found
    · next dollar =>
      cases found
      exact .literal dollar
    next notDollar =>
    split at found
    · next percent =>
      cases found
      exact .comment percent
    · next notPercent =>
      cases found
      exact .plain (by simpa using notMark) notDollar notPercent
  · intro starts
    cases starts with
    | quoted mark closed => simp [Lexeme.next?, mark, closed]
    | literal dollar =>
      subst dollar
      rfl
    | comment percent =>
      subst percent
      rfl
    | plain notMark notDollar notPercent => simp [Lexeme.next?, notMark, notDollar, notPercent]

theorem next?_quoted {written : List Char} (mark : Lexeme.isMark c = true)
    (closed : Lexeme.close? c cs = some (written, rest)) :
    Lexeme.next? c cs = some (.quoted (c :: written), rest) :=
  next?_eq_some_iff.mpr (.quoted mark closed)

/-- A percent sign and what follows it up to the end of the line. -/
theorem next?_comment {written : List Char} (inLine : '\n' ∉ written)
    (ends : rest.head?.all (· == '\n') = true) :
    Lexeme.next? '%' (written ++ rest) = some (.comment ('%' :: written), rest) := by
  have front : ∀ d ∈ written, decide (d ≠ '\n') = true := by
    intro d among
    have other : d ≠ '\n' := fun same => inLine (same ▸ among)
    simpa using other
  have back : rest.takeWhile (· ≠ '\n') = [] ∧ rest.dropWhile (· ≠ '\n') = rest := by
    cases rest with
    | nil => exact ⟨rfl, rfl⟩
    | cons d rest =>
      obtain rfl : d = '\n' := by simpa using ends
      exact ⟨rfl, rfl⟩
  have starts : Lexeme.Starts '%' (written ++ rest) _ _ := .comment rfl
  rw [List.takeWhile_append_of_pos front, List.dropWhile_append_of_pos front, back.1, back.2,
    List.append_nil] at starts
  exact next?_eq_some_iff.mpr starts

/-- A lexeme ends where the rest of the text starts. -/
theorem stopsAt_of_next? (found : Lexeme.next? c cs = some (lexeme, rest)) :
    lexeme.stopsAt rest = true := by
  cases next?_eq_some_iff.mp found with
  | quoted => rfl
  | plain => rfl
  | literal =>
    by_cases more : (Lexeme.literalBody cs).2 = []
    · simp [Lexeme.stopsAt, more]
    · simp [Lexeme.stopsAt, isLiteralBody_literalBody more]
  | comment =>
    have first := List.head?_dropWhile_not (fun d => decide (d ≠ '\n')) cs
    cases left : cs.dropWhile (· ≠ '\n') with
    | nil => rfl
    | cons d rest =>
      rw [left] at first
      simpa [Lexeme.stopsAt] using first

private theorem stopsAt_append {s : List Char} (stops : lexeme.stopsAt s = true) (more : s ≠ [])
    (t : List Char) : lexeme.stopsAt (s ++ t) = true := by
  cases s with
  | nil => exact absurd rfl more
  | cons c s => cases lexeme <;> exact stops

/-- A lexeme is read again in front of another text, if it ends there too. -/
theorem next?_of_stopsAt (found : Lexeme.next? c cs = some (lexeme, rest)) {other : List Char}
    (stops : lexeme.stopsAt other = true) :
    ∃ ds, lexeme.text ++ other = c :: ds ∧ Lexeme.next? c ds = some (lexeme, other) := by
  cases next?_eq_some_iff.mp found with
  | @quoted written _ mark closed =>
    refine ⟨written ++ other, rfl, ?_⟩
    exact next?_quoted mark (close?_append (close?_self closed) other)
  | plain notMark notDollar notPercent =>
    exact ⟨other, rfl, next?_eq_some_iff.mpr (.plain notMark notDollar notPercent)⟩
  | literal dollar =>
    subst dollar
    refine ⟨(Lexeme.literalBody cs).1 ++ other, rfl, ?_⟩
    -- a literal at the end of its text may go on, unless it is as long as it can be
    have again : Lexeme.literalBody ((Lexeme.literalBody cs).1 ++ other) =
        ((Lexeme.literalBody cs).1, other) := by
      simp only [Lexeme.stopsAt, List.drop_one, List.tail_cons, Bool.or_eq_true, List.isEmpty_iff]
        at stops
      rcases stops with rfl | whole
      · rw [List.append_nil]
        exact literalBody_self cs
      · exact literalBody_append whole other
    have starts : Lexeme.Starts '$' ((Lexeme.literalBody cs).1 ++ other) _ _ := .literal rfl
    rw [again] at starts
    exact next?_eq_some_iff.mpr starts
  | comment percent =>
    subst percent
    refine ⟨cs.takeWhile (· ≠ '\n') ++ other, rfl, next?_comment ?_ stops⟩
    intro among
    have inLine := List.all_eq_true.mp List.all_takeWhile _ among
    simp at inLine

/-! ## Rows of lexemes -/

/-- The first lexeme of a text, and the lexemes of the rest. -/
theorem exists_next_of_ofText {text unmatched : List Char} {lexemes : List Lexeme}
    (read : Lexeme.ofText text = (lexeme :: lexemes, unmatched)) :
    ∃ c cs rest, text = c :: cs ∧ Lexeme.next? c cs = some (lexeme, rest) ∧
      Lexeme.ofText rest = (lexemes, unmatched) := by
  unfold Lexeme.ofText at read
  split at read
  · cases read
  next c cs =>
  split at read
  · cases read
  next first rest found =>
    obtain ⟨same, unmatchedSame⟩ := Prod.mk.inj read
    obtain ⟨rfl, rfl⟩ := List.cons.inj same
    exact ⟨c, cs, rest, rfl, found, Prod.ext rfl unmatchedSame⟩

theorem ofText_nil : Lexeme.ofText [] = ([], []) := by rw [Lexeme.ofText]

theorem ofText_of_next? (found : Lexeme.next? c cs = some (lexeme, rest)) :
    Lexeme.ofText (c :: cs) = (lexeme :: (Lexeme.ofText rest).1, (Lexeme.ofText rest).2) := by
  rw [Lexeme.ofText]
  split
  · next none => rw [found] at none; cases none
  · next other after here =>
    rw [found] at here
    cases here
    rfl

theorem ofText_of_none (none : Lexeme.next? c cs = none) :
    Lexeme.ofText (c :: cs) = ([], c :: cs) := by
  rw [Lexeme.ofText]
  split
  · rfl
  · next found =>
    rw [none] at found
    cases found

theorem exists_next_of_mem_ofText {text : List Char} (among : lexeme ∈ (Lexeme.ofText text).1) :
    ∃ c cs rest, Lexeme.next? c cs = some (lexeme, rest) := by
  fun_induction Lexeme.ofText text with
  | case1 => cases among
  | case2 => cases among
  | case3 c cs first rest found _ lexemes unmatched deeper ih =>
    rcases List.mem_cons.mp among with rfl | among
    · exact ⟨c, cs, rest, found⟩
    · rw [deeper] at ih
      exact ih among

theorem ofText_append_plain {front s unmatched : List Char} {lexemes : List Lexeme}
    (plain : ∀ c ∈ front, Lexeme.isMark c = false ∧ c ≠ '$' ∧ c ≠ '%')
    (read : Lexeme.ofText s = (lexemes, unmatched)) :
    Lexeme.ofText (front ++ s) = (front.map Lexeme.plain ++ lexemes, unmatched) := by
  induction front with
  | nil => exact read
  | cons c front ih =>
    obtain ⟨notMark, notDollar, notPercent⟩ := plain c (by simp)
    have next : Lexeme.next? c (front ++ s) = some (.plain c, front ++ s) := by
      simp [Lexeme.next?, notMark, notDollar, notPercent]
    rw [List.cons_append, ofText_of_next? next, ih fun d among => plain d (by simp [among])]
    rfl

theorem ofText_plain {text : List Char}
    (plain : ∀ c ∈ text, Lexeme.isMark c = false ∧ c ≠ '$' ∧ c ≠ '%') :
    Lexeme.ofText text = (text.map .plain, []) := by
  have read := ofText_append_plain plain ofText_nil
  rwa [List.append_nil, List.append_nil] at read

theorem ofText_feed : Lexeme.ofText ['\n'] = ([.plain '\n'], []) :=
  ofText_plain (by simp [Lexeme.isMark, Text.doubleMark, Text.apostrophe])

/-- The lexemes of two texts in a row, if the last lexeme of the first ends before the second. -/
theorem ofText_append {s : List Char} {lexemes : List Lexeme}
    (read : Lexeme.ofText s = (lexemes, [])) (t : List Char)
    (stops : ∀ last ∈ lexemes.getLast?, last.stopsAt t = true) :
    Lexeme.ofText (s ++ t) = (lexemes ++ (Lexeme.ofText t).1, (Lexeme.ofText t).2) := by
  induction lexemes generalizing s with
  | nil =>
    have whole := Lexeme.flatMap_text_ofText s
    rw [read] at whole
    rw [← whole]
    rfl
  | cons lexeme lexemes ih =>
    obtain ⟨c, cs, rest, rfl, found, later⟩ := exists_next_of_ofText read
    have left := Lexeme.flatMap_text_ofText rest
    rw [later, List.append_nil] at left
    -- only the last lexeme has the second text right after it
    have ends : lexeme.stopsAt (rest ++ t) = true := by
      cases lexemes with
      | nil =>
        subst left
        exact stops lexeme rfl
      | cons next lexemes =>
        refine stopsAt_append (stopsAt_of_next? found) ?_ t
        obtain ⟨d, ds, -, same, -, -⟩ := exists_next_of_ofText later
        simp [same]
    have stopsLater : ∀ last ∈ lexemes.getLast?, last.stopsAt t = true := by
      intro last isLast
      apply stops
      rw [Option.mem_def] at isLast ⊢
      rw [List.getLast?_cons, isLast]
      rfl
    obtain ⟨ds, same, again⟩ := next?_of_stopsAt found ends
    rw [← List.append_assoc, Lexeme.append_of_next? found, List.cons_append] at same
    obtain ⟨-, rfl⟩ := List.cons.inj same
    rw [List.cons_append, ofText_of_next? again, ih later stopsLater]
    rfl

end SignatureIndex
