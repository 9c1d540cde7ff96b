import SignatureIndex.Proofs.Contexts

/-!
# Tokens that can be looked into

A token that is not sealed gives itself away in some spec.  A character literal does so in the
result of a function, right before a capital letter, and a quoted atom as the name of a function.  A
string whose marks are not matched in it lets them match the marks of what comes after it, which
brings out a variable.  Once they are matched, what is left of it counts for itself: a variable in a
result, and commas and brackets among arguments, at the depth at which they do.
-/

namespace SignatureIndex

/-! ## Literals and atoms -/

private theorem mem_typeVariables {s name : List Char}
    (among : name ∈ variablesAfter none (blankQuoted s))
    (named : name ≠ ['_']) : name ∈ typeVariables s := by
  simp [typeVariables, among, named]

/-- A capital letter right after a character that does not end a name, or after the start of a
variable, shows that character. -/
theorem exists_variable_of_not_isInert {c d : Char} (free : bars d = false)
    (shows : isInert c = false) : ∃ name ∈ variablesAfter (some d) [c, 'B'], name ≠ ['_'] := by
  cases starts : startsVariable c with
  | true =>
    refine ⟨[c, 'B'], ?_, by simp⟩
    rw [variablesAfter]
    simp [starts, free, isNameChar]
  | false =>
    have free : bars c = false := by simpa [isInert, starts] using shows
    refine ⟨['B'], ?_, by simp⟩
    rw [variablesAfter_cons starts, variablesAfter]
    simp [startsVariable, free]

private theorem exists_variable_of_not_isInertPayload {payload : List Char}
    (whole : Lexeme.isLiteralBody payload = true) (shows : isInertPayload payload = false) :
    ∃ name ∈ variablesAfter (some '$') (blankQuoted (payload ++ ['B'])), name ≠ ['_'] := by
  have unmatched (c : Char) : blankQuoted [c, 'B'] = [c, 'B'] := by
    rw [blankQuoted_cons]
    · rfl
    · intro mark
      rcases eq_of_isMark mark with rfl | rfl <;> decide
  rcases payload with _ | ⟨c, _ | ⟨d, _ | ⟨e, payload⟩⟩⟩
  · cases whole
  · rw [List.singleton_append, unmatched]
    exact exists_variable_of_not_isInert (by decide) shows
  · obtain rfl : c = '\\' := by simpa [Lexeme.isLiteralBody] using whole
    have shows : isInert d = false := by simpa [isInertPayload] using shows
    have notMark : Lexeme.isMark '\\' = false := by decide
    rw [List.cons_append, List.singleton_append, blankQuoted_cons (by simp [notMark]), unmatched,
      variablesAfter_cons (by decide)]
    exact exists_variable_of_not_isInert (by decide) shows
  · cases whole

/-- In the result of a function, right before a capital letter, a literal shows whether it ends in a
character that belongs to a name. -/
theorem isInertPayload_of_isOpaque {payload : List Char}
    (whole : Lexeme.isLiteralBody payload = true)
    (isOpaque : IsOpaque (.literal ('$' :: payload))) : isInertPayload payload = true := by
  cases shows : isInertPayload payload with
  | true => rfl
  | false =>
    have next : Lexeme.next? '$' (payload ++ ['B']) = some (.literal ('$' :: payload), ['B']) := by
      have body := literalBody_append whole ['B']
      simp [Lexeme.next?, Lexeme.isMark, Text.doubleMark, Text.apostrophe, body]
    have last : Lexeme.ofText ['B'] = ([.plain 'B'], []) := by decide +kernel
    have start : Lexeme.ofText ('$' :: (payload ++ ['B'])) =
        ([.literal ('$' :: payload), .plain 'B'], []) := by
      rw [ofText_of_next? next, last]
    have same := isOpaque "spec" noSpan _ _ [.plain 'B'] ['a'] (ofText_resultStart start)
      (by decide) rfl
    have overwritten : Declaration.signature? (Declaration.ofSpec
        ⟨"spec", "f() -> $aB", noSpan⟩) = some (0, []) := by decide +kernel
    -- so there must be no variables, but there is one
    have noNames :
        (typeVariables (resultStart ++ ('$' :: payload ++ ['B']))).map String.ofList = [] :=
      typeVariables_of_signature? (by decide) (same.trans overwritten)
    obtain ⟨name, among, named⟩ := exists_variable_of_not_isInertPayload whole shows
    have starts : ∀ c ∈ resultStart ++ ['$'], startsVariable c = false := by
      simp only [resultStart, List.cons_append, List.nil_append, List.forall_mem_cons,
        List.not_mem_nil, IsEmpty.forall_iff, implies_true, and_true]
      decide
    have found : name ∈ typeVariables (resultStart ++ ('$' :: payload ++ ['B'])) := by
      refine mem_typeVariables ?_ named
      rw [blankQuoted_resultStart, List.cons_append,
        blankQuoted_cons fun mark => absurd mark (by decide), variablesAfter_append starts]
      exact among
    rw [List.map_eq_nil_iff.mp noNames] at found
    cases found

private theorem functionHead?_of_unclosed {s : List Char}
    (unclosed : Blanking.payload? Text.apostrophe s = none) :
    functionHead? (Text.apostrophe :: s) = none := by
  have noAtom : atom? (Text.apostrophe :: s) = none := by
    rw [atom?_cons, unclosed]
    rfl
  rw [functionHead?, afterModule?_eq, headAtom?_eq, noAtom]
  rfl

/-- As the name of a function, an atom shows whether it is closed. -/
theorem escapesFeed_of_isOpaque {written : List Char}
    (closed : Lexeme.close? Text.apostrophe written = some (written, []))
    (isOpaque : IsOpaque (.quoted (Text.apostrophe :: written))) :
    Lexeme.escapesFeed written = false := by
  cases escapes : Lexeme.escapesFeed written with
  | false => rfl
  | true =>
    have next := next?_quoted rfl (close?_append closed ['(', ')', ' ', '-', '>', ' ', 'o', 'k'])
    have rest : Lexeme.ofText ['(', ')', ' ', '-', '>', ' ', 'o', 'k'] =
        (['(', ')', ' ', '-', '>', ' ', 'o', 'k'].map .plain, []) := by decide +kernel
    have read := ofText_of_next? next
    rw [List.nil_append, rest] at read
    have same := isOpaque "spec" noSpan _ [] _ ['a'] read (by simp) rfl
    have overwritten : Declaration.signature? (Declaration.ofSpec
        ⟨"spec", "'a'() -> ok", noSpan⟩) = some (0, []) := by decide +kernel
    have told := same.trans overwritten
    -- no name is found, so the spec is not accepted
    obtain ⟨body, rfl, closes⟩ := payload?_of_close? closed
    rw [escapes] at closes
    have unclosed := functionHead?_of_unclosed (closes ['(', ')', ' ', '-', '>', ' ', 'o', 'k'])
    rw [signature?_ofSpec, unwrap_of_ne (by simp [Text.apostrophe]), List.append_assoc,
      List.singleton_append, unclosed] at told
    cases told

/-! ## Strings -/

section Strings

open Text (doubleMark)

variable {written : List Char} (closed : Lexeme.close? doubleMark written = some (written, []))
  (isOpaque : IsOpaque (.quoted (doubleMark :: written)))
include closed isOpaque

/-- An opaque string may be replaced by a letter between marks. -/
theorem signature?_replace {front tail : List Char}
    (plain : ∀ c ∈ front, Lexeme.isMark c = false ∧ c ≠ '$' ∧ c ≠ '%')
    (read : (Lexeme.ofText tail).2 = []) :
    Declaration.signature? (Declaration.ofSpec
        ⟨"spec", String.ofList (front ++ (doubleMark :: written ++ tail)), noSpan⟩) =
      Declaration.signature? (Declaration.ofSpec
        ⟨"spec", String.ofList (front ++ (letter ++ tail)), noSpan⟩) := by
  have start : Lexeme.ofText (doubleMark :: written ++ tail) =
      (.quoted (doubleMark :: written) :: (Lexeme.ofText tail).1, []) := by
    rw [List.cons_append, ofText_of_next? (next?_quoted rfl (close?_append closed tail)),
      List.nil_append, read]
  have sound : ∀ lexeme ∈ front.map Lexeme.plain, lexeme.isSound = true := by
    intro lexeme among
    obtain ⟨c, member, rfl⟩ := List.mem_map.mp among
    simp [Lexeme.isSound, (plain c member).1]
  have frontText : (front.map Lexeme.plain).flatMap Lexeme.text = front := by
    simp [List.flatMap_map, Lexeme.text]
  have tailText : (Lexeme.ofText tail).1.flatMap Lexeme.text = tail := by
    have whole := Lexeme.flatMap_text_ofText tail
    rwa [read, List.append_nil] at whole
  have same := isOpaque "spec" noSpan _ _ _ ['a'] (ofText_append_plain plain start) sound rfl
  rw [same, List.flatMap_append, List.flatMap_cons, frontText, tailText]
  rfl

/-- In the result of a function an opaque string shows no variables, if a letter in its place shows
none. -/
theorem namesAfter_result {front tail : List Char} {last : Char}
    (parts : doubleMark :: written ++ tail = front ++ [last]) (kept : Text.isBlank last = false)
    (read : (Lexeme.ofText tail).2 = [])
    (told : Declaration.signature? (Declaration.ofSpec ⟨"spec", String.ofList
      ('f' :: resultStart ++ (letter ++ tail)), noSpan⟩) = some (0, [])) :
    namesAfter none (resultStart ++ blankQuoted (doubleMark :: written ++ tail)) = [] := by
  have same :=
    (signature?_replace closed isOpaque (fun _ => plain_of_mem_resultStart) read).trans told
  rw [parts] at same ⊢
  have nameless := List.map_eq_nil_iff.mp (typeVariables_of_signature? kept same)
  rwa [typeVariables_eq_nil_iff, blankQuoted_resultStart] at nameless

/-- Right before a letter between marks, a string shows whether its marks are matched. -/
theorem isSettledFrom_of_isOpaque : isSettledFrom 0 (doubleMark :: written) = true := by
  cases settled : isSettledFrom 0 (doubleMark :: written) with
  | true => rfl
  | false =>
    have last : (doubleMark :: written).getLast? ≠ some '\\' := by
      obtain ⟨body, rfl, -⟩ := payload?_of_close? closed
      rw [← List.cons_append, List.getLast?_concat]
      decide
    obtain ⟨mark, front, isMark, blanked⟩ :=
      exists_mark_of_not_isSettledFrom settled (Nat.zero_le _) last
    have parts : doubleMark :: written ++ [mark, 'B', mark] =
        (doubleMark :: written ++ [mark, 'B']) ++ [mark] := by simp
    have shown : namesAfter none (resultStart ++
        blankQuoted (doubleMark :: written ++ [mark, 'B', mark])) = [] := by
      rcases eq_of_isMark isMark with rfl | rfl <;>
      exact namesAfter_result closed isOpaque parts (by decide) (by decide +kernel) (by
        decide +kernel)
    -- but the letter is not between marks any more
    have found : ['B'] ∈ namesAfter (some mark) ['B', mark] := by
      rcases eq_of_isMark isMark with rfl | rfl <;> decide +kernel
    have alone : Blanking.blankFrom 0 ['B', mark] = ['B', mark] := by
      rcases eq_of_isMark isMark with rfl | rfl <;> decide
    rw [blankQuoted, blanked, alone, ← List.append_assoc, namesAfter,
      variablesAfter_append_mark isMark, List.filter_append, List.append_eq_nil_iff] at shown
    rw [namesAfter, shown.2] at found
    cases found

/-- By itself, a string shows whether there are variables in it. -/
theorem nameless_of_isOpaque : namesAfter none (blankQuoted (doubleMark :: written)) = [] := by
  have ⟨body, ends, _⟩ := payload?_of_close? closed
  have parts : doubleMark :: written ++ [] = (doubleMark :: body) ++ [doubleMark] := by simp [ends]
  have shown := namesAfter_result closed isOpaque parts (by decide) (ofText_of_plain (by simp))
    (by decide +kernel)
  obtain ⟨inner, started⟩ := exists_blankQuoted_cons doubleMark written
  rw [List.append_nil, started, namesAfter, variablesAfter_append_mark rfl, List.filter_append,
    List.append_eq_nil_iff] at shown
  rw [started, namesAfter, variablesAfter_cons (by decide)]
  exact shown.2

/-- Among arguments, an opaque string counts as much as a letter between marks. -/
theorem sizeOf?_call (n : Int) (tail : List Char)
    (plain : ∀ c ∈ tail, Lexeme.isMark c = false ∧ c ≠ '$' ∧ c ≠ '%') :
    (Group.sizeOf? ('(' :: (slope n ++ (doubleMark :: written ++ tail)))).map Prod.fst =
      (Group.sizeOf? ('(' :: (slope n ++ (letter ++ tail)))).map Prod.fst := by
  have front : ∀ c ∈ 'f' :: '(' :: slope n, Lexeme.isMark c = false ∧ c ≠ '$' ∧ c ≠ '%' := by
    intro c among
    simp only [List.mem_cons] at among
    rcases among with rfl | rfl | among
    · decide
    · decide
    · exact plain_of_mem_slope among
  have replaced := signature?_replace closed isOpaque front (ofText_of_plain plain)
  have same := congrArg (Option.map Prod.fst) replaced
  simp only [List.cons_append, arity_of_call] at same
  exact same

theorem places_call (n : Int) (tail : List Char) :
    Group.splitFrom 1 (places (slope n ++ (doubleMark :: written ++ tail))) =
      (Group.splitFrom (1 + n)
        ((blankQuoted (doubleMark :: written)).zip (doubleMark :: written) ++ places tail)).map
          (Group.extend (slope n)) := by
  have starts : ∀ m, (doubleMark :: written ++ tail).head? = some m → m ≠ '<' ∧ m ≠ '>' := by
    intro m head
    obtain rfl : doubleMark = m := Option.some.inj head
    decide
  rw [splitFrom_slope n 1 starts, places_append (isSettledFrom_of_isOpaque closed isOpaque)]

/-- At the right depth among arguments, a string shows its first comma or closing bracket. -/
theorem endless_of_isOpaque : ∀ m ∈ blankQuoted (doubleMark :: written), Group.isEnd m = false := by
  intro m among
  cases ends : Group.isEnd m with
  | false => rfl
  | true =>
    obtain ⟨level, front, mark, c, inner, endsHere, split⟩ :=
      Group.exists_end (length_blankQuoted _) among ends
    -- brackets in front of the string put its first end at the outermost level
    have outermost : 1 + -level + level = 1 := by omega
    have call (tail : List Char) :
        Group.splitFrom 1 (places (slope (-level) ++ (doubleMark :: written ++ tail))) =
          (Group.splitFrom 1 ((mark, c) :: (inner ++ places tail))).map
            (Group.extend (slope (-level) ++ front)) := by
      rw [places_call closed isOpaque, split, outermost, Group.map_extend_extend]
    by_cases closes : Group.isClose mark = true
    · -- the group ends in the string, while one with a letter does not end at all
      have same := sizeOf?_call closed isOpaque (-level) [] (by simp)
      rw [sizeOf?_letter_nil, Group.sizeOf?_cons, call, Group.splitFrom_of_isEnd endsHere,
        if_pos closes] at same
      cases same
    · -- there are two arguments at least, while there is one if it is a letter
      have plain : ∀ d ∈ slope level ++ [')'], Lexeme.isMark d = false ∧ d ≠ '$' ∧ d ≠ '%' := by
        intro d member
        rcases List.mem_append.mp member with member | member
        · exact plain_of_mem_slope member
        · obtain rfl := List.mem_singleton.mp member
          decide
      have one := sizeOf?_letter (-level)
      rw [Int.neg_neg] at one
      have same := sizeOf?_call closed isOpaque (-level) _ plain
      rw [one, Group.sizeOf?_cons, call, Group.splitFrom_of_isEnd endsHere, if_neg closes] at same
      cases others : Group.splitFrom 1 (inner ++ places (slope level ++ [')'])) with
      | none =>
        rw [others] at same
        cases same
      | some group =>
        have more := Group.items_ne_nil others
        obtain ⟨items, rest⟩ := group
        cases items with
        | nil => exact absurd rfl more
        | cons item items =>
          rw [others] at same
          simp [Group.extend, Group.outline, Group.size] at same

/-- As the only argument, a string shows whether its brackets come to nothing. -/
theorem net_of_isOpaque : Group.net (blankQuoted (doubleMark :: written)) = 0 := by
  have endless := endless_of_isOpaque closed isOpaque
  have plain : ∀ c ∈ [')'], Lexeme.isMark c = false ∧ c ≠ '$' ∧ c ≠ '%' := by simp; decide
  have one := (sizeOf?_call closed isOpaque 0 [')'] plain).trans
    (congrArg (Option.map Prod.fst) (sizeOf?_letter 0))
  have apart (m : Char) (last : (blankQuoted (doubleMark :: written)).getLast? = some m)
      (head : (places [')']).head?.map Prod.fst = some m) : m ≠ '<' ∧ m ≠ '>' := by
    obtain rfl : ')' = m := Option.some.inj head
    decide
  have split := places_call closed isOpaque 0 [')']
  rw [Int.add_zero, Group.splitFrom_append (length_blankQuoted _) endless apart] at split
  by_contra unbalanced
  have level : ¬1 + Group.net (blankQuoted (doubleMark :: written)) = 1 := by omega
  have none : Group.splitFrom (1 + Group.net (blankQuoted (doubleMark :: written))) (places [')']) =
      none := Group.splitFrom_singleton.trans (if_neg fun both => level both.2)
  rw [Group.sizeOf?_cons, split, none] at one
  cases one

private theorem isStill_of_isOpaque : isStill (doubleMark :: written) = true :=
  isStill_iff.mpr ⟨isSettledFrom_of_isOpaque closed isOpaque, endless_of_isOpaque closed isOpaque,
    net_of_isOpaque closed isOpaque, nameless_of_isOpaque closed isOpaque⟩

end Strings

/-! ## Which tokens are opaque -/

/-- Exactly the sealed tokens are opaque.  A quoted part is closed where the scanner closes it,
whatever comes after it, exactly if it takes no line feed along. -/
theorem isOpaque_iff {token : Lexeme} (whole : token.IsWhole) :
    (IsOpaque token ↔ token.isSealed = true) ∧
    ∀ mark written, token = .quoted (mark :: written) →
      ((∀ rest, Blanking.payload? mark (written ++ rest) = some (written.length - 1)) ↔
        Lexeme.escapesFeed written = false) := by
  refine ⟨⟨fun isOpaque => ?_, isOpaque_of_isSealed whole⟩, ?_⟩
  · cases whole with
    | literal whole => exact isInertPayload_of_isOpaque whole isOpaque
    | @quoted mark written isMark closed =>
      simp only [Lexeme.isSealed, Bool.or_eq_true, Bool.and_eq_true, Bool.not_eq_true', beq_iff_eq]
      rcases eq_of_isMark isMark with rfl | rfl
      · exact .inr ⟨rfl, isStill_of_isOpaque closed isOpaque⟩
      · exact .inl (escapesFeed_of_isOpaque closed isOpaque)
  · rintro mark written rfl
    cases whole with
    | quoted isMark closed =>
      obtain ⟨body, rfl, closes⟩ := payload?_of_close? closed
      have length : (body ++ [mark]).length - 1 = body.length := by simp
      simp only [List.append_assoc, List.singleton_append, closes, length]
      cases Lexeme.escapesFeed (body ++ [mark]) <;> simp

theorem isOpaque_iff_of_samples :
    IsOpaque (.literal ['$', 'a']) ∧ ¬IsOpaque (.literal ['$', '\\', 'Z']) ∧
      IsOpaque (.quoted ['\x27', 'A', ',', '(', '\x27']) ∧
      IsOpaque (.quoted ['\x22', '\\', '\x22', ')', '\x22']) ∧
      ¬IsOpaque (.quoted ['\x22', '\\', '\n', '\x22']) ∧
      IsOpaque (.quoted ['\x22', '\\', '\n', '\\', '\x22', '\x22']) := by
  have letter : Lexeme.IsWhole (.literal ['$', 'a']) := .literal rfl
  have capital : Lexeme.IsWhole (.literal ['$', '\\', 'Z']) := .literal rfl
  have atom : Lexeme.IsWhole (.quoted ['\x27', 'A', ',', '(', '\x27']) := .quoted rfl rfl
  have string : Lexeme.IsWhole (.quoted ['\x22', '\\', '\x22', ')', '\x22']) := .quoted rfl rfl
  have broken : Lexeme.IsWhole (.quoted ['\x22', '\\', '\n', '\x22']) := .quoted rfl rfl
  have mended : Lexeme.IsWhole (.quoted ['\x22', '\\', '\n', '\\', '\x22', '\x22']) :=
    .quoted rfl rfl
  refine ⟨(isOpaque_iff letter).1.mpr rfl, ?_, (isOpaque_iff atom).1.mpr rfl,
    (isOpaque_iff string).1.mpr rfl, ?_, (isOpaque_iff mended).1.mpr (by decide +kernel)⟩
  · intro isOpaque
    cases (isOpaque_iff capital).1.mp isOpaque
  · intro isOpaque
    have isSealed := (isOpaque_iff broken).1.mp isOpaque
    revert isSealed
    decide +kernel

/-- A comma after a dollar counts as a comma between arguments. -/
theorem not_isOpaque_literal_comma : ¬IsOpaque (.literal ['$', ',']) := by
  intro isOpaque
  have read : Lexeme.ofText ['f', '(', '$', ',', ')', ' ', '-', '>', ' ', 'o', 'k'] =
      ([.plain 'f', .plain '('] ++ .literal ['$', ','] ::
        [')', ' ', '-', '>', ' ', 'o', 'k'].map .plain, []) := by decide +kernel
  have same := isOpaque "spec" ⟨"m.erl", 1, 1, 1, 17⟩ _ _ _ ['a'] read (by decide) rfl
  have two : Declaration.signature? (Declaration.ofSpec
      ⟨"spec", "f($,) -> ok", ⟨"m.erl", 1, 1, 1, 17⟩⟩) = some (2, []) := by decide +kernel
  have one : Declaration.signature? (Declaration.ofSpec
      ⟨"spec", "f($a) -> ok", ⟨"m.erl", 1, 1, 1, 17⟩⟩) = some (1, []) := by decide +kernel
  have wrong := two.symm.trans (same.trans one)
  cases wrong

end SignatureIndex
