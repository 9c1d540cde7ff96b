import SignatureIndex.Proofs.QuotedParts

/-!
# Texts in which nothing counts

What is read off a type counts brackets and commas and looks for variables, in the text with its
quoted parts blanked out.  A text is *still* if it is settled and nothing that is left of it counts,
whatever it stands in: no item ends there, its brackets come to nothing, and it has no variables.
-/

namespace SignatureIndex

open Blanking (payload?)

/-- What the brackets of a blanked text come to.  A bracket that ends a group counts for nothing. -/
def Group.net : List Char → Int
  | [] => 0
  | [c] => if isOpen c then 1 else 0
  | c :: d :: cs =>
    if c = '<' ∧ d = '<' then net cs + 1
    else if c = '>' ∧ d = '>' then net cs - 1
    else if isOpen c then net (d :: cs) + 1
    else net (d :: cs)

/-- Whether nothing in a text counts. -/
def isStill (text : List Char) : Bool :=
  isSettledFrom 0 text && (blankQuoted text).all (!Group.isEnd ·) &&
    Group.net (blankQuoted text) == 0 && (typeVariables text).isEmpty

variable {c : Char} {s : List Char}

/-! ## One character of a group -/

namespace Group

variable {m : Char} {depth : Int} {rest : List (Char × Char)}

theorem splitFrom_nil : splitFrom depth [] = none := by rw [splitFrom]

theorem splitFrom_singleton :
    splitFrom depth [(m, c)] = if isClose m ∧ depth = 1 then some ⟨[[]], []⟩ else none := by
  rw [splitFrom]

theorem splitFrom_double_open {c d : Char} :
    splitFrom depth (('<', c) :: ('<', d) :: rest) =
      (splitFrom (depth + 1) rest).map (extend [c, d]) := by
  rw [splitFrom]
  simp

theorem splitFrom_double_close {c d : Char} :
    splitFrom depth (('>', c) :: ('>', d) :: rest) =
      (splitFrom (depth - 1) rest).map (extend [c, d]) := by
  rw [splitFrom]
  simp

/-- One character that is not one half of a double bracket. -/
theorem splitFrom_cons (notOpen : m = '<' → rest.head?.map Prod.fst ≠ some '<')
    (notClose : m = '>' → rest.head?.map Prod.fst ≠ some '>') :
    splitFrom depth ((m, c) :: rest) =
      if isOpen m then (splitFrom (depth + 1) rest).map (extend [c])
      else if isClose m then
        if depth = 1 then some ⟨[[]], rest.map Prod.snd⟩
        else (splitFrom (depth - 1) rest).map (extend [c])
      else if m = ',' ∧ depth = 1 then
        (splitFrom depth rest).map fun group => ⟨[] :: group.items, group.rest⟩
      else (splitFrom depth rest).map (extend [c]) := by
  cases rest with
  | nil =>
    rw [splitFrom_singleton]
    simp only [splitFrom_nil]
    by_cases opens : isOpen m = true
    · simp [opens, not_isClose_of_isOpen opens]
    · by_cases closes : isClose m = true <;> simp [opens, closes]
  | cons place rest =>
    obtain ⟨m', c'⟩ := place
    have noOpen : ¬(m = '<' ∧ m' = '<') := fun both => notOpen both.1 (by simp [both.2])
    have noClose : ¬(m = '>' ∧ m' = '>') := fun both => notClose both.1 (by simp [both.2])
    rw [splitFrom, if_neg noOpen, if_neg noClose]
    rfl

/-- A character that ends an item ends one at the outermost depth. -/
theorem splitFrom_of_isEnd (ends : isEnd m = true) :
    splitFrom 1 ((m, c) :: rest) =
      if isClose m then some ⟨[[]], rest.map Prod.snd⟩
      else (splitFrom 1 rest).map fun group => ⟨[] :: group.items, group.rest⟩ := by
  have notLess : m ≠ '<' := by
    rintro rfl
    cases ends
  have notGreater : m ≠ '>' := by
    rintro rfl
    cases ends
  rw [splitFrom_cons (fun same => absurd same notLess) fun same => absurd same notGreater]
  by_cases closes : isClose m = true
  · have notOpen : isOpen m = false := by
      cases opens : isOpen m with
      | false => rfl
      | true =>
        rw [not_isClose_of_isOpen opens] at closes
        cases closes
    simp [notOpen, closes]
  · obtain rfl : m = ',' := by simpa [isEnd, closes] using ends
    rfl

/-- A group has at least one item. -/
theorem items_ne_nil {places : List (Char × Char)} {group : Group}
    (split : splitFrom depth places = some group) : group.items ≠ [] := by
  have extended {text : List Char} {inner? : Option Group} {group : Group}
      (longer : inner?.map (extend text) = some group) : group.items ≠ [] := by
    obtain ⟨inner, -, rfl⟩ := Option.map_eq_some_iff.mp longer
    unfold extend
    split <;> simp
  fun_induction splitFrom depth places generalizing group with
  | case1 | case3 => cases split
  | case2 | case7 =>
    cases split
    simp
  | case4 | case5 | case6 | case8 | case10 => exact extended split
  | case9 =>
    obtain ⟨inner, -, rfl⟩ := Option.map_eq_some_iff.mp split
    simp

private theorem extend_extend (first second : List Char) (group : Group) :
    extend first (extend second group) = extend (first ++ second) group := by
  obtain ⟨items, rest⟩ := group
  cases items <;> simp [extend]

theorem map_extend_extend (first second : List Char) (group? : Option Group) :
    (group?.map (extend second)).map (extend first) = group?.map (extend (first ++ second)) := by
  rw [Option.map_map]
  congr 1
  funext group
  exact extend_extend first second group

private theorem map_extend_nil (places : List (Char × Char)) :
    (splitFrom depth places).map (extend []) = splitFrom depth places := by
  cases split : splitFrom depth places with
  | none => rfl
  | some group =>
    obtain ⟨items, rest⟩ := group
    cases items with
    | nil => exact absurd rfl (items_ne_nil split)
    | cons item items => rfl

/-! ### Stretches of a group -/

private theorem getLast?_cons_of_eq {α : Type} {a b : α} {as : List α}
    (last : as.getLast? = some b) : (a :: as).getLast? = some b := by
  rw [List.getLast?_cons, last, Option.getD_some]

private theorem exists_two_of_length {α β : Type} {a b : α} {as : List α} {bs : List β}
    (same : (a :: b :: as).length = bs.length) : ∃ c d rest, bs = c :: d :: rest := by
  rcases bs with _ | ⟨c, _ | ⟨d, rest⟩⟩
  · cases same
  · cases same
  · exact ⟨c, d, rest, rfl⟩

/-- A stretch that ends no item makes the one at hand longer, and what its brackets come to changes
the depth.  It must not share a double bracket with what comes after it. -/
theorem splitFrom_append {marks text : List Char} (same : marks.length = text.length)
    (endless : ∀ m ∈ marks, isEnd m = false)
    (apart : ∀ m, marks.getLast? = some m → rest.head?.map Prod.fst = some m → m ≠ '<' ∧ m ≠ '>') :
    splitFrom depth (marks.zip text ++ rest) =
      (splitFrom (depth + net marks) rest).map (extend text) := by
  -- the brackets of a stretch are counted by the same steps as a group is split
  fun_induction net marks generalizing text depth with
  | case1 =>
    obtain rfl := List.length_eq_zero_iff.mp same.symm
    rw [Int.add_zero, map_extend_nil]
    rfl
  | case2 m | case3 m =>
    obtain ⟨c, rfl⟩ := List.length_eq_one_iff.mp same.symm
    have free := endless m (by simp)
    have notOpen : m = '<' → rest.head?.map Prod.fst ≠ some '<' := by
      rintro rfl next
      exact (apart '<' rfl next).1 rfl
    have notClose : m = '>' → rest.head?.map Prod.fst ≠ some '>' := by
      rintro rfl next
      exact (apart '>' rfl next).2 rfl
    rw [List.zip_cons_cons, List.zip_nil_left, List.singleton_append,
      splitFrom_cons notOpen notClose]
    simp_all [isEnd]
  | case4 m m' marks double ih =>
    obtain ⟨rfl, rfl⟩ := double
    obtain ⟨c, d, text, rfl⟩ := exists_two_of_length same
    have shorter : splitFrom (depth + 1) (marks.zip text ++ rest) =
        (splitFrom (depth + 1 + net marks) rest).map (extend text) :=
      ih (by simpa using same) (fun m among => endless m (by simp [among]))
        fun m last => apart m (getLast?_cons_of_eq (getLast?_cons_of_eq last))
    rw [List.zip_cons_cons, List.zip_cons_cons, List.cons_append, List.cons_append,
      splitFrom_double_open, shorter, map_extend_extend, Int.add_assoc, Int.add_comm 1]
    rfl
  | case5 m m' marks _ double ih =>
    obtain ⟨rfl, rfl⟩ := double
    obtain ⟨c, d, text, rfl⟩ := exists_two_of_length same
    have shorter : splitFrom (depth - 1) (marks.zip text ++ rest) =
        (splitFrom (depth - 1 + net marks) rest).map (extend text) :=
      ih (by simpa using same) (fun m among => endless m (by simp [among]))
        fun m last => apart m (getLast?_cons_of_eq (getLast?_cons_of_eq last))
    have level : depth - 1 + net marks = depth + (net marks - 1) := by omega
    rw [List.zip_cons_cons, List.zip_cons_cons, List.cons_append, List.cons_append,
      splitFrom_double_close, shorter, map_extend_extend, level]
    rfl
  | case6 m m' marks notOpen notClose opens ih =>
    obtain ⟨c, d, text, rfl⟩ := exists_two_of_length same
    have shorter : splitFrom (depth + 1) ((m' :: marks).zip (d :: text) ++ rest) =
        (splitFrom (depth + 1 + net (m' :: marks)) rest).map (extend (d :: text)) :=
      ih (by simpa using same) (fun m among => endless m (by simp [among]))
        fun m last => apart m (getLast?_cons_of_eq last)
    rw [List.zip_cons_cons, List.cons_append, splitFrom_cons, if_pos opens, shorter,
      map_extend_extend, Int.add_assoc, Int.add_comm 1]
    · rfl
    · simpa using notOpen
    · simpa using notClose
  | case7 m m' marks notOpen notClose notOpening ih =>
    obtain ⟨c, d, text, rfl⟩ := exists_two_of_length same
    have shorter : splitFrom depth ((m' :: marks).zip (d :: text) ++ rest) =
        (splitFrom (depth + net (m' :: marks)) rest).map (extend (d :: text)) :=
      ih (by simpa using same) (fun m among => endless m (by simp [among]))
        fun m last => apart m (getLast?_cons_of_eq last)
    have free := endless m (by simp)
    simp only [isEnd, Bool.or_eq_false_iff, beq_eq_false_iff_ne] at free
    rw [List.zip_cons_cons, List.cons_append, splitFrom_cons, if_neg notOpening,
      if_neg (by simp [free.2]), if_neg (by simp [free.1]), shorter, map_extend_extend]
    · rfl
    · simpa using notOpen
    · simpa using notClose

/-- The first character of a stretch that ends an item, at the depth that it stands at. -/
theorem exists_end {marks text : List Char} (same : marks.length = text.length) {m : Char}
    (among : m ∈ marks) (ends : isEnd m = true) :
    ∃ level front mark c inner, isEnd mark = true ∧ ∀ depth rest,
      splitFrom depth (marks.zip text ++ rest) =
        (splitFrom (depth + level) ((mark, c) :: (inner ++ rest))).map (extend front) := by
  obtain ⟨mark, found⟩ := Option.isSome_iff_exists.mp (List.find?_isSome.mpr ⟨m, among, ends⟩)
  obtain ⟨endsHere, before, after, rfl, endless⟩ := List.find?_eq_some_iff_append.mp found
  obtain ⟨front, others, rfl, long⟩ :
      ∃ front others, text = front ++ others ∧ before.length = front.length := by
    refine ⟨text.take before.length, text.drop before.length, (List.take_append_drop _ _).symm, ?_⟩
    rw [List.length_append] at same
    rw [List.length_take]
    omega
  cases others with
  | nil =>
    simp only [List.length_append, List.length_cons, List.length_nil] at same
    omega
  | cons c others =>
    -- nothing before the first end has ended an item, so it is all of one item
    refine ⟨net before, front, mark, c, after.zip others, endsHere, fun depth rest => ?_⟩
    have apart (d : Char) (last : before.getLast? = some d)
        (next : ((mark, c) :: (after.zip others ++ rest)).head?.map Prod.fst = some d) :
        d ≠ '<' ∧ d ≠ '>' := by
      obtain rfl : mark = d := Option.some.inj next
      constructor <;>
      · rintro rfl
        cases endsHere
    rw [List.zip_append long, List.zip_cons_cons, List.append_assoc, List.cons_append,
      splitFrom_append long (by simpa using endless) apart]

private theorem net_eq_zero {marks : List Char} (neutral : ∀ m ∈ marks, isNeutral m = true) :
    net marks = 0 := by
  have plain (m : Char) (among : m ∈ marks) : isOpen m = false ∧ m ≠ '<' ∧ m ≠ '>' := by
    have here := neutral m among
    simp only [isNeutral, Bool.and_eq_true, Bool.not_eq_true', bne_iff_ne, ne_eq] at here
    exact ⟨here.1.1.1.1.1, here.1.1.2, here.1.2⟩
  fun_induction net marks with
  | case1 => rfl
  | case2 m opens =>
    rw [(plain m (by simp)).1] at opens
    cases opens
  | case3 => rfl
  | case4 m m' marks double => exact absurd double.1 (plain m (by simp)).2.1
  | case5 m m' marks _ double => exact absurd double.1 (plain m (by simp)).2.2
  | case6 m m' marks _ _ opens =>
    rw [(plain m (by simp)).1] at opens
    cases opens
  | case7 m m' marks _ _ _ ih =>
    exact ih (fun m among => neutral m (by simp [among])) fun m among => plain m (by simp [among])

end Group

/-! ## Variables -/

/-- The variables of a text that follows a character, without the one that has no name. -/
def namesAfter (before : Option Char) (text : List Char) : List (List Char) :=
  (variablesAfter before text).filter (· ≠ ['_'])

theorem typeVariables_eq (text : List Char) :
    typeVariables text = (namesAfter none (blankQuoted text)).eraseDups := rfl

theorem typeVariables_eq_nil_iff : typeVariables s = [] ↔ namesAfter none (blankQuoted s) = [] := by
  rw [typeVariables_eq]
  cases namesAfter none (blankQuoted s) with
  | nil => simp
  | cons name names => simp [List.eraseDups_cons]

theorem variablesAfter_cons {before : Option Char} (plain : startsVariable c = false)
    (rest : List Char) : variablesAfter before (c :: rest) = variablesAfter (some c) rest := by
  rw [variablesAfter, plain]
  rfl

/-- In a stretch that no variable starts in, only the last character counts, for what comes
after. -/
theorem variablesAfter_append {before : Option Char} {front : List Char} {last : Char}
    (plain : ∀ d ∈ front ++ [last], startsVariable d = false) (rest : List Char) :
    variablesAfter before (front ++ last :: rest) = variablesAfter (some last) rest := by
  induction front generalizing before with
  | nil => exact variablesAfter_cons (plain last (by simp)) rest
  | cons d front ih =>
    rw [List.cons_append, variablesAfter_cons (plain d (by simp))]
    exact ih fun e among => plain e (by simp [among])

theorem variablesAfter_congr {before other : Option Char} (same : before.any bars = other.any bars)
    (rest : List Char) : variablesAfter before rest = variablesAfter other rest := by
  cases rest with
  | nil => rw [variablesAfter, variablesAfter]
  | cons c rest => rw [variablesAfter, variablesAfter, same]

/-- Names on the two sides of a character that ends a name and starts none are apart. -/
theorem span_append_stop {d : Char} (stops : isNameChar d = false) (s q : List Char) :
    (s ++ d :: q).takeWhile isNameChar = s.takeWhile isNameChar ∧
      (s ++ d :: q).dropWhile isNameChar = s.dropWhile isNameChar ++ d :: q := by
  induction s with
  | nil => simp [stops]
  | cons c s ih =>
    by_cases named : isNameChar c = true
    · simpa [named] using ih
    · simp [named]

/-- So the variables of a text are told apart at each mark. -/
theorem variablesAfter_append_mark {mark : Char} (isMark : Lexeme.isMark mark = true)
    (before : Option Char) (s q : List Char) :
    variablesAfter before (s ++ mark :: q) =
      variablesAfter before s ++ variablesAfter (some mark) q := by
  have stops := isNameChar_of_dollar_or_isMark (.inr isMark)
  fun_induction variablesAfter before s with
  | case1 before =>
    exact variablesAfter_cons (startsVariable_of_isNeutral (isNeutral_of_isMark isMark)) q
  | case2 before c s starts name ih =>
    -- the name ends before the mark, if not earlier
    obtain ⟨sameName, sameRest⟩ := span_append_stop stops s q
    rw [List.cons_append, variablesAfter, if_pos starts, sameName, sameRest]
    exact congrArg (name :: ·) ih
  | case3 before c s starts ih =>
    rw [List.cons_append, variablesAfter, if_neg starts, ih]

/-- Names do not change when quoted parts are blanked out. -/
theorem span_blankQuoted (s : List Char) :
    (blankQuoted s).takeWhile isNameChar = s.takeWhile isNameChar ∧
      (blankQuoted s).dropWhile isNameChar = blankQuoted (s.dropWhile isNameChar) := by
  induction s with
  | nil => exact ⟨rfl, rfl⟩
  | cons c s ih =>
    by_cases named : isNameChar c = true
    · have plain : Lexeme.isMark c = false := by
        cases mark : Lexeme.isMark c with
        | false => rfl
        | true => simp [isNameChar_of_dollar_or_isMark (.inr mark)] at named
      rw [blankQuoted_cons (by simp [plain])]
      simpa [named] using ih
    · obtain ⟨rest, step⟩ := exists_blankQuoted_cons c s
      rw [List.takeWhile_cons_of_neg named, List.dropWhile_cons_of_neg named, step,
        List.takeWhile_cons_of_neg named, List.dropWhile_cons_of_neg named]
      exact ⟨rfl, rfl⟩

/-! ## Still texts -/

theorem isStill_iff : isStill s = true ↔
    isSettledFrom 0 s = true ∧ (∀ m ∈ blankQuoted s, Group.isEnd m = false) ∧
      Group.net (blankQuoted s) = 0 ∧ namesAfter none (blankQuoted s) = [] := by
  simp only [isStill, Bool.and_eq_true, List.all_eq_true, Bool.not_eq_true', beq_iff_eq,
    List.isEmpty_iff, typeVariables_eq_nil_iff, and_assoc]

/-- A text is still if only neutral characters are left of it. -/
theorem isStill_of_isNeutral (settled : isSettledFrom 0 s = true)
    (neutral : ∀ m ∈ blankQuoted s, isNeutral m = true) : isStill s = true := by
  refine isStill_iff.mpr ⟨settled, fun m among => Group.not_isEnd_of_isNeutral (neutral m among),
    Group.net_eq_zero neutral, ?_⟩
  rcases List.eq_nil_or_concat (blankQuoted s) with empty | ⟨front, last, parts⟩
  · rw [empty, namesAfter, variablesAfter]
    rfl
  · rw [List.concat_eq_append] at parts
    rw [parts] at neutral ⊢
    rw [namesAfter, variablesAfter_append fun d among =>
      startsVariable_of_isNeutral (neutral d among),
      variablesAfter]
    rfl

/-- What stands between two marks that match is hidden. -/
theorem isStill_quoted {body : List Char} (mark : Lexeme.isMark c = true)
    (closes : payload? c (body ++ [c]) = some body.length) :
    isStill (c :: (body ++ [c])) = true := by
  refine isStill_of_isNeutral ?_ ?_
  · have rest := isSettledFrom_length (body ++ [c])
    rw [List.length_append, List.length_singleton] at rest
    rw [isSettledFrom, if_pos mark, closes]
    exact rest
  · rw [blankQuoted_quoted mark closes]
    intro m among
    simp only [List.mem_cons, List.mem_append, List.not_mem_nil, or_false,
      List.mem_replicate] at among
    rcases among with rfl | ⟨-, rfl⟩ | rfl
    · exact isNeutral_of_isMark mark
    · decide
    · exact isNeutral_of_isMark mark

/-- What a literal holds is not hidden, but it does not count. -/
theorem isStill_literal {payload : List Char} (inert : isInertPayload payload = true) :
    isStill ('$' :: payload) = true := by
  have plain : ∀ d ∈ '$' :: payload, Lexeme.isMark d = false :=
    fun d among => (of_mem_literal inert among).1
  refine isStill_of_isNeutral (isSettledFrom_of_plain plain) ?_
  rw [blankQuoted_eq_self plain]
  exact fun d among => (of_mem_literal inert among).2

/-- A still string has no variables, wherever it stands, and keeps none from starting after it. -/
theorem namesAfter_append_of_isStill {mark : Char} {body : List Char}
    (isMark : Lexeme.isMark mark = true) (still : isStill (mark :: (body ++ [mark])) = true)
    (before : Option Char) (rest : List Char) :
    namesAfter before (blankQuoted (mark :: (body ++ [mark])) ++ rest) =
      namesAfter (some mark) rest := by
  obtain ⟨settled, -, -, nameless⟩ := isStill_iff.mp still
  have last := getLast?_blankFrom settled
  obtain ⟨inner, started⟩ := exists_blankQuoted_cons mark (body ++ [mark])
  rw [← blankQuoted, started, ← List.cons_append, List.getLast?_concat] at last
  have long : inner.length = (body ++ [mark]).length := by
    have whole := length_blankQuoted (mark :: (body ++ [mark]))
    rw [started] at whole
    simpa using whole
  -- what is left of the string ends in its second mark
  rcases List.eq_nil_or_concat inner with rfl | ⟨front, d, rfl⟩
  · simp at long
  rw [List.concat_eq_append] at started last
  rw [← List.cons_append, List.getLast?_concat] at last
  obtain rfl := Option.some.inj last
  have plain := startsVariable_of_isNeutral (isNeutral_of_isMark isMark)
  rw [started, ← List.cons_append, namesAfter, variablesAfter_append_mark isMark,
    variablesAfter_cons plain, List.filter_append, List.append_eq_nil_iff] at nameless
  rw [started, ← List.cons_append, List.append_assoc, List.singleton_append, namesAfter,
    variablesAfter_append_mark isMark, variablesAfter_cons plain, List.filter_append, nameless.1]
  rfl

end SignatureIndex
