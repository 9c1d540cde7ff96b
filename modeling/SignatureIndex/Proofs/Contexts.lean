import SignatureIndex.Proofs.OpaqueTokens

/-!
# Specs made up around a token

A token is told from another in a spec made up for it.  It is put into the result of a function,
where the variables of the type show, or among the arguments, where their number does.  Brackets in
front of it and after it see to it that it stands at any depth that is asked for.
-/

namespace SignatureIndex

/-- A place for specs that stand nowhere. -/
def noSpan : Span := ⟨"", 1, 1, 1, 1⟩

/-! ## Results -/

/-- The arguments of a function without any, and the arrow to its result. -/
def resultStart : List Char := ['(', ')', ' ', '-', '>', ' ']

private theorem trim_resultStart (s : List Char) {c : Char} (kept : Text.isBlank c = false) :
    Text.trim (resultStart ++ (s ++ [c])) = resultStart ++ (s ++ [c]) := by
  have started : Text.trimStart (resultStart ++ (s ++ [c])) = resultStart ++ (s ++ [c]) := rfl
  rw [Text.trim, started, ← List.append_assoc, trimEnd_append, kept]
  rfl

/-- The variables of a result are those of a function that is called `f`. -/
theorem typeVariables_of_signature? {s : List Char} {c : Char} {names : List String}
    (kept : Text.isBlank c = false)
    (told : Declaration.signature? (Declaration.ofSpec
      ⟨"spec", String.ofList ('f' :: (resultStart ++ (s ++ [c]))), noSpan⟩) = some (0, names)) :
    (typeVariables (resultStart ++ (s ++ [c]))).map String.ofList = names := by
  have head : functionHead? ('f' :: (resultStart ++ (s ++ [c]))) =
      some (['f'], resultStart ++ (s ++ [c])) := rfl
  rw [signature?_ofSpec, unwrap_of_ne (by simp), head, Option.bind_some, Option.map_eq_some_iff]
    at told
  obtain ⟨size, -, told⟩ := told
  rw [← (Prod.mk.inj told).2, trim_resultStart s kept]

theorem plain_of_mem_resultStart {c : Char} (among : c ∈ 'f' :: resultStart) :
    Lexeme.isMark c = false ∧ c ≠ '$' ∧ c ≠ '%' := by
  revert c
  simp only [resultStart, List.forall_mem_cons, List.not_mem_nil, IsEmpty.forall_iff, implies_true,
    and_true]
  decide

theorem ofText_resultStart {s : List Char} {lexemes : List Lexeme}
    (read : Lexeme.ofText s = (lexemes, [])) :
    Lexeme.ofText ('f' :: (resultStart ++ s)) =
      (('f' :: resultStart).map .plain ++ lexemes, []) :=
  ofText_append_plain (fun _ => plain_of_mem_resultStart) read

theorem blankQuoted_resultStart (s : List Char) :
    blankQuoted (resultStart ++ s) = resultStart ++ blankQuoted s :=
  blankQuoted_append (fun _ among => (plain_of_mem_resultStart (List.mem_cons_of_mem _ among)).1) s

/-! ## Arguments -/

/-- The arguments of a function that is called `f`. -/
theorem arity_of_call (s : List Char) :
    (Declaration.signature? (Declaration.ofSpec
      ⟨"spec", String.ofList ('f' :: '(' :: s), noSpan⟩)).map Prod.fst =
        (Group.sizeOf? ('(' :: s)).map Prod.fst := by
  have head : functionHead? ('f' :: '(' :: s) = some (['f'], '(' :: s) := rfl
  rw [signature?_ofSpec, unwrap_of_ne (by simp), head, Option.bind_some, Option.map_map]
  rfl

/-- Brackets that come to a number. -/
def slope : Int → List Char
  | .ofNat n => List.replicate n '('
  | .negSucc n => List.replicate (2 * (n + 1)) '>'

theorem eq_of_mem_slope {n : Int} {c : Char} (among : c ∈ slope n) : c = '(' ∨ c = '>' := by
  cases n with
  | ofNat n => exact .inl (List.eq_of_mem_replicate among)
  | negSucc n => exact .inr (List.eq_of_mem_replicate among)

private theorem net_slope (n : Int) : Group.net (slope n) = n := by
  have opening (n : Nat) : Group.net (List.replicate n '(') = n := by
    induction n with
    | zero => rfl
    | succ n ih =>
      cases n with
      | zero => rfl
      | succ n =>
        have step : Group.net (List.replicate (n + 2) '(') =
            Group.net (List.replicate (n + 1) '(') + 1 := rfl
        rw [step, ih]
        rfl
  have closing (n : Nat) : Group.net (List.replicate (2 * n) '>') = -n := by
    induction n with
    | zero => rfl
    | succ n ih =>
      have step : Group.net (List.replicate (2 * n + 2) '>') =
          Group.net (List.replicate (2 * n) '>') - 1 := rfl
      rw [Nat.mul_succ, step, ih]
      omega
  cases n with
  | ofNat n => exact opening n
  | negSucc n => exact closing (n + 1)

theorem plain_of_mem_slope {n : Int} {c : Char} (among : c ∈ slope n) :
    Lexeme.isMark c = false ∧ c ≠ '$' ∧ c ≠ '%' := by
  rcases eq_of_mem_slope among with rfl | rfl <;> decide

/-- Brackets change the depth at which a text stands. -/
theorem splitFrom_slope (n depth : Int) {s : List Char}
    (apart : ∀ m, s.head? = some m → m ≠ '<' ∧ m ≠ '>') :
    Group.splitFrom depth (places (slope n ++ s)) =
      (Group.splitFrom (depth + n) (places s)).map (Group.extend (slope n)) := by
  have plain : ∀ c ∈ slope n, Lexeme.isMark c = false := fun c among => (plain_of_mem_slope among).1
  have endless : ∀ c ∈ slope n, Group.isEnd c = false := by
    intro c among
    rcases eq_of_mem_slope among with rfl | rfl <;> decide
  have next (m : Char) (head : (places s).head?.map Prod.fst = some m) : m ≠ '<' ∧ m ≠ '>' := by
    rw [head?_places] at head
    exact apart m head
  rw [places_append (isSettledFrom_of_plain plain), blankQuoted_eq_self plain,
    Group.splitFrom_append rfl endless fun m _ => next m, net_slope]

theorem ofText_of_plain {s : List Char}
    (plain : ∀ c ∈ s, Lexeme.isMark c = false ∧ c ≠ '$' ∧ c ≠ '%') : (Lexeme.ofText s).2 = [] := by
  rw [ofText_plain plain]

/-! ### A letter between marks -/

/-- A letter as a string. -/
def letter : List Char := [Text.doubleMark, 'a', Text.doubleMark]

private theorem hidden_letter : Hidden Text.doubleMark ['a', Text.doubleMark] :=
  @Hidden.string ['a'] (by decide +kernel)

/-- A letter between marks leaves the depth as it is. -/
theorem splitFrom_letter (n : Int) (tail : List Char) :
    (Group.splitFrom 1 (places (slope n ++ (letter ++ tail)))).map Group.outline =
      ((Group.splitFrom (1 + n) (places tail)).map Group.outline).map (Group.lengthen false) := by
  have starts : ∀ m, (letter ++ tail).head? = some m → m ≠ '<' ∧ m ≠ '>' := by
    intro m head
    obtain rfl : Text.doubleMark = m := Option.some.inj head
    decide
  have notBlank : Text.isAllBlank (slope n ++ letter) = false := by
    have among : 'a' ∈ slope n ++ letter := by simp [letter]
    rw [Text.isAllBlank, List.all_eq_false]
    exact ⟨'a', among, by decide⟩
  have token : Group.splitFrom (1 + n) (places (letter ++ tail)) =
      (Group.splitFrom (1 + n) (places tail)).map (Group.extend letter) :=
    hidden_letter.splitFrom (1 + n) tail
  rw [splitFrom_slope n 1 starts, token, Group.map_extend_extend,
    Group.map_outline_extend, notBlank]

theorem sizeOf?_letter (n : Int) :
    Group.sizeOf? ('(' :: (slope n ++ (letter ++ (slope (-n) ++ [')'])))) = some (1, true) := by
  have ends : ∀ m, [')'].head? = some m → m ≠ '<' ∧ m ≠ '>' := by
    intro m head
    obtain rfl : ')' = m := Option.some.inj head
    decide
  have level : 1 + n + -n = 1 := by omega
  have last : Group.splitFrom 1 (places [')']) = some ⟨[[]], []⟩ := rfl
  rw [Group.sizeOf?_cons, splitFrom_letter, splitFrom_slope (-n) _ ends, level, last]
  rfl

theorem sizeOf?_letter_nil (n : Int) :
    Group.sizeOf? ('(' :: (slope n ++ (letter ++ []))) = none := by
  have nothing : Group.splitFrom (1 + n) (places []) = none := Group.splitFrom_nil
  rw [Group.sizeOf?_cons, splitFrom_letter, nothing]
  rfl

end SignatureIndex
