import SignatureIndex.Proofs.Heads
import SignatureIndex.Proofs.Signs

/-!
# Nesting of brackets

A group is well nested if each bracket in it is closed by one of its own kind, in the order in which
nested brackets are closed.  Groups are found by counting, though, and what counts is only how many
brackets are open.  So a well nested group is always found, but a bracket may also be closed by one
of another kind.  Such a clash is the only way in which a group that is found can fail to be well
nested, and a declaration is refused for its brackets exactly if counting finds no end of its group.
-/

namespace SignatureIndex

namespace Group

/-- Signs whose brackets are closed by ones of their own kind, the last opened first. -/
inductive IsNested : List Sign → Prop where
  | nil : IsNested []
  | plain {sign : Sign} {rest : List Sign} : sign.weight = 0 → IsNested rest →
      IsNested (sign :: rest)
  | pair {bracket : Bracket} {inner rest : List Sign} :
      IsNested inner → IsNested rest →
      IsNested (.opens bracket :: (inner ++ .closes bracket :: rest))

/-- A parenthesis, nested signs, and the closing parenthesis. -/
def IsWellNested (signs : List Sign) : Prop :=
  ∃ inner, IsNested inner ∧ signs = .opens .round :: (inner ++ [.closes .round])

/-- Some bracket is closed by one of another kind. -/
def Clashes (signs : List Sign) : Prop :=
  ∃ before opened inner closed after, IsNested inner ∧ opened ≠ closed ∧
    signs = before ++ .opens opened :: (inner ++ .closes closed :: after)

/-- The group at the start of a text takes up the first of its elements and leaves the others. -/
def Takes (text : List Char) (front others : List Element) : Prop :=
  elements text = front ++ others ∧
    (ofText? text).map Group.rest = some (others.flatMap Element.written)

variable {signs inner rest : List Sign} {front others : List Element} {depth : Int} {s : List Char}

/-! ## Nested signs -/

private theorem not_endsGroup_of_weight {sign : Sign} (weightless : sign.weight = 0) :
    sign.endsGroup = false := by
  cases sign with
  | closes bracket => cases weightless
  | _ => rfl

theorem IsNested.level_eq (nested : IsNested signs) : level signs = 0 := by
  induction nested with
  | nil => rfl
  | plain weightless _ ih => rw [level_cons, weightless, ih, Int.add_zero]
  | pair _ _ ihInner ihRest =>
    rw [level_cons, level_append, level_cons, ihInner, ihRest]
    rfl

theorem IsNested.append (nested : IsNested signs) (nestedRest : IsNested rest) :
    IsNested (signs ++ rest) := by
  induction nested with
  | nil => exact nestedRest
  | plain weightless _ ih => exact .plain weightless ih
  | pair nestedInner _ _ ih =>
    rw [List.cons_append, List.append_assoc, List.cons_append]
    exact .pair nestedInner ih

/-- Nested signs neither end a group nor change where it ends. -/
theorem IsNested.endsFirst_append_iff (nested : IsNested inner) (inside : 1 ≤ depth) :
    EndsFirst depth (inner ++ rest) ↔ EndsFirst depth rest := by
  induction nested generalizing depth rest with
  | nil => rfl
  | @plain sign after weightless _ ih =>
    rw [List.cons_append, endsFirst_cons_iff, not_endsGroup_of_weight weightless, if_neg (by simp),
      weightless, Int.add_zero, ih inside]
  | @pair bracket within after _ _ ihInner ihRest =>
    -- inside the pair one more bracket is open, so its closing bracket cannot end the group
    have opens : ¬((Sign.opens bracket).endsGroup = true ∧ depth = 1) := by simp [Sign.endsGroup]
    have closes : ¬((Sign.closes bracket).endsGroup = true ∧ depth + 1 = 1) := by omega
    calc EndsFirst depth (.opens bracket :: (within ++ .closes bracket :: after) ++ rest)
        ↔ EndsFirst (depth + 1) (within ++ .closes bracket :: (after ++ rest)) := by
          rw [List.cons_append, List.append_assoc, List.cons_append,
            endsFirst_cons_iff, if_neg opens]
          rfl
      _ ↔ EndsFirst (depth + 1) (.closes bracket :: (after ++ rest)) := ihInner (by omega)
      _ ↔ EndsFirst depth (after ++ rest) := by
          rw [endsFirst_cons_iff, if_neg closes, Sign.weight, Int.add_neg_cancel_right]
      _ ↔ EndsFirst depth rest := ihRest inside

/-! ## Clashes -/

/-- The brackets that are open after some signs, the last opened first.  There is no telling once a
bracket is closed that was not the last one opened. -/
def openAfter : List Bracket → List Sign → Option (List Bracket)
  | stack, [] => some stack
  | stack, .opens bracket :: signs => openAfter (bracket :: stack) signs
  | [], .closes _ :: _ => none
  | opened :: stack, .closes bracket :: signs =>
    if opened = bracket then openAfter stack signs else none
  | stack, .comma :: signs | stack, .other :: signs => openAfter stack signs

private theorem openAfter_append (stack : List Bracket) (before after : List Sign) :
    openAfter stack (before ++ after) = (openAfter stack before).bind (openAfter · after) := by
  fun_induction openAfter stack before <;> simp_all [openAfter]

/-- Nested signs leave open what was open. -/
theorem IsNested.openAfter_append (nested : IsNested inner) (stack : List Bracket)
    (rest : List Sign) : openAfter stack (inner ++ rest) = openAfter stack rest := by
  induction nested generalizing stack rest with
  | nil => rfl
  | @plain sign _ weightless _ ih =>
    cases sign with
    | opens _ | closes _ => cases weightless
    | comma | other => exact ih stack rest
  | pair _ _ ihInner ihRest =>
    rw [List.cons_append, List.append_assoc, List.cons_append, openAfter, ihInner,
      openAfter, if_pos rfl, ihRest]

theorem Clashes.openAfter_eq_none (clash : Clashes signs) (stack : List Bracket) :
    openAfter stack signs = none := by
  obtain ⟨before, opened, inner, closed, after, nested, differ, rfl⟩ := clash
  rw [Group.openAfter_append]
  -- what is open before the clash does not matter
  cases openAfter stack before with
  | none => rfl
  | some stack =>
    rw [Option.bind_some, openAfter, nested.openAfter_append, openAfter, if_neg differ]

private theorem IsWellNested.not_clashes (nested : IsWellNested signs) : ¬Clashes signs := by
  obtain ⟨inner, nestedInner, rfl⟩ := nested
  intro clash
  have stuck := clash.openAfter_eq_none []
  rw [openAfter, nestedInner.openAfter_append] at stuck
  cases stuck

theorem Clashes.append (clash : Clashes signs) (before after : List Sign) :
    Clashes (before ++ (signs ++ after)) := by
  obtain ⟨front, opened, inner, closed, back, nested, differ, rfl⟩ := clash
  refine ⟨before ++ front, opened, inner, closed, back ++ after, nested, differ, ?_⟩
  simp only [List.append_assoc, List.cons_append]

theorem Clashes.cons (clash : Clashes signs) (sign : Sign) : Clashes (sign :: signs) := by
  have longer := clash.append [sign] []
  rwa [List.append_nil, List.singleton_append] at longer

/-- What signs without a clash come to: they are nested up to a bracket that nothing opened, or
altogether, or some bracket is still open at their end. -/
inductive Clear : List Sign → Prop where
  | stray {bracket : Bracket} {inner rest : List Sign} :
      IsNested inner → Clear (inner ++ .closes bracket :: rest)
  | nested {signs : List Sign} : IsNested signs → Clear signs
  | unclosed {signs : List Sign} : 0 < level signs → Clear signs

private theorem IsNested.clear_append (nested : IsNested inner) (clear : Clear rest) :
    Clear (inner ++ rest) := by
  cases clear with
  | stray nestedRest =>
    rw [← List.append_assoc]
    exact .stray (nested.append nestedRest)
  | nested nestedRest => exact .nested (nested.append nestedRest)
  | unclosed more =>
    refine .unclosed ?_
    rw [level_append, nested.level_eq, Int.zero_add]
    exact more

private theorem clear_of_not_clashes (signs : List Sign) (apart : ¬Clashes signs) :
    Clear signs := by
  -- an opening bracket is taken together with the one that closes it, so the induction is on the
  -- length
  induction length : signs.length using Nat.strongRecOn generalizing signs with
  | ind n ih =>
    subst length
    cases signs with
    | nil => exact .nested .nil
    | cons sign signs =>
      have later := ih signs.length (by simp) signs (fun clash => apart (clash.cons sign)) rfl
      cases sign with
      | comma | other => exact (IsNested.plain rfl .nil).clear_append later
      | closes bracket => exact .stray .nil
      | opens bracket =>
        have opened : level (.opens bracket :: signs) = 1 + level signs := rfl
        cases later with
        | @stray closed inner rest nested =>
          -- the bracket closes the one that was opened, and what comes after the pair decides
          obtain rfl : bracket = closed := by
            by_contra differ
            exact apart ⟨[], bracket, inner, closed, rest, nested, differ, rfl⟩
          have parts : .opens bracket :: (inner ++ .closes bracket :: rest) =
              .opens bracket :: (inner ++ [.closes bracket]) ++ rest := by
            simp only [List.cons_append, List.append_assoc, List.nil_append]
          have shorter :
              rest.length < (Sign.opens bracket :: (inner ++ .closes bracket :: rest)).length := by
            simp only [List.length_cons, List.length_append]
            omega
          have apartRest : ¬Clashes rest := by
            intro clash
            have longer := clash.append (.opens bracket :: (inner ++ [.closes bracket])) []
            rw [List.append_nil, ← parts] at longer
            exact apart longer
          rw [parts]
          exact (IsNested.pair nested .nil).clear_append (ih rest.length shorter rest apartRest rfl)
        | nested nested =>
          refine .unclosed ?_
          rw [opened, nested.level_eq]
          decide
        | unclosed more =>
          refine .unclosed ?_
          omega

/-! ## Groups -/

theorem endsFirst_opens_iff (bracket : Bracket) :
    EndsFirst 0 (.opens bracket :: rest) ↔ EndsFirst 1 rest := by
  rw [endsFirst_cons_iff, if_neg (by simp [Sign.endsGroup])]
  rfl

/-- What starts with a parenthesis is well nested exactly if it goes up to where its group ends and
no brackets clash in it. -/
theorem isWellNested_iff (starts : signs.head? = some (.opens .round)) :
    IsWellNested signs ↔ EndsFirst 0 signs ∧ ¬Clashes signs := by
  constructor
  · intro nested
    refine ⟨?_, nested.not_clashes⟩
    obtain ⟨inner, nestedInner, rfl⟩ := nested
    rw [endsFirst_opens_iff, nestedInner.endsFirst_append_iff (Int.le_refl 1)]
    exact endsFirst_singleton rfl
  · rintro ⟨ending, apart⟩
    obtain ⟨signs, rfl⟩ := List.head?_eq_some_iff.mp starts
    rw [endsFirst_opens_iff] at ending
    have level_eq := ending.level_eq
    cases clear_of_not_clashes signs fun clash => apart (clash.cons _) with
    | @stray bracket inner rest nested =>
      obtain rfl : .round = bracket := by
        by_contra differ
        exact apart ⟨[], .round, inner, bracket, rest, nested, differ, rfl⟩
      rw [nested.endsFirst_append_iff (Int.le_refl 1), endsFirst_cons_iff,
        if_pos ⟨rfl, rfl⟩] at ending
      rw [ending]
      exact ⟨inner, nested, rfl⟩
    -- the parenthesis would stay open
    | nested nested =>
      rw [nested.level_eq] at level_eq
      omega
    | unclosed more => omega

theorem elements_paren (s : List Char) :
    elements ('(' :: s) = ⟨.opens .round, ['(']⟩ :: elements s :=
  elements_cons (by decide) (by decide) s

private theorem written_ne_nil_of_mem_elementsAt {places : List (Char × Char)} {element : Element}
    (among : element ∈ elementsAt places) : element.written ≠ [] := by
  fun_induction elementsAt places with
  | case1 => cases among
  | case2 m c =>
    rw [List.mem_singleton] at among
    rw [among]
    exact List.cons_ne_nil _ _
  | case3 _ _ _ _ _ _ ih | case4 _ _ _ _ _ _ _ ih | case5 _ _ _ _ _ _ _ ih =>
    rcases List.mem_cons.mp among with rfl | among
    · exact List.cons_ne_nil _ _
    · exact ih among

theorem map_rest_ofText?_cons (s : List Char) :
    (ofText? ('(' :: s)).map Group.rest =
      (splitElements 0 (elements ('(' :: s))).map Group.rest := by
  rw [ofText?_cons, elements_paren, map_rest_splitElements_cons (by simp), Option.map_map,
    splitFrom_eq_splitElements]
  rfl

/-- Nothing is written by no element. -/
theorem eq_nil_of_flatMap_written {middle : List Element}
    (written : ∀ element ∈ middle, element.written ≠ [])
    (same : (middle ++ others).flatMap Element.written = others.flatMap Element.written) :
    middle = [] := by
  cases middle with
  | nil => rfl
  | cons element middle =>
    rw [List.flatMap_append, List.append_left_eq_self, List.flatMap_cons,
      List.append_eq_nil_iff] at same
    exact absurd same.1 (written element (by simp))

/-- How much of a text is left tells where it was cut. -/
theorem eq_of_flatMap_written {front' others' : List Element}
    (written : ∀ element ∈ front ++ others, element.written ≠ [])
    (cuts : front ++ others = front' ++ others')
    (same : others.flatMap Element.written = others'.flatMap Element.written) : front = front' := by
  rcases List.append_eq_append_iff.mp cuts with ⟨middle, rfl, rfl⟩ | ⟨middle, rfl, rfl⟩
  · rw [eq_nil_of_flatMap_written (fun element among => written element (by simp [among])) same,
      List.append_nil]
  · rw [eq_nil_of_flatMap_written (fun element among =>
      written element (by simp [among])) same.symm,
      List.append_nil]

/-- A group takes up the elements up to where it ends. -/
theorem takes_iff :
    Takes ('(' :: s) front others ↔
      elements ('(' :: s) = front ++ others ∧ EndsFirst 0 (front.map Element.sign) := by
  rw [Takes, map_rest_ofText?_cons]
  constructor
  · rintro ⟨parts, rest⟩
    obtain ⟨taken, left, partsTaken, ending, same⟩ := map_rest_splitElements_eq_some_iff.mp rest
    have written (element : Element) (among : element ∈ front ++ others) : element.written ≠ [] :=
      written_ne_nil_of_mem_elementsAt (parts ▸ among)
    obtain rfl := eq_of_flatMap_written written (parts.symm.trans partsTaken) same
    exact ⟨parts, ending⟩
  · rintro ⟨parts, ending⟩
    exact ⟨parts, map_rest_splitElements_eq_some_iff.mpr ⟨front, others, parts, ending, rfl⟩⟩

private theorem exists_takes_iff : (∃ front others, Takes ('(' :: s) front others) ↔
    ofText? ('(' :: s) ≠ none := by
  constructor
  · rintro ⟨front, others, -, rest⟩ none
    rw [none] at rest
    cases rest
  · intro found
    obtain ⟨group, split⟩ := Option.ne_none_iff_exists'.mp found
    have rest : (ofText? ('(' :: s)).map Group.rest = some group.rest := by
      rw [split, Option.map_some]
    rw [map_rest_ofText?_cons] at rest
    obtain ⟨front, others, parts, ending, -⟩ := map_rest_splitElements_eq_some_iff.mp rest
    exact ⟨front, others, takes_iff.mpr ⟨parts, ending⟩⟩

/-- The group that is found is well nested unless brackets clash in it, and no other stretch of
elements is well nested. -/
theorem isWellNested_iff_takes (parts : elements ('(' :: s) = front ++ others) :
    IsWellNested (front.map Element.sign) ↔
      Takes ('(' :: s) front others ∧ ¬Clashes (front.map Element.sign) := by
  have taken : Takes ('(' :: s) front others ↔ EndsFirst 0 (front.map Element.sign) := by
    rw [takes_iff]
    exact and_iff_right parts
  rw [taken]
  cases front with
  | nil =>
    constructor
    · rintro ⟨inner, -, blank⟩
      cases blank
    · rintro ⟨ending, -⟩
      exact absurd rfl ending.ne_nil
  | cons element front =>
    rw [elements_paren] at parts
    obtain ⟨rfl, -⟩ := List.cons.inj parts
    exact isWellNested_iff rfl

end Group

variable {attr : Attribute}

namespace Declaration

open SignatureIndex.Group (elements Takes EndsFirst IsWellNested Clashes Element)

/-- What a declaration reads as its group goes from the parenthesis to the first bracket that closes
as many as were opened, and it is refused for its brackets exactly if there is no such bracket.  The
group is well nested unless brackets clash in it, and a well nested group is always the one that is
read.  So where no brackets clash at all, a declaration is refused for its brackets exactly if no
group is well nested. -/
theorem ofAttribute_takes (declares : attr.Declares) :
    (∀ declaration, ofAttribute attr = .ok declaration →
      ∃ name rest front others, attr.head? = some (name, rest) ∧ Takes rest front others) ∧
    ∀ name rest, attr.head? = some (name, rest) →
      (ofAttribute attr = .error attr.unbalanced ↔ ∀ front others, ¬Takes rest front others) ∧
      (∀ front others, elements rest = front ++ others →
        (Takes rest front others ↔ EndsFirst 0 (front.map Element.sign)) ∧
        (IsWellNested (front.map Element.sign) ↔
          Takes rest front others ∧ ¬Clashes (front.map Element.sign))) ∧
      (¬Clashes (Group.signs rest) →
        (ofAttribute attr = .error attr.unbalanced ↔
          ∀ front others, elements rest = front ++ others →
          ¬IsWellNested (front.map Element.sign))) ∧
      attr.unbalanced.message = s!"malformed -{attr.kind} attribute: " ++ "unbalanced brackets" ∧
      attr.unbalanced.span? = some attr.span := by
  refine ⟨?_, ?_⟩
  · intro declaration accepted
    obtain ⟨name, rest, group, headed, grouped, -⟩ := exists_of_ofAttribute_eq_ok declares accepted
    obtain ⟨inner, rfl⟩ := Attribute.exists_of_head? headed
    have found : Group.ofText? ('(' :: inner) ≠ none := by simp [grouped]
    obtain ⟨front, others, taken⟩ := Group.exists_takes_iff.mpr found
    exact ⟨name, _, front, others, headed, taken⟩
  · intro name rest headed
    obtain ⟨inner, rfl⟩ := Attribute.exists_of_head? headed
    have refused : ofAttribute attr = .error attr.unbalanced ↔
        ∀ front others, ¬Takes ('(' :: inner) front others := by
      rw [ofAttribute_eq_unbalanced_iff declares headed, ← not_ne_iff, ← Group.exists_takes_iff]
      simp only [not_exists]
    refine ⟨refused, ?_, ?_, rfl, rfl⟩
    · intro front others parts
      exact ⟨Group.takes_iff.trans (and_iff_right parts), Group.isWellNested_iff_takes parts⟩
    · intro clear
      rw [refused]
      refine forall₂_congr fun front others => ?_
      constructor
      · intro notTaken parts nested
        exact notTaken ((Group.isWellNested_iff_takes parts).mp nested).1
      · intro notNested taken
        -- a clash in the group would be one in the whole text
        refine notNested taken.1
          ((Group.isWellNested_iff_takes taken.1).mpr ⟨taken, fun clash => clear ?_⟩)
        have longer := clash.append [] (others.map Element.sign)
        rwa [List.nil_append, ← List.map_append, ← taken.1] at longer

/-- Brackets of all kinds, one inside the other. -/
def nestedSpec : Attribute := ⟨"spec", "f([\x7bA, <<_:8>>\x7d]) -> ok", .unknown⟩

theorem ofAttribute_takes_nested :
    nestedSpec.Declares ∧ ∃ name rest front others, nestedSpec.head? = some (name, rest) ∧
      Takes rest front others ∧ IsWellNested (front.map Element.sign) := by
  have declares : nestedSpec.Declares := .inl rfl
  refine ⟨declares, ?_⟩
  obtain ⟨groups, details⟩ := ofAttribute_takes declares
  have accepted : ofAttribute nestedSpec =
      .ok (.function "f" 1 ⟨["A"], "([\x7bA, <<_:8>>\x7d]) -> ok"⟩ .unknown) := by decide +kernel
  obtain ⟨name, rest, front, others, headed, taken⟩ := groups _ accepted
  have head : nestedSpec.head? = some ("f".toList, "([\x7bA, <<_:8>>\x7d]) -> ok".toList) := by
    decide +kernel
  obtain ⟨rfl, rfl⟩ : "f".toList = name ∧ "([\x7bA, <<_:8>>\x7d]) -> ok".toList = rest := by
    simpa using head.symm.trans headed
  -- no bracket is closed by one of another kind, up to the end of the text
  have clear : ¬Clashes (front.map Element.sign) := by
    intro clash
    have stuck := (clash.append [] (others.map Element.sign)).openAfter_eq_none []
    rw [List.nil_append, ← List.map_append, ← taken.1] at stuck
    revert stuck
    decide +kernel
  exact ⟨_, _, front, others, headed, taken,
    ((details _ _ headed).2.1 _ _ taken.1).2.mpr ⟨taken, clear⟩⟩

/-- A square bracket closes a parenthesis, so the group that is read is not well nested. -/
theorem ofAttribute_clash :
    ofAttribute ⟨"spec", "f(] -> ok", ⟨"m.erl", 1, 1, 1, 10⟩⟩ =
        .ok (.function "f" 0 ⟨[], "(] -> ok"⟩ ⟨"m.erl", 1, 1, 1, 10⟩) ∧
      (⟨"spec", "f(] -> ok", ⟨"m.erl", 1, 1, 1, 10⟩⟩ : Attribute).head? =
        some ("f".toList, "(] -> ok".toList) ∧
      ∀ front others, Takes "(] -> ok".toList front others →
      ¬IsWellNested (front.map Element.sign) := by
  refine ⟨by decide +kernel, by decide +kernel, ?_⟩
  rintro front others ⟨parts, -⟩ ⟨inner, -, whole⟩
  -- the text has no closing parenthesis
  have absent : .closes .round ∉ Group.signs "(] -> ok".toList := by decide +kernel
  refine absent ?_
  rw [Group.signs, parts, List.map_append, whole]
  simp

end Declaration

end SignatureIndex
