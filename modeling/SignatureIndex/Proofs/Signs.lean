import SignatureIndex.Proofs.LikeSignatures

/-!
# What counts in a group

To split a group, a text is read element by element: single characters and double angle brackets.
An element counts by its sign, that is whether it opens or closes a bracket, or is a comma.  What
has been opened and not closed before an element is the depth at which it stands.  A stretch of
elements that ends no item at the depth of the group only makes the item longer, and a group ends at
the first bracket, other than a double angle bracket, that closes as many brackets as have been
opened.
-/

namespace SignatureIndex

namespace Group

/-- The kinds of brackets. -/
inductive Bracket where
  | round
  | square
  | curly
  | angle
  deriving DecidableEq, Repr

/-- What an element of a text does. -/
inductive Sign where
  | opens (bracket : Bracket)
  | closes (bracket : Bracket)
  | comma
  | other
  deriving DecidableEq, Repr

namespace Sign

def ofChar (c : Char) : Sign :=
  if c = '(' then opens .round
  else if c = '[' then opens .square
  else if c = '\x7b' then opens .curly
  else if c = ')' then closes .round
  else if c = ']' then closes .square
  else if c = '\x7d' then closes .curly
  else if c = ',' then comma
  else other

def weight : Sign → Int
  | opens _ => 1
  | closes _ => -1
  | comma | other => 0

/-- The brackets that can end a group. -/
def endsGroup : Sign → Bool
  | closes bracket => bracket != .angle
  | _ => false

/-- What can end an item. -/
def endsItem (sign : Sign) : Bool := sign == comma || sign.endsGroup

end Sign

/-- How many more brackets are opened than closed. -/
def level : List Sign → Int
  | [] => 0
  | sign :: signs => sign.weight + level signs

/-- A part of a text that counts as one. -/
structure Element where
  sign : Sign
  written : List Char
  deriving DecidableEq, Repr

/-- The elements of a text, in which each place holds the character that counts and the one that is
written. -/
def elementsAt : List (Char × Char) → List Element
  | [] => []
  | [(mark, c)] => [⟨.ofChar mark, [c]⟩]
  | (mark, c) :: (mark', c') :: places =>
    if mark = '<' ∧ mark' = '<' then ⟨.opens .angle, [c, c']⟩ :: elementsAt places
    else if mark = '>' ∧ mark' = '>' then ⟨.closes .angle, [c, c']⟩ :: elementsAt places
    else ⟨.ofChar mark, [c]⟩ :: elementsAt ((mark', c') :: places)

/-- The elements of a text whose quoted parts are blanked out. -/
def elements (text : List Char) : List Element := elementsAt (places text)

def signs (text : List Char) : List Sign := (elements text).map Element.sign

variable {s t : List Char} {first second : List (Char × Char)} {front others : List Element}
  {depth : Int} {group : Group}

/-! ## Signs -/

@[simp] theorem level_nil : level [] = 0 := rfl

@[simp] theorem level_cons (sign : Sign) (signs : List Sign) :
    level (sign :: signs) = sign.weight + level signs := rfl

@[simp] theorem level_append (before after : List Sign) :
    level (before ++ after) = level before + level after := by
  induction before with
  | nil => rw [List.nil_append, level_nil, Int.zero_add]
  | cons sign before ih => rw [List.cons_append, level_cons, level_cons, ih, Int.add_assoc]

theorem level_eq_zero {signs : List Sign} (weightless : ∀ sign ∈ signs, sign.weight = 0) :
    level signs = 0 := by
  induction signs with
  | nil => rfl
  | cons sign signs ih =>
    rw [level_cons, weightless sign (by simp), ih fun later among =>
      weightless later (by simp [among])]
    rfl

theorem weight_of_endsGroup {sign : Sign} (ends : sign.endsGroup = true) : sign.weight = -1 := by
  cases sign with
  | closes bracket => rfl
  | _ => cases ends

theorem endsItem_of_endsGroup {sign : Sign} (ends : sign.endsGroup = true) :
    sign.endsItem = true := by
  rw [Sign.endsItem, ends, Bool.or_true]

private theorem exists_ofChar_of_isOpen {c : Char} (opens : isOpen c = true) :
    ∃ bracket, Sign.ofChar c = .opens bracket := by
  simp only [isOpen, Bool.or_eq_true, beq_iff_eq] at opens
  rcases opens with (rfl | rfl) | rfl <;> exact ⟨_, rfl⟩

theorem ofChar_eq_other {c : Char} (notOpen : isOpen c = false) (notClose : isClose c = false)
    (notComma : c ≠ ',') : Sign.ofChar c = .other := by
  simp only [isOpen, isClose, Bool.or_eq_false_iff, beq_eq_false_iff_ne] at notOpen notClose
  simp [Sign.ofChar, notOpen, notClose, notComma]

private theorem endsGroup_ofChar (c : Char) : (Sign.ofChar c).endsGroup = isClose c := by
  by_cases closes : isClose c = true
  · rw [closes]
    simp only [isClose, Bool.or_eq_true, beq_iff_eq] at closes
    rcases closes with (rfl | rfl) | rfl <;> rfl
  · rw [Bool.not_eq_true] at closes
    rw [closes]
    simp only [isClose, Bool.or_eq_false_iff, beq_eq_false_iff_ne] at closes
    simp only [Sign.ofChar, closes, if_false]
    split_ifs <;> rfl

/-! ## Elements -/

theorem flatMap_written_elementsAt (places : List (Char × Char)) :
    (elementsAt places).flatMap Element.written = places.map Prod.snd := by
  fun_induction elementsAt places <;> simp_all

/-- The elements make up the text. -/
theorem flatMap_written_elements (text : List Char) :
    (elements text).flatMap Element.written = text := by
  rw [elements, flatMap_written_elementsAt, map_snd_places]

/-- One character that is not one half of a double bracket. -/
theorem elementsAt_cons {m c : Char} (notOpen : m = '<' → first.head?.map Prod.fst ≠ some '<')
    (notClose : m = '>' → first.head?.map Prod.fst ≠ some '>') :
    elementsAt ((m, c) :: first) = ⟨.ofChar m, [c]⟩ :: elementsAt first := by
  cases first with
  | nil => rfl
  | cons place first =>
    obtain ⟨m', c'⟩ := place
    have noOpen : ¬(m = '<' ∧ m' = '<') := fun both => notOpen both.1 (by simp [both.2])
    have noClose : ¬(m = '>' ∧ m' = '>') := fun both => notClose both.1 (by simp [both.2])
    rw [elementsAt, if_neg noOpen, if_neg noClose]

/-- Places are read apart from those before them if they start with no half of a double bracket. -/
theorem elementsAt_append
    (apart : ∀ m, second.head?.map Prod.fst = some m → m ≠ '<' ∧ m ≠ '>') :
    elementsAt (first ++ second) = elementsAt first ++ elementsAt second := by
  fun_induction elementsAt first with
  | case1 => rfl
  | case2 m c =>
    refine elementsAt_cons ?_ ?_
    · rintro rfl next
      exact (apart '<' next).1 rfl
    · rintro rfl next
      exact (apart '>' next).2 rfl
  | case3 m c m' c' first double ih =>
    rw [List.cons_append, List.cons_append, elementsAt, if_pos double, ih]
    rfl
  | case4 m c m' c' first notOpen double ih =>
    rw [List.cons_append, List.cons_append, elementsAt, if_neg notOpen, if_pos double, ih]
    rfl
  | case5 m c m' c' first notOpen notClose ih =>
    rw [List.cons_append, List.cons_append, elementsAt, if_neg notOpen, if_neg notClose,
      ← List.cons_append, ih]
    rfl

/-- A character that counts for itself and is not one half of a double bracket. -/
theorem elements_cons {c : Char} (plain : Lexeme.isMark c = false) (single : c ≠ '<' ∧ c ≠ '>')
    (s : List Char) : elements (c :: s) = ⟨.ofChar c, [c]⟩ :: elements s := by
  rw [elements, places_cons_of_plain plain,
    elementsAt_cons (fun half => absurd half single.1) (fun half => absurd half single.2)]
  rfl

/-- A settled text in front of another. -/
theorem elements_append (settled : isSettledFrom 0 s = true)
    (apart : ∀ m, t.head? = some m → m ≠ '<' ∧ m ≠ '>') :
    elements (s ++ t) = elements s ++ elements t := by
  have next (m : Char) (head : (places t).head?.map Prod.fst = some m) : m ≠ '<' ∧ m ≠ '>' := by
    rw [head?_places] at head
    exact apart m head
  have blanked : places (s ++ t) = places s ++ places t := places_append settled t
  rw [elements, blanked, elementsAt_append next]
  rfl

/-! ## Splitting by elements -/

/-- Splits the rest of a group at its commas, element by element. -/
def splitElements (depth : Int) : List Element → Option Group
  | [] => none
  | element :: others =>
    if element.sign.endsItem ∧ depth = 1 then
      if element.sign.endsGroup then some ⟨[[]], others.flatMap Element.written⟩
      else (splitElements depth others).map fun group => ⟨[] :: group.items, group.rest⟩
    else (splitElements (depth + element.sign.weight) others).map (extend element.written)

/-- A group is split as its elements are. -/
theorem splitFrom_eq_splitElements (depth : Int) (places : List (Char × Char)) :
    splitFrom depth places = splitElements depth (elementsAt places) := by
  have closing {m : Char} (closes : isClose m = true) :
      (Sign.ofChar m).endsGroup = true := (endsGroup_ofChar m).trans closes
  -- the cases are those of the reader; double angle brackets are one element and two places
  fun_induction splitFrom depth places with
  | case1 => rfl
  | case2 depth m c here => -- a bracket ends the group and the text
    obtain ⟨closes, rfl⟩ := here
    have ends := closing closes
    rw [elementsAt, splitElements, if_pos ⟨endsItem_of_endsGroup ends, rfl⟩, if_pos ends]
    rfl
  | case3 depth m c other => -- the text ends in the group
    rw [elementsAt, splitElements]
    split_ifs with item ends
    · rw [endsGroup_ofChar] at ends
      exact absurd ⟨ends, item.2⟩ other
    · rfl
    · rfl
  | case4 depth m c m' c' places double ih =>
    rw [elementsAt, if_pos double, ih]
    rfl
  | case5 depth m c m' c' places notOpen double ih =>
    rw [elementsAt, if_neg notOpen, if_pos double, ih]
    rfl
  | case6 depth m c m' c' places notOpen notClose opens ih =>
    obtain ⟨bracket, sign⟩ := exists_ofChar_of_isOpen opens
    rw [elementsAt, if_neg notOpen, if_neg notClose, sign, ih]
    rfl
  | case7 m c m' c' places notOpen notClose notOpening closes => -- a bracket ends the group
    have ends := closing closes
    rw [elementsAt, if_neg notOpen, if_neg notClose, splitElements,
      if_pos ⟨endsItem_of_endsGroup ends, rfl⟩, if_pos ends, flatMap_written_elementsAt]
    rfl
  | case8 depth m c m' c' places notOpen notClose notOpening closes inner ih =>
    rw [elementsAt, if_neg notOpen, if_neg notClose, splitElements,
      if_neg fun both => inner both.2, ih, weight_of_endsGroup (closing closes)]
    rfl
  | case9 depth m c m' c' places notOpen notClose notOpening notClosing comma ih =>
    obtain ⟨rfl, rfl⟩ := comma
    rw [elementsAt, if_neg notOpen, if_neg notClose, ih]
    rfl
  | case10 depth m c m' c' places notOpen notClose notOpening notClosing notComma ih =>
    rw [elementsAt, if_neg notOpen, if_neg notClose, splitElements, ih]
    by_cases comma : m = ','
    · subst comma
      rw [if_neg fun both => notComma ⟨rfl, both.2⟩]
      simp [Sign.ofChar, Sign.weight]
    · rw [Bool.not_eq_true] at notOpening notClosing
      rw [ofChar_eq_other notOpening notClosing comma,
        if_neg (by simp [Sign.endsItem, Sign.endsGroup])]
      simp [Sign.weight]

private theorem splitElements_items_ne_nil {elements : List Element}
    (split : splitElements depth elements = some group) : group.items ≠ [] := by
  cases elements with
  | nil => cases split
  | cons element others =>
    rw [splitElements] at split
    split_ifs at split with item ends
    · cases split
      simp
    · obtain ⟨inner, -, rfl⟩ := Option.map_eq_some_iff.mp split
      simp
    · obtain ⟨inner, -, rfl⟩ := Option.map_eq_some_iff.mp split
      unfold extend
      split <;> simp

/-! ### Stretches -/

/-- No item of the group ends among signs that start at a depth. -/
def EndsNoItem (depth : Int) (signs : List Sign) : Prop :=
  ∀ before sign, before ++ [sign] <+: signs → sign.endsItem = true → depth + level before ≠ 1

theorem EndsNoItem.of_cons {sign : Sign} {signs : List Sign}
    (endless : EndsNoItem depth (sign :: signs)) :
    ¬(sign.endsItem = true ∧ depth = 1) ∧ EndsNoItem (depth + sign.weight) signs := by
  constructor
  · rintro ⟨ends, rfl⟩
    exact endless [] sign (by simp) ends rfl
  · intro before last within ends
    have level := endless (sign :: before) last (List.cons_prefix_cons.mpr ⟨rfl, within⟩) ends
    rwa [level_cons, ← Int.add_assoc] at level

/-- A stretch in which no item ends makes the item at hand longer, and leads to the depth that its
brackets come to. -/
theorem splitElements_append (endless : EndsNoItem depth (front.map Element.sign)) :
    splitElements depth (front ++ others) =
      (splitElements (depth + level (front.map Element.sign)) others).map
        (extend (front.flatMap Element.written)) := by
  induction front generalizing depth with
  | nil =>
    rw [List.map_nil, level_nil, Int.add_zero, List.nil_append, List.flatMap_nil]
    cases split : splitElements depth others with
    | none => rfl
    | some group =>
      obtain ⟨_ | ⟨item, items⟩, rest⟩ := group
      · exact absurd rfl (splitElements_items_ne_nil split)
      · rfl
  | cons element front ih =>
    obtain ⟨here, later⟩ := endless.of_cons
    rw [List.cons_append, splitElements, if_neg here, ih later, map_extend_extend, List.map_cons,
      level_cons, ← Int.add_assoc]
    rfl

/-! ### Where a group ends -/

/-- Signs that start at a depth and go up to the first bracket, other than a double angle bracket,
at which as many brackets have been closed as were open. -/
structure EndsFirst (depth : Int) (signs : List Sign) : Prop where
  ends : ∃ before sign, sign.endsGroup = true ∧ signs = before ++ [sign]
  level_eq : depth + level signs = 0
  first : ∀ before sign, sign.endsGroup = true → before ++ [sign] <+: signs →
    depth + level (before ++ [sign]) = 0 → before ++ [sign] = signs

theorem EndsFirst.ne_nil {signs : List Sign} (ending : EndsFirst depth signs) : signs ≠ [] := by
  obtain ⟨before, sign, -, rfl⟩ := ending.ends
  simp

theorem endsFirst_singleton {sign : Sign} (ends : sign.endsGroup = true) : EndsFirst 1 [sign] where
  ends := ⟨[], sign, ends, rfl⟩
  level_eq := by
    rw [level_cons, weight_of_endsGroup ends]
    rfl
  first before last _ within _ := by
    have short := within.length_le
    simp only [List.length_append, List.length_singleton] at short
    exact within.eq_of_length (by simp only [List.length_append, List.length_singleton]; omega)

/-- One sign after another, a group either ends or does not. -/
theorem endsFirst_cons_iff {sign : Sign} {signs : List Sign} :
    EndsFirst depth (sign :: signs) ↔
      if sign.endsGroup = true ∧ depth = 1 then signs = []
      else EndsFirst (depth + sign.weight) signs := by
  split_ifs with here
  · obtain ⟨ends, rfl⟩ := here
    constructor
    · intro ending
      have level : 1 + level ([] ++ [sign]) = 0 := (endsFirst_singleton ends).level_eq
      have whole := ending.first [] sign ends (by simp) level
      simpa using whole.symm
    · rintro rfl
      exact endsFirst_singleton ends
  · constructor
    · intro ending
      refine ⟨?_, ?_, ?_⟩
      · obtain ⟨_ | ⟨first, before⟩, last, ends, whole⟩ := ending.ends
        · -- the sign would end the group by itself
          obtain ⟨rfl, rfl⟩ : sign = last ∧ signs = [] := by simpa using whole
          have level := ending.level_eq
          rw [level_cons, weight_of_endsGroup ends, level_nil] at level
          exact absurd ⟨ends, by omega⟩ here
        · exact ⟨before, last, ends, (List.cons.inj whole).2⟩
      · rw [Int.add_assoc]
        exact ending.level_eq
      · intro before last ends within level
        have whole := ending.first (sign :: before) last ends
          (List.cons_prefix_cons.mpr ⟨rfl, within⟩) (by
            rw [← level, List.cons_append, level_cons]; omega)
        exact (List.cons.inj whole).2
    · intro ending
      refine ⟨?_, ?_, ?_⟩
      · -- a group that goes on after the sign is one of the sign and the rest
        obtain ⟨before, last, ends, rfl⟩ := ending.ends
        exact ⟨sign :: before, last, ends, rfl⟩
      · rw [level_cons, ← Int.add_assoc]
        exact ending.level_eq
      · intro before last ends within level
        cases before with
        | nil =>
          obtain ⟨rfl, -⟩ := List.cons_prefix_cons.mp within
          rw [List.nil_append, level_cons, weight_of_endsGroup ends, level_nil] at level
          exact absurd ⟨ends, by omega⟩ here
        | cons first before =>
          obtain ⟨rfl, inside⟩ := List.cons_prefix_cons.mp within
          rw [List.cons_append, level_cons, ← Int.add_assoc] at level
          exact congrArg (first :: ·) (ending.first before last ends inside level)

/-- What comes after a group does not depend on its commas. -/
theorem map_rest_splitElements_cons {element : Element}
    (goesOn : ¬(element.sign.endsGroup = true ∧ depth = 1)) :
    (splitElements depth (element :: others)).map Group.rest =
      (splitElements (depth + element.sign.weight) others).map Group.rest := by
  rw [splitElements]
  split_ifs with item ends
  · exact absurd ⟨ends, item.2⟩ goesOn
  · -- the sign is a comma
    have comma : element.sign = .comma := by
      have either := item.1
      rw [Sign.endsItem, Bool.or_eq_true, beq_iff_eq] at either
      exact either.resolve_right ends
    rw [comma, Option.map_map]
    simp only [Sign.weight, Int.add_zero]
    rfl
  · rw [Option.map_map]
    congr 1
    funext group
    exact rest_extend _ group

/-- A group goes up to the first bracket that can end it, and what comes after that is left over. -/
theorem map_rest_splitElements_eq_some_iff {elements : List Element} {rest : List Char} :
    (splitElements depth elements).map Group.rest = some rest ↔
      ∃ front others, elements = front ++ others ∧ EndsFirst depth (front.map Element.sign) ∧
        rest = others.flatMap Element.written := by
  induction elements generalizing depth with
  | nil =>
    refine ⟨fun split => absurd split (by simp [splitElements]), ?_⟩
    rintro ⟨front, others, parts, ending, -⟩
    obtain ⟨rfl, -⟩ := List.append_eq_nil_iff.mp parts.symm
    exact absurd rfl ending.ne_nil
  | cons element elements ih =>
    by_cases here : element.sign.endsGroup = true ∧ depth = 1
    · -- the element ends the group
      rw [splitElements, if_pos ⟨endsItem_of_endsGroup here.1, here.2⟩, if_pos here.1]
      constructor
      · intro split
        cases split
        exact ⟨[element], elements, rfl, here.2 ▸ endsFirst_singleton here.1, rfl⟩
      · rintro ⟨_ | ⟨first, front⟩, others, parts, ending, rfl⟩
        · exact absurd rfl ending.ne_nil
        · obtain ⟨rfl, rfl⟩ := List.cons.inj parts
          rw [List.map_cons, endsFirst_cons_iff, if_pos here, List.map_eq_nil_iff] at ending
          rw [ending]
          rfl
    · -- the group goes on with the next element
      rw [map_rest_splitElements_cons here, ih]
      constructor
      · rintro ⟨front, others, rfl, ending, rfl⟩
        refine ⟨element :: front, others, rfl, ?_, rfl⟩
        rwa [List.map_cons, endsFirst_cons_iff, if_neg here]
      · rintro ⟨_ | ⟨first, front⟩, others, parts, ending, rfl⟩
        · exact absurd rfl ending.ne_nil
        · obtain ⟨rfl, rfl⟩ := List.cons.inj parts
          rw [List.map_cons, endsFirst_cons_iff, if_neg here] at ending
          exact ⟨front, others, rfl, ending, rfl⟩

end Group

end SignatureIndex
