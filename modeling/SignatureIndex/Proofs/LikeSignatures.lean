import Mathlib.Data.List.TakeWhile
import SignatureIndex.Proofs.Likeness

/-!
# Signatures of texts that are alike

Brackets and commas count in the text with the blanks, the characters themselves come from the text.
A token whose payload does not matter is a stretch in which nothing counts, so it only makes the
item in which it stands longer, and never blank.
-/

namespace SignatureIndex

open Text (isBlank isAllBlank)
open SignatureIndex.Group (splitFrom extend)

variable {c : Char} {p q s t : List Char}

/-- A text with each character of it after the one that counts for it. -/
def places (s : List Char) : List (Char × Char) := (blankQuoted s).zip s

theorem places_cons (unmatched : Lexeme.isMark c = true → Blanking.payload? c s = none) :
    places (c :: s) = (c, c) :: places s := by
  rw [places, blankQuoted_cons unmatched, List.zip_cons_cons, places]

theorem places_cons_of_plain (plain : Lexeme.isMark c = false) :
    places (c :: s) = (c, c) :: places s := by
  refine places_cons fun mark => ?_
  rw [plain] at mark
  cases mark

/-- A settled text in front of another. -/
theorem places_append (settled : isSettledFrom 0 s = true) (t : List Char) :
    places (s ++ t) = (blankQuoted s).zip s ++ places t := by
  have blanked : blankQuoted (s ++ t) = blankQuoted s ++ blankQuoted t :=
    blankFrom_append_of_isSettledFrom settled t
  rw [places, blanked, List.zip_append (length_blankQuoted s), places]

theorem map_snd_places (s : List Char) : (places s).map Prod.snd = s :=
  List.map_snd_zip (Nat.le_of_eq (length_blankQuoted s).symm)

theorem head?_places (s : List Char) : (places s).head?.map Prod.fst = s.head? := by
  cases s with
  | nil => rfl
  | cons c s =>
    obtain ⟨rest, same⟩ := exists_blankQuoted_cons c s
    rw [places, same]
    rfl

namespace Group

/-! ## Groups -/

/-- What of a group counts in the end: which of its items are blank, and whether anything comes
after it. -/
def outline (group : Group) : List Bool × Bool :=
  (group.items.map isAllBlank, group.rest.isEmpty)

/-- An outline with more before its first item. -/
def lengthen (blank : Bool) : List Bool × Bool → List Bool × Bool
  | ([], last) => ([blank], last)
  | (first :: items, last) => ((blank && first) :: items, last)

private theorem outline_extend (text : List Char) (group : Group) :
    outline (extend text group) = lengthen (isAllBlank text) (outline group) := by
  obtain ⟨items, rest⟩ := group
  cases items with
  | nil => rfl
  | cons item items => simp [extend, outline, lengthen, isAllBlank]

theorem map_outline_extend (text : List Char) (group? : Option Group) :
    (group?.map (extend text)).map outline =
      (group?.map outline).map (lengthen (isAllBlank text)) := by
  rw [Option.map_map, Option.map_map]
  congr 1
  funext group
  exact outline_extend text group

private theorem map_outline_comma (group? : Option Group) :
    (group?.map fun group => ⟨[] :: group.items, group.rest⟩).map outline =
      (group?.map outline).map fun (items, last) => (true :: items, last) := by
  rw [Option.map_map, Option.map_map]
  congr 1

end Group

/-- A token makes the item in which it stands longer. -/
theorem Hidden.splitFrom (hidden : Hidden c p) (depth : Int) (s : List Char) :
    splitFrom depth (places (c :: (p ++ s))) =
      (splitFrom depth (places s)).map (extend (c :: p)) := by
  obtain ⟨settled, endless, level, -⟩ := isStill_iff.mp hidden.isStill
  rw [← List.cons_append, places_append settled,
    Group.splitFrom_append (length_blankQuoted _) endless fun m last _ =>
    hidden.getLast_ne last, level,
    Int.add_zero]

theorem Alike.head?_eq (alike : Alike s t) : s.head? = t.head? := by
  cases alike <;> rfl

/-- Brackets and commas divide texts that are alike in the same way. -/
theorem Alike.splitFrom (alike : Alike s t) (depth : Int) :
    (splitFrom depth (places s)).map Group.outline =
      (splitFrom depth (places t)).map Group.outline := by
  generalize length : s.length = n
  induction n using Nat.strongRecOn generalizing s t depth with
  | ind n ih =>
    subst length
    cases alike with
    | nil => rfl
    | @token c p q first second hiddenFirst hiddenSecond rest =>
      have long : first.length < (c :: (p ++ first)).length := by
        simp only [List.length_cons, List.length_append]
        omega
      have shorter := ih first.length long rest depth rfl
      have notBlank := isBlank_of_dollar_or_isMark hiddenFirst.eq_dollar_or_isMark
      rw [hiddenFirst.splitFrom, hiddenSecond.splitFrom, Group.map_outline_extend,
        Group.map_outline_extend, shorter]
      simp [isAllBlank, notBlank]
    | @same c first second unmatched rest =>
      have heads := rest.head?_eq
      rw [places_cons fun mark => (unmatched mark).1, places_cons fun mark => (unmatched mark).2]
      by_cases opens : c = '<' ∧ first.head? = some '<'
      · -- two characters that open a bracket together
        obtain ⟨rfl, start⟩ := opens
        obtain ⟨first, rfl⟩ := List.head?_eq_some_iff.mp start
        obtain ⟨second, rfl, inner⟩ := rest.exists_of_cons (by decide)
        have shorter :=
          ih first.length (by simp only [List.length_cons]; omega) inner (depth + 1) rfl
        rw [places_cons_of_plain (by decide), places_cons_of_plain (by decide),
          Group.splitFrom_double_open, Group.splitFrom_double_open, Group.map_outline_extend,
          Group.map_outline_extend, shorter]
      by_cases closes : c = '>' ∧ first.head? = some '>'
      · -- two characters that close a bracket together
        obtain ⟨rfl, start⟩ := closes
        obtain ⟨first, rfl⟩ := List.head?_eq_some_iff.mp start
        obtain ⟨second, rfl, inner⟩ := rest.exists_of_cons (by decide)
        have shorter :=
          ih first.length (by simp only [List.length_cons]; omega) inner (depth - 1) rfl
        rw [places_cons_of_plain (by decide), places_cons_of_plain (by decide),
          Group.splitFrom_double_close, Group.splitFrom_double_close, Group.map_outline_extend,
          Group.map_outline_extend, shorter]
      -- one character that counts by itself, if at all
      have shorter (depth : Int) := ih first.length (by simp) rest depth rfl
      have notOpen : c = '<' → first.head? ≠ some '<' := fun here next => opens ⟨here, next⟩
      have notClose : c = '>' → first.head? ≠ some '>' := fun here next => closes ⟨here, next⟩
      rw [Group.splitFrom_cons (by rwa [head?_places]) (by rwa [head?_places]),
        Group.splitFrom_cons (by rwa [head?_places, ← heads]) (by rwa [head?_places, ← heads])]
      by_cases opening : Group.isOpen c = true
      · rw [if_pos opening, if_pos opening, Group.map_outline_extend,
          Group.map_outline_extend, shorter]
      rw [if_neg opening, if_neg opening]
      by_cases closing : Group.isClose c = true
      · rw [if_pos closing, if_pos closing]
        by_cases outermost : depth = 1
        · have ends : first.isEmpty = second.isEmpty := by
            rw [Bool.eq_iff_iff, List.isEmpty_iff, List.isEmpty_iff, rest.eq_nil_iff]
          rw [if_pos outermost, if_pos outermost, map_snd_places, map_snd_places]
          simp [Group.outline, ends]
        · rw [if_neg outermost, if_neg outermost, Group.map_outline_extend,
            Group.map_outline_extend, shorter]
      rw [if_neg closing, if_neg closing]
      by_cases comma : c = ',' ∧ depth = 1
      · rw [if_pos comma, if_pos comma, Group.map_outline_comma, Group.map_outline_comma, shorter]
      · rw [if_neg comma, if_neg comma, Group.map_outline_extend, Group.map_outline_extend, shorter]

/-! ## The group at the start of a text -/

theorem trim_eq_nil_iff (text : List Char) : Text.trim text = [] ↔ isAllBlank text = true := by
  unfold Text.trim Text.trimEnd Text.trimStart isAllBlank
  rw [List.reverse_eq_nil_iff, List.dropWhile_eq_nil_iff, List.all_eq_true]
  constructor
  · intro rest c among
    rw [← List.takeWhile_append_dropWhile (p := isBlank) (l := text), List.mem_append] at among
    rcases among with among | among
    · exact List.mem_takeWhile_imp among
    · exact rest c (List.mem_reverse.mpr among)
  · intro blank c among
    exact blank c ((List.dropWhile_sublist _).mem (List.mem_reverse.mp among))

/-- The number of items that an outline comes to: one blank item is none. -/
def Group.size (outline : List Bool × Bool) : Nat × Bool :=
  (if outline.1 = [true] then 0 else outline.1.length, outline.2)

/-- What counts of the group that a text starts with. -/
def Group.sizeOf? (text : List Char) : Option (Nat × Bool) :=
  (Group.ofText? text).map fun group => (group.items.length, group.rest.isEmpty)

/-- The group that a parenthesis starts is split from there on. -/
theorem Group.ofText?_cons (s : List Char) :
    ofText? ('(' :: s) = (splitFrom 1 (places s)).map fun group =>
      ⟨if group.items.map Text.trim = [[]] then [] else group.items.map Text.trim, group.rest⟩ := by
  have start : ((blankQuoted ('(' :: s)).zip ('(' :: s)).drop 1 = places s := by
    have whole := places_cons_of_plain (c := '(') (s := s) (by decide)
    rw [places] at whole
    rw [whole]
    rfl
  rw [ofText?, start]

theorem Group.sizeOf?_cons (s : List Char) :
    Group.sizeOf? ('(' :: s) = ((splitFrom 1 (places s)).map Group.outline).map Group.size := by
  rw [Group.sizeOf?, Group.ofText?_cons, Option.map_map, Option.map_map]
  congr 1
  funext group
  have blank : group.items.map Text.trim = [[]] ↔ group.items.map isAllBlank = [true] := by
    rcases group.items with _ | ⟨item, _ | ⟨other, items⟩⟩ <;> simp [trim_eq_nil_iff]
  by_cases none : group.items.map Text.trim = [[]]
  · simp [Group.size, Group.outline, none, blank.mp none]
  · simp [Group.size, Group.outline, none, mt blank.mpr none]

/-- The groups at the start of two texts have as many items, and one ends its text if the other
does. -/
theorem Alike.sizeOf? (alike : Alike s t) :
    Group.sizeOf? ('(' :: s) = Group.sizeOf? ('(' :: t) := by
  rw [Group.sizeOf?_cons, Group.sizeOf?_cons, alike.splitFrom]

/-- The last character closes a bracket. -/
def EndsInBracket (places : List (Char × Char)) : Prop :=
  ∃ front m c, places = front ++ [(m, c)] ∧ Group.isClose m = true

theorem EndsInBracket.cons {places : List (Char × Char)} (ends : EndsInBracket places)
    (place : Char × Char) : EndsInBracket (place :: places) := by
  obtain ⟨front, m, c, rfl, closes⟩ := ends
  exact ⟨place :: front, m, c, rfl, closes⟩

@[simp] theorem Group.rest_extend (text : List Char) (group : Group) :
    (extend text group).rest = group.rest := by
  obtain ⟨items, rest⟩ := group
  cases items <;> rfl

/-- A group that ends its text does so with a bracket. -/
theorem Group.endsInBracket {depth : Int} {places : List (Char × Char)} {group : Group}
    (split : splitFrom depth places = some group) (last : group.rest = []) :
    EndsInBracket places := by
  fun_induction splitFrom depth places generalizing group with
  | case1 => cases split
  | case2 depth m c closes => exact ⟨[], m, c, rfl, closes.1⟩
  | case3 => cases split
  | case4 depth m c m' c' places double ih | case5 depth m c m' c' places _ double ih =>
    obtain ⟨inner, found, rfl⟩ := Option.map_eq_some_iff.mp split
    have ends := ih found (by simpa using last)
    exact (ends.cons _).cons _
  | case6 depth m c m' c' places _ _ opens ih | case8 depth m c m' c' places _ _ _ closes _ ih
  | case9 depth m c m' c' places _ _ _ _ comma ih | case10 depth m c m' c' places _ _ _ _ _ ih =>
    obtain ⟨inner, found, rfl⟩ := Option.map_eq_some_iff.mp split
    have ends := ih found (by simpa using last)
    exact ends.cons _
  | case7 =>
    cases split
    cases last

private theorem eq_of_mem_places {m d : Char} (among : (m, d) ∈ places s) : m = d ∨ m = ' ' :=
  eq_of_mem_zip_blankFrom among

/-! ## Parentheses around the whole -/

/-- Whether the parenthesis that a text starts with closes at its end. -/
theorem unwrap_cons (s : List Char) :
    unwrap ('(' :: s) =
      if (Group.sizeOf? ('(' :: s)).any (·.2) then Text.trim s.dropLast else '(' :: s := by
  unfold unwrap Group.sizeOf?
  cases Group.ofText? ('(' :: s) with
  | none => rfl
  | some group =>
    obtain ⟨items, rest⟩ := group
    cases rest <;> rfl

theorem unwrap_of_ne (other : s.head? ≠ some '(') : unwrap s = s := by
  unfold unwrap
  split
  · exact absurd rfl other
  · rfl

private theorem exists_of_sizeOf? {items : Nat}
    (whole : Group.sizeOf? ('(' :: s) = some (items, true)) :
    ∃ front last, s = front ++ [last] ∧ Group.isClose last = true := by
  rw [Group.sizeOf?_cons, Option.map_map, Option.map_eq_some_iff] at whole
  obtain ⟨group, split, ends⟩ := whole
  -- a group with nothing after it ends in a bracket
  have empty : group.rest = [] := List.isEmpty_iff.mp (Prod.mk.inj ends).2
  obtain ⟨front, m, d, parts, closes⟩ := Group.endsInBracket split empty
  -- a bracket that counts stands in the text itself
  have among : (m, d) ∈ places s := by simp [parts]
  obtain rfl : m = d := by
    rcases eq_of_mem_places among with same | rfl
    · exact same
    · cases closes
  refine ⟨front.map Prod.snd, m, ?_, closes⟩
  rw [← map_snd_places s, parts]
  simp

theorem Alike.unwrap (alike : Alike s t) : Alike (unwrap s) (unwrap t) := by
  by_cases opens : s.head? = some '('
  · obtain ⟨s, rfl⟩ := List.head?_eq_some_iff.mp opens
    obtain ⟨t, rfl, inner⟩ := alike.exists_of_cons (by decide)
    -- whether the first parenthesis closes at the end is the same for both
    rw [unwrap_cons, unwrap_cons, ← inner.sizeOf?]
    by_cases whole : (Group.sizeOf? ('(' :: s)).any (·.2) = true
    · rw [if_pos whole, if_pos whole]
      obtain ⟨⟨items, ends⟩, size, rfl⟩ := (Option.any_eq_true _ _).mp whole
      obtain ⟨front, last, rfl, closes⟩ := exists_of_sizeOf? size
      obtain ⟨u, rfl, shorter⟩ :=
        inner.exists_of_append (Group.not_bars_of_isClose closes)
          (Group.not_isMark_of_isClose closes)
      rw [List.dropLast_concat, List.dropLast_concat]
      exact shorter.trim
    · rw [if_neg whole, if_neg whole]
      exact alike
  · have opensNeither : t.head? ≠ some '(' := alike.head?_eq ▸ opens
    rw [unwrap_of_ne opens, unwrap_of_ne opensNeither]
    exact alike

/-! ## Variables -/

theorem Alike.namesAfter (alike : Alike s t) (before : Option Char) :
    namesAfter before (blankQuoted s) = namesAfter before (blankQuoted t) := by
  generalize length : s.length = n
  -- a name is taken as a whole, so the induction is on the length of the text
  induction n using Nat.strongRecOn generalizing s t before with
  | ind n ih =>
    subst length
    cases alike with
    | nil => rfl
    | @token c p q first second hiddenFirst hiddenSecond rest =>
      obtain ⟨last, bar, nameless⟩ := hiddenFirst.namesAfter before (blankQuoted first)
      obtain ⟨last', bar', nameless'⟩ := hiddenSecond.namesAfter before (blankQuoted second)
      have long : first.length < (c :: (p ++ first)).length := by
        simp only [List.length_cons, List.length_append]
        omega
      have shorter := ih first.length long rest (some last') rfl
      have sameBar : (some last).any bars = (some last').any bars := by simp [bar, bar']
      calc namesAfter before (blankQuoted (c :: (p ++ first)))
          = namesAfter (some last) (blankQuoted first) := by rw [hiddenFirst.blankQuoted, nameless]
        _ = namesAfter (some last') (blankQuoted first) :=
            congrArg (List.filter _) (variablesAfter_congr sameBar _)
        _ = namesAfter before (blankQuoted (c :: (q ++ second))) := by
            rw [shorter, hiddenSecond.blankQuoted, nameless']
    | @same c first second unmatched rest =>
      obtain ⟨sameName, sameRest⟩ := rest.takeWhile fun _ => isNameChar_of_dollar_or_isMark
      obtain ⟨nameFirst, restFirst⟩ := span_blankQuoted first
      obtain ⟨nameSecond, restSecond⟩ := span_blankQuoted second
      have dropped := (List.dropWhile_sublist isNameChar (l := first)).length_le
      have long : (first.dropWhile isNameChar).length < (c :: first).length := by
        simp only [List.length_cons]
        omega
      have afterName (before : Option Char) :=
        ih (first.dropWhile isNameChar).length long sameRest before rfl
      have afterChar := ih first.length (by simp) rest (some c) rfl
      unfold SignatureIndex.namesAfter at afterName afterChar ⊢
      rw [blankQuoted_cons fun mark => (unmatched mark).1,
        blankQuoted_cons fun mark => (unmatched mark).2, variablesAfter, variablesAfter, nameFirst,
        nameSecond, restFirst, restSecond, sameName]
      split
      · -- the name is the same in both, for no token starts in it
        rw [List.filter_cons, List.filter_cons, afterName]
      · exact afterChar

theorem Alike.typeVariables (alike : Alike s t) : typeVariables s = typeVariables t := by
  rw [typeVariables_eq, typeVariables_eq, alike.namesAfter]

/-! ## Signatures -/

namespace Declaration

/-- What can be told of a spec without its name and its text: that it was accepted, how many
arguments it has, and its variables. -/
def signature? : Except SourceProblem Declaration → Option (Nat × List String)
  | .ok (.function _ arity scheme _) => some (arity, scheme.tyvars)
  | _ => none

end Declaration

theorem exists_of_headAtom? {atom rest : List Char} (found : headAtom? s = some (atom, rest)) :
    ∃ inner, rest = '(' :: inner := by
  rw [headAtom?_eq, Option.bind_eq_some_iff] at found
  obtain ⟨⟨name, after⟩, -, found⟩ := found
  obtain ⟨inner, -, same⟩ := Option.bind_eq_some_iff.mp found
  cases same
  exact ⟨inner, rfl⟩

theorem exists_of_functionHead? {atom rest : List Char}
    (found : functionHead? s = some (atom, rest)) : ∃ inner, rest = '(' :: inner := by
  rw [functionHead?, Option.or_eq_some_iff] at found
  rcases found with found | ⟨-, found⟩
  · obtain ⟨after, -, found⟩ := Option.bind_eq_some_iff.mp found
    exact exists_of_headAtom? found
  · exact exists_of_headAtom? found

/-- The signature of a spec is read off the text of its arguments and its result. -/
theorem signature?_ofSpec (kind : String) (span : Span) (s : List Char) :
    Declaration.signature? (Declaration.ofSpec ⟨kind, String.ofList s, span⟩) =
      (functionHead? (unwrap s)).bind fun (_, rest) =>
        (Group.sizeOf? rest).map fun (items, _) =>
          (items, (typeVariables (Text.trim rest)).map String.ofList) := by
  unfold Declaration.ofSpec Group.sizeOf?
  rw [String.toList_ofList]
  cases functionHead? (unwrap s) with
  | none => rfl
  | some head =>
    obtain ⟨atom, rest⟩ := head
    dsimp only [Option.bind_some]
    cases Group.ofText? rest with
    | none => rfl
    | some group => rfl

/-- Specs that are alike have the same signature, or neither is accepted. -/
theorem signature?_of_alike (alike : Alike s t) (kind : String) (span : Span) :
    Declaration.signature? (Declaration.ofSpec ⟨kind, String.ofList s, span⟩) =
      Declaration.signature? (Declaration.ofSpec ⟨kind, String.ofList t, span⟩) := by
  rw [signature?_ofSpec, signature?_ofSpec]
  have heads := alike.unwrap.functionHead?
  cases first : functionHead? (unwrap s) with
  | none =>
    rw [first] at heads
    cases second : functionHead? (unwrap t) with
    | none => rfl
    | some head =>
      rw [second] at heads
      cases heads
  | some head =>
    rw [first] at heads
    cases second : functionHead? (unwrap t) with
    | none =>
      rw [second] at heads
      cases heads
    | some other =>
      rw [second] at heads
      cases heads with
      | some rests =>
        obtain ⟨atom, rest⟩ := head
        obtain ⟨name, after⟩ := other
        obtain ⟨inner, rfl⟩ := exists_of_functionHead? first
        obtain ⟨others, rfl, inside⟩ := rests.exists_of_cons (by decide)
        -- the bodies behind the names have the same arity and the same variables
        have names := rests.trim.typeVariables
        dsimp only [Option.bind_some] at names ⊢
        rw [inside.sizeOf?, names]

end SignatureIndex
