import Mathlib.Data.List.Infix
import SignatureIndex.Proofs.Heads
import SignatureIndex.Proofs.Signs

/-!
# Arguments, joined and split again

Texts that are joined by commas and put in parentheses are found again by splitting the group, if
each of them is closed in itself: its quoted parts end in it, its brackets are closed in it, none of
them before it was opened, and its commas stand inside its brackets.  What comes after the closing
parenthesis plays no part.  So a spec with such arguments declares a function of as many arguments
as were written.
-/

namespace SignatureIndex

open Text (isAllBlank trim joined)

namespace Group

/-- Signs that close each bracket that they open, and close none before it is opened. -/
structure IsBalanced (signs : List Sign) : Prop where
  level_nonneg : ∀ before, before <+: signs → 0 ≤ level before
  level_eq : level signs = 0

/-- No comma stands outside the brackets that the signs open. -/
def IsUndivided (signs : List Sign) : Prop := ∀ before, before ++ [.comma] <+: signs →
    level before ≠ 0

/-- A text that can stand as an argument of its own. -/
structure IsArgument (text : List Char) : Prop where
  notBlank : isAllBlank text = false
  closed : ClosesQuotes text
  balanced : IsBalanced (signs text)
  undivided : IsUndivided (signs text)

instance (signs : List Sign) : Decidable (IsBalanced signs) :=
  decidable_of_iff ((∀ before ∈ signs.inits, 0 ≤ level before) ∧ level signs = 0)
    ⟨fun ⟨nonneg, level_eq⟩ =>
      ⟨fun _ within => nonneg _ ((List.mem_inits _ _).mpr within), level_eq⟩,
      fun ⟨nonneg, level_eq⟩ =>
      ⟨fun _ within => nonneg _ ((List.mem_inits _ _).mp within), level_eq⟩⟩

instance (signs : List Sign) : Decidable (IsUndivided signs) :=
  decidable_of_iff (∀ before ∈ signs.inits, before ++ [.comma] <+: signs → level before ≠ 0)
    ⟨fun undivided before within =>
        undivided before ((List.mem_inits _ _).mpr ((List.prefix_append _ _).trans within)) within,
      fun undivided before _ => undivided before⟩

variable {argument tail : List Char} {arguments : List (List Char)}

private theorem IsArgument.endsNoItem (fits : IsArgument argument) :
    EndsNoItem 1 (signs argument) := by
  intro before sign within ends
  rw [Sign.endsItem, Bool.or_eq_true, beq_iff_eq] at ends
  rcases ends with rfl | ends
  · have inside := fits.undivided before within
    omega
  · -- the bracket was opened in the argument
    have nonneg := fits.balanced.level_nonneg _ within
    rw [level_append, level_cons, weight_of_endsGroup ends, level_nil] at nonneg
    omega

/-- A text of characters that count for nothing can stand as an argument. -/
theorem isArgument_of_quiet {text : List Char}
    (quiet : ∀ c ∈ text, Lexeme.isMark c = false ∧ (c ≠ '<' ∧ c ≠ '>') ∧ Sign.ofChar c = .other)
    (visible : isAllBlank text = false) : IsArgument text := by
  have others {text : List Char} (quiet : ∀ c ∈ text, Lexeme.isMark c = false ∧
      (c ≠ '<' ∧ c ≠ '>') ∧ Sign.ofChar c = .other) : ∀ sign ∈ signs text, sign = .other := by
    induction text with
    | nil =>
      intro sign among
      cases among
    | cons c text ih =>
      obtain ⟨plain, single, other⟩ := quiet c (by simp)
      rw [signs, elements_cons plain single, List.map_cons, other]
      intro sign among
      rcases List.mem_cons.mp among with rfl | among
      · rfl
      · exact ih (fun d within => quiet d (List.mem_cons_of_mem c within)) sign among
  have flat (before : List Sign) (within : before <+: signs text) : level before = 0 := by
    refine level_eq_zero fun sign among => ?_
    rw [others quiet sign (within.subset among)]
    rfl
  refine ⟨visible, closesQuotes_of_plain fun c among => (quiet c among).1,
    ⟨fun before within => Int.le_of_eq (flat before within).symm, flat _ (List.prefix_refl _)⟩, ?_⟩
  intro before within
  cases others quiet .comma (within.subset (by simp))

/-- An argument makes the item in which it stands longer. -/
theorem IsArgument.splitFrom_append (fits : IsArgument argument) {c : Char}
    (apart : c ≠ '<' ∧ c ≠ '>') (rest : List Char) :
    splitFrom 1 (places (argument ++ c :: rest)) =
      (splitFrom 1 (places (c :: rest))).map (extend argument) := by
  have parts : elements (argument ++ c :: rest) = elements argument ++ elements (c :: rest) := by
    refine elements_append fits.closed.isSettledFrom fun m head => ?_
    obtain rfl : c = m := Option.some.inj head
    exact apart
  have level_eq : level ((elements argument).map Element.sign) = 0 := fits.balanced.level_eq
  calc splitFrom 1 (places (argument ++ c :: rest))
      = splitElements 1 (elements argument ++ elements (c :: rest)) := by
        rw [splitFrom_eq_splitElements, ← elements, parts]
    _ = (splitElements 1 (elements (c :: rest))).map (extend argument) := by
        rw [splitElements_append fits.endsNoItem, level_eq, flatMap_written_elements, Int.add_zero]
    _ = (splitFrom 1 (places (c :: rest))).map (extend argument) := by
        rw [splitFrom_eq_splitElements, elements]

theorem splitFrom_close (tail : List Char) :
    splitFrom 1 (places (')' :: tail)) = some ⟨[[]], tail⟩ := by
  rw [places_cons_of_plain (by decide), splitFrom_of_isEnd (by decide), if_pos (by decide),
    map_snd_places]

private theorem splitFrom_comma (rest : List Char) :
    splitFrom 1 (places (',' :: rest)) =
      (splitFrom 1 (places rest)).map fun group => ⟨[] :: group.items, group.rest⟩ := by
  rw [places_cons_of_plain (by decide), splitFrom_of_isEnd (by decide), if_neg (by decide)]

/-- Splitting finds the arguments that were joined. -/
theorem splitFrom_joined {first : List Char} (fitsFirst : IsArgument first)
    (fits : ∀ argument ∈ arguments, IsArgument argument) (tail : List Char) :
    splitFrom 1 (places (joined ',' (first :: arguments) ++ ')' :: tail)) =
      some ⟨first :: arguments, tail⟩ := by
  induction arguments generalizing first with
  | nil =>
    rw [joined, fitsFirst.splitFrom_append (by decide), splitFrom_close]
    simp [extend]
  | cons second arguments ih =>
    have later := ih (fits second (by simp)) fun argument among => fits argument (by simp [among])
    rw [joined, List.append_assoc, List.cons_append, fitsFirst.splitFrom_append (by decide),
      splitFrom_comma, later]
    simp [extend]

/-- A group of arguments has these arguments as its items. -/
theorem ofText?_joined (fits : ∀ argument ∈ arguments, IsArgument argument) (tail : List Char) :
    ofText? ('(' :: (joined ',' arguments ++ ')' :: tail)) = some ⟨arguments.map trim, tail⟩ := by
  rw [ofText?_cons]
  cases arguments with
  | nil =>
    rw [joined, List.nil_append, splitFrom_close]
    rfl
  | cons first arguments =>
    have visible : trim first ≠ [] := by
      rw [ne_eq, trim_eq_nil_iff, (fits first (by simp)).notBlank]
      decide
    rw [splitFrom_joined (fits first (by simp)) fun argument among =>
      fits argument (by simp [among]), Option.map_some, if_neg]
    rw [List.map_cons]
    exact fun blank => visible (List.cons.inj blank).1

end Group

namespace Declaration

open SignatureIndex.Group (IsArgument)

/-- A spec declares a function of as many arguments as are written in its parentheses, whatever
comes after them, and splitting its group gives these arguments and what comes after the closing
parenthesis. -/
theorem ofAttribute_joined {name : List Char} (atom : IsAtom name) {arguments : List (List Char)}
    (fits : ∀ argument ∈ arguments, IsArgument argument) (tail : List Char) (span : Span) :
    let body := '(' :: (Text.joined ',' arguments ++ ')' :: tail)
    ofAttribute ⟨"spec", String.ofList (name ++ body), span⟩ =
        .ok (.function (String.ofList (atomName name)) arguments.length
          ⟨(typeVariables (Text.trim body)).map String.ofList,
            String.ofList (Text.trim body)⟩ span) ∧
      Group.ofText? body = some ⟨arguments.map Text.trim, tail⟩ := by
  intro body
  have grouped : Group.ofText? body = some ⟨arguments.map Text.trim, tail⟩ :=
    Group.ofText?_joined fits tail
  have headed : functionHead? (unwrap (name ++ body)) = some (name, body) := by
    have noGap : isAllBlank [] = true := rfl
    rw [atom.unwrap_append]
    exact atom.functionHead?_append noGap _
  refine ⟨?_, grouped⟩
  rw [ofAttribute, if_pos rfl, ofSpec]
  simp only [String.toList_ofList, headed, grouped, List.length_map]

/-- Arguments with brackets of all kinds, commas inside them, and a bracket in a string. -/
def mixedArguments : List (List Char) :=
  ["fun((A, b) -> [c])".toList, " <<_:8, _:_*4>>".toList, "\x22a, (\x22".toList]

private theorem isArgument_of_mem_mixedArguments : ∀ argument ∈ mixedArguments,
    IsArgument argument := by
  simp only [mixedArguments, List.forall_mem_cons, List.not_mem_nil,
    IsEmpty.forall_iff, implies_true, and_true]
  have closed {text : List Char} (plain : text.all (!Lexeme.isMark ·) = true) : ClosesQuotes text :=
    closesQuotes_of_plain (by simpa using plain)
  refine ⟨⟨by decide, closed (by decide), by decide +kernel, by decide +kernel⟩,
    ⟨by decide, closed (by decide), by decide +kernel, by decide +kernel⟩,
    ⟨by decide, ?_, by decide +kernel, by decide +kernel⟩⟩
  have payload : IsPayload Text.doubleMark "a, (".toList := isPayload_of_all (by decide)
  exact .quoted rfl payload .nil

/-- What comes after the arguments may hold open quotes and brackets. -/
theorem ofAttribute_joined_mixed :
    IsAtom "'my fun'".toList ∧ (∀ argument ∈ mixedArguments, IsArgument argument) ∧
      ofAttribute ⟨"spec", "'my fun'(fun((A, b) -> [c]), <<_:8, _:_*4>>,\x22a, (\x22) -> ok ('",
        ⟨"m.erl", 1, 1, 1, 9⟩⟩ = .ok (.function "my fun" 3
          ⟨["A"], "(fun((A, b) -> [c]), <<_:8, _:_*4>>,\x22a, (\x22) -> ok ('"⟩ ⟨"m.erl", 1,
            1, 1, 9⟩) := by
  have payload : IsPayload Text.apostrophe "my fun".toList := isPayload_of_all (by decide)
  have atom : IsAtom "'my fun'".toList := .quoted payload
  refine ⟨atom, isArgument_of_mem_mixedArguments, ?_⟩
  have declared :=
    (ofAttribute_joined atom isArgument_of_mem_mixedArguments " -> ok ('".toList ⟨"m.erl",
    1, 1, 1, 9⟩).1
  have text : String.ofList ("'my fun'".toList ++ '(' :: (Text.joined ',' mixedArguments ++
      ')' :: " -> ok ('".toList)) =
        "'my fun'(fun((A, b) -> [c]), <<_:8, _:_*4>>,\x22a, (\x22) -> ok ('" := by decide +kernel
  rw [text] at declared
  rw [declared]
  decide +kernel

end Declaration

end SignatureIndex
