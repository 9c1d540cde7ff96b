import SignatureIndex.Proofs.Arguments
import SignatureIndex.Proofs.Nesting

/-!
# Parentheses around a whole declaration

The text of a declaration may stand in parentheses as a whole, which is how it was written once.
The parentheses are taken away only if the first of them closes at the very end of the text.  It
does whenever the brackets between them are closed in the order of counting: as long as no bracket
is closed before it was opened, the outer parenthesis stays open, and once all of them are closed
only its own closing bracket is left.  So a declaration means the same with the parentheses as
without, whether it is accepted or refused.
-/

namespace SignatureIndex

open Text (trim)

variable {text marks rest : List Char}

/-! ## Quoted parts before a text without marks -/

/-- A mark without a match finds none in characters that are no marks. -/
theorem IsBlanked.append_plain (blanked : IsBlanked text marks)
    (plain : ∀ c ∈ rest, Lexeme.isMark c = false) : IsBlanked (text ++ rest) (marks ++ rest) := by
  induction blanked with
  | nil =>
    have whole := isBlanked_blankQuoted rest
    rw [blankQuoted_eq_self plain] at whole
    exact whole
  | @quoted mark body after left isMark payload _ ih =>
    have quoted := IsBlanked.quoted isMark payload ih
    simpa using quoted
  | @kept c after left noPayload _ ih =>
    apply IsBlanked.kept _ ih
    intro isMark body later payload whole
    -- the match would have to stand in the text itself
    rcases List.append_eq_append_iff.mp whole with ⟨middle, -, inRest⟩ | ⟨middle, inText, inRest⟩
    · have among : c ∈ rest := by simp [inRest]
      simp [plain c among] at isMark
    · cases middle with
      | nil =>
        have among : c ∈ rest := by simp [← show c :: later = rest by simpa using inRest]
        simp [plain c among] at isMark
      | cons d middle =>
        obtain ⟨rfl, -⟩ := List.cons.inj inRest
        exact noPayload isMark body middle payload inText

/-- Characters that are no marks do not change what is blanked out before them. -/
theorem blankQuoted_append_plain (plain : ∀ c ∈ rest, Lexeme.isMark c = false) (text : List Char) :
    blankQuoted (text ++ rest) = blankQuoted text ++ rest :=
  ((isBlanked_blankQuoted text).append_plain plain).eq_blankQuoted.symm

namespace Group

/-! ## The outer parentheses -/

private theorem elements_append_paren (text : List Char) :
    elements (text ++ [')']) = elements text ++ [⟨.closes .round, [')']⟩] := by
  have plain : ∀ c ∈ [')'], Lexeme.isMark c = false := by
    intro c among
    obtain rfl : c = ')' := List.mem_singleton.mp among
    rfl
  have blanked : places (text ++ [')']) = places text ++ [(')', ')')] := by
    rw [places, blankQuoted_append_plain plain, List.zip_append (length_blankQuoted text)]
    rfl
  -- no double bracket reaches into the parenthesis
  have apart : ∀ m, [(')', ')')].head?.map Prod.fst = some m → m ≠ '<' ∧ m ≠ '>' := by
    intro m head
    obtain rfl : ')' = m := by simpa using head
    decide
  rw [elements, blanked, elementsAt_append apart]
  rfl

/-- Where brackets are balanced, an open parenthesis before them is closed only by the one after
them. -/
theorem IsBalanced.endsFirst {signs : List Sign} (balanced : IsBalanced signs) :
    EndsFirst 0 (.opens .round :: (signs ++ [.closes .round])) := by
  rw [endsFirst_opens_iff]
  refine ⟨⟨signs, .closes .round, rfl, rfl⟩, ?_, ?_⟩
  · rw [level_append, balanced.level_eq]
    rfl
  · intro before sign ends within closed
    rcases List.prefix_concat_iff.mp within with whole | inside
    · exact whole
    · -- inside, the count is one above that of the brackets between the parentheses
      have nonneg := balanced.level_nonneg _ inside
      omega

private theorem takes_parenthesised (balanced : IsBalanced (signs text)) :
    Takes ('(' :: (text ++ [')'])) (elements ('(' :: (text ++ [')']))) [] := by
  apply takes_iff.mpr
  constructor
  · rw [List.append_nil]
  · rw [elements_paren, elements_append_paren, List.map_cons, List.map_append]
    exact balanced.endsFirst

end Group

/-- The parentheses around a text with balanced brackets are taken away. -/
theorem unwrap_parenthesised (balanced : Group.IsBalanced (Group.signs text)) :
    unwrap ('(' :: (text ++ [')'])) = trim text := by
  obtain ⟨-, taken⟩ := Group.takes_parenthesised balanced
  obtain ⟨group, grouped, atEnd⟩ := Option.map_eq_some_iff.mp taken
  obtain ⟨items, rest⟩ := group
  obtain rfl : rest = [] := by simpa using atEnd
  unfold unwrap
  simp only [grouped, List.dropLast_concat]

namespace Declaration

/-- Attributes declare the same if their texts are the same once the outer parentheses are gone. -/
theorem ofAttribute_congr {other : List Char} (same : unwrap text = unwrap other) (kind : String)
    (span : Span) :
    ofAttribute ⟨kind, String.ofList text, span⟩ =
      ofAttribute ⟨kind, String.ofList other, span⟩ := by
  simp only [ofAttribute, ofSpec, ofType, String.toList_ofList, same]

/-- Parentheses around a whole declaration mean nothing: with them and without, the same is
declared, or the attribute is refused for the same reason, and so is every row of attributes in
which it stands. -/
theorem ofAttribute_parenthesised (stripped : trim text = text) (unopened : text.head? ≠ some '(')
    (balanced : Group.IsBalanced (Group.signs text)) (kind : String) (span : Span) :
    ofAttribute ⟨kind, String.ofList ('(' :: (text ++ [')'])), span⟩ =
        ofAttribute ⟨kind, String.ofList text, span⟩ ∧
      ∀ path before after,
        ofAttributes path (before ++ ⟨kind, String.ofList ('(' :: (text ++ [')'])),
          span⟩ :: after) =
            ofAttributes path (before ++ ⟨kind, String.ofList text, span⟩ :: after) := by
  have unwrapped : unwrap ('(' :: (text ++ [')'])) = unwrap text := by
    rw [unwrap_parenthesised balanced, stripped, unwrap_of_ne unopened]
  have same := ofAttribute_congr unwrapped kind span
  refine ⟨same, ?_⟩
  intro path before after
  simp only [ofAttributes, List.mapM_append, List.mapM_cons, same]

/-- Two clauses, with brackets of all kinds and a bracket in a quoted atom. -/
def twoClauses : List Char := "f(A, <<_:8>>) -> \x7bA, 'a)'\x7d; ([b]) -> fun(() -> c)".toList

theorem ofAttribute_parenthesised_clauses :
    trim twoClauses = twoClauses ∧ twoClauses.head? ≠ some '(' ∧
      Group.IsBalanced (Group.signs twoClauses) ∧
      ofAttribute ⟨"spec", "(f(A, <<_:8>>) -> \x7bA, 'a)'\x7d; ([b]) -> fun(() -> c))", .unknown⟩ =
        .ok (.function "f" 2
          ⟨["A"], "(A, <<_:8>>) -> \x7bA, 'a)'\x7d; ([b]) -> fun(() -> c)"⟩ .unknown) := by
  have stripped : trim twoClauses = twoClauses := by decide +kernel
  have unopened : twoClauses.head? ≠ some '(' := by decide +kernel
  have balanced : Group.IsBalanced (Group.signs twoClauses) := by decide +kernel
  refine ⟨stripped, unopened, balanced, ?_⟩
  have text : String.ofList ('(' :: (twoClauses ++ [')'])) =
      "(f(A, <<_:8>>) -> \x7bA, 'a)'\x7d; ([b]) -> fun(() -> c))" := by decide +kernel
  have same := (ofAttribute_parenthesised stripped unopened balanced "spec" .unknown).1
  rw [text] at same
  rw [same]
  decide +kernel

end Declaration

end SignatureIndex
