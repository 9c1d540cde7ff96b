import SignatureIndex.Proofs.LikeSignatures
import SignatureIndex.Proofs.Quotations

/-!
# Heads of declarations

The head of a declaration is an atom before an opening parenthesis, and for a function possibly
another atom and a colon before that.  An atom is a word that starts with a lower-case letter or a
quoted part between apostrophes.  Written like that, with any blanks between its parts, a head is
read as it was written, whatever comes after the parenthesis.
-/

namespace SignatureIndex

open Text (isBlank isAllBlank trimStart apostrophe)

/-- An atom as it is written. -/
inductive IsAtom : List Char → Prop where
  | word {c : Char} {cs : List Char} :
      c.isLower = true → (∀ d ∈ cs, isNameChar d = true) → IsAtom (c :: cs)
  | quoted {body : List Char} :
      IsPayload apostrophe body → IsAtom (apostrophe :: (body ++ [apostrophe]))

variable {name gap rest : List Char} {attr : Attribute}

private theorem not_isNameChar_of_isBlank {c : Char} (blank : isBlank c = true) :
    isNameChar c = false := by
  have free := not_bars_of_isBlank blank
  simp only [bars, Bool.or_eq_false_iff] at free
  exact free.1.1

theorem trimStart_gap {c : Char} (blank : isAllBlank gap = true) (kept : isBlank c = false)
    (rest : List Char) : trimStart (gap ++ c :: rest) = c :: rest := by
  unfold trimStart
  rw [List.dropWhile_append_of_pos (List.all_eq_true.mp blank),
    List.dropWhile_cons_of_neg (by simp [kept])]

/-- What comes after blanks and a character that belongs to no name ends a word. -/
theorem head?_gap_not_isNameChar {c : Char} (blank : isAllBlank gap = true)
    (stops : isNameChar c = false) (rest : List Char) : ∀ d, (gap ++ c :: rest).head? = some d →
    isNameChar d = false := by
  intro d head
  cases gap with
  | nil =>
    obtain rfl : c = d := Option.some.inj head
    exact stops
  | cons e gap =>
    obtain rfl : e = d := Option.some.inj head
    exact not_isNameChar_of_isBlank (List.all_eq_true.mp blank e (by simp))

/-! ## Atoms -/

theorem IsAtom.exists_cons (atom : IsAtom name) :
    ∃ c cs, name = c :: cs ∧ isBlank c = false ∧ c ≠ '(' := by
  cases atom with
  | @word c cs lower _ =>
    refine ⟨c, cs, rfl, isBlank_of_bars ?_, ?_⟩
    · rw [bars, isNameChar_of_isLower lower]
      rfl
    · rintro rfl
      cases lower
  | quoted _ => exact ⟨apostrophe, _, rfl, by decide, by decide⟩

/-- An atom is read as a whole, if a word is not followed by more of its kind. -/
theorem IsAtom.atom?_append (atom : IsAtom name)
    (stops : ∀ c, rest.head? = some c → isNameChar c = false) :
    atom? (name ++ rest) = some (name, rest) := by
  cases atom with
  | @word c cs lower named =>
    have ended : rest.takeWhile isNameChar = [] ∧ rest.dropWhile isNameChar = rest := by
      cases rest with
      | nil => exact ⟨rfl, rfl⟩
      | cons d rest => simp [stops d rfl]
    rw [List.cons_append, atom?_cons, if_pos lower, List.takeWhile_append_of_pos named,
      List.dropWhile_append_of_pos named, ended.1, ended.2, List.append_nil]
  | @quoted body payload =>
    have closed := payload.payload?_append (by decide) rest
    have notLower : ¬apostrophe.isLower = true := by decide
    have long : (body ++ [apostrophe]).length = body.length + 1 := by simp
    have parts : body ++ apostrophe :: rest = (body ++ [apostrophe]) ++ rest := by simp
    rw [List.cons_append, List.append_assoc, List.singleton_append, atom?_cons, if_neg notLower,
      if_pos rfl, closed, Option.map_some, parts, List.take_left' long, List.drop_left' long]

/-! ## Heads -/

/-- What has a head is not in parentheses as a whole. -/
theorem IsAtom.unwrap_append (atom : IsAtom name) (rest : List Char) :
    unwrap (name ++ rest) = name ++ rest := by
  obtain ⟨c, cs, rfl, -, other⟩ := atom.exists_cons
  exact unwrap_of_ne fun head => other (Option.some.inj head)

theorem IsAtom.headAtom?_append (atom : IsAtom name) (blank : isAllBlank gap = true)
    (rest : List Char) : headAtom? (name ++ (gap ++ '(' :: rest)) = some (name, '(' :: rest) := by
  have read := atom.atom?_append (head?_gap_not_isNameChar blank (c := '(') (by decide) rest)
  have opened := trimStart_gap blank (c := '(') (by decide) rest
  rw [headAtom?_eq, read]
  dsimp only [Option.bind_some]
  rw [opened]
  rfl

theorem IsAtom.functionHead?_append (atom : IsAtom name) (blank : isAllBlank gap = true)
    (rest : List Char) :
    functionHead? (name ++ (gap ++ '(' :: rest)) = some (name, '(' :: rest) := by
  have read := atom.atom?_append (head?_gap_not_isNameChar blank (c := '(') (by decide) rest)
  -- no colon follows, so the atom is not a module
  have noModule : afterModule? (name ++ (gap ++ '(' :: rest)) = none := by
    have opened := trimStart_gap blank (c := '(') (by decide) rest
    rw [afterModule?_eq, read]
    dsimp only [Option.bind_some]
    rw [opened]
    rfl
  rw [functionHead?, noModule, atom.headAtom?_append blank]
  rfl

/-- The name of a function after that of its module. -/
theorem IsAtom.functionHead?_qualified {moduleName before after : List Char}
    (qualifier : IsAtom moduleName) (atom : IsAtom name) (blankBefore : isAllBlank before = true)
    (blankAfter : isAllBlank after = true) (blank : isAllBlank gap = true) (rest : List Char) :
    functionHead? (moduleName ++ (before ++ ':' :: (after ++ (name ++ (gap ++ '(' :: rest))))) =
      some (name, '(' :: rest) := by
  have read := qualifier.atom?_append (head?_gap_not_isNameChar blankBefore (c := ':') (by decide)
    (after ++ (name ++ (gap ++ '(' :: rest))))
  obtain ⟨c, cs, rfl, kept, -⟩ := atom.exists_cons
  have qualified : afterModule? (moduleName ++
      (before ++ ':' :: (after ++ (c :: cs ++ (gap ++ '(' :: rest))))) =
        some (c :: cs ++ (gap ++ '(' :: rest)) := by
    have colon := trimStart_gap blankBefore (c := ':') (by decide)
      (after ++ (c :: cs ++ (gap ++ '(' :: rest)))
    rw [afterModule?_eq, read]
    dsimp only [Option.bind_some]
    rw [colon]
    exact congrArg some (trimStart_gap blankAfter kept _)
  rw [functionHead?, qualified, Option.bind_some, atom.headAtom?_append blank]
  rfl

/-- A type has no module. -/
theorem IsAtom.headAtom?_qualified (atom : IsAtom name) (blank : isAllBlank gap = true)
    (rest : List Char) : headAtom? (name ++ (gap ++ ':' :: rest)) = none := by
  have read := atom.atom?_append (head?_gap_not_isNameChar blank (c := ':') (by decide) rest)
  have colon := trimStart_gap blank (c := ':') (by decide) rest
  rw [headAtom?_eq, read]
  dsimp only [Option.bind_some]
  rw [colon]
  rfl

/-! ## Attributes with heads -/

/-- Whether an attribute declares a function or a type. -/
def Attribute.Declares (attr : Attribute) : Prop :=
  attr.kind = "spec" ∨ attr.kind = "type" ∨ attr.kind = "opaque"

/-- The name that an attribute starts with, as it is written, and the text from its parenthesis
on. -/
def Attribute.head? (attr : Attribute) : Option (List Char × List Char) :=
  if attr.kind = "spec" then functionHead? (unwrap attr.text.toList)
  else headAtom? (unwrap attr.text.toList)

/-- The problem of an attribute whose brackets are not balanced. -/
def Attribute.unbalanced (attr : Attribute) : SourceProblem :=
  .malformed attr.kind .balancedBrackets attr.span

theorem Attribute.exists_of_head? (headed : attr.head? = some (name, rest)) :
    ∃ inner, rest = '(' :: inner := by
  rw [Attribute.head?] at headed
  split_ifs at headed with kind
  · exact exists_of_functionHead? headed
  · exact exists_of_headAtom? headed

namespace Declaration

/-- The name that is declared. -/
def name? : Declaration → Option String
  | function name _ _ _ => some name
  | typeName name _ _ _ => some name
  | other _ _ => none

/-- An attribute with a head is refused for its brackets exactly if no group starts at its
parenthesis. -/
theorem ofAttribute_eq_unbalanced_iff (declares : attr.Declares)
    (headed : attr.head? = some (name, rest)) : ofAttribute attr = .error attr.unbalanced ↔
    Group.ofText? rest = none := by
  unfold ofAttribute Attribute.head? Attribute.unbalanced at *
  by_cases kind : attr.kind = "spec"
  · rw [if_pos kind] at headed ⊢
    rw [ofSpec, headed]
    dsimp only
    cases Group.ofText? rest <;> simp [kind]
  · rw [if_neg kind] at headed ⊢
    rw [if_pos (declares.resolve_left kind), ofType, headed]
    dsimp only
    cases Group.ofText? rest with
    | none => simp
    | some group =>
      dsimp only
      split
      · split <;> simp
      · simp

/-- What a declaration takes from its head is the name. -/
theorem exists_of_ofAttribute_eq_ok (declares : attr.Declares) {declaration : Declaration}
    (accepted : ofAttribute attr = .ok declaration) :
    ∃ name rest group, attr.head? = some (name, rest) ∧ Group.ofText? rest = some group ∧
      declaration.name? = some (String.ofList (atomName name)) := by
  unfold ofAttribute Attribute.head? at *
  by_cases kind : attr.kind = "spec"
  · rw [if_pos kind] at accepted ⊢
    unfold ofSpec at accepted
    split at accepted
    · cases accepted
    · next name rest headed =>
      split at accepted
      · cases accepted
      · next group grouped =>
        cases accepted
        exact ⟨name, rest, group, headed, grouped, rfl⟩
  · rw [if_neg kind] at accepted ⊢
    rw [if_pos (declares.resolve_left kind)] at accepted
    unfold ofType at accepted
    split at accepted
    · cases accepted
    · next name rest headed =>
      split at accepted
      · cases accepted
      · next group grouped =>
        split at accepted
        · split at accepted
          · cases accepted
          · cases accepted
            exact ⟨name, rest, group, headed, grouped, rfl⟩
        · cases accepted

end Declaration

end SignatureIndex
