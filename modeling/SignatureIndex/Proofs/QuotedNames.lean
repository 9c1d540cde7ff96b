import SignatureIndex.Proofs.Arguments
import SignatureIndex.Proofs.Extension

/-!
# Names written as quoted atoms

Any text can be the name of a function or a type: between apostrophes, with a backslash before each
apostrophe and each backslash in it.  Such an atom is read as a whole and gives its name back,
whatever the name holds and whatever comes after it.  So a declaration that is written with a quoted
atom declares exactly this name, and declarations of different names never take each other's place
in a table.
-/

namespace SignatureIndex

open Text (isBlank isAllBlank trim trimStart trimEnd apostrophe joined)

/-- A character of a name as it stands in a quoted atom. -/
def guarded (c : Char) : List Char := if c = '\\' ∨ c = apostrophe then ['\\', c] else [c]

/-- The quoted atom for a name. -/
def quotedName (name : List Char) : List Char :=
  apostrophe :: (name.flatMap guarded ++ [apostrophe])

/-- The head of a declaration whose name is written as a quoted atom, possibly after that of a
module. -/
inductive IsQuotedHead (name : List Char) : List Char → Prop where
  | plain {gap : List Char} : isAllBlank gap = true → IsQuotedHead name (quotedName name ++ gap)
  | qualified {moduleName before after gap : List Char} :
      isAllBlank before = true → isAllBlank after = true → isAllBlank gap = true →
      IsQuotedHead name
        (quotedName moduleName ++ (before ++ ':' :: (after ++ (quotedName name ++ gap))))

/-- Whether an attribute declares something under a quoted name. -/
structure Attribute.IsNamed (attr : Attribute) (name : List Char) : Prop where
  declares : attr.Declares
  headed : ∃ head rest, IsQuotedHead name head ∧ unwrap attr.text.toList = head ++ '(' :: rest

def Symbol.name : Symbol → String
  | function ref | type ref => ref.name
  | operator key => key.name

variable {name text : List Char} {attr : Attribute} {declaration : Declaration}

/-! ## Reading a quoted atom -/

private theorem isPayload_guarded (name : List Char) :
    IsPayload apostrophe (name.flatMap guarded) := by
  induction name with
  | nil => exact .nil
  | cons c name ih =>
    rw [List.flatMap_cons, guarded]
    split_ifs with special
    · -- the backslash takes the character along, which is no line feed
      have notFeed : c ≠ '\n' := by rcases special with rfl | rfl <;> decide
      exact .escaped notFeed ih
    · rw [not_or] at special
      exact .plain special.2 special.1 ih

private theorem unescape_cons {c : Char} (plain : c ≠ '\\') (rest : List Char) :
    unescape (c :: rest) = c :: unescape rest := by
  cases rest with
  | nil => rfl
  | cons d rest => rw [unescape, if_neg plain]

private theorem unescape_guarded (name : List Char) : unescape (name.flatMap guarded) = name := by
  induction name with
  | nil => rfl
  | cons c name ih =>
    rw [List.flatMap_cons, guarded]
    split_ifs with special
    · rw [List.cons_append, List.singleton_append, unescape, if_pos rfl, ih]
    · rw [not_or] at special
      rw [List.singleton_append, unescape_cons special.1, ih]

/-- A quoted atom stands for the name that was quoted. -/
theorem atomName_quotedName (name : List Char) : atomName (quotedName name) = name := by
  rw [quotedName, atomName, if_pos rfl, List.dropLast_concat, unescape_guarded]

theorem isAtom_quotedName (name : List Char) : IsAtom (quotedName name) :=
  .quoted (isPayload_guarded name)

/-! ## Variables as parameters -/

/-- Parameters as they stand between commas, with a blank after each comma. -/
def spaced : List (List Char) → List (List Char)
  | [] => []
  | first :: others => first :: others.map (' ' :: ·)

theorem isBlank_of_isNameChar {c : Char} (named : isNameChar c = true) : isBlank c = false := by
  refine isBlank_of_bars ?_
  rw [bars, named]
  rfl

theorem isNameChar_of_isVariable (isVar : isVariable text = true) :
    ∀ c ∈ text, isNameChar c = true := by
  cases text with
  | nil => cases isVar
  | cons c text =>
    rw [isVariable, Bool.and_eq_true, List.all_eq_true] at isVar
    intro d among
    rcases List.mem_cons.mp among with rfl | among
    · exact isNameChar_of_startsVariable isVar.1
    · exact isVar.2 d among

private theorem trim_eq_self (kept : ∀ c ∈ text, isBlank c = false) : trim text = text :=
  Text.trim_eq_self_of_ends (fun c first => kept c (List.mem_of_head? first))
    fun c last => kept c (List.mem_of_getLast? last)

theorem trim_cons_of_blank {c : Char} (blank : isBlank c = true) (text : List Char) :
    trim (c :: text) = trim text := by
  rw [trim, trimStart, List.dropWhile_cons_of_pos blank]
  rfl

private theorem joined_cons_cons (sep c : Char) (piece : List Char) (pieces : List (List Char)) :
    joined sep ((c :: piece) :: pieces) = c :: joined sep (piece :: pieces) := by
  cases pieces <;> rfl

private theorem joined_spaced (parameters : List (List Char)) :
    joined ',' (spaced parameters) = [',', ' '].intercalate parameters := by
  induction parameters with
  | nil => rfl
  | cons first parameters ih =>
    cases parameters with
    | nil => simp [spaced, joined]
    | cons second parameters =>
      -- without its blank, the second parameter is the first of the rest
      rw [spaced] at ih ⊢
      rw [List.map_cons, joined, joined_cons_cons, ih]
      simp [List.intercalate]

private theorem quiet_of_isNameChar {c : Char} (named : isNameChar c = true) :
    Lexeme.isMark c = false ∧ (c ≠ '<' ∧ c ≠ '>') ∧ Group.Sign.ofChar c = .other := by
  have differs (d : Char) (unnamed : isNameChar d = false) : c ≠ d := by
    rintro rfl
    rw [unnamed] at named
    cases named
  refine ⟨(plain_of_isNameChar named).1.1, ⟨differs '<' (by decide), differs '>' (by decide)⟩, ?_⟩
  refine Group.ofChar_eq_other ?_ ?_ (differs ',' (by decide))
  · simp [Group.isOpen, differs '(' (by decide), differs '[' (by decide),
      differs '\x7b' (by decide)]
  · simp [Group.isClose, differs ')' (by decide), differs ']' (by decide),
      differs '\x7d' (by decide)]

/-- A variable can stand as an argument, right after the parenthesis or after a blank. -/
theorem isArgument_of_isVariable (gap : List Char) (blank : ∀ c ∈ gap, c = ' ')
    (isVar : isVariable text = true) : Group.IsArgument (gap ++ text) := by
  have named := isNameChar_of_isVariable isVar
  refine Group.isArgument_of_quiet ?_ ?_
  · intro c among
    rcases List.mem_append.mp among with among | among
    · rw [blank c among]
      decide
    · exact quiet_of_isNameChar (named c among)
  · cases text with
    | nil => cases isVar
    | cons c text => simp [isAllBlank, isBlank_of_isNameChar (named c (by simp))]

private theorem isArgument_of_mem_spaced {parameters : List (List Char)}
    (areVariables : ∀ parameter ∈ parameters, isVariable parameter = true) :
    ∀ argument ∈ spaced parameters, Group.IsArgument argument := by
  cases parameters with
  | nil => simp [spaced]
  | cons first parameters =>
    intro argument among
    rcases List.mem_cons.mp among with rfl | among
    · exact isArgument_of_isVariable [] (by simp) (areVariables argument (by simp))
    · obtain ⟨parameter, within, rfl⟩ := List.mem_map.mp among
      exact isArgument_of_isVariable [' '] (by simp) (areVariables parameter (by simp [within]))

private theorem map_trim_spaced {parameters : List (List Char)}
    (areVariables : ∀ parameter ∈ parameters, isVariable parameter = true) :
    (spaced parameters).map trim = parameters := by
  have trimmed (parameter : List Char) (among : parameter ∈ parameters) :
      trim parameter = parameter :=
    trim_eq_self fun c within =>
      isBlank_of_isNameChar (isNameChar_of_isVariable (areVariables parameter among) c within)
  cases parameters with
  | nil => rfl
  | cons first parameters =>
    have later (parameter : List Char) (among : parameter ∈ parameters) :
        trim (' ' :: parameter) = parameter := by
      rw [trim_cons_of_blank (by decide), trimmed parameter (by simp [among])]
    rw [spaced, List.map_cons, List.map_map, trimmed first (by simp)]
    exact congrArg (first :: ·) ((List.map_congr_left later).trans (List.map_id _))

/-! ## Declarations -/

private theorem headAtom?_quotedName (name rest : List Char) :
    headAtom? (quotedName name ++ '(' :: rest) = some (quotedName name, '(' :: rest) := by
  have noGap : isAllBlank [] = true := rfl
  exact (isAtom_quotedName name).headAtom?_append noGap rest

namespace Attribute

/-- What is found as the name of an attribute with a quoted name is this name. -/
theorem IsNamed.eq_of_head? (named : attr.IsNamed name) {written rest : List Char}
    (found : attr.head? = some (written, rest)) : written = quotedName name := by
  obtain ⟨head, after, quoted, text⟩ := named.headed
  rw [Attribute.head?, text] at found
  have atom := isAtom_quotedName name
  cases quoted with
  | plain blank =>
    rw [List.append_assoc, atom.functionHead?_append blank, atom.headAtom?_append blank,
      ite_self] at found
    cases found
    rfl
  | @qualified moduleName _ _ _ blankBefore blankAfter blank =>
    have qualifier := isAtom_quotedName moduleName
    simp only [List.append_assoc, List.cons_append] at found
    rw [qualifier.functionHead?_qualified atom blankBefore blankAfter blank,
      qualifier.headAtom?_qualified blankBefore] at found
    -- only a function has a head after a module
    split_ifs at found
    cases found
    rfl

end Attribute

namespace Declaration

private theorem name?_of_isNamed (named : attr.IsNamed name)
    (accepted : ofAttribute attr = .ok declaration) :
    declaration.name? = some (String.ofList name) := by
  obtain ⟨written, rest, group, headed, -, declared⟩ :=
    exists_of_ofAttribute_eq_ok named.declares accepted
  rw [declared, named.eq_of_head? headed, atomName_quotedName]

private theorem exists_function_of_ofAttribute (kind : attr.kind = "spec")
    (accepted : ofAttribute attr = .ok declaration) :
    ∃ name arity scheme, declaration = .function name arity scheme attr.span := by
  rw [ofAttribute, if_pos kind, ofSpec] at accepted
  split at accepted
  · cases accepted
  · split at accepted
    · cases accepted
    · cases accepted
      exact ⟨_, _, _, rfl⟩

/-- A type whose name is a quoted atom, with variables as parameters. -/
theorem ofAttribute_quotedType {kind : String} (declares : kind = "type" ∨ kind = "opaque")
    {parameters : List (List Char)}
    (areVariables : ∀ parameter ∈ parameters, isVariable parameter = true) (body : List Char)
    (span : Span) :
    ofAttribute ⟨kind, String.ofList (quotedName name ++ '(' ::
        ([',', ' '].intercalate parameters ++ ')' :: ([' ', ':', ':', ' '] ++ body))), span⟩ =
      .ok (.typeName (String.ofList name) ⟨parameters.map String.ofList, String.ofList (trim body)⟩
        (kind == "opaque") span) := by
  have notSpec : kind ≠ "spec" := by rcases declares with rfl | rfl <;> decide
  have grouped : Group.ofText? ('(' ::
      ([',', ' '].intercalate parameters ++ ')' :: ([' ', ':', ':', ' '] ++ body))) =
        some ⟨parameters, [' ', ':', ':', ' '] ++ body⟩ := by
    rw [← joined_spaced, Group.ofText?_joined (isArgument_of_mem_spaced areVariables),
      map_trim_spaced areVariables]
  have marked : trimStart ([' ', ':', ':', ' '] ++ body) = ':' :: ':' :: ' ' :: body := rfl
  have noOther : parameters.find? (fun parameter => !isVariable parameter) = none := by
    rw [List.find?_eq_none]
    intro parameter among
    simp [areVariables parameter among]
  rw [ofAttribute, if_neg notSpec, if_pos declares, ofType]
  simp only [String.toList_ofList, (isAtom_quotedName name).unwrap_append,
    headAtom?_quotedName, grouped, marked, noOther, atomName_quotedName,
    trim_cons_of_blank (c := ' ') (by decide)]

private theorem name?_of_binding? {moduleName : Option String} {key : Symbol} {scheme : TypeScheme}
    (entered : declaration.binding? moduleName = some (key, scheme)) :
    declaration.name? = some key.name := by
  cases declaration <;> cases entered <;> rfl

private theorem exists_binding?_of_name? {name : String} (named : declaration.name? = some name)
    (moduleName : Option String) :
    ∃ key scheme, declaration.binding? moduleName = some (key, scheme) := by
  cases declaration with
  | function name arity scheme span => exact ⟨_, _, rfl⟩
  | typeName name scheme isOpaque span => exact ⟨_, _, rfl⟩
  | other kind span => cases named

/-- A name that is written as a quoted atom is the name that is declared, of a type with its
parameters and its body, and of a function with or without a module.  So declarations of different
names are found in a table side by side, whatever modules they are folded in for. -/
theorem ofAttribute_quotedName (name : List Char) :
    (∀ kind parameters body span, kind = "type" ∨ kind = "opaque" →
      (∀ parameter ∈ parameters, isVariable parameter = true) →
      ofAttribute ⟨kind, String.ofList (quotedName name ++ '(' ::
          ([',', ' '].intercalate parameters ++ ')' :: ([' ', ':', ':', ' '] ++ body))), span⟩ =
        .ok (.typeName (String.ofList name) ⟨parameters.map String.ofList,
          String.ofList (trim body)⟩ (kind == "opaque") span)) ∧
    (∀ attr declaration, attr.kind = "spec" → attr.IsNamed name →
      ofAttribute attr = .ok declaration →
      ∃ arity scheme, declaration = .function (String.ofList name) arity scheme attr.span) ∧
    ∀ otherName, name ≠ otherName → ∀ attr other declaration otherDeclaration,
      attr.IsNamed name → ofAttribute attr = .ok declaration →
      other.IsNamed otherName → ofAttribute other = .ok otherDeclaration →
      ∀ (table : SymbolTable) moduleName otherModule, ∃ key scheme otherKey otherScheme,
        declaration.binding? moduleName = some (key, scheme) ∧
        otherDeclaration.binding? otherModule = some (otherKey, otherScheme) ∧
        ((table.declare moduleName declaration).declare otherModule otherDeclaration).find key =
          some scheme ∧
        ((table.declare moduleName declaration).declare otherModule otherDeclaration).find
          otherKey =
          some otherScheme := by
  refine ⟨?_, ?_, ?_⟩
  · intro kind parameters body span declares areVariables
    exact ofAttribute_quotedType declares areVariables body span
  · intro attr declaration kind named accepted
    obtain ⟨declared, arity, scheme, rfl⟩ := exists_function_of_ofAttribute kind accepted
    have sameName := name?_of_isNamed named accepted
    cases sameName
    exact ⟨arity, scheme, rfl⟩
  · intro otherName differ attr other declaration otherDeclaration named accepted
      namedOther acceptedOther
      table moduleName otherModule
    have declared := name?_of_isNamed named accepted
    have declaredOther := name?_of_isNamed namedOther acceptedOther
    obtain ⟨key, scheme, entered⟩ := exists_binding?_of_name? declared moduleName
    obtain ⟨otherKey, otherScheme, enteredOther⟩ :=
      exists_binding?_of_name? declaredOther otherModule
    have differKeys : key ≠ otherKey := by
      rintro rfl
      -- a symbol has one name
      rw [name?_of_binding? entered] at declared
      rw [name?_of_binding? enteredOther, declared] at declaredOther
      exact differ (String.ofList_injective (Option.some.inj declaredOther))
    refine ⟨key, scheme, otherKey, otherScheme, entered, enteredOther, ?_, ?_⟩
    · -- the second declaration leaves the first symbol as it was
      rw [SymbolTable.find_declare, SymbolTable.find_declare, entered, enteredOther]
      simp [List.lookup_cons, beq_eq_false_iff_ne.mpr differKeys]
    · rw [SymbolTable.find_declare, enteredOther]
      simp

/-- A name with an apostrophe, a bracket and a comma. -/
def oddName : List Char := "it's (a, b".toList

def oddSpec : Attribute := ⟨"spec", "'m m': 'it\\'s (a, b' (A) -> A", .unknown⟩

def plainSpec : Attribute := ⟨"spec", "'its'(A) -> A", .unknown⟩

private theorem isNamed_oddSpec : oddSpec.IsNamed oddName where
  declares := .inl rfl
  headed := by
    have noGap : isAllBlank [] = true := rfl
    have gap : isAllBlank [' '] = true := rfl
    have quoted : IsQuotedHead oddName
        (quotedName "m m".toList ++ ([] ++ ':' :: ([' '] ++ (quotedName oddName ++ [' '])))) :=
      .qualified noGap gap gap
    exact ⟨_, "A) -> A".toList, quoted, by decide +kernel⟩

private theorem isNamed_plainSpec : plainSpec.IsNamed "its".toList where
  declares := .inl rfl
  headed := by
    have noGap : isAllBlank [] = true := rfl
    exact ⟨_, "A) -> A".toList, .plain noGap, by decide +kernel⟩

theorem ofAttribute_quotedName_odd :
    ofAttribute ⟨"opaque", "'it\\'s (a, b'(A, _B) :: [A]", .unknown⟩ =
        .ok (.typeName "it's (a, b" ⟨["A", "_B"], "[A]"⟩ true .unknown) ∧
      oddSpec.IsNamed oddName ∧ plainSpec.IsNamed "its".toList ∧
      ∃ declaration other scheme otherScheme, ofAttribute oddSpec = .ok declaration ∧
        ofAttribute plainSpec = .ok other ∧
        declaration = .function "it's (a, b" 1 scheme .unknown ∧
        ((SymbolTable.empty.declare none declaration).declare none other).find
          (.function ⟨none, "it's (a, b", 1⟩) = some scheme ∧
        ((SymbolTable.empty.declare none declaration).declare none other).find
          (.function ⟨none, "its", 1⟩) = some otherScheme := by
  obtain ⟨types, functions, apart⟩ := ofAttribute_quotedName oddName
  refine ⟨?_, isNamed_oddSpec, isNamed_plainSpec, ?_⟩
  · have areVariables : ∀ parameter ∈ ["A".toList, "_B".toList], isVariable parameter = true := by
      decide
    have declared :=
      types "opaque" ["A".toList, "_B".toList] "[A]".toList .unknown (.inr rfl) areVariables
    have text : String.ofList
        (quotedName oddName ++ '(' :: ([',', ' '].intercalate ["A".toList, "_B".toList] ++
        ')' :: ([' ', ':', ':', ' '] ++ "[A]".toList))) = "'it\\'s (a, b'(A, _B) :: [A]" := by
        decide +kernel
    rw [text] at declared
    rw [declared]
    decide +kernel
  · have accepted : ofAttribute oddSpec =
        .ok (.function "it's (a, b" 1 ⟨["A"], "(A) -> A"⟩ .unknown) := by decide +kernel
    have acceptedPlain : ofAttribute plainSpec =
        .ok (.function "its" 1 ⟨["A"], "(A) -> A"⟩ .unknown) := by decide +kernel
    obtain ⟨arity, scheme, declared⟩ := functions oddSpec _ rfl isNamed_oddSpec accepted
    obtain ⟨key, found, otherKey, otherFound, entered, enteredOther, here, there⟩ :=
      apart "its".toList (by decide) oddSpec plainSpec _ _ isNamed_oddSpec accepted
        isNamed_plainSpec acceptedPlain
        SymbolTable.empty none none
    cases entered
    cases enteredOther
    cases declared
    exact ⟨_, _, _, _, accepted, acceptedPlain, rfl, here, there⟩

end Declaration

end SignatureIndex
