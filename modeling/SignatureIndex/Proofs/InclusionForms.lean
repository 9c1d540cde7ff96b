import SignatureIndex.Proofs.Adjacency
import SignatureIndex.Proofs.Unfolding

/-!
# Forms that ask for files

A form that asks for a file is cut at its dot, so it is an item of its own between the items of the
texts before and after it.  Only a name with a backslash at its end can keep the dot from being
seen, and then there is a problem in any case.  Another text can be pasted in the place of the form.
The items before and after stay the same but for their places, as long as the pasted text is
complete and a line feed comes after it.
-/

namespace SignatureIndex

namespace Text

private theorem mem_dropWhile_of_not {p : Char → Bool} {c : Char} {text : List Char}
    (among : c ∈ text) (kept : p c = false) : c ∈ text.dropWhile p := by
  rw [← @List.takeWhile_append_dropWhile _ p text, List.mem_append] at among
  rcases among with dropped | among
  · rw [List.all_eq_true.mp List.all_takeWhile c dropped] at kept
    cases kept
  · exact among

private theorem mem_trim {c : Char} {text : List Char} (among : c ∈ text)
    (kept : isBlank c = false) : c ∈ trim text := by
  have started := List.mem_reverse.mpr (mem_dropWhile_of_not among kept)
  exact List.mem_reverse.mpr (mem_dropWhile_of_not started kept)

end Text

namespace Item

variable {name : List Char}

/-- Whether a name can be written between marks in a form that asks for a file. -/
def IsIncludable (name : List Char) : Prop :=
  name ≠ [] ∧ Text.doubleMark ∉ name ∧
    Lexeme.close? Text.doubleMark (name ++ [Text.doubleMark]) = some (name ++ [Text.doubleMark], [])

instance (name : List Char) : Decidable (IsIncludable name) := inferInstanceAs (Decidable (_ ∧ _))

/-- What stands before the name of the file in a form that asks for one. -/
def opening (way : IncludeKind) : List Char := '-' :: way.name.toList ++ ['(']

/-- The form that asks for a file of a name, without its dot. -/
def asking (way : IncludeKind) (name : List Char) : List Char :=
  opening way ++ Text.doubleMark :: (name ++ [Text.doubleMark, ')'])

/-- Up to the name of the file every character stands for itself, and there is no dot. -/
theorem plain_of_mem_opening (way : IncludeKind) {c : Char} (among : c ∈ opening way) :
    (Lexeme.isMark c = false ∧ c ≠ '$' ∧ c ≠ '%') ∧ c ≠ '.' := by
  have named : way.name.toList.all isNameChar = true := by cases way <;> decide
  exact plain_of_mem_head (List.all_eq_true.mp named) (by decide) among

/-! ## What a form asks for -/

/-- A name is read up to the next mark, and only a closing bracket may come after that. -/
theorem includedName?_marks (unmarked : Text.doubleMark ∉ name) (text : List Char) :
    includedName? ('(' :: Text.doubleMark :: (name ++ Text.doubleMark :: text)) =
      if name ≠ [] ∧ Text.trim text = [')'] then some name else none := by
  have inside : ∀ c ∈ name, decide (c ≠ Text.doubleMark) = true := by
    intro c among
    have other : c ≠ Text.doubleMark := fun same => unmarked (same ▸ among)
    simpa using other
  have taken : (name ++ Text.doubleMark :: text).takeWhile (· ≠ Text.doubleMark) = name := by
    rw [List.takeWhile_append_of_pos inside]
    exact List.append_nil name
  have left : (name ++ Text.doubleMark :: text).dropWhile (· ≠ Text.doubleMark) =
      Text.doubleMark :: text := by
    rw [List.dropWhile_append_of_pos inside]
    rfl
  have opens : Text.trimStart ('(' :: Text.doubleMark :: (name ++ Text.doubleMark :: text)) =
      '(' :: Text.doubleMark :: (name ++ Text.doubleMark :: text) := rfl
  have marks : Text.trimStart (Text.doubleMark :: (name ++ Text.doubleMark :: text)) =
      Text.doubleMark :: (name ++ Text.doubleMark :: text) := rfl
  simp only [includedName?, opens, marks, taken, left, List.drop_one, List.tail_cons, ne_eq,
    not_true, if_false]
  split
  · next closes => rw [if_pos ⟨List.cons_ne_nil _ _, closes⟩]
  · next other =>
    rw [if_neg]
    rintro ⟨nonempty, closes⟩
    obtain ⟨c, cs, rfl⟩ := List.exists_cons_of_ne_nil nonempty
    exact other c cs rfl closes

/-- What starts like a form that asks for a file asks for one, or should have. -/
theorem ofForm?_opening (way : IncludeKind) (text : List Char) (source : Source) (offset : Nat) :
    ofForm? source ⟨offset, opening way ++ text⟩ =
      let span := source.span offset (offset + (opening way ++ text).length : Nat)
      match includedName? ('(' :: text) with
      | some name => some (.inclusion way (String.ofList name) span)
      | none => some (.malformedInclusion way span) := by
  have stripped : Text.trimStart (opening way ++ text) = opening way ++ text := rfl
  have head : head? (opening way ++ text) = some (way.name.toList, '(' :: text) := by
    cases way <;> rfl
  have kind : includeKind? (String.ofList way.name.toList) = some way := by cases way <;> decide
  cases named : includedName? ('(' :: text) with
  | none => simp only [ofForm?, stripped, head, kind, named, Nat.add_sub_cancel_right]
  | some name => simp only [ofForm?, stripped, head, kind, named, Nat.add_sub_cancel_right]

/-- A name that is empty, or with another mark somewhere after it, cannot be read. -/
theorem exists_ofForm?_malformed (way : IncludeKind) (unmarked : Text.doubleMark ∉ name)
    {text : List Char} (odd : name = [] ∨ Text.doubleMark ∈ text) (source : Source) (offset : Nat) :
    ∃ span, ofForm? source
      ⟨offset, opening way ++ Text.doubleMark :: (name ++ Text.doubleMark :: text)⟩ =
        some (.malformedInclusion way span) := by
  have unnamed : ¬(name ≠ [] ∧ Text.trim text = [')']) := by
    rintro ⟨nonempty, closes⟩
    have among :=
      Text.mem_trim (odd.resolve_left nonempty) (by decide : Text.isBlank Text.doubleMark = false)
    rw [closes] at among
    exact absurd among (by decide)
  have item :=
    ofForm?_opening way (Text.doubleMark :: (name ++ Text.doubleMark :: text)) source offset
  rw [includedName?_marks unmarked, if_neg unnamed] at item
  exact ⟨_, item⟩

/-- Nothing cuts a form that asks for a file before the end of the quoted part that starts with its
name. -/
theorem cutText_opening (way : IncludeKind) {text written rest : List Char}
    (found : Lexeme.next? Text.doubleMark text = some (.quoted written, rest)) :
    Form.cutText (opening way ++ Text.doubleMark :: text) =
      Form.prepend (opening way ++ written) (Form.cutText rest) := by
  have read := ofText_append_plain (fun c among => (@plain_of_mem_opening way c among).1)
    (ofText_of_next? found)
  have noDot : '.' ∉ opening way := fun among => (plain_of_mem_opening way among).2 rfl
  have openingLast : ((opening way).map Lexeme.plain).getLast? ≠ some (.plain '.') := by
    cases way <;> decide
  have cleared : Lexeme.ofCleared (opening way ++ Text.doubleMark :: text) =
      (opening way).map .plain ++ .quoted written :: Lexeme.ofCleared rest := by
    rw [Lexeme.ofCleared, read]
    cases way <;> rfl
  rw [Form.cutText, cleared, Form.cut_append false _ _ fun isDot => absurd isDot openingLast,
    Form.endsInDot_eq_false_iff.mpr openingLast, Form.cut_map_plain false noDot,
    Form.prepend_append]
  rfl

theorem ofText_closing : Lexeme.ofText [')', '.'] = ([.plain ')', .plain '.'], []) :=
  ofText_plain (by simp [Lexeme.isMark, Text.doubleMark, Text.apostrophe])

/-- A part of a file that starts like a form that asks for a file is read without a problem only if
the name can be written so. -/
theorem isIncludable_of_part? {way : IncludeKind} {source : Source} {offset : Nat}
    {more : List Char} {items : List Item} (unmarked : Text.doubleMark ∉ name)
    (read : Sheet.part? source offset
      (opening way ++ Text.doubleMark :: (name ++ Text.doubleMark :: more)) = some (items, none))
    (sound : ∀ span, malformedInclusion way span ∉ items) : IsIncludable name := by
  have mark : Lexeme.isMark Text.doubleMark = true := by decide
  rw [Sheet.part?] at read
  split at read
  case isFalse => cases read
  next closed =>
  obtain ⟨rfl, finished⟩ := Prod.mk.inj (Option.some.inj read)
  cases closes : Lexeme.close? Text.doubleMark (name ++ Text.doubleMark :: more) with
  | none => -- the first mark is never matched
    have none : Lexeme.next? Text.doubleMark (name ++ Text.doubleMark :: more) = none := by
      simp [Lexeme.next?, mark, closes]
    rw [ofText_append_plain (fun c among => (@plain_of_mem_opening way c among).1)
      (ofText_of_none none)] at closed
    cases closed
  | some parts =>
    obtain ⟨written, rest⟩ := parts
    obtain ⟨later, rfl, early⟩ := exists_later_of_close? unmarked closes
    have cut := cutText_opening way (next?_quoted mark closes)
    cases cutRest : Form.cutText rest with
    | mk forms left =>
      rw [cutRest] at cut
      cases forms with
      | nil => -- no dot comes after the quoted part
        rw [cut, Sheet.unfinished?_eq_none_iff] at finished
        cases finished
      | cons form forms =>
        -- a name that cannot be written so makes the form a malformed one
        refine Decidable.of_not_not fun excluded => ?_
        have odd : name = [] ∨ Text.doubleMark ∈ later ++ form := by
          rcases early with rfl | among
          · left
            exact Decidable.of_not_not fun nonempty =>
              excluded ⟨nonempty, unmarked, close?_self closes⟩
          · right
            exact List.mem_append_left form among
        obtain ⟨span, malformed⟩ := exists_ofForm?_malformed way unmarked odd source offset
        have text : opening way ++ Text.doubleMark :: (name ++ Text.doubleMark :: later) ++ form =
            opening way ++ Text.doubleMark :: (name ++ Text.doubleMark :: (later ++ form)) := by
          simp
        refine sound span ?_
        rw [cut, Form.prepend, text, ofTexts, Form.place, List.filterMap_cons, malformed]
        exact List.mem_cons_self

/-- The lexemes of a form that asks for a file, which is cut at its dot and nowhere else. -/
theorem ofText_asking (way : IncludeKind) (includable : IsIncludable name) :
    Lexeme.ofText (asking way name ++ ['.']) = ((opening way).map .plain ++
      [.quoted (Text.doubleMark :: (name ++ [Text.doubleMark])), .plain ')', .plain '.'], []) := by
  have mark : Lexeme.isMark Text.doubleMark = true := by decide
  have quoted := ofText_of_next? (next?_quoted mark (close?_append includable.2.2 [')', '.']))
  rw [List.nil_append, ofText_closing] at quoted
  have whole := ofText_append_plain (fun c among => (@plain_of_mem_opening way c among).1) quoted
  simpa [asking] using whole

theorem cutText_asking (way : IncludeKind) (includable : IsIncludable name) :
    Form.cutText (asking way name ++ ['.']) = ([asking way name], []) := by
  have mark : Lexeme.isMark Text.doubleMark = true := by decide
  have closes := next?_quoted mark (close?_append includable.2.2 [')', '.'])
  have cutClosing : Form.cutText [')', '.'] = ([[')']], []) := by
    rw [Form.cutText, Lexeme.ofCleared, ofText_closing]
    rfl
  have whole := cutText_opening way closes
  rw [List.nil_append, cutClosing] at whole
  simpa [asking, Form.prepend] using whole

private theorem isComplete_asking (way : IncludeKind) (includable : IsIncludable name) :
    Form.IsComplete (asking way name ++ ['.']) := by
  rw [Form.isComplete_iff, ofText_asking way includable, cutText_asking way includable]
  exact ⟨rfl, rfl⟩

private theorem partsFrom_asking (way : IncludeKind) (includable : IsIncludable name)
    {after : List Char} (apart : after.head?.all Text.isBlank = true) :
    Form.PartsFrom (asking way name ++ ['.']) after := by
  constructor
  · intro last isLast
    rw [ofText_asking way includable, List.getLast?_append] at isLast
    cases isLast
    rfl
  · exact fun _ => apart

/-- A form that asks for a file contributes that alone. -/
theorem ofTexts_asking (way : IncludeKind) (includable : IsIncludable name) (source : Source)
    (offset : Nat) : ∃ span, ofTexts source offset (Form.cutText (asking way name ++ ['.'])).1 =
      [.inclusion way (String.ofList name) span] := by
  rw [cutText_asking way includable]
  have named : includedName? ('(' :: Text.doubleMark :: (name ++ [Text.doubleMark, ')'])) =
      some name := by
    rw [includedName?_marks includable.2.1, if_pos ⟨includable.1, rfl⟩]
  refine ⟨source.span offset (offset + (asking way name).length : Nat), ?_⟩
  rw [ofTexts, Form.place, Form.place, List.filterMap_cons, asking, ofForm?_opening, named]
  rfl

/-! ## Other places -/

/-- Whatever a form contributes, it contributes the same in another place. -/
theorem ofForm?_sameText (source other : Source) (offset place : Nat) (text : List Char) :
    (ofForm? source ⟨offset, text⟩ = none ∧ ofForm? other ⟨place, text⟩ = none) ∨
      ∃ item twin, ofForm? source ⟨offset, text⟩ = some item ∧
        ofForm? other ⟨place, text⟩ = some twin ∧ item.SameText twin := by
  cases head : head? (Text.trimStart text) with
  | none =>
    left
    simp only [ofForm?, head, and_self]
  | some parts =>
    obtain ⟨kind, rest⟩ := parts
    right
    cases asked : includeKind? (String.ofList kind) with
    | none =>
      simp only [ofForm?, head, asked]
      exact ⟨_, _, rfl, rfl, .kept ⟨rfl, rfl⟩⟩
    | some way =>
      cases named : includedName? rest with
      | none =>
        simp only [ofForm?, head, asked, named]
        exact ⟨_, _, rfl, rfl, .malformed way _ _⟩
      | some name =>
        simp only [ofForm?, head, asked, named]
        exact ⟨_, _, rfl, rfl, .inclusion way _ _ _⟩

theorem ofTexts_sameText (source other : Source) (offset place : Nat) (texts : List (List Char)) :
    List.Forall₂ Item.SameText (ofTexts source offset texts) (ofTexts other place texts) := by
  induction texts generalizing offset place with
  | nil => exact .nil
  | cons text texts ih =>
    have later := ih (offset + text.length + 1) (place + text.length + 1)
    unfold ofTexts at later ⊢
    rw [Form.place, Form.place, List.filterMap_cons, List.filterMap_cons]
    rcases ofForm?_sameText source other offset place text with
      ⟨none, noTwin⟩ | ⟨item, twin, some, twinned, same⟩
    · rw [none, noTwin]
      exact later
    · rw [some, twinned]
      exact .cons same later

/-- A part of a file without an open form is read the same in another place. -/
theorem exists_part?_sameText {source : Source} {offset : Nat} {text : List Char}
    {items : List Item} (read : Sheet.part? source offset text = some (items, none))
    (other : Source) (place : Nat) :
    ∃ others, Sheet.part? other place text = some (others, none) ∧
      List.Forall₂ Item.SameText items others := by
  unfold Sheet.part? at read ⊢
  split at read
  · next closed =>
    obtain ⟨rfl, finished⟩ := Prod.mk.inj (Option.some.inj read)
    have finishedToo : Sheet.unfinished? other (Form.cutText text).2 = none := by
      rw [Sheet.unfinished?_eq_none_iff] at finished ⊢
      exact finished
    refine ⟨Item.ofTexts other place (Form.cutText text).1, ?_, ofTexts_sameText _ _ _ _ _⟩
    rw [if_pos closed, finishedToo]
  · cases read

/-- Whether no form of a text asks for a file. -/
def AsksNothing (text : List Char) : Prop :=
  ∀ form ∈ (Form.cutText text).1, ∀ parts ∈ head? (Text.trimStart form),
    includeKind? (String.ofList parts.1) = none

instance (text : List Char) : Decidable (AsksNothing text) :=
  inferInstanceAs
    (Decidable (∀ form ∈ (Form.cutText text).1, ∀ parts ∈ head? (Text.trimStart form), _))

theorem exists_map_kept {texts : List (List Char)}
    (nothing : ∀ form ∈ texts, ∀ parts ∈ head? (Text.trimStart form),
      includeKind? (String.ofList parts.1) = none)
    (source : Source) (offset : Nat) :
    ∃ attributes : List Attribute, ofTexts source offset texts = attributes.map .kept := by
  induction texts generalizing offset with
  | nil => exact ⟨[], rfl⟩
  | cons text texts ih =>
    obtain ⟨attributes, later⟩ := ih (fun form among => nothing form (by simp [among]))
      (offset + text.length + 1)
    unfold ofTexts at later ⊢
    rw [Form.place, List.filterMap_cons, later]
    cases head : head? (Text.trimStart text) with
    | none =>
      refine ⟨attributes, ?_⟩
      simp only [ofForm?, head]
    | some parts =>
      obtain ⟨kind, rest⟩ := parts
      have noWay : includeKind? (String.ofList kind) = none :=
        nothing text (by simp) (kind, rest) head
      simp only [ofForm?, head, noWay]
      exact ⟨_ :: attributes, rfl⟩

end Item

namespace Form

/-! ## The two texts -/

variable {before after inner name : List Char} {way : IncludeKind}

/-- A text with a form in it that asks for a file. -/
def including (before : List Char) (way : IncludeKind) (name after : List Char) : List Char :=
  before ++ (Item.asking way name ++ ['.'] ++ after)

/-- A text with another text in the place of such a form, and a line feed after it. -/
def pasted (before inner after : List Char) : List Char := before ++ (inner ++ '\n' :: after)

section Texts

variable (completeBefore : IsComplete before) (line : before = [] ∨ before.getLast? = some '\n')
include completeBefore line

theorem exists_part?_including (source : Source) (includable : Item.IsIncludable name)
    (apart : after.head?.all Text.isBlank = true) :
    ∃ span, Sheet.part? source 0 (including before way name after) =
      (Sheet.part? source (before.length + (Item.asking way name ++ ['.']).length) after).map
        fun later => (Item.ofTexts source 0 (cutText before).1 ++
          .inclusion way (String.ofList name) span :: later.1, later.2) := by
  have completeAsking := Item.isComplete_asking way includable
  have partsAsking := Item.partsFrom_asking way includable apart
  have partsBefore := partsFrom_of_line completeBefore line (Item.asking way name ++ ['.'] ++ after)
  obtain ⟨span, asks⟩ := Item.ofTexts_asking way includable source before.length
  refine ⟨span, ?_⟩
  rw [including, Sheet.part?_append completeBefore partsBefore, Nat.zero_add,
    Sheet.part?_append completeAsking partsAsking, asks, Option.map_map]
  rfl

/-- A text with a form that asks for a file is read without a problem only if the name can be
written so. -/
theorem isIncludable_of_including {source : Source} {items : List Item}
    (unmarked : Text.doubleMark ∉ name)
    (read : Sheet.part? source 0 (including before way name after) = some (items, none))
    (sound : ∀ span, Item.malformedInclusion way span ∉ items) : Item.IsIncludable name := by
  have parts := partsFrom_of_line completeBefore line (Item.asking way name ++ ['.'] ++ after)
  rw [including, Sheet.part?_append completeBefore parts] at read
  obtain ⟨⟨later, left⟩, readLater, same⟩ := Option.map_eq_some_iff.mp read
  obtain ⟨rfl, rfl⟩ := Prod.mk.inj same
  have text : Item.asking way name ++ ['.'] ++ after =
      Item.opening way ++ Text.doubleMark :: (name ++ Text.doubleMark :: ')' :: '.' :: after) := by
    simp [Item.asking]
  rw [text] at readLater
  exact Item.isIncludable_of_part? unmarked readLater fun span among =>
    sound span (List.mem_append_right _ among)

theorem part?_pasted (source : Source) (completeInner : IsComplete inner) :
    Sheet.part? source 0 (pasted before inner after) =
      (Sheet.part? source (before.length + inner.length + 1) after).map
        fun later => (Item.ofTexts source 0 (cutText before).1 ++
          (Item.ofTexts source before.length (cutText inner).1 ++ later.1), later.2) := by
  have cutFeed : cutText ['\n'] = ([], ['\n']) := by
    rw [cutText, Lexeme.ofCleared, ofText_feed]
    rfl
  have completeFeed : IsComplete ['\n'] := by
    rw [isComplete_iff, ofText_feed, cutFeed]
    exact ⟨rfl, rfl⟩
  have partsFeed : PartsFrom ['\n'] after := partsFrom_of_line completeFeed (.inr rfl) after
  have partsInner := partsFrom_feed completeInner after
  have partsBefore := partsFrom_of_line completeBefore line (inner ++ '\n' :: after)
  have split : '\n' :: after = ['\n'] ++ after := rfl
  rw [pasted, Sheet.part?_append completeBefore partsBefore, Nat.zero_add,
    Sheet.part?_append completeInner partsInner, split, Sheet.part?_append completeFeed partsFeed,
    cutFeed, Option.map_map, Option.map_map]
  rfl

end Texts

end Form

end SignatureIndex
