import Mathlib.Data.List.TakeWhile
import SignatureIndex.Proofs.Places

/-!
# Where forms end

A text without comments is cut at its terminating dots.  Such a dot stands for itself, outside every
quoted part and every literal; a blank or the end of the text comes after it; and it does not come
right after another dot that stands for itself.  The forms are what lies between these dots, and
nothing is lost.  If anything visible is left over after the last of them, the file ends in an open
form, which is told from there up to the end.
-/

namespace SignatureIndex

namespace Lexeme

/-- For every character of a lexeme, whether it stands for itself. -/
def bareness : Lexeme → List Bool
  | plain _ => [true]
  | lexeme => List.replicate lexeme.text.length false

@[simp] theorem length_bareness (lexeme : Lexeme) :
    lexeme.bareness.length = lexeme.text.length := by
  fun_cases bareness lexeme <;> simp [text]

/-- Whether the character at a place of a text stands for itself, outside every string, quoted atom,
literal and comment. -/
def IsBare (text : List Char) (place : Nat) : Prop :=
  ((ofText text).1.flatMap bareness)[place]? = some true

/-- Whether a dot that stands for itself is at a place of a text. -/
def IsBareDot (text : List Char) (place : Nat) : Prop := text[place]? = some '.' ∧ IsBare text place

instance (text : List Char) (place : Nat) : Decidable (IsBareDot text place) :=
  inferInstanceAs (Decidable (_ ∧ _ = _))

/-- Whether a row of lexemes has a dot that stands for itself at a place of its text. -/
def HasDotAt (lexemes : List Lexeme) (place : Nat) : Prop :=
  (lexemes.flatMap text)[place]? = some '.' ∧ (lexemes.flatMap bareness)[place]? = some true

private theorem isBareDot_iff_hasDotAt {text : List Char} (closed : (ofText text).2 = [])
    (place : Nat) : IsBareDot text place ↔ HasDotAt (ofText text).1 place := by
  have whole := flatMap_text_ofText text
  rw [closed, List.append_nil] at whole
  unfold IsBareDot HasDotAt IsBare
  rw [whole]

/-- A dot is the first lexeme, or it comes after it. -/
theorem hasDotAt_cons_iff {lexeme : Lexeme} {lexemes : List Lexeme} {place : Nat} :
    HasDotAt (lexeme :: lexemes) place ↔ (place = 0 ∧ lexeme = .plain '.') ∨
      ∃ further, place = lexeme.text.length + further ∧ HasDotAt lexemes further := by
  unfold HasDotAt
  rw [List.flatMap_cons, List.flatMap_cons, List.getElem?_append, List.getElem?_append,
    length_bareness]
  -- the place lies in the first lexeme, or it lies behind it
  by_cases inside : place < lexeme.text.length
  · rw [if_pos inside, if_pos inside]
    constructor
    · rintro ⟨dot, bare⟩
      fun_cases bareness lexeme with
      | case1 c =>
        obtain rfl : place = 0 := Nat.lt_one_iff.mp inside
        obtain rfl : c = '.' := Option.some.inj dot
        exact .inl ⟨rfl, rfl⟩
      | case2 lexeme other =>
        -- nothing in such a lexeme stands for itself
        rw [bareness] at bare
        · simp [List.getElem?_replicate] at bare
        · exact other
    · rintro (⟨rfl, rfl⟩ | ⟨further, rfl, -⟩)
      · exact ⟨rfl, rfl⟩
      · omega
  · rw [if_neg inside, if_neg inside]
    constructor
    · intro later
      exact .inr ⟨place - lexeme.text.length, by omega, later⟩
    · rintro (⟨rfl, rfl⟩ | ⟨further, rfl, later⟩)
      · exact absurd Nat.one_pos inside
      · rwa [Nat.add_sub_cancel_left]

/-- Whether a lexeme is a character that stands for itself or starts with one that is no blank. -/
def StandsOut (lexeme : Lexeme) : Prop :=
  (∃ c, lexeme = .plain c) ∨ ∃ c cs, lexeme.text = c :: cs ∧ Text.isBlank c = false

private theorem standsOut_of_mem_ofText {text : List Char} {lexeme : Lexeme}
    (among : lexeme ∈ (ofText text).1) : lexeme.StandsOut := by
  obtain ⟨c, cs, rest, found⟩ := exists_next_of_mem_ofText among
  cases next?_eq_some_iff.mp found with
  | quoted mark closed => exact .inr ⟨_, _, rfl, isBlank_of_dollar_or_isMark (.inr mark)⟩
  | literal dollar => exact .inr ⟨_, _, rfl, isBlank_of_dollar_or_isMark (.inl dollar)⟩
  | comment percent =>
    subst percent
    exact .inr ⟨_, _, rfl, by decide⟩
  | plain => exact .inl ⟨_, rfl⟩

private theorem StandsOut.length_pos {lexeme : Lexeme} (standsOut : lexeme.StandsOut) :
    0 < lexeme.text.length := by
  rcases standsOut with ⟨c, rfl⟩ | ⟨c, cs, starts, -⟩
  · exact Nat.one_pos
  · rw [starts]
    exact Nat.succ_pos _

end Lexeme

namespace Form

/-- Whether a form ends at a place: a dot that stands for itself is there, a blank or the end of the
text comes after it, and no other such dot comes right before it. -/
structure EndsAt (text : List Char) (place : Nat) : Prop where
  dot : Lexeme.IsBareDot text place
  blank : text[place + 1]?.all Text.isBlank = true
  single : place ≠ 0 → ¬Lexeme.IsBareDot text (place - 1)

instance (text : List Char) (place : Nat) : Decidable (EndsAt text place) :=
  decidable_of_iff (Lexeme.IsBareDot text place ∧ text[place + 1]?.all Text.isBlank = true ∧
      (place ≠ 0 → ¬Lexeme.IsBareDot text (place - 1)))
    ⟨fun ⟨dot, blank, single⟩ => ⟨dot, blank, single⟩, fun ends =>
      ⟨ends.dot, ends.blank, ends.single⟩⟩

/-- What lies between the places of dots, from a first place on. -/
def between (text : List Char) (start : Nat) : (ends : List Nat) → List Form
  | [] => []
  | stop :: ends => ⟨start, (text.take stop).drop start⟩ :: between text (stop + 1) ends

/-- Where the rest starts after the last of some dots. -/
def afterAll (start : Nat) (ends : List Nat) : Nat := (ends.getLast?.map (· + 1)).getD start

private theorem afterAll_cons (start stop : Nat) (ends : List Nat) :
    afterAll start (stop :: ends) = afterAll (stop + 1) ends := by
  unfold afterAll
  rw [List.getLast?_cons]
  cases ends.getLast? <;> rfl

/-! ## The places of the dots -/

/-- The places of the dots after texts that follow each other. -/
def stops (offset : Nat) (texts : List (List Char)) : List Nat :=
  (place offset texts).map fun form => form.offset + form.text.length

theorem stops_cons (offset : Nat) (text : List Char) (texts : List (List Char)) :
    stops offset (text :: texts) =
      (offset + text.length) :: stops (offset + text.length + 1) texts := rfl

private theorem pairwise_stops (offset : Nat) (texts : List (List Char)) :
    (stops offset texts).Pairwise (· < ·) := by
  rw [stops, List.pairwise_map]
  refine (pairwise_place offset texts).imp ?_
  intro first second apart
  omega

private theorem stops_prepend (offset : Nat) (text : List Char)
    (cutting : List (List Char) × List Char) :
    stops offset (prepend text cutting).1 = stops (offset + text.length) cutting.1 := by
  obtain ⟨_ | ⟨form, forms⟩, rest⟩ := cutting
  · rfl
  · simp only [prepend, stops_cons, List.length_append, Nat.add_assoc]

private theorem mem_stops_iff {offset : Nat} {texts : List (List Char)} {place : Nat} :
    place ∈ stops offset texts ↔ ∃ further, place = offset + further ∧ further ∈ stops 0 texts := by
  induction texts generalizing offset place with
  | nil => simp [stops, Form.place]
  | cons text texts ih =>
    rw [stops_cons, stops_cons, Nat.zero_add, List.mem_cons, ih]
    simp only [List.mem_cons, @ih (text.length + 1)]
    constructor
    · rintro (rfl | ⟨further, rfl, among⟩)
      · exact ⟨text.length, rfl, .inl rfl⟩
      · exact ⟨text.length + 1 + further, by omega, .inr ⟨further, rfl, among⟩⟩
    · rintro ⟨_, rfl, rfl | ⟨further, rfl, among⟩⟩
      · exact .inl rfl
      · exact .inr ⟨further, by omega, among⟩

/-- The first lexeme ends a form, or a later one does. -/
theorem mem_stops_cut_cons_iff {afterDot : Bool} {lexeme : Lexeme} {lexemes : List Lexeme}
    {place : Nat} : place ∈ stops 0 (cut afterDot (lexeme :: lexemes)).1 ↔
      (place = 0 ∧ lexeme = .plain '.' ∧ afterDot = false ∧ endsBefore lexemes = true) ∨
        ∃ further, place = lexeme.text.length + further ∧
          further ∈ stops 0 (cut (lexeme == .plain '.') lexemes).1 := by
  rw [cut_cons]
  -- the text is cut at the first lexeme, or the lexeme goes in front of the first form
  split
  next terminates =>
    simp only [Bool.and_eq_true, beq_iff_eq, Bool.not_eq_true'] at terminates
    obtain ⟨⟨rfl, first⟩, ends⟩ := terminates
    rw [stops_cons, List.mem_cons, mem_stops_iff]
    simp [first, ends, Lexeme.text]
  next goesOn =>
    rw [stops_prepend, Nat.zero_add, mem_stops_iff]
    constructor
    · exact .inr
    · rintro (⟨-, dot, first, ends⟩ | later)
      · simp [dot, first, ends] at goesOn
      · exact later

private theorem endsBefore_iff {lexemes : List Lexeme}
    (standOut : ∀ lexeme ∈ lexemes, lexeme.StandsOut) :
    endsBefore lexemes = true ↔ (lexemes.flatMap Lexeme.text)[0]?.all Text.isBlank = true := by
  cases lexemes with
  | nil => simp [endsBefore]
  | cons lexeme lexemes =>
    rcases standOut lexeme List.mem_cons_self with ⟨c, rfl⟩ | ⟨c, cs, starts, visible⟩
    · simp [endsBefore, Lexeme.text]
    · rw [List.flatMap_cons, starts]
      cases lexeme with
      | plain d =>
        obtain ⟨rfl, -⟩ := List.cons.inj starts
        simp [endsBefore]
      | quoted | literal | comment => simp [endsBefore, visible]

/-- The dots at which a row of lexemes is cut. -/
theorem mem_stops_cut_iff {lexemes : List Lexeme} (standOut : ∀ lexeme ∈ lexemes, lexeme.StandsOut)
    {afterDot : Bool} {place : Nat} :
    place ∈ stops 0 (cut afterDot lexemes).1 ↔ Lexeme.HasDotAt lexemes place ∧
      (lexemes.flatMap Lexeme.text)[place + 1]?.all Text.isBlank = true ∧
      ¬(place = 0 ∧ afterDot = true) ∧
      ∀ before, before + 1 = place → ¬Lexeme.HasDotAt lexemes before := by
  induction lexemes generalizing afterDot place with
  | nil => simp [cut, stops, Form.place, Lexeme.HasDotAt]
  | cons lexeme lexemes ih =>
    obtain ⟨here, later⟩ := List.forall_mem_cons.mp standOut
    have pos := here.length_pos
    -- what comes after the first lexeme is found at places that are shifted by its length
    have shifted (further : Nat) : ((lexeme :: lexemes).flatMap Lexeme.text)[
        lexeme.text.length + further]? = (lexemes.flatMap Lexeme.text)[further]? := by
      rw [List.flatMap_cons, List.getElem?_append_right (Nat.le_add_right _ _),
        Nat.add_sub_cancel_left]
    rw [mem_stops_cut_cons_iff]
    simp only [ih later, beq_iff_eq, endsBefore_iff later, Lexeme.hasDotAt_cons_iff]
    constructor
    · rintro (⟨rfl, rfl, first, ends⟩ | ⟨further, rfl, dot, blank, apart, single⟩)
      · refine ⟨.inl ⟨rfl, rfl⟩, ?_, by simp [first], by simp⟩
        rw [← shifted 0] at ends
        exact ends
      · refine ⟨.inr ⟨further, rfl, dot⟩, ?_, by omega, ?_⟩
        · rwa [Nat.add_assoc, shifted]
        · rintro before next (⟨rfl, rfl⟩ | ⟨early, rfl, dotBefore⟩)
          · -- the dot right before it would be the first lexeme
            have one : (Lexeme.plain '.').text.length = 1 := rfl
            exact apart ⟨by omega, rfl⟩
          · exact single early (by omega) dotBefore
    · rintro ⟨⟨rfl, rfl⟩ | ⟨further, rfl, dot⟩, blank, apart, single⟩
      · refine .inl ⟨rfl, rfl, by simpa using apart, ?_⟩
        rw [← shifted 0]
        exact blank
      · refine .inr ⟨further, rfl, dot, ?_, ?_, ?_⟩
        · rwa [Nat.add_assoc, shifted] at blank
        · rintro ⟨rfl, rfl⟩
          exact single 0 rfl (.inl ⟨rfl, rfl⟩)
        · intro early next dotBefore
          exact single (lexeme.text.length + early) (by omega) (.inr ⟨early, rfl, dotBefore⟩)

/-! ## What lies between them -/

/-- Texts with a dot after each lie between the dots, and what is left over comes after the last of
them. -/
theorem place_eq_between (front : List Char) (texts : List (List Char)) (rest : List Char) :
    place front.length texts =
        between (front ++ written texts rest) front.length (stops front.length texts) ∧
      rest = (front ++ written texts rest).drop
        (afterAll front.length (stops front.length texts)) := by
  induction texts generalizing front with
  | nil => exact ⟨rfl, List.drop_left.symm⟩
  | cons text texts ih =>
    have parts : front ++ written (text :: texts) rest =
        front ++ (text ++ ('.' :: written texts rest)) := by
      simp [written]
    have regrouped : front ++ (text ++ ('.' :: written texts rest)) =
        front ++ text ++ ['.'] ++ written texts rest := by
      simp
    have length : front.length + text.length + 1 = (front ++ text ++ ['.']).length := by
      simp only [List.length_append, List.length_singleton]
    obtain ⟨between, left⟩ := ih (front ++ text ++ ['.'])
    rw [← regrouped, ← length] at between left
    rw [parts, stops_cons, afterAll_cons]
    refine ⟨?_, left⟩
    rw [Form.place, Form.between, ← between, ← List.append_assoc, ← List.length_append,
      List.take_left, List.drop_left]

end Form

/-! ## What is left over -/

/-- Whether the first character from a place on that is no blank stands at another place. -/
structure Text.IsFirstVisible (text : List Char) (start first : Nat) : Prop where
  start_le : start ≤ first
  blank : ∀ place c, start ≤ place → place < first → text[place]? = some c → isBlank c = true
  visible : ∃ c, text[first]? = some c ∧ isBlank c = false

namespace Text

variable {text : List Char} {start first : Nat}

theorem IsFirstVisible.eq {second : Nat} (one : IsFirstVisible text start first)
    (other : IsFirstVisible text start second) : second = first := by
  obtain ⟨c, here, visible⟩ := one.visible
  obtain ⟨d, there, visibleToo⟩ := other.visible
  -- whichever stands before the other would have to be blank
  rcases Nat.lt_trichotomy first second with before | same | after
  · rw [other.blank first c one.start_le before here] at visible
    cases visible
  · exact same.symm
  · rw [one.blank second d other.start_le after there] at visibleToo
    cases visibleToo

/-- The first visible character from a place on comes after the blanks there. -/
theorem isFirstVisible_of_ne_nil (more : trimStart (text.drop start) ≠ []) :
    IsFirstVisible text start (text.length - (trimStart (text.drop start)).length) := by
  obtain ⟨c, cs, rest⟩ := List.exists_cons_of_ne_nil more
  have whole : (text.drop start).takeWhile isBlank ++ trimStart (text.drop start) =
      text.drop start :=
    List.takeWhile_append_dropWhile
  have lengths := congrArg List.length whole
  rw [List.length_append, List.length_drop, rest, List.length_cons] at lengths
  -- the place is counted from the end of the text, and from its start it is behind the blanks
  have place : text.length - (trimStart (text.drop start)).length =
      start + ((text.drop start).takeWhile isBlank).length := by
    rw [rest, List.length_cons]
    omega
  rw [place]
  constructor
  case start_le => exact Nat.le_add_right _ _
  case blank =>
    intro place d after before here
    obtain ⟨further, rfl⟩ := Nat.exists_eq_add_of_le after
    rw [← List.getElem?_drop, ← whole, List.getElem?_append_left (by omega)] at here
    exact List.all_eq_true.mp List.all_takeWhile d (List.mem_of_getElem? here)
  case visible =>
    refine ⟨c, ?_, ?_⟩
    · have here : ((text.drop start).takeWhile isBlank ++ trimStart (text.drop start))[
          ((text.drop start).takeWhile isBlank).length]? = some c := by
        rw [List.getElem?_append_right (Nat.le_refl _), Nat.sub_self, rest]
        rfl
      rwa [whole, List.getElem?_drop] at here
    · have head := List.head?_dropWhile_not isBlank (text.drop start)
      rw [show (text.drop start).dropWhile isBlank = c :: cs from rest] at head
      simpa using head

theorem exists_isFirstVisible_iff :
    (∃ first, IsFirstVisible text start first) ↔ ∃ c ∈ text.drop start, isBlank c = false := by
  constructor
  · rintro ⟨first, isFirst⟩
    obtain ⟨c, here, visible⟩ := isFirst.visible
    obtain ⟨further, rfl⟩ := Nat.exists_eq_add_of_le isFirst.start_le
    rw [← List.getElem?_drop] at here
    exact ⟨c, List.mem_of_getElem? here, visible⟩
  · rintro ⟨c, among, visible⟩
    refine ⟨_, isFirstVisible_of_ne_nil fun none => ?_⟩
    -- nothing but blanks would be left over
    have blank := List.dropWhile_eq_nil_iff.mp none c among
    rw [visible] at blank
    cases blank

end Text

/-- A form is left open exactly if something visible is left over, and it is told from there to the
end. -/
theorem Sheet.unfinished?_drop_eq_some_iff {source : Source} {clean : List Char} {start : Nat}
    {span : Span} (length : clean.length = source.content.length) :
    unfinished? source (clean.drop start) = some span ↔
      ∃ first, Text.IsFirstVisible clean start first ∧
      span = source.span first source.content.length := by
  unfold unfinished?
  dsimp only
  rw [← length]
  constructor
  · intro left
    split at left
    · cases left
    next more =>
      cases left
      exact ⟨_, Text.isFirstVisible_of_ne_nil fun none => more (by rw [none]; rfl), rfl⟩
  · rintro ⟨first, isFirst, rfl⟩
    have more : Text.trimStart (clean.drop start) ≠ [] := by
      intro none
      obtain ⟨c, among, visible⟩ := Text.exists_isFirstVisible_iff.mp ⟨first, isFirst⟩
      rw [List.dropWhile_eq_nil_iff.mp none c among] at visible
      cases visible
    obtain rfl := (Text.isFirstVisible_of_ne_nil more).eq isFirst
    rw [if_neg (by simpa using more)]

/-! ## How a file is cut -/

/-- How a file is cut into forms at the places of dots, where its text without comments is given. -/
structure Source.CutAt (source : Source) (clean : List Char) (ends : List Nat) : Prop where
  ordered : ends.Pairwise (· < ·)
  mem_iff : ∀ place, place ∈ ends ↔ Form.EndsAt clean place
  forms : (Form.split clean).1 = Form.between clean 0 ends
  left : (Form.split clean).2 = clean.drop (Form.afterAll 0 ends)
  /-- The forms, each with a dot after it, and what is left over make up the text. -/
  whole : Form.written ((Form.split clean).1.map Form.text) (Form.split clean).2 = clean
  /-- The forms are gone through in this order, and then there is a complaint exactly if something
  visible is left over. -/
  complaint : ∃ sheet, Sheet.ofSource source = .ok sheet ∧
    sheet.items = (Form.between clean 0 ends).filterMap (Item.ofForm? source) ∧
    ∀ options attributes fault, (World.finish options sheet attributes).outcome = .error fault ↔
      ∃ first, Text.IsFirstVisible clean (Form.afterAll 0 ends) first ∧
        fault = .problem (.source (.openForm (source.span first source.content.length)))
  visible : (∃ first, Text.IsFirstVisible clean (Form.afterAll 0 ends) first) ↔
    ∃ c ∈ (Form.split clean).2, Text.isBlank c = false

namespace Form

private theorem endsAt_iff_mem_stops {clean : List Char} (closed : (Lexeme.ofText clean).2 = [])
    (place : Nat) : EndsAt clean place ↔ place ∈ stops 0 (cut false (Lexeme.ofText clean).1).1 := by
  have whole := Lexeme.flatMap_text_ofText clean
  rw [closed, List.append_nil] at whole
  rw [mem_stops_cut_iff fun lexeme among => Lexeme.standsOut_of_mem_ofText among, whole]
  constructor
  · intro ends
    refine ⟨(Lexeme.isBareDot_iff_hasDotAt closed place).mp ends.dot, ends.blank, by simp, ?_⟩
    rintro before rfl dot
    exact ends.single (Nat.succ_ne_zero before)
      ((Lexeme.isBareDot_iff_hasDotAt closed before).mpr dot)
  · rintro ⟨dot, blank, -, single⟩
    refine ⟨(Lexeme.isBareDot_iff_hasDotAt closed place).mpr dot, blank, ?_⟩
    intro later dotBefore
    exact single (place - 1) (by omega) ((Lexeme.isBareDot_iff_hasDotAt closed _).mp dotBefore)

end Form

theorem World.outcome_finish_eq_error_iff {options : ScanOptions} {sheet : Sheet}
    {attributes : List Attribute} {fault : Fault} :
    (World.finish options sheet attributes).outcome = .error fault ↔
      ∃ span, sheet.unfinished = some span ∧ fault = .problem (.source (.openForm span)) := by
  unfold World.finish
  split
  next span unfinished => simp [unfinished, Traced.problem, Traced.fail, eq_comm]
  next finished => split <;> simp [finished]

/-- A file is cut exactly at the dots that end forms, whatever quoted parts, literals and rows of
dots stand in it. -/
theorem Source.exists_cutAt {source : Source} {clean : List Char}
    (blanked : blankComments source.content = .ok clean) : ∃ ends, source.CutAt clean ends := by
  obtain ⟨closed, cleared⟩ := Form.closed_of_blankComments blanked
  -- a text without comments has none to blank, so it falls into the same lexemes again
  have again := ofText_blanked (Prod.ext rfl closed : Lexeme.ofText source.content = (_, []))
  rw [← cleared] at again
  have closedAgain : (Lexeme.ofText clean).2 = [] := congrArg Prod.snd again
  have parts : Form.split clean = (Form.place 0 (Form.cut false (Lexeme.ofText clean).1).1,
      (Form.cut false (Lexeme.ofText clean).1).2) := by
    simp only [Form.split, closedAgain, List.append_nil]
  have whole := Form.written_split clean
  have written := whole
  rw [parts, Form.map_text_place] at written
  obtain ⟨between, left⟩ := Form.place_eq_between [] (Form.cut false (Lexeme.ofText clean).1).1
    (Form.cut false (Lexeme.ofText clean).1).2
  rw [List.nil_append, written] at between left
  have length := length_blankComments blanked
  refine ⟨Form.stops 0 (Form.cut false (Lexeme.ofText clean).1).1, ?_⟩
  constructor
  case ordered => exact Form.pairwise_stops 0 _
  case mem_iff => exact fun place => (Form.endsAt_iff_mem_stops closedAgain place).symm
  case forms =>
    rw [parts]
    exact between
  case left =>
    rw [parts]
    exact left
  case whole => exact whole
  case complaint =>
    have read : Sheet.ofSource source =
        .ok ⟨source.path, (Form.split clean).1.filterMap (Item.ofForm? source),
        Sheet.unfinished? source (Form.split clean).2⟩ := by
      simp only [Sheet.ofSource, blanked]
    refine ⟨_, read, ?_, ?_⟩
    · rw [parts]
      exact congrArg (List.filterMap _) between
    · intro options attributes fault
      rw [World.outcome_finish_eq_error_iff, parts]
      dsimp only
      rw [left]
      simp only [Sheet.unfinished?_drop_eq_some_iff length]
      constructor
      · rintro ⟨_, ⟨first, isFirst, rfl⟩, rfl⟩
        exact ⟨first, isFirst, rfl⟩
      · rintro ⟨first, isFirst, rfl⟩
        exact ⟨_, ⟨first, isFirst, rfl⟩, rfl⟩
  case visible =>
    rw [parts]
    dsimp only
    rw [left]
    exact Text.exists_isFirstVisible_iff

/-- A file with dots in an atom and a string, as a literal, in rows and in a comment, that ends in
an open form. -/
def ragged : Source := ⟨⟨.here, ["m.erl"]⟩, .utf8,
  "-type r() :: 0..9. % a. b\n-x '. ' $. ...\n\"a. \".\n -open".toList⟩

/-- What is left of the file without its comment. -/
def ragged.clean : List Char := "-type r() :: 0..9.       \n-x '. ' $. ...\n\"a. \".\n -open".toList

theorem exists_cutAt_ragged :
    blankComments ragged.content = .ok ragged.clean ∧ ∃ ends, ragged.CutAt ragged.clean ends := by
  have blanked : blankComments ragged.content = .ok ragged.clean :=
    Traced.eq_ok_of_toOption (by decide +kernel)
  exact ⟨blanked, ragged.exists_cutAt blanked⟩

example : (List.range ragged.clean.length).filter (fun place =>
    decide (Form.EndsAt ragged.clean place)) = [17, 46] := by decide +kernel

end SignatureIndex
