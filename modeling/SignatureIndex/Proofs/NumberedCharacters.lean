import SignatureIndex.Proofs.Positions

/-!
# Numbered characters

The lines of a text are numbered, and so are the characters on each line, the line feed at its end
included.  That is how a position is meant to be read, and a position is indeed the number of its
character.  Positions can also be told from the table of the offsets at which lines start: the line
is how many of them there are up to the offset, and the column is counted from the last of these.
Either way positions grow with the offset, so a span, read with both its ends, takes exactly the
characters that it was made for.
-/

namespace SignatureIndex

namespace Text

/-- The lines of a text, each with the line feed that ends it. -/
def feedLines : List Char → List (List Char)
  | [] => []
  | c :: cs =>
    if c = '\n' then [c] :: feedLines cs
    else
      match feedLines cs with
      | [] => [[c]]
      | line :: lines => (c :: line) :: lines

/-- The characters of some lines, each with the number of its line and its own on that line.  The
first line goes on from a given number and column, and every other starts in the first column. -/
def numberedFrom (line column : Nat) : List (List Char) → List ((Nat × Nat) × Char)
  | [] => []
  | first :: lines =>
    (first.zipIdx column).map (fun (c, place) => ((line, place), c)) ++
      numberedFrom (line + 1) 1 lines

/-- The characters of a text, each with the number of its line and its own on that line, both
counted from one. -/
def numbered (text : List Char) : List ((Nat × Nat) × Char) := numberedFrom 1 1 (feedLines text)

end Text

namespace Span

/-- Whether a span covers a line and a column.  Both its ends belong to it. -/
def Covers (span : Span) (place : Nat × Nat) : Prop :=
  toLex (span.startLine, span.startColumn) ≤ toLex ((place.1 : Int), (place.2 : Int)) ∧
    toLex ((place.1 : Int), (place.2 : Int)) ≤ toLex (span.endLine, span.endColumn)

instance (span : Span) (place : Nat × Nat) : Decidable (span.Covers place) :=
  inferInstanceAs (Decidable (_ ∧ _))

/-- The characters of a text that a span covers. -/
def textIn (span : Span) (text : List Char) : List Char :=
  ((Text.numbered text).filter fun (place, _) => span.Covers place).map Prod.snd

end Span

namespace Source

/-- The offsets right after the line feeds of a text that starts at an offset. -/
def startsFrom (offset : Nat) : List Char → List Nat
  | [] => []
  | c :: cs =>
    if c = '\n' then (offset + 1) :: startsFrom (offset + 1) cs else startsFrom (offset + 1) cs

/-- The offsets at which the lines of a text start. -/
def lineStarts (text : List Char) : List Nat := 0 :: startsFrom 0 text

variable {source : Source} {text : List Char} {offset place : Nat}

/-! ## The table of starts -/

/-- Lines start right after line feeds. -/
theorem mem_startsFrom_iff {start : Nat} : start ∈ startsFrom offset text ↔
    ∃ feed, text[feed]? = some '\n' ∧ start = offset + feed + 1 := by
  induction text generalizing offset with
  | nil => simp [startsFrom]
  | cons c cs ih =>
    -- a line feed is the first character or comes after it
    have cases : (∃ feed, (c :: cs)[feed]? = some '\n' ∧ start = offset + feed + 1) ↔
        (c = '\n' ∧ start = offset + 1) ∨ start ∈ startsFrom (offset + 1) cs := by
      rw [ih]
      constructor
      · rintro ⟨_ | feed, here, rfl⟩
        · exact .inl ⟨Option.some.inj here, rfl⟩
        · exact .inr ⟨feed, here, by omega⟩
      · rintro (⟨rfl, rfl⟩ | ⟨feed, here, rfl⟩)
        · exact ⟨0, rfl, rfl⟩
        · exact ⟨feed + 1, here, by omega⟩
    rw [cases, startsFrom]
    split
    next isFeed => simp [isFeed]
    next other => simp [other]

theorem lt_of_mem_startsFrom {start : Nat} (among : start ∈ startsFrom offset text) :
    offset < start := by
  obtain ⟨feed, -, rfl⟩ := mem_startsFrom_iff.mp among
  omega

private theorem pairwise_lineStarts (text : List Char) : (lineStarts text).Pairwise (· < ·) := by
  refine List.pairwise_cons.mpr ⟨fun start among => lt_of_mem_startsFrom among, ?_⟩
  generalize 0 = offset
  fun_induction startsFrom offset text with
  | case1 => exact .nil
  | case2 offset cs ih =>
    exact List.pairwise_cons.mpr ⟨fun start among => lt_of_mem_startsFrom among, ih⟩
  | case3 offset c cs other ih => exact ih

/-- Right after each line feed a line starts, the one with as many before it as there are line feeds
up to there. -/
theorem getElem?_startsFrom (feed : text[place]? = some '\n') (offset : Nat) :
    (startsFrom offset text)[(text.take place).count '\n']? = some (offset + place + 1) := by
  induction text generalizing place offset with
  | nil => cases feed
  | cons c cs ih =>
    cases place with
    | zero =>
      obtain rfl : c = '\n' := Option.some.inj feed
      rfl
    | succ place =>
      have later := ih feed (offset + 1)
      rw [startsFrom, List.take_succ_cons]
      split
      next isFeed =>
        rw [isFeed, List.count_cons_self, List.getElem?_cons_succ, later]
        exact congrArg some (by omega)
      next other =>
        rw [List.count_cons_of_ne other, later]
        exact congrArg some (by omega)

private theorem countP_startsFrom (offset steps : Nat) (text : List Char) :
    (startsFrom offset text).countP (· ≤ offset + steps) = (text.take steps).count '\n' := by
  induction text generalizing offset steps with
  | nil => simp [startsFrom]
  | cons c cs ih =>
    cases steps with
    | zero =>
      have late : ∀ start ∈ startsFrom offset (c :: cs), ¬decide (start ≤ offset + 0) = true := by
        intro start among
        have := lt_of_mem_startsFrom among
        simp only [decide_eq_true_eq]
        omega
      rw [List.countP_eq_zero.mpr late]
      rfl
    | succ steps =>
      have later := ih (offset + 1) steps
      rw [show offset + 1 + steps = offset + (steps + 1) by omega] at later
      rw [startsFrom, List.take_succ_cons]
      split
      next isFeed =>
        rw [isFeed, List.count_cons_self, List.countP_cons_of_pos (by simp), later]
      next other => rw [List.count_cons_of_ne other, later]

/-- The line of an offset is how many lines start up to there. -/
theorem fst_position_eq_countP (source : Source) (offset : Nat) :
    (source.position offset).1 = (lineStarts source.content).countP (· ≤ offset) := by
  have counted := countP_startsFrom 0 offset source.content
  rw [Nat.zero_add] at counted
  rw [fst_position, lineStarts, List.countP_cons_of_pos (by simp), counted]

/-- The column of an offset is counted from where its line starts. -/
theorem exists_start (source : Source) (offset : Nat) : ∃ start,
    (lineStarts source.content)[(source.position offset).1 - 1]? = some start ∧
      start + (source.position offset).2 = offset + 1 := by
  induction offset with
  | zero => exact ⟨0, rfl, rfl⟩
  | succ offset ih =>
    rw [position_succ]
    split
    next feed =>
      refine ⟨offset + 1, ?_, rfl⟩
      have starts := getElem?_startsFrom feed 0
      rw [Nat.zero_add] at starts
      rw [fst_position, Nat.add_sub_cancel, lineStarts, List.getElem?_cons_succ, starts]
    next other =>
      obtain ⟨start, found, sum⟩ := ih
      exact ⟨start, found, by dsimp only; omega⟩

/-! ## The numbers of characters -/

private theorem numberedFrom_feedLines (line column : Nat) (text : List Char) :
    Text.numberedFrom line column (Text.feedLines text) =
      text.zipIdx.map fun (c, offset) => (walkedTo line column offset text, c) := by
  induction text generalizing line column with
  | nil => rfl
  | cons c cs ih =>
    rw [Text.feedLines, List.zipIdx_cons', List.map_cons, List.map_map]
    split
    next feed =>
      subst feed
      rw [Text.numberedFrom, ih]
      rfl
    next other =>
      -- the character is put before the first line of the rest, from the next column on
      have later := ih line (column + 1)
      have walked :
          ((fun (d, offset) => (walkedTo line column offset (c :: cs), d)) ∘ Prod.map id (· + 1) :
          Char × Nat → (Nat × Nat) × Char) = fun (d, offset) =>
          (walkedTo line (column + 1) offset cs, d) := by
        funext ⟨d, offset⟩
        simp only [Function.comp, Prod.map, id, walkedTo, if_neg other]
      rw [walked, ← later]
      cases Text.feedLines cs with
      | nil => rfl
      | cons first lines => simp [Text.numberedFrom, walkedTo]

/-- A position is the line and the column of its character. -/
theorem numbered_content (source : Source) : Text.numbered source.content =
    source.content.zipIdx.map fun (c, offset) => (source.position offset, c) :=
  numberedFrom_feedLines 1 1 source.content

/-! ## What spans cover -/

private theorem filter_zipIdx (first stop offset : Nat) (text : List Char) :
    ((text.zipIdx offset).filter fun (_, place) => first ≤ place ∧ place < stop).map Prod.fst =
      (text.take (stop - offset)).drop (first - offset) := by
  induction text generalizing offset with
  | nil => simp
  | cons c cs ih =>
    rw [List.zipIdx_cons]
    by_cases before : offset < stop
    · rw [show stop - offset = stop - (offset + 1) + 1 by omega, List.take_succ_cons]
      by_cases after : first ≤ offset
      · have rest := ih (offset + 1)
        rw [show first - (offset + 1) = 0 by omega, List.drop_zero] at rest
        rw [show first - offset = 0 by
          omega, List.drop_zero, List.filter_cons_of_pos (by simp [before, after]),
          List.map_cons, rest]
      · rw [show first - offset = first - (offset + 1) + 1 by omega, List.drop_succ_cons,
          List.filter_cons_of_neg (by simp [after]), ih]
    · have rest := ih (offset + 1)
      rw [show stop - (offset + 1) = 0 by omega] at rest
      rw [show stop - offset = 0 by omega, List.filter_cons_of_neg (by simp [before]), rest]
      simp

/-- A span covers the positions of the offsets that it was made for, and no others. -/
theorem covers_span_iff {first stop : Nat} (some : first < stop) (offset : Nat) :
    (source.span first stop).Covers (source.position offset) ↔ first ≤ offset ∧ offset < stop := by
  have order (one other : Nat) :
      toLex (((source.position one).1 : Int), ((source.position one).2 : Int)) ≤
      toLex (((source.position other).1 : Int), ((source.position other).2 : Int)) ↔
      one ≤ other := by
    rw [← (strictMono_position source).le_iff_le, Prod.Lex.toLex_le_toLex, Prod.Lex.toLex_le_toLex]
    omega
  have last : max first (stop - 1) = stop - 1 := by omega
  rw [span_natCast, last, Span.Covers, order, order]
  omega

private theorem textIn_span {first stop : Nat} (some : first < stop) :
    (source.span first stop).textIn source.content = (source.content.take stop).drop first := by
  have cut := filter_zipIdx first stop 0 source.content
  rw [Nat.sub_zero, Nat.sub_zero] at cut
  rw [Span.textIn, numbered_content, List.filter_map, List.map_map, ← cut]
  congr 1
  refine List.filter_congr fun (c, offset) _ => ?_
  exact decide_eq_decide.mpr (covers_span_iff some offset)

/-- How positions number the characters of a source. -/
structure IsNumbered (source : Source) : Prop where
  increasing : StrictMono fun offset => toLex (source.position offset)
  line : ∀ offset, (source.position offset).1 = (source.content.take offset).count '\n' + 1
  column : ∀ offset, 1 ≤ (source.position offset).2
  /-- Lines start at the first offset and right after every line feed, and are told in order. -/
  sorted : (lineStarts source.content).Pairwise (· < ·)
  mem_iff : ∀ start, start ∈ lineStarts source.content ↔
    start = 0 ∨ ∃ feed, source.content[feed]? = some '\n' ∧ start = feed + 1
  /-- The line of an offset is the last that starts up to there. -/
  bisected : ∀ offset, (source.position offset).1 = (lineStarts source.content).countP (· ≤ offset)
  recovered : ∀ offset, ∃ start,
    (lineStarts source.content)[(source.position offset).1 - 1]? = some start ∧
    offset = start + (source.position offset).2 - 1
  /-- The numbers that the characters of the lines have are their positions. -/
  numbers : Text.numbered source.content =
    source.content.zipIdx.map fun (c, offset) => (source.position offset, c)
  ordered : ∀ first stop : Nat, first < stop →
    toLex ((source.span first stop).startLine, (source.span first stop).startColumn) ≤
      toLex ((source.span first stop).endLine, (source.span first stop).endColumn)
  denotes : ∀ first stop : Nat, first < stop →
    (source.span first stop).textIn source.content = (source.content.take stop).drop first

/-- Positions number the characters of every source line by line, so spans denote what they were
made for. -/
theorem isNumbered (source : Source) : source.IsNumbered := by
  constructor
  case increasing => exact strictMono_position source
  case line => exact fst_position source
  case column => exact one_le_column source
  case sorted => exact pairwise_lineStarts source.content
  case mem_iff =>
    intro start
    rw [lineStarts, List.mem_cons, mem_startsFrom_iff]
    simp only [Nat.zero_add]
  case bisected => exact fst_position_eq_countP source
  case recovered =>
    intro offset
    obtain ⟨start, found, sum⟩ := exists_start source offset
    exact ⟨start, found, by omega⟩
  case numbers => exact numbered_content source
  case ordered =>
    -- the first offset lies between both ends
    intro first stop some
    have covers : (source.span first stop).Covers (source.position first) :=
      (covers_span_iff some first).mpr ⟨Nat.le_refl first, some⟩
    exact covers.1.trans covers.2
  case denotes => exact fun first stop some => textIn_span some

/-- A span from a line feed to a character two lines further down, with an empty line in between. -/
theorem isNumbered_ragged :
    let source : Source := ⟨Path.ofString "m.erl", .utf8, ['a', '\n', '\n', 'b', 'c', '\n', 'd']⟩
    1 < 5 ∧ source.span 1 5 = ⟨"m.erl", 1, 2, 3, 2⟩ ∧
      (source.span 1 5).textIn source.content = ['\n', '\n', 'b', 'c'] := by
  intro source
  have denotes := (isNumbered source).denotes 1 5 (by decide)
  exact ⟨by decide, by decide +kernel, denotes⟩

end Source

end SignatureIndex
