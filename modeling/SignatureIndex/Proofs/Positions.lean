import Mathlib.Data.Prod.Lex
import Mathlib.Order.Monotone.Basic
import SignatureIndex.Source.File

/-!
# Positions

A line and a column are counted along the text up to a place, so they depend on where the line feeds
stand and on nothing else.  They grow from each place to the next, and the place can be read back
from them.
-/

namespace SignatureIndex

namespace Source

/-- Where the lines of a text end. -/
def breaks (text : List Char) : List Bool := text.map (· == '\n')

private theorem walkedTo_congr {first second : List Char} (same : breaks second = breaks first)
    (line column steps : Nat) :
    walkedTo line column steps second = walkedTo line column steps first := by
  induction steps generalizing first second line column with
  | zero =>
    rw [walkedTo, walkedTo]
  | succ steps ih =>
    cases first with
    | nil =>
      obtain rfl : second = [] := List.map_eq_nil_iff.mp same
      rfl
    | cons c first =>
      cases second with
      | nil => cases same
      | cons d second =>
        obtain ⟨sameHere, later⟩ := List.cons.inj same
        have here : d = '\n' ↔ c = '\n' := by simpa using Bool.eq_iff_iff.mp sameHere
        simp only [walkedTo, here, ih later]

/-- Walking along two texts is walking along the first and then along the second. -/
theorem walkedTo_append (line column steps : Nat) (front back : List Char) :
    walkedTo line column (front.length + steps) (front ++ back) =
      walkedTo (walkedTo line column front.length front).1
        (walkedTo line column front.length front).2 steps back := by
  induction front generalizing line column with
  | nil =>
    rw [List.length_nil, Nat.zero_add]
    rfl
  | cons c front ih =>
    have longer : (c :: front).length + steps = front.length + steps + 1 := by
      simp only [List.length_cons]
      omega
    rw [longer, List.cons_append, List.length_cons, walkedTo, walkedTo]
    split
    · exact ih _ _
    · exact ih _ _

theorem walkedTo_append_left {steps : Nat} {front : List Char} (within : steps ≤ front.length)
    (line column : Nat) (back : List Char) :
    walkedTo line column steps (front ++ back) = walkedTo line column steps front := by
  induction steps generalizing front line column with
  | zero => rw [walkedTo, walkedTo]
  | succ steps ih =>
    cases front with
    | nil => simp at within
    | cons c front =>
      have withinRest : steps ≤ front.length := Nat.le_of_succ_le_succ within
      simp only [List.cons_append, walkedTo, ih withinRest]

/-- After a line feed one is at the start of a line. -/
theorem walkedTo_feed (line column : Nat) (front : List Char) :
    walkedTo line column (front ++ ['\n']).length (front ++ ['\n']) =
      (line + (front ++ ['\n']).count '\n', 1) := by
  have whole := fst_walkedTo line column (front ++ ['\n']).length (front ++ ['\n'])
  rw [List.take_length] at whole
  refine Prod.ext whole ?_
  rw [List.length_append, walkedTo_append, List.length_singleton, walkedTo, if_pos rfl, walkedTo]

/-- The span of characters of a text. -/
theorem span_natCast (source : Source) (first stop : Nat) :
    source.span first stop =
      ⟨toString source.path, (source.position first).1, (source.position first).2,
        (source.position (max first (stop - 1))).1,
        (source.position (max first (stop - 1))).2⟩ := by
  have last : max (first : Int) (stop - 1) = ((max first (stop - 1) : Nat) : Int) := by omega
  have within (offset : Nat) : source.positionAt offset = 
      (((source.position offset).1 : Int), ((source.position offset).2 : Int)) := by
    rw [positionAt, if_pos (Int.natCast_nonneg offset), Int.toNat_natCast]
  rw [span, last, within, within]

theorem span_congr {source other : Source} (path : other.path = source.path)
    (same : breaks other.content = breaks source.content) (first stop : Nat) :
    other.span first stop = source.span first stop := by
  simp only [span_natCast, position, walkedTo_congr same, path]

/-! ## From one position to the next -/

private theorem walkedTo_succ (line column steps : Nat) (cs : List Char) :
    walkedTo line column (steps + 1) cs =
      if cs[steps]? = some '\n' then ((walkedTo line column steps cs).1 + 1, 1)
      else ((walkedTo line column steps cs).1, (walkedTo line column steps cs).2 + 1) := by
  fun_induction walkedTo line column steps cs with
  | case1 line column cs =>
    cases cs with
    | nil => simp [walkedTo]
    | cons c cs => simp [walkedTo]
  | case2 line column steps _ => simp [walkedTo, Nat.add_assoc]
  | case3 line column steps cs ih => rw [walkedTo, if_pos rfl, ih, List.getElem?_cons_succ]
  | case4 line column steps c cs other ih =>
    rw [walkedTo, if_neg other, ih, List.getElem?_cons_succ]

/-- A line feed leads to the start of the next line, every other character one column further. -/
theorem position_succ (source : Source) (offset : Nat) : source.position (offset + 1) =
    if source.content[offset]? = some '\n' then ((source.position offset).1 + 1, 1)
    else ((source.position offset).1, (source.position offset).2 + 1) :=
  walkedTo_succ 1 1 offset source.content

theorem strictMono_position (source : Source) : StrictMono fun offset =>
    toLex (source.position offset) := by
  refine strictMono_nat_of_lt_succ fun offset => ?_
  rw [Prod.Lex.toLex_lt_toLex, position_succ]
  split
  · exact .inl (Nat.lt_succ_self _)
  · exact .inr ⟨rfl, Nat.lt_succ_self _⟩

/-! ## Reading a position back -/

/-- The offset of the place that has so many lines before its own, and on its line so many
characters.  There is none if the text has not as many lines or the line not as many characters. -/
def placeAt? : (lines columns : Nat) → List Char → Option Nat
  | 0, 0, _ => some 0
  | 0, _ + 1, [] => none
  | 0, columns + 1, c :: cs => if c = '\n' then none else (placeAt? 0 columns cs).map (· + 1)
  | _ + 1, _, [] => none
  | lines + 1, columns, c :: cs =>
    (if c = '\n' then placeAt? lines columns cs else placeAt? (lines + 1) columns cs).map (· + 1)

/-- The offset of a line and a column that are counted from one, where lines end at line feeds. -/
def offsetAt? (text : List Char) (line column : Int) : Option Nat :=
  if 1 ≤ line ∧ 1 ≤ column then placeAt? (line - 1).toNat (column - 1).toNat text else none

/-- How far one has walked can be read from the lines that one has passed, and the columns on the
last. -/
theorem exists_placeAt?_walkedTo {steps : Nat} {text : List Char} (within : steps ≤ text.length)
    (line column : Nat) : ∃ lines columns,
      walkedTo line column steps text =
        (line + lines, (if lines = 0 then column else 1) + columns) ∧
      placeAt? lines columns text = some steps := by
  induction steps generalizing text line column with
  | zero => exact ⟨0, 0, rfl, by rw [placeAt?]⟩
  | succ steps ih =>
    cases text with
    | nil => simp at within
    | cons c cs =>
      have withinRest : steps ≤ cs.length := Nat.le_of_succ_le_succ within
      rw [walkedTo]
      split
      next feed =>
        obtain ⟨lines, columns, walked, read⟩ := ih withinRest (line + 1) 1
        refine ⟨lines + 1, columns, ?_, ?_⟩
        · rw [walked, ite_self, if_neg (Nat.succ_ne_zero lines)]
          exact Prod.ext (by omega) rfl
        · rw [placeAt?, if_pos feed, read]
          rfl
      next other =>
        obtain ⟨lines, columns, walked, read⟩ := ih withinRest line (column + 1)
        rw [walked]
        cases lines with
        | zero =>
          -- still on the first line, one column further
          refine ⟨0, columns + 1, Prod.ext rfl (by simp; omega), ?_⟩
          rw [placeAt?, if_neg other, read]
          rfl
        | succ lines =>
          refine ⟨lines + 1, columns, rfl, ?_⟩
          rw [placeAt?, if_neg other, read]
          rfl

private theorem offsetAt?_position {source : Source} {offset : Nat}
    (within : offset ≤ source.content.length) :
    offsetAt? source.content (source.position offset).1 (source.position offset).2 =
    some offset := by
  obtain ⟨lines, columns, walked, read⟩ := exists_placeAt?_walkedTo within 1 1
  rw [ite_self] at walked
  have passed : (((1 + lines : Nat) : Int) - 1).toNat = lines := by omega
  have further : (((1 + columns : Nat) : Int) - 1).toNat = columns := by omega
  rw [position, walked, offsetAt?, if_pos (by omega), passed, further, read]

end Source

namespace Span

/-- Whether one span ends before another starts. -/
def Before (first second : Span) : Prop :=
  first.endLine < second.startLine ∨
    first.endLine = second.startLine ∧ first.endColumn < second.startColumn

end Span

namespace Source

theorem offsetAt?_span {source : Source} {first last : Nat} (ordered : first ≤ last)
    (within : last < source.content.length) :
    offsetAt? source.content (source.span first (last + 1 : Nat)).startLine
        (source.span first (last + 1 : Nat)).startColumn = some first ∧
      offsetAt? source.content (source.span first (last + 1 : Nat)).endLine
        (source.span first (last + 1 : Nat)).endColumn = some last := by
  have final : max first (last + 1 - 1) = last := by omega
  rw [span_natCast, final]
  exact ⟨offsetAt?_position (by omega), offsetAt?_position (by omega)⟩

theorem span_before {source : Source} {first stop next final : Nat} (some : first < stop)
    (later : stop ≤ next) : (source.span first stop).Before (source.span next final) := by
  have last : max first (stop - 1) = stop - 1 := by omega
  have lt := Prod.Lex.toLex_lt_toLex.mp (strictMono_position source (show stop - 1 < next by omega))
  rw [span_natCast, span_natCast, last]
  unfold Span.Before
  dsimp only
  omega

end Source

end SignatureIndex
