import SignatureIndex.Proofs.Lexemes
import SignatureIndex.Proofs.Positions
import SignatureIndex.Proofs.Rewriting

/-!
# The text of comments

Comments are blanked out before forms are looked for, so what stands in them never matters: no mark,
dollar, dot or dash in a comment counts, while a percent sign in a string, a quoted atom or a
literal starts none.  Two versions of a file that differ only in the comments of the first have the
same other lexemes, the same lines and the same forms.  So every scan comes to the same, be it
attributes or a problem.
-/

namespace SignatureIndex

/-! ## Places in comments -/

namespace Lexeme

/-- For each character of a lexeme, whether it stands in a comment after the percent sign. -/
def commented : Lexeme → List Bool
  | comment (_ :: written) => false :: List.replicate written.length true
  | lexeme => List.replicate lexeme.text.length false

@[simp] theorem length_commented (lexeme : Lexeme) :
    lexeme.commented.length = lexeme.text.length := by
  fun_cases commented lexeme <;> simp [text]

/-- Whether a place of a text lies in a comment, after its percent sign. -/
def InComment (text : List Char) (place : Nat) : Prop :=
  ((ofText text).1.flatMap commented)[place]? = some true

instance (text : List Char) (place : Nat) : Decidable (InComment text place) :=
  inferInstanceAs (Decidable (_ = _))

end Lexeme

/-- Two texts of one length that differ only in the comments of the first, and not in where lines
end. -/
structure SameButComments (first second : List Char) : Prop where
  length_eq : second.length = first.length
  inComment : ∀ place, second[place]? ≠ first[place]? → Lexeme.InComment first place ∧
    first[place]? ≠ some '\n' ∧ second[place]? ≠ some '\n'

instance (first second : List Char) : Decidable (SameButComments first second) :=
  decidable_of_iff (second.length = first.length ∧ ∀ place < first.length,
      second[place]? ≠ first[place]? → Lexeme.InComment first place ∧ first[place]? ≠ some '\n' ∧
        second[place]? ≠ some '\n') <| by
    constructor
    · rintro ⟨length, within⟩
      refine ⟨length, fun place differs => within place ?_ differs⟩
      refine Decidable.of_not_not fun outside => differs ?_
      rw [List.getElem?_eq_none (by omega), List.getElem?_eq_none (by omega)]
    · intro same
      exact ⟨same.length_eq, fun place _ => same.inComment place⟩

variable {c : Char} {cs rest : List Char} {lexeme : Lexeme} {first second : List Char}

/-- A place in a comment lies in the first lexeme or in what comes after it. -/
theorem of_inComment (found : Lexeme.next? c cs = some (lexeme, rest)) {place : Nat}
    (within : Lexeme.InComment (c :: cs) place) :
    (0 < place ∧ place < lexeme.text.length ∧ ∃ written, lexeme = .comment written) ∨
      ∃ further, place = lexeme.text.length + further ∧ Lexeme.InComment rest further := by
  unfold Lexeme.InComment at within
  rw [ofText_of_next? found, List.flatMap_cons] at within
  by_cases inside : place < lexeme.text.length
  · left
    rw [List.getElem?_append_left (by simpa using inside)] at within
    fun_cases Lexeme.commented lexeme with
    | case1 percent written =>
      refine ⟨?_, inside, _, rfl⟩
      cases place with
      | zero => cases within
      | succ place => omega
    | case2 lexeme other =>
      rw [Lexeme.commented] at within
      · simp [List.getElem?_replicate] at within
      · exact other
  · right
    refine ⟨place - lexeme.text.length, by omega, ?_⟩
    rwa [List.getElem?_append_right (by simpa using inside), Lexeme.length_commented] at within

/-- A text never starts inside a comment. -/
theorem not_inComment_zero (text : List Char) : ¬Lexeme.InComment text 0 := by
  intro within
  cases text with
  | nil =>
    rw [Lexeme.InComment, ofText_nil] at within
    cases within
  | cons c cs =>
    cases found : Lexeme.next? c cs with
    | none =>
      rw [Lexeme.InComment, ofText_of_none found] at within
      cases within
    | some read =>
      obtain ⟨lexeme, rest⟩ := read
      have taken := List.length_pos_iff.mpr (Lexeme.text_ne_nil_of_next? found)
      rcases of_inComment found within with ⟨fromSign, -⟩ | ⟨further, sum, -⟩
      · omega
      · omega

namespace SameButComments

/-! ## Lexeme by lexeme -/

/-- The second text falls into a part as long as the first lexeme of the first text and a rest. -/
theorem exists_parts (same : SameButComments (c :: cs) second)
    (found : Lexeme.next? c cs = some (lexeme, rest)) :
    ∃ front back, second = front ++ back ∧ front.length = lexeme.text.length ∧
      SameButComments rest back ∧ ∀ place, front[place]? ≠ lexeme.text[place]? →
        0 < place ∧ (∃ written, lexeme = .comment written) ∧ front[place]? ≠ some '\n' := by
  have whole := Lexeme.append_of_next? found
  have length := same.length_eq
  rw [← whole, List.length_append] at length
  refine ⟨second.take lexeme.text.length, second.drop lexeme.text.length,
    (List.take_append_drop _ _).symm, ?_, ⟨?_, ?_⟩, ?_⟩
  · rw [List.length_take]
    omega
  · rw [List.length_drop]
    omega
  · -- places behind the lexeme are those of the rest, shifted
    intro place differs
    have shifted : (c :: cs)[lexeme.text.length + place]? = rest[place]? := by
      rw [← whole, List.getElem?_append_right (Nat.le_add_right _ _), Nat.add_sub_cancel_left]
    rw [List.getElem?_drop, ← shifted] at differs
    obtain ⟨within, notFirst, notSecond⟩ := same.inComment _ differs
    rw [List.getElem?_drop, ← shifted]
    refine ⟨?_, notFirst, notSecond⟩
    rcases of_inComment found within with ⟨-, inside, -⟩ | ⟨further, sum, later⟩
    · omega
    · obtain rfl : further = place := by omega
      exact later
  · intro place differs
    -- the texts differ inside the lexeme, which is a comment then
    have inside : place < lexeme.text.length := by
      refine Decidable.of_not_not fun outside => differs ?_
      rw [List.getElem?_eq_none (by rw [List.length_take]; omega), List.getElem?_eq_none (by omega)]
    have started : (c :: cs)[place]? = lexeme.text[place]? := by
      rw [← whole, List.getElem?_append_left inside]
    rw [List.getElem?_take_of_lt inside, ← started] at differs
    rw [List.getElem?_take_of_lt inside]
    obtain ⟨within, -, notSecond⟩ := same.inComment place differs
    rcases of_inComment found within with ⟨fromSign, -, comment⟩ | ⟨further, sum, -⟩
    · exact ⟨fromSign, comment, notSecond⟩
    · omega

/-- Lexemes end in front of the second text where they end in front of the first. -/
theorem stopsAt (same : SameButComments rest second) (ends : lexeme.stopsAt rest = true) :
    lexeme.stopsAt second = true := by
  cases lexeme with
  | quoted written => rfl
  | plain c => rfl
  | literal written =>
    have empty : second.isEmpty = rest.isEmpty := by
      have lengths := same.length_eq
      cases second <;> cases rest <;> simp_all
    simpa [Lexeme.stopsAt, empty] using ends
  | comment written =>
    have head : second.head? = rest.head? := by
      rw [List.head?_eq_getElem?, List.head?_eq_getElem?]
      exact Decidable.of_not_not fun differs => not_inComment_zero rest (same.inComment 0 differs).1
    simpa [Lexeme.stopsAt, head] using ends

/-- What stands in the place of a comment is a comment of the same length. -/
theorem exists_comment {written front : List Char} (inLine : '\n' ∉ written)
    (length : front.length = ('%' :: written).length)
    (places : ∀ place, front[place]? ≠ ('%' :: written)[place]? →
      0 < place ∧ front[place]? ≠ some '\n') :
    ∃ other, front = '%' :: other ∧ '\n' ∉ other := by
  cases front with
  | nil => cases length
  | cons d other =>
    obtain rfl : d = '%' := by
      have head : (d :: other)[0]? = ('%' :: written)[0]? :=
        Decidable.of_not_not fun differs => absurd (places 0 differs).1 (Nat.lt_irrefl 0)
      exact Option.some.inj head
    refine ⟨other, rfl, fun among => ?_⟩
    obtain ⟨place, here⟩ := List.mem_iff_getElem?.mp among
    by_cases unchanged : other[place]? = written[place]?
    · rw [unchanged] at here
      exact inLine (List.mem_of_getElem? here)
    · exact (places (place + 1) unchanged).2 here

/-- The first lexeme of the first text has one of the same length in the second, and the two are
blanked out to the same. -/
theorem exists_next (same : SameButComments (c :: cs) second)
    (found : Lexeme.next? c cs = some (lexeme, rest)) :
    ∃ d ds other back, second = d :: ds ∧ Lexeme.next? d ds = some (other, back) ∧
      other.blanked = lexeme.blanked ∧ SameButComments rest back := by
  obtain ⟨front, back, rfl, length, sameRest, places⟩ := same.exists_parts found
  have stops := sameRest.stopsAt (stopsAt_of_next? found)
  by_cases comment : ∃ written, lexeme = .comment written
  · cases next?_eq_some_iff.mp found with
    | quoted | literal | plain => simp at comment
    | comment percent =>
      subst percent
      have inLine : '\n' ∉ cs.takeWhile (· ≠ '\n') := by
        intro among
        have other := List.all_eq_true.mp List.all_takeWhile _ among
        simp at other
      obtain ⟨other, rfl, staysInLine⟩ := exists_comment inLine length fun place differs =>
        ⟨(places place differs).1, (places place differs).2.2⟩
      refine ⟨'%', other ++ back, .comment ('%' :: other), back, rfl,
        next?_comment staysInLine stops, ?_, sameRest⟩
      exact congrArg (List.replicate · ' ') length
  · have unchanged : front = lexeme.text := by
      refine List.ext_getElem? fun place => ?_
      exact Decidable.of_not_not fun differs => comment (places place differs).2.1
    obtain ⟨ds, starts, again⟩ := next?_of_stopsAt found stops
    exact ⟨c, ds, lexeme, back, unchanged ▸ starts, again, rfl, sameRest⟩

/-- The two texts are blanked out to the same, up to a mark that is never matched. -/
theorem blanked_eq (same : SameButComments first second) :
    (Lexeme.ofText second).1.flatMap Lexeme.blanked =
      (Lexeme.ofText first).1.flatMap Lexeme.blanked ∧
      (Lexeme.ofText second).2 = (Lexeme.ofText first).2 := by
  fun_induction Lexeme.ofText first generalizing second with
  | case1 =>
    obtain rfl := List.eq_nil_of_length_eq_zero same.length_eq
    rw [ofText_nil]
    exact ⟨rfl, rfl⟩
  | case2 c cs none =>
    -- there are no comments after a mark that is never matched
    have unchanged : second = c :: cs := by
      refine List.ext_getElem? fun place => ?_
      refine Decidable.of_not_not fun differs => ?_
      have within := (same.inComment place differs).1
      rw [Lexeme.InComment, ofText_of_none none] at within
      cases within
    rw [unchanged, ofText_of_none none]
    exact ⟨rfl, rfl⟩
  | case3 c cs lexeme rest found _ lexemes unmatched deeper ih =>
    obtain ⟨d, ds, other, back, rfl, again, blanked, sameRest⟩ := same.exists_next found
    obtain ⟨blankedRest, left⟩ := ih sameRest
    rw [deeper] at blankedRest left
    rw [ofText_of_next? again]
    exact ⟨by rw [List.flatMap_cons, List.flatMap_cons, blanked, blankedRest], left⟩

/-! ## What a file comes to -/

private theorem blankComments_eq (same : SameButComments first second) :
    blankComments second = blankComments first := by
  obtain ⟨blanked, unmatched⟩ := same.blanked_eq
  simp only [blankComments, blanked, unmatched, same.length_eq]

private theorem breaks_eq (same : SameButComments first second) :
    Source.breaks second = Source.breaks first := by
  refine List.ext_getElem? fun place => ?_
  rw [Source.breaks, Source.breaks, List.getElem?_map, List.getElem?_map]
  by_cases unchanged : second[place]? = first[place]?
  · rw [unchanged]
  · obtain ⟨within, notFirst, notSecond⟩ := same.inComment place unchanged
    have length := same.length_eq
    by_cases inside : place < first.length
    · have insideToo : place < second.length := by omega
      rw [List.getElem?_eq_getElem inside] at notFirst ⊢
      rw [List.getElem?_eq_getElem insideToo] at notSecond ⊢
      have notFeed : (first[place] == '\n') = false := by simpa using notFirst
      have notFeedToo : (second[place] == '\n') = false := by simpa using notSecond
      rw [Option.map_some, Option.map_some, notFeed, notFeedToo]
    · rw [List.getElem?_eq_none (by omega), List.getElem?_eq_none (by omega)]

end SameButComments

/-- Two files with the same lines that are blanked out to the same come to the same. -/
theorem Sheet.ofSource_congr {source other : Source} (path : other.path = source.path)
    (same : Source.breaks other.content = Source.breaks source.content)
    (blanked : blankComments other.content = blankComments source.content) :
    Sheet.ofSource other = Sheet.ofSource source := by
  have spans := Source.span_congr path same
  have items : Item.ofForm? other = Item.ofForm? source := by
    funext form
    simp only [Item.ofForm?, spans]
  have length : other.content.length = source.content.length := by
    simpa [Source.breaks] using congrArg List.length same
  have left (rest : List Char) : Sheet.unfinished? other rest = Sheet.unfinished? source rest := by
    simp only [Sheet.unfinished?, length, spans]
  unfold Sheet.ofSource
  rw [blanked, items]
  cases blankComments source.content with
  | ok clean => simp only [left, path]
  | error offset =>
    have span := spans offset (offset + 1)
    rw [Int.natCast_add] at span
    exact congrArg (fun span => Except.error (SourceProblem.openQuote span)) span

namespace World

/-- A scan comes to the same attributes or the same problem whatever stands in comments, in any of
the files that it may read. -/
theorem scan_of_sameButComments (w : World) (options : ScanOptions) (path : Path)
    (change : Location → List UInt8 → List UInt8)
    (versions : ∀ location bytes, w.node? location = some (.file bytes) →
      change location bytes = bytes ∨ ∃ first second, Source.Holds bytes first ∧
        Source.Holds (change location bytes) second ∧ SameButComments first second) :
    (w.rewrite change).scan options path = w.scan options path := by
  refine scan_rewrite (fun path => sheet_rewrite fun location bytes _ here => ?_) path
  rcases versions location bytes here with unchanged | ⟨first, second, before, after, same⟩
  · rw [unchanged]
  · rw [Source.read_of_holds path before, Source.read_of_holds path after]
    exact congrArg Except.ok (Sheet.ofSource_congr rfl same.breaks_eq same.blankComments_eq)

/-- A file with a quotation mark and a dollar in its comments. -/
def remarks.original : String := "-spec f() % it's\n -> ok.\n-include(\"b.hrl\"). % $\n"

/-- The file and its header, which has a percent sign in an atom. -/
def remarks : World where
  entries := [
    (["a.erl"], .ofText remarks.original), (["b.hrl"], .ofText "-type t() :: '%'.\n")]
  workingDirectory := []
  system := .ofHome "/"
  programDirectories := []

/-- The file with an open string and a whole form in its comments. -/
def remarks.revised : String := "-spec f() % \"-x.\n -> ok.\n-include(\"b.hrl\"). %%.\n"

theorem scan_remarks :
    (∀ location bytes, remarks.node? location = some (.file bytes) →
      (if location = ["a.erl"] then Text.Utf8.encode remarks.revised else bytes) = bytes ∨
        ∃ first second, Source.Holds bytes first ∧
          Source.Holds (if location = ["a.erl"] then Text.Utf8.encode remarks.revised else bytes)
            second ∧ SameButComments first second) ∧
    (remarks.rewrite fun location bytes =>
      if location = ["a.erl"] then Text.Utf8.encode remarks.revised else bytes).scan .default
        ⟨.root, ["a.erl"]⟩ = remarks.scan .default ⟨.root, ["a.erl"]⟩ := by
  have versions : ∀ location bytes, remarks.node? location = some (.file bytes) →
      (if location = ["a.erl"] then Text.Utf8.encode remarks.revised else bytes) = bytes ∨
        ∃ first second, Source.Holds bytes first ∧
          Source.Holds (if location = ["a.erl"] then Text.Utf8.encode remarks.revised else bytes)
            second ∧
            SameButComments first second := by
    intro location bytes here
    split
    · next first =>
      subst first
      cases here
      right
      exact ⟨remarks.original.toList, remarks.revised.toList, by decide +kernel, by decide +kernel,
        by decide +kernel⟩
    · exact .inl rfl
  exact ⟨versions, scan_of_sameButComments remarks .default ⟨.root, ["a.erl"]⟩ _ versions⟩

end World

end SignatureIndex
