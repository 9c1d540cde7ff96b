import SignatureIndex.World.Walk

/-!
# The spellings of paths

A path can be written as a text.  As long as its names are names that a directory can have, the text
leads where the path does.
-/

namespace SignatureIndex

namespace Text

variable {sep : Char} {piece text : List Char}

theorem pieces_of_not_mem (whole : sep ∉ text) : pieces sep text = [text] := by
  induction text with
  | nil => rfl
  | cons c text ih =>
    obtain ⟨other, whole⟩ := not_or.mp (mt List.mem_cons.mpr whole)
    rw [pieces, if_neg (Ne.symm other), ih whole]

theorem pieces_append (front back : List Char) :
    pieces sep (front ++ sep :: back) = pieces sep front ++ pieces sep back := by
  induction front with
  | nil => simp [pieces]
  | cons c front ih =>
    rw [List.cons_append, pieces, pieces]
    split
    · rw [ih, List.cons_append]
    · obtain ⟨piece, rest, cut⟩ := List.exists_cons_of_ne_nil (pieces_ne_nil sep front)
      rw [ih, cut]
      rfl

theorem pieces_append_cons (whole : sep ∉ piece) :
    pieces sep (piece ++ sep :: text) = piece :: pieces sep text := by
  rw [pieces_append, pieces_of_not_mem whole, List.singleton_append]

/-- A text that has been put together of pieces is cut into them again. -/
theorem pieces_intercalate {parts : List (List Char)} (some : parts ≠ [])
    (whole : ∀ part ∈ parts, sep ∉ part) : pieces sep ([sep].intercalate parts) = parts := by
  induction parts with
  | nil => exact absurd rfl some
  | cons part parts ih =>
    have here : sep ∉ part := whole part List.mem_cons_self
    cases parts with
    | nil => rw [List.intercalate_singleton, pieces_of_not_mem here]
    | cons next parts =>
      have later := ih (List.cons_ne_nil _ _) fun other among =>
          whole other (List.mem_cons_of_mem _ among)
      rw [List.intercalate_cons_cons, List.append_assoc, List.singleton_append,
        pieces_append_cons here, later]

theorem mem_intercalate {c : Char} (other : c ≠ sep) {parts : List (List Char)} :
    c ∈ [sep].intercalate parts ↔ ∃ part ∈ parts, c ∈ part := by
  induction parts with
  | nil => simp
  | cons part parts ih =>
    cases parts with
    | nil => simp
    | cons next parts => simp [List.intercalate_cons_cons, ih, other]

end Text

namespace Path

/-- Whether all names on the way are names that a directory can have: they are not empty, and they
hold no slash. -/
def IsRegular (path : Path) : Prop := ∀ name ∈ path.parts, name ≠ "" ∧ '/' ∉ name.toList

/-- What has been read is regular. -/
theorem isRegular_ofString (text : String) : (ofString text).IsRegular := by
  intro name among
  obtain ⟨cut, kept⟩ := List.mem_filter.mp among
  obtain ⟨piece, isPiece, rfl⟩ := List.mem_map.mp cut
  constructor
  · rintro empty
    simp [empty, isIdle] at kept
  · rw [String.toList_ofList]
    exact Text.not_mem_of_mem_pieces isPiece

/-- A text that is a name alone is read as that name. -/
theorem ofString_of_name {name : String} (filled : name ≠ "") (going : name ≠ ".")
    (whole : '/' ∉ name.toList) : ofString name = ⟨.here, [name]⟩ := by
  have named : namesIn name = [name] := by
    rw [namesIn, Text.pieces_of_not_mem whole, List.map_singleton, String.ofList_toList]
  have idle : isIdle name = false := by
    rw [isIdle, beq_false_of_ne filled, beq_false_of_ne going, Bool.or_false]
  have anchored : anchorOf name = .here := by
    obtain ⟨c, rest, chars⟩ := List.exists_cons_of_ne_nil (mt String.toList_eq_nil_iff.mp filled)
    have other : c ≠ '/' := by
      rintro rfl
      exact whole (chars ▸ List.mem_cons_self)
    simp [anchorOf, chars, other]
  rw [ofString, named, anchored]
  simp [idle]

theorem IsRegular.join {path next : Path} (regular : path.IsRegular)
    (nextRegular : next.IsRegular) : (path.join next).IsRegular := by
  unfold Path.join
  split
  · exact nextRegular
  · intro name among
    exact (List.mem_append.mp among).elim (regular name) (nextRegular name)

section Writing

variable {path : Path} (some : path.parts ≠ []) (regular : path.IsRegular)
include some regular

/-- The names of a path with slashes between them start with no slash. -/
theorem exists_intercalate_eq_cons :
    ∃ c rest, ['/'].intercalate (path.parts.map String.toList) = c :: rest ∧ c ≠ '/' := by
  obtain ⟨name, names, parts⟩ := List.exists_cons_of_ne_nil some
  obtain ⟨filled, whole⟩ := regular name (parts ▸ List.mem_cons_self)
  obtain ⟨c, rest, chars⟩ := List.exists_cons_of_ne_nil (mt String.toList_eq_nil_iff.mp filled)
  have other : c ≠ '/' := by
    rintro rfl
    exact whole (chars ▸ List.mem_cons_self)
  rw [parts, List.map_cons, chars]
  cases names with
  | nil => exact ⟨c, rest, List.intercalate_singleton, other⟩
  | cons next names => exact ⟨c, _, List.intercalate_cons_cons, other⟩

theorem toList_toString :
    (toString path).toList = path.anchor.text.toList ++
      ['/'].intercalate (path.parts.map String.toList) := by
  obtain ⟨c, rest, chars, -⟩ := exists_intercalate_eq_cons some regular
  have written : (path.anchor.text ++ "/".intercalate path.parts).toList =
      path.anchor.text.toList ++ ['/'].intercalate (path.parts.map String.toList) := by
    rw [String.toList_append, String.toList_intercalate]
    rfl
  have filled : (path.anchor.text ++ "/".intercalate path.parts).isEmpty = false := by
    rw [Bool.eq_false_iff, ne_eq, String.isEmpty_iff, ← String.toList_eq_nil_iff, written, chars]
    simp
  change (Path.toString path).toList = _
  rw [Path.toString]
  simp only [filled, Bool.false_eq_true, if_false, written]

private theorem anchorOf_toString : anchorOf (toString path) = path.anchor := by
  obtain ⟨c, rest, chars, other⟩ := exists_intercalate_eq_cons some regular
  rw [anchorOf, toList_toString some regular, chars]
  cases path.anchor <;> simp [Anchor.text, other]

/-- The slashes in front cut off empty names. -/
theorem namesIn_toString : namesIn (toString path) = path.anchor.text.toList.map (fun _ => "") ++
    path.parts := by
  have whole : ∀ part ∈ path.parts.map String.toList, '/' ∉ part := by
    intro part among
    obtain ⟨name, isName, rfl⟩ := List.mem_map.mp among
    exact (regular name isName).2
  have cut : Text.pieces '/' (['/'].intercalate (path.parts.map String.toList)) =
      path.parts.map String.toList :=
    Text.pieces_intercalate (mt List.map_eq_nil_iff.mp some) whole
  have named : (path.parts.map String.toList).map String.ofList = path.parts := by
    simp [List.map_map, Function.comp_def]
  -- each slash in front gives one empty name
  rw [namesIn, toList_toString some regular]
  cases path.anchor with
  | here => rw [show Anchor.here.text.toList = [] from rfl, List.nil_append, cut, named]; rfl
  | root =>
    have slash : Text.pieces '/' ('/' :: ['/'].intercalate (path.parts.map String.toList)) =
        [] :: path.parts.map String.toList := by rw [Text.pieces, if_pos rfl, cut]
    rw [show Anchor.root.text.toList = ['/'] from rfl, List.singleton_append, slash,
      List.map_cons, named]
    rfl
  | doubleRoot =>
    have slashes :
        Text.pieces '/' ('/' :: '/' :: ['/'].intercalate (path.parts.map String.toList)) =
        [] :: [] :: path.parts.map String.toList := by
      rw [Text.pieces, if_pos rfl, Text.pieces, if_pos rfl, cut]
    rw [show Anchor.doubleRoot.text.toList = ['/', '/'] from rfl, List.cons_append,
      List.singleton_append, slashes, List.map_cons, List.map_cons, named]
    rfl

theorem hasNull_toString : hasNull (toString path) = path.holdsNull := by
  have anchored : '\x00' ∉ path.anchor.text.toList := by cases path.anchor <;> decide
  rw [Bool.eq_iff_iff, hasNull, toList_toString some regular, List.contains_iff_mem,
    List.mem_append, or_iff_right anchored, Text.mem_intercalate (by decide), holdsNull,
    List.any_eq_true]
  constructor
  · rintro ⟨_, among, null⟩
    obtain ⟨name, isName, rfl⟩ := List.mem_map.mp among
    exact ⟨name, isName, List.contains_iff_mem.mpr null⟩
  · rintro ⟨name, isName, null⟩
    exact ⟨_, List.mem_map_of_mem isName, List.contains_iff_mem.mp null⟩

/-- Only a single name is written without a slash. -/
theorem exists_eq_of_not_mem_toString (whole : '/' ∉ (toString path).toList) :
    ∃ name, path = ⟨.here, [name]⟩ := by
  rw [toList_toString some regular, List.mem_append, not_or] at whole
  obtain ⟨anchor, parts⟩ := path
  have anchored : anchor = .here := by
    cases anchor with
    | here => rfl
    | root => simp [Anchor.text] at whole
    | doubleRoot => simp [Anchor.text] at whole
  subst anchored
  obtain ⟨name, names, rfl⟩ := List.exists_cons_of_ne_nil some
  cases names with
  | nil => exact ⟨name, rfl⟩
  | cons next names => simp [List.intercalate_cons_cons] at whole

end Writing

theorem toString_name {name : String} (filled : name ≠ "") : toString ⟨.here, [name]⟩ = name := by
  have text : Anchor.here.text ++ "/".intercalate [name] = name := by
    rw [String.intercalate_singleton]
    exact String.empty_append
  have some : name.isEmpty = false := Bool.eq_false_iff.mpr (mt String.isEmpty_iff.mp filled)
  change Path.toString _ = name
  simp only [Path.toString, text, some, Bool.false_eq_true, if_false]

end Path

namespace World

/-- The text of a path leads where the path does. -/
theorem locateText_toString {w : World} {path : Path} (some : path.parts ≠ [])
    (regular : path.IsRegular) : w.locateText path.toString = w.locate path := by
  have filled : path.toString.isEmpty = false := by
    obtain ⟨c, rest, chars, -⟩ := Path.exists_intercalate_eq_cons some regular
    rw [Bool.eq_false_iff, ne_eq, String.isEmpty_iff, ← String.toList_eq_nil_iff,
      Path.toList_toString some regular, chars]
    simp
  have starts : targetStart w.workingDirectory path.toString = w.startOf path := by
    rw [targetStart, Path.anchorOf_toString some regular, startOf, Path.isAbsolute]
    cases path.anchor <;> rfl
  have walked : w.walk mostLinks (w.startOf path) (Path.namesIn path.toString) =
      w.walk mostLinks (w.startOf path) path.parts := by
    rw [Path.namesIn_toString some regular, startOf, Path.isAbsolute]
    -- an empty name at the root leads nowhere
    cases path.anchor <;> rfl
  rw [locateText, locate, Path.hasNull_toString some regular, filled, starts, walked]
  rfl

end World

end SignatureIndex
