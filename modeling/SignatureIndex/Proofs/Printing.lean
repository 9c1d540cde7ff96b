import SignatureIndex.Proofs.LineEnds
import SignatureIndex.Proofs.Passages

/-!
# Scanning undoes printing

A scan of a file that was printed passage by passage gives the attributes that were printed and
nothing else, each with the place where it was written.  Only comments hold carriage returns, and a
comment stays one whether or not the carriage return at its end is dropped.
-/

namespace SignatureIndex

/-! ## Line ends -/

namespace Text

private theorem joinCrLf_append {front : List Char} (free : '\r' ∉ front) (text : List Char) :
    joinCrLf (front ++ text) = front ++ joinCrLf text := by
  have apart : front.getLast? ≠ some '\r' := fun last => free (List.mem_of_getLast? last)
  rw [joinCrLf_append_of_apart (.inr apart), joinCrLf, joinPairs_of_not_mem free]

/-- A line stays one when pairs are joined, whatever comes after it. -/
theorem exists_joinCrLf_line {line : List Char} (inLine : '\n' ∉ line) :
    ∃ joined, '\n' ∉ joined ∧
      ∀ text, joinCrLf (line ++ '\n' :: text) = joined ++ '\n' :: joinCrLf text := by
  induction line with
  | nil => exact ⟨[], nofun, fun text => joinCrLf_cons (by decide) text⟩
  | cons c line ih =>
    rw [List.mem_cons, not_or] at inLine
    obtain ⟨joined, inJoined, same⟩ := ih inLine.2
    by_cases pair : c = '\r' ∧ line = []
    · -- the pair at the end of the line
      obtain ⟨rfl, rfl⟩ := pair
      exact ⟨joined, inJoined, same⟩
    · refine ⟨c :: joined, ?_, fun text => ?_⟩
      · rw [List.mem_cons, not_or]
        exact ⟨inLine.1, inJoined⟩
      · have noPair : ¬(c = '\r' ∧ (line ++ '\n' :: text).head? = some '\n') := by
          rintro ⟨rfl, next⟩
          cases line with
          | nil => exact pair ⟨rfl, rfl⟩
          | cons d line => exact inLine.2 (by simpa using Or.inl (Option.some.inj next).symm)
        have step : joinCrLf (c :: (line ++ '\n' :: text)) =
            c :: joinCrLf (line ++ '\n' :: text) := by
          rw [joinCrLf, joinPairs, if_neg noPair]
          rfl
        rw [List.cons_append, step, same]
        rfl

end Text

namespace Passage

/-- Joining pairs leaves a passage one, with the same attribute and as many lines. -/
theorem exists_joined {passage : Passage} (proper : passage.IsProper) :
    ∃ joined : Passage, joined.IsProper ∧
      (∀ text, Text.joinCrLf (passage.written ++ text) = joined.written ++ Text.joinCrLf text) ∧
      (∀ file line, joined.attribute? file line = passage.attribute? file line) ∧
      joined.written.count '\n' = passage.written.count '\n' := by
  cases passage with
  | declaration kind text =>
    have free : '\r' ∉ (declaration kind text).written := by
      have inKind : '\r' ∉ kind := by
        intro among
        obtain ⟨c, cs, rfl, lower, name⟩ := proper.1.exists_cons
        rcases List.mem_cons.mp among with rfl | among
        · exact absurd lower (by decide)
        · exact absurd (name _ among) (by decide)
      simp [written, inKind, proper.2.noReturn]
    exact ⟨_, proper, Text.joinCrLf_append free, fun _ _ => rfl, rfl⟩
  | form text =>
    have free : '\r' ∉ (form text).written := by
      simp [written, proper.2.noReturn]
    exact ⟨_, proper, Text.joinCrLf_append free, fun _ _ => rfl, rfl⟩
  | comment text =>
    -- a comment may have returns in it, and the last may stand before its line feed
    obtain ⟨joined, inLine, same⟩ := Text.exists_joinCrLf_line proper
    refine ⟨comment joined, inLine, fun more => ?_, fun _ _ => rfl, ?_⟩
    · have line : (comment text).written ++ more = '%' :: (text ++ '\n' :: more) := by
        simp [written]
      rw [line, Text.joinCrLf_cons (by decide), same]
      simp [written]
    · simp [written, List.count_eq_zero.mpr inLine, List.count_eq_zero.mpr proper]

/-- Joining pairs leaves passages with the same attributes on the same lines. -/
theorem exists_all_joined {passages : List Passage}
    (proper : ∀ passage ∈ passages, passage.IsProper) :
    ∃ joined : List Passage, (∀ passage ∈ joined, passage.IsProper) ∧
      Text.joinCrLf (passages.flatMap written) = joined.flatMap written ∧
      ∀ file line, attributes file line joined = attributes file line passages := by
  induction passages with
  | nil => exact ⟨[], nofun, rfl, fun _ _ => rfl⟩
  | cons passage passages ih =>
    obtain ⟨first, properFirst, sameFirst, here, lines⟩ := exists_joined (proper passage (by simp))
    obtain ⟨rest, properRest, sameRest, later⟩ := ih fun other among =>
        proper other (by simp [among])
    refine ⟨first :: rest, ?_, ?_, fun file line => ?_⟩
    · intro other among
      rcases List.mem_cons.mp among with rfl | among
      · exact properFirst
      · exact properRest other among
    · rw [List.flatMap_cons, List.flatMap_cons, sameFirst, sameRest]
    · rw [attributes, attributes, here, lines, later]

end Passage

/-! ## Scans -/

namespace World

variable {w : World} {options : ScanOptions}

private theorem scanItems_map_kept (depth : Option Nat) (path : Path) (seen : List Location)
    (attributes : List Attribute) :
    w.scanItems options depth path seen (attributes.map .kept) = pure ⟨attributes, []⟩ := by
  induction attributes with
  | nil => exact scanItems_nil
  | cons content attributes ih =>
    rw [List.map_cons, scanItems_kept, ih]
    rfl

/-- A file that was read is known where it stands, unless its path has no path from the root. -/
theorem exists_knownFileAt_of_readBytes {path : Path} {bytes : List UInt8}
    (read : w.readBytes path = .ok bytes) :
    ∃ location, w.knownFileAt path = (w.resolve path).map fun _ => some location := by
  have file := isFile_of_readBytes read
  unfold isFile at file
  cases found : w.fileAt path with
  | error e =>
    rw [found] at file
    cases file
  | ok location? =>
    rw [found] at file
    cases location? with
    | none => cases file
    | some location =>
      refine ⟨location, ?_⟩
      unfold knownFileAt
      rw [found]
      cases w.resolve path <;> rfl

/-- A scan of a file that is printed from passages gives their attributes, each from the first
column of the line where it was written.  There are pairs at the ends of lines only in comments, and
it does not matter whether they are joined when the text is compared.  Only where the path of the
file has no path from the root does the scan fail. -/
theorem outcome_scan_of_printed (w : World) (options : ScanOptions) (path : Path)
    {bytes : List UInt8} {text : List Char} {passages : List Passage}
    (read : w.readBytes path = .ok bytes)
    (decoded : (Encoding.ofBytes bytes).decode bytes = .ok text)
    (printed : text = passages.flatMap Passage.written ∨
      Text.joinCrLf text = passages.flatMap Passage.written)
    (proper : ∀ passage ∈ passages, passage.IsProper) :
    (w.scan options path).outcome =
      ((w.resolve path).mapError Fault.file).map fun _ =>
        Passage.attributes (toString path) 1 passages := by
  -- the passages can be chosen as they are once pairs are joined
  obtain ⟨joined, properJoined, content, same⟩ : ∃ joined : List Passage,
      (∀ passage ∈ joined, passage.IsProper) ∧ Text.joinCrLf text = joined.flatMap Passage.written ∧
        ∀ file line, Passage.attributes file line joined =
          Passage.attributes file line passages := by
    rcases printed with rfl | content
    · exact Passage.exists_all_joined proper
    · exact ⟨passages, proper, content, fun _ _ => rfl⟩
  have sourceRead : Source.read path bytes = _ := Source.read_of_decode decoded
  have sheetOf := Sheet.ofSource_of_printed
    (show (Source.mk path (Encoding.ofBytes bytes) (Text.joinCrLf text)).content = _ from content)
    properJoined
  rw [same] at sheetOf
  obtain ⟨location, known⟩ := exists_knownFileAt_of_readBytes read
  rw [scan, sheet, read]
  simp only [sourceRead, known, Traced.ofSource, pure_bind]
  cases w.resolve path with
  | error e => rfl
  | ok real =>
    simp only [Except.map, Traced.ofFile, pure_bind, sheetOf, scanItems_map_kept,
      Option.toList_some]
    rw [Traced.outcome_bind, outcome_finish_eq_ok_iff.mpr rfl]
    rfl

/-- A note with a mark in it, a type with a percent sign and a literal dot, a function with dots,
and a specification in two lines. -/
def page.passages : List Passage := [
  .comment "% It's a note.".toList,
  .declaration "type".toList "t() :: '%' | $.".toList,
  .form "f() -> [$., 1.5, \"a. b\"]".toList,
  .declaration "spec".toList "f() ->\n    string()".toList]

def page.bytes : List UInt8 :=
  Text.Utf8.encode (String.ofList (page.passages.flatMap Passage.written))

def page : World where
  entries := [(["a.erl"], .file page.bytes)]
  workingDirectory := []
  system := .ofHome "/"
  programDirectories := []

theorem outcome_scan_page :
    (page.scan .default ⟨.root, ["a.erl"]⟩).outcome =
      .ok [⟨"type", "t() :: '%' | $.", ⟨"/a.erl", 2, 1, 2, 21⟩⟩,
        ⟨"spec", "f() ->\n    string()", ⟨"/a.erl", 4, 1, 5, 12⟩⟩] := by
  have decoded : (Encoding.ofBytes page.bytes).decode page.bytes =
      .ok (page.passages.flatMap Passage.written) := Traced.eq_ok_of_toOption (by decide +kernel)
  have proper : ∀ passage ∈ page.passages, passage.IsProper := by decide +kernel
  rw [outcome_scan_of_printed page .default ⟨.root, ["a.erl"]⟩ rfl decoded (.inl rfl) proper]
  exact Traced.eq_ok_of_toOption (by decide +kernel)

end World

end SignatureIndex
