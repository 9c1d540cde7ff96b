import SignatureIndex.Proofs.Course
import SignatureIndex.Proofs.Rewriting

/-!
# Ends of lines

A file whose lines end in line feeds can be made to end them in a carriage return and a line feed.
Where a note of the encoding is looked for, both end a line.  Decoding leaves the carriage returns
in, and they are joined to their line feeds only after that.  What stands for no character is found
at the same line and column, because no carriage return is put into the part of the line before it.
So nothing that is read from the file changes, and no scan does, whichever files are changed.
-/

namespace SignatureIndex

namespace Text

/-- Bytes with a carriage return before every line feed. -/
def withReturns (bytes : List UInt8) : List UInt8 :=
  bytes.flatMap fun b => if b = 10 then [13, 10] else [b]

variable {b : UInt8} {bytes : List UInt8}

@[simp] theorem withReturns_nil : withReturns [] = [] := rfl

@[simp] theorem withReturns_feed : withReturns (10 :: bytes) = 13 :: 10 :: withReturns bytes := rfl

@[simp] theorem withReturns_cons (other : b ≠ 10) :
    withReturns (b :: bytes) = b :: withReturns bytes := by
  simp [withReturns, other]

theorem withReturns_append (front rest : List UInt8) :
    withReturns (front ++ rest) = withReturns front ++ withReturns rest :=
  List.flatMap_append

theorem joinPairs_of_not_mem {α : Type} [DecidableEq α] {cr lf : α} {cs : List α}
    (free : cr ∉ cs) : joinPairs cr lf cs = cs := by
  induction cs with
  | nil => rfl
  | cons c cs ih =>
    simp only [List.mem_cons, not_or] at free
    rw [joinPairs, if_neg fun pair => free.1 pair.1.symm, ih free.2]

private theorem joinPairs_withReturns (free : 13 ∉ bytes) :
    joinPairs 13 10 (withReturns bytes) = bytes := by
  induction bytes with
  | nil => rfl
  | cons b bytes ih =>
    simp only [List.mem_cons, not_or] at free
    by_cases feed : b = 10
    · subst feed
      simp [joinPairs, ih free.2]
    · rw [withReturns_cons feed, joinPairs, if_neg fun pair => free.1 pair.1.symm, ih free.2]

private theorem byteLines_withReturns (free : 13 ∉ bytes) :
    byteLines (withReturns bytes) = byteLines bytes := by
  unfold byteLines
  rw [joinPairs_withReturns free, joinPairs_of_not_mem free]

/-- A character that is no carriage return is not part of a pair. -/
theorem joinCrLf_cons {c : Char} (other : c ≠ '\r') (cs : List Char) :
    joinCrLf (c :: cs) = c :: joinCrLf cs := by
  rw [joinCrLf, joinPairs, if_neg fun pair => other pair.1]
  rfl

/-- Texts that do not make a pair where they meet can have their pairs joined one after the
other. -/
theorem joinCrLf_append_of_apart {front back : List Char}
    (apart : back.head? ≠ some '\n' ∨ front.getLast? ≠ some '\r') :
    joinCrLf (front ++ back) = joinCrLf front ++ joinCrLf back := by
  unfold joinCrLf
  induction front with
  | nil => rfl
  | cons d front ih =>
    cases front with
    | nil =>
      -- the one place where a pair could be made anew
      have noPair : ¬(d = '\r' ∧ back.head? = some '\n') := by
        rintro ⟨rfl, feed⟩
        simp [feed] at apart
      simp [joinPairs, noPair]
    | cons e front =>
      have rest := ih (by simpa using apart)
      rw [List.cons_append, joinPairs, joinPairs, rest, List.cons_append, List.head?_cons,
        List.head?_cons]
      by_cases pair : d = '\r' ∧ some e = some '\n'
      · rw [if_pos pair, if_pos pair]
      · rw [if_neg pair, if_neg pair, List.cons_append]

private theorem map_joinCrLf_cons {ε : Type} {c : Char} (other : c ≠ '\r')
    (decoded : Except ε (List Char)) :
    (decoded.map (c :: ·)).map joinCrLf = (decoded.map joinCrLf).map (c :: ·) := by
  cases decoded with
  | error e => rfl
  | ok text => exact congrArg Except.ok (joinCrLf_cons other text)

/-! ## Decoding -/

private theorem map_mapError {ε δ α β : Type} (f : α → β) (g : ε → δ) (outcome : Except ε α) :
    (outcome.mapError g).map f = (outcome.map f).mapError g := by
  cases outcome <;> rfl

namespace Utf8

/-- A reading with something else after the sequence. -/
def Reading.mapRest (f : List UInt8 → List UInt8) : Reading → Reading
  | .char c rest => .char c (f rest)
  | .fault rest => .fault (f rest)

/-- A line end is no continuation byte, however it is written. -/
theorem continuation_withReturns (further code : Nat) (bytes : List UInt8) :
    continuation further code (withReturns bytes) =
      (continuation further code bytes).mapRest withReturns := by
  fun_induction continuation further code bytes with
  | case1 => rfl
  | case2 => rfl
  | case3 further code b bytes inside ih =>
    have other : b ≠ 10 := by
      rintro rfl
      exact absurd inside.1 (by decide)
    rw [withReturns_cons other, continuation, if_pos inside, ih]
  | case4 further code b bytes outside =>
    by_cases feed : b = 10
    · subst feed
      rfl
    · rw [withReturns_cons feed, continuation, if_neg outside, Reading.mapRest,
        withReturns_cons feed]

/-- What a lead byte asks for is a continuation byte, and the two come to more than the code of a
carriage return. -/
theorem le_of_shape? {lead : UInt8} {shape : Shape} (leads : shape? lead = some shape) :
    0x80 ≤ shape.low ∧ 16 ≤ shape.payload * 64 + (shape.low.toNat - 0x80) := by
  simp only [shape?, UInt8.lt_iff_toNat_lt, UInt8.reduceToNat, ← UInt8.toNat_inj] at leads
  repeat' split at leads
  all_goals simp only [reduceCtorEq, Option.some.injEq] at leads
  all_goals
    subst leads
    refine ⟨?_, ?_⟩
    · simp
    · simp only [UInt8.reduceToNat]
      omega

private theorem read_withReturns (lead : UInt8) (bytes : List UInt8) :
    read lead (withReturns bytes) = (read lead bytes).mapRest withReturns := by
  unfold read
  split
  · rfl
  cases leads : shape? lead with
  | none => rfl
  | some shape =>
    have low := (le_of_shape? leads).1
    have early {b : UInt8} (control : b < 0x80) : ¬(shape.low ≤ b ∧ b ≤ shape.high) :=
      fun inside => absurd (UInt8.le_trans low inside.1) (UInt8.not_le.mpr control)
    cases bytes with
    | nil => rfl
    | cons b bytes =>
      by_cases feed : b = 10
      · -- neither end of a line is a continuation byte
        subst feed
        rw [withReturns_feed]
        dsimp only
        rw [if_neg (early (by decide)), if_neg (early (by decide))]
        rfl
      · rw [withReturns_cons feed]
        dsimp only
        split
        · exact continuation_withReturns _ _ _
        · rw [Reading.mapRest, withReturns_cons feed]

private theorem rest_continuation_isSuffix (further code : Nat) (bytes : List UInt8) :
    (continuation further code bytes).rest <:+ bytes := by
  fun_induction continuation further code bytes with
  | case3 _ _ b _ _ ih => exact ih.trans (List.suffix_cons b _)
  | _ => exact List.suffix_rfl

/-- What is left after a sequence is the end of the bytes. -/
theorem rest_read_isSuffix (lead : UInt8) (bytes : List UInt8) :
    (read lead bytes).rest <:+ bytes := by
  unfold read
  split
  · exact List.suffix_rfl
  · split
    · exact List.suffix_rfl
    · exact List.suffix_rfl
    · next b bytes _ =>
      split
      · exact (rest_continuation_isSuffix _ _ bytes).trans (List.suffix_cons b bytes)
      · exact List.suffix_rfl

/-- The bits that have been collected are not lost. -/
theorem le_of_continuation {further code : Nat} {c : Char} {rest : List UInt8}
    (reading : continuation further code bytes = .char c rest) :
    ∃ total, code ≤ total ∧ c = Char.ofNat total := by
  fun_induction continuation further code bytes with
  | case1 code bytes =>
    cases reading
    exact ⟨code, Nat.le_refl code, rfl⟩
  | case2 => cases reading
  | case3 further code b bytes inside ih =>
    obtain ⟨total, more, same⟩ := ih reading
    exact ⟨total, by omega, same⟩
  | case4 => cases reading

/-- A character is that of its own number alone, unless it is the one that stands in for numbers of
none. -/
theorem ofNat_ne {n : Nat} {c : Char} (other : n ≠ c.toNat) (proper : c ≠ '\x00') :
    Char.ofNat n ≠ c := by
  intro same
  unfold Char.ofNat at same
  by_cases valid : n.isValidChar
  · rw [dif_pos valid] at same
    exact other (congrArg Char.toNat same)
  · rw [dif_neg valid] at same
    exact proper same.symm

/-- No other byte starts a carriage return than the one that is it. -/
theorem ne_return_of_read {lead : UInt8} {c : Char} {rest : List UInt8} (other : lead ≠ 13)
    (reading : read lead bytes = .char c rest) : c ≠ '\r' := by
  unfold read at reading
  split at reading
  · cases reading
    exact ofNat_ne (fun same => other (UInt8.toNat_inj.mp same)) (by decide)
  split at reading
  · cases reading
  · cases reading
  next shape b bytes leads =>
    split at reading
    · next inside =>
      obtain ⟨total, more, rfl⟩ := le_of_continuation reading
      have large := (le_of_shape? leads).2
      have low := UInt8.le_iff_toNat_le.mp inside.1
      exact ofNat_ne (show total ≠ 13 by omega) (by decide)
    · cases reading

/-- Decoding finds the same text once the pairs are joined, or the same fault. -/
theorem decode_withReturns (free : 13 ∉ bytes) :
    (decode (withReturns bytes)).map joinCrLf =
      ((decode bytes).map joinCrLf).mapError withReturns := by
  induction bytes using decode.induct with
  | case1 =>
    have none : decode [] = .ok [] := by rw [decode]
    rw [withReturns_nil, none]
    rfl
  | case2 b bytes c rest shorter reading ih =>
    simp only [List.mem_cons, not_or] at free
    have notReturn := ne_return_of_read (Ne.symm free.1) reading
    have left : rest <:+ bytes := by
      have whole := rest_read_isSuffix b bytes
      rwa [reading] at whole
    have next := ih fun among => free.2 (left.subset among)
    rw [decode_cons_char reading, map_joinCrLf_cons notReturn, ← map_mapError, ← next]
    -- only a line feed gets a return in front of it, and the pair is joined again
    by_cases feed : b = 10
    · subst feed
      cases reading
      have first : read 13 (10 :: withReturns bytes) = .char '\r' (10 :: withReturns bytes) := rfl
      have second : read 10 (withReturns bytes) = .char '\n' (withReturns bytes) := rfl
      rw [withReturns_feed, decode_cons_char first, decode_cons_char second]
      cases decode (withReturns bytes) <;> rfl
    · have same : read b (withReturns bytes) = .char c (withReturns rest) := by
        rw [read_withReturns, reading]
        rfl
      rw [withReturns_cons feed, decode_cons_char same, map_joinCrLf_cons notReturn]
  | case3 b bytes rest shorter reading =>
    -- no fault begins with a line feed
    have notFeed : b ≠ 10 := by
      rintro rfl
      cases reading
    have same : read b (withReturns bytes) = .fault (withReturns rest) := by
      rw [read_withReturns, reading]
      rfl
    rw [decode_cons_fault reading, withReturns_cons notFeed, decode_cons_fault same]
    exact congrArg Except.error (withReturns_cons notFeed).symm

/-- What is left from a fault on is the end of the bytes. -/
theorem isSuffix_of_decode {rest : List UInt8} (failed : decode bytes = .error rest) :
    rest <:+ bytes := by
  induction bytes using decode.induct with
  | case1 =>
    rw [decode] at failed
    cases failed
  | case2 b bytes c after shorter reading ih =>
    rw [decode_cons_char reading] at failed
    have left := rest_read_isSuffix b bytes
    rw [reading] at left
    cases deeper : decode after with
    | ok text =>
      rw [deeper] at failed
      cases failed
    | error other =>
      rw [deeper] at failed
      cases failed
      exact (ih deeper).trans (left.trans (List.suffix_cons b bytes))
  | case3 b bytes after shorter reading =>
    rw [decode_cons_fault reading] at failed
    cases failed
    exact List.suffix_rfl

end Utf8

end Text

/-! ## Reading a file -/

open Text (withReturns)

variable {bytes : List UInt8}

private theorem Encoding.ofBytes_withReturns (free : 13 ∉ bytes) :
    Encoding.ofBytes (withReturns bytes) = Encoding.ofBytes bytes := by
  unfold Encoding.ofBytes
  rw [Text.byteLines_withReturns free]

/-- In an encoding of one byte a character, nothing but the pairs is changed. -/
theorem joinCrLf_latin1 (free : 13 ∉ bytes) :
    Text.joinCrLf ((withReturns bytes).map fun b => Char.ofNat b.toNat) =
      Text.joinCrLf (bytes.map fun b => Char.ofNat b.toNat) := by
  induction bytes with
  | nil => rfl
  | cons b bytes ih =>
    simp only [List.mem_cons, not_or] at free
    by_cases feed : b = 10
    · subst feed
      exact congrArg ('\n' :: ·) (ih free.2)
    · have other : Char.ofNat b.toNat ≠ '\r' :=
        Text.Utf8.ofNat_ne (fun same => free.1 (UInt8.toNat_inj.mp same).symm) (by decide)
      rw [Text.withReturns_cons feed, List.map_cons, List.map_cons, Text.joinCrLf_cons other,
        Text.joinCrLf_cons other, ih free.2]

private theorem Encoding.decode_withReturns (encoding : Encoding) (free : 13 ∉ bytes) :
    (encoding.decode (withReturns bytes)).map Text.joinCrLf =
      ((encoding.decode bytes).map Text.joinCrLf).mapError withReturns := by
  cases encoding with
  | utf8 => exact Text.Utf8.decode_withReturns free
  | latin1 => exact congrArg Except.ok (joinCrLf_latin1 free)

theorem Encoding.isSuffix_of_decode {encoding : Encoding} {rest : List UInt8}
    (failed : encoding.decode bytes = .error rest) : rest <:+ bytes := by
  cases encoding with
  | utf8 => exact Text.Utf8.isSuffix_of_decode failed
  | latin1 => cases failed

/-- A line is as long as before up to any place in it, the line feed at its end apart. -/
theorem takeWhile_reverse_withReturns (front : List UInt8) :
    (withReturns front).reverse.takeWhile (· ≠ 10) = front.reverse.takeWhile (· ≠ 10) := by
  rw [withReturns, List.reverse_flatMap]
  generalize front.reverse = back
  induction back with
  | nil => rfl
  | cons b back ih =>
    by_cases feed : b = 10
    · subst feed
      rfl
    · simpa [feed] using ih

private theorem count_withReturns (front : List UInt8) :
    (withReturns front).count 10 = front.count 10 := by
  induction front with
  | nil => rfl
  | cons b front ih =>
    by_cases feed : b = 10
    · subst feed
      simp [ih]
    · simp [feed, ih]

/-- The place before a byte that stands for no character is the same. -/
theorem byteSpan_withReturns (path : Path) (front rest : List UInt8) :
    byteSpan path (withReturns (front ++ rest)) (withReturns front).length =
      byteSpan path (front ++ rest) front.length := by
  simp only [byteSpan, Text.withReturns_append, List.take_left, count_withReturns,
    takeWhile_reverse_withReturns]

private theorem Source.read_withReturns (path : Path) (free : 13 ∉ bytes) :
    Source.read path (withReturns bytes) = Source.read path bytes := by
  have encoding := Encoding.ofBytes_withReturns free
  have decoded := (Encoding.ofBytes bytes).decode_withReturns free
  cases before : (Encoding.ofBytes bytes).decode bytes with
  | ok text =>
    rw [before] at decoded
    cases after : (Encoding.ofBytes bytes).decode (withReturns bytes) with
    | error rest =>
      rw [after] at decoded
      cases decoded
    | ok other =>
      rw [after] at decoded
      have same : Text.joinCrLf other = Text.joinCrLf text := Except.ok.inj decoded
      rw [← encoding] at after
      rw [read_of_decode before, read_of_decode after, encoding, same]
  | error rest =>
    rw [before] at decoded
    cases after : (Encoding.ofBytes bytes).decode (withReturns bytes) with
    | ok other =>
      rw [after] at decoded
      cases decoded
    | error left =>
      rw [after] at decoded
      obtain rfl : left = withReturns rest := Except.error.inj decoded
      obtain ⟨front, rfl⟩ := Encoding.isSuffix_of_decode before
      have span := byteSpan_withReturns path front rest
      rw [← encoding] at after
      rw [read_of_fault before, read_of_fault after, encoding]
      simpa [Text.withReturns_append] using span

namespace World

/-- Nothing that a scan comes to or tells depends on how lines end.  Any of the files without
carriage returns may be given one before every line feed. -/
theorem scan_withReturns (w : World) (options : ScanOptions) (path : Path)
    (chosen : Location → Bool)
    (free : ∀ location bytes, chosen location = true → w.node? location = some (.file bytes) →
      13 ∉ bytes) :
    (w.rewrite fun location bytes => if chosen location then withReturns bytes else bytes).scan
      options path = w.scan options path := by
  refine scan_rewrite (fun path => sheet_rewrite fun location bytes _ here => ?_) path
  split
  · next isChosen => rw [Source.read_withReturns path (free location bytes isChosen here)]
  · rfl

/-- The files of the circle, but not the link. -/
theorem scan_withReturns_circle :
    (∀ location bytes, [["a.erl"], ["b.hrl"]].contains location = true →
      circle.node? location = some (.file bytes) → 13 ∉ bytes) ∧
    ((circle.rewrite fun location bytes =>
      if [["a.erl"], ["b.hrl"]].contains location then withReturns bytes else bytes).scan .default
        ⟨.root, ["a.erl"]⟩).outcome = .ok [circle.naming, circle.specification] := by
  have free : ∀ location bytes, [["a.erl"], ["b.hrl"]].contains location = true →
      circle.node? location = some (.file bytes) → 13 ∉ bytes := by
    intro location bytes chosen here
    have either : location = ["a.erl"] ∨ location = ["b.hrl"] := by simpa using chosen
    rcases either with rfl | rfl
    · cases here
      decide +kernel
    · cases here
      decide +kernel
  refine ⟨free, ?_⟩
  rw [scan_withReturns circle .default ⟨.root, ["a.erl"]⟩ _ free]
  exact outcome_scan_circle

end World

end SignatureIndex
