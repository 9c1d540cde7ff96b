import SignatureIndex.Proofs.DisplayedLines
import SignatureIndex.Proofs.Outcomes

/-!
# Positions of bytes

Where bytes stand for no character there is no text to count in, so the place is counted in the
bytes themselves.  Positions are counted in the characters of the text, after the pairs of a
carriage return and a line feed have been joined.  Both count the same lines, for nothing but a byte
of ten stands for a line feed, and joining pairs takes no line feed away.  They count the same
columns as long as every byte of the line stands for a character of its own.  So the first byte that
stands for no character is placed where a character of ASCII would be in its stead.
-/

namespace SignatureIndex

namespace Text

/-- Whether bytes stand for a character, as far as lines and columns can tell: a byte of ASCII for
the character of its number, others for any but a line feed. -/
inductive Spells : List UInt8 → Char → Prop
  | ascii {b : UInt8} : b < 0x80 → Spells [b] (Char.ofNat b.toNat)
  | further {sequence : List UInt8} {c : Char} : sequence ≠ [] →
      (∀ b ∈ sequence, 0x80 ≤ b) → c ≠ '\n' → Spells sequence c

/-- Whether bytes stand for the characters of a text one after the other. -/
inductive Spelled : List UInt8 → List Char → Prop
  | nil : Spelled [] []
  | cons {sequence bytes : List UInt8} {c : Char} {text : List Char} : Spells sequence c →
      Spelled bytes text → Spelled (sequence ++ bytes) (c :: text)

variable {bytes sequence front back rest : List UInt8} {text : List Char} {b : UInt8} {c : Char}

/-! ## Lines of a spelling -/

theorem ofNat_ne_feed (other : b ≠ 10) : Char.ofNat b.toNat ≠ '\n' :=
  Utf8.ofNat_ne (fun same => other (UInt8.toNat_inj.mp same)) (by decide)

private theorem Spells.count_eq (spells : Spells sequence c) :
    sequence.count 10 = [c].count '\n' := by
  cases spells with
  | @ascii b =>
    by_cases feed : b = 10
    · subst feed
      rfl
    · rw [List.count_eq_zero_of_not_mem (by simpa using Ne.symm feed),
        List.count_eq_zero_of_not_mem (by simpa using (ofNat_ne_feed feed).symm)]
  | further some high other =>
    rw [List.count_eq_zero_of_not_mem fun feed => absurd (high 10 feed) (by decide),
      List.count_eq_zero_of_not_mem (by simpa using other.symm)]

/-- Only a byte of ten stands for a line feed. -/
theorem Spells.eq_feed (spells : Spells sequence '\n') : sequence = [10] := by
  generalize feed : '\n' = c at spells
  cases spells with
  | @ascii b =>
    by_contra other
    exact ofNat_ne_feed (fun same => other (by rw [same])) feed.symm
  | further some high other => exact absurd feed.symm other

namespace Spelled

/-- Bytes have as many line feeds as the text they stand for. -/
theorem count_eq (spelled : Spelled bytes text) : bytes.count 10 = text.count '\n' := by
  induction spelled with
  | nil => rfl
  | @cons sequence bytes c text spells _ ih =>
    rw [List.count_append, spells.count_eq, ih, ← List.count_append, List.singleton_append]

/-- The bytes of a text in two parts have a part for each. -/
theorem exists_append {early late : List Char} (spelled : Spelled bytes (early ++ late)) :
    ∃ front back, bytes = front ++ back ∧ Spelled front early ∧ Spelled back late := by
  induction early generalizing bytes with
  | nil => exact ⟨[], bytes, rfl, .nil, spelled⟩
  | cons c early ih =>
    obtain _ | ⟨spells, later⟩ := spelled
    obtain ⟨front, back, rfl, first, second⟩ := ih later
    exact ⟨_, back, (List.append_assoc _ _ _).symm, .cons spells first, second⟩

private theorem getLast?_eq_feed {early : List Char} (spelled : Spelled bytes early)
    (closed : ∀ c ∈ early.getLast?, c = '\n') : ∀ b ∈ bytes.getLast?, b = 10 := by
  rcases List.eq_nil_or_concat early with rfl | ⟨before, d, rfl⟩
  · cases spelled
    simp
  · obtain rfl : d = '\n' := closed d (by simp)
    rw [List.concat_eq_append] at spelled
    obtain ⟨front, back, rfl, -, ending⟩ := spelled.exists_append
    obtain _ | ⟨spells, nothing⟩ := ending
    cases nothing
    rw [spells.eq_feed]
    simp

/-- A line of ASCII has a byte for each character. -/
theorem length_eq (spelled : Spelled bytes text) (ascii : ∀ b ∈ bytes, b < 0x80) :
    bytes.length = text.length := by
  induction spelled with
  | nil => rfl
  | @cons sequence bytes c text spells _ ih =>
    obtain ⟨here, later⟩ := List.forall_mem_append.mp ascii
    cases spells with
    | ascii => simp [ih later]
    | further some high =>
      obtain ⟨b, among⟩ := List.exists_mem_of_ne_nil _ some
      exact absurd (here b among) (UInt8.not_lt.mpr (high b among))

/-- As many bytes follow the last line feed as characters do in the text, if these bytes are
ASCII. -/
theorem length_takeWhile_eq (spelled : Spelled bytes text)
    (ascii : ∀ b ∈ bytes.reverse.takeWhile (· ≠ 10), b < 0x80) :
    (bytes.reverse.takeWhile (· ≠ 10)).length = sinceBreak (· == '\n') text := by
  obtain ⟨early, line, rfl, closed, free⟩ := exists_parts_sinceBreak (· == '\n') text
  -- the bytes are cut where the text is
  obtain ⟨front, back, rfl, first, second⟩ := spelled.exists_append
  have noFeed : line.count '\n' = 0 := List.count_eq_zero.mpr fun among => by
    simpa using free _ among
  have closedFront : ∀ b ∈ front.getLast?, decide (b ≠ 10) = false := fun b ends => by
    simpa using first.getLast?_eq_feed (fun c ends => by simpa using closed c ends) b ends
  have freeBack : ∀ b ∈ back, decide (b ≠ 10) = true := by
    rw [← second.count_eq, List.count_eq_zero] at noFeed
    exact fun b among => by simpa using fun feed : b = 10 => noFeed (feed ▸ among)
  rw [takeWhile_reverse_append closedFront freeBack] at ascii ⊢
  rw [sinceBreak_append closed free, List.length_reverse,
    second.length_eq fun b among => ascii b (List.mem_reverse.mpr among)]

end Spelled

/-- Joining pairs leaves the last line as it is. -/
theorem sinceBreak_joinCrLf (text : List Char) :
    sinceBreak (· == '\n') (joinCrLf text) = sinceBreak (· == '\n') text := by
  obtain ⟨early, line, rfl, closed, free⟩ := exists_parts_sinceBreak (· == '\n') text
  have noFeed : '\n' ∉ line := fun among => by simpa using free _ among
  have apart : early.getLast? ≠ some '\r' := fun ends => absurd (closed _ ends) (by decide)
  rw [joinCrLf_append_of_apart (.inr apart), joinCrLf_of_not_mem noFeed,
    sinceBreak_append closed free,
    sinceBreak_append (fun c ends => closed c (getLast?_joinCrLf early ▸ ends)) free]

/-! ## Decoding a part -/

namespace Utf8

/-- The continuation bytes that are taken are taken whatever comes after them. -/
theorem exists_taken_of_continuation {further code : Nat}
    (reading : continuation further code bytes = .char c rest) : ∃ taken, bytes = taken ++ rest ∧
      (∀ b ∈ taken, 0x80 ≤ b) ∧ ∀ more, continuation further code (taken ++ more) =
        .char c more := by
  fun_induction continuation further code bytes with
  | case1 code bytes =>
    cases reading
    exact ⟨[], rfl, by simp, fun more => by rw [continuation, List.nil_append]⟩
  | case2 => cases reading
  | case3 further code b bytes inside ih =>
    obtain ⟨taken, rfl, high, again⟩ := ih reading
    refine ⟨b :: taken, rfl, List.forall_mem_cons.mpr ⟨inside.1, high⟩, fun more => ?_⟩
    rw [List.cons_append, continuation, if_pos inside, again]
  | case4 => cases reading

/-- A sequence stands for a character, and is read whatever comes after it. -/
theorem exists_taken_of_read {lead : UInt8} (reading : read lead bytes = .char c rest) :
    ∃ taken, bytes = taken ++ rest ∧ Spells (lead :: taken) c ∧
      ∀ more, read lead (taken ++ more) = .char c more := by
  unfold read at reading
  split at reading
  next ascii =>
    cases reading
    refine ⟨[], rfl, .ascii ascii, fun more => ?_⟩
    unfold read
    rw [if_pos ascii, List.nil_append]
  next notAscii =>
    split at reading
    · cases reading
    · cases reading
    next shape b bytes leads =>
      split at reading
      next inside =>
        obtain ⟨total, more, rfl⟩ := le_of_continuation reading
        obtain ⟨taken, rfl, highTaken, again⟩ := exists_taken_of_continuation reading
        obtain ⟨lowest, large⟩ := le_of_shape? leads
        have low := UInt8.le_iff_toNat_le.mp inside.1
        have high : ∀ a ∈ lead :: b :: taken, 0x80 ≤ a := List.forall_mem_cons.mpr
          ⟨UInt8.not_lt.mp notAscii,
            List.forall_mem_cons.mpr ⟨UInt8.le_trans lowest inside.1, highTaken⟩⟩
        -- the bits of the lead and the first continuation byte alone make more than a line feed
        have other : Char.ofNat total ≠ '\n' := ofNat_ne (show total ≠ 10 by omega) (by decide)
        refine ⟨b :: taken, rfl, .further (List.cons_ne_nil _ _) high other, fun more => ?_⟩
        unfold read
        rw [if_neg notAscii, leads]
        dsimp only [List.cons_append]
        rw [if_pos inside, again]
      · cases reading

theorem spelled_of_decode (decoded : decode bytes = .ok text) : Spelled bytes text := by
  induction bytes using decode.induct generalizing text with
  | case1 =>
    rw [decode] at decoded
    cases decoded
    exact .nil
  | case2 b bytes c rest shorter reading ih =>
    rw [decode_cons_char reading] at decoded
    obtain ⟨later, decodedLater, rfl⟩ := map_eq_ok_iff.mp decoded
    obtain ⟨taken, rfl, spells, -⟩ := exists_taken_of_read reading
    exact .cons spells (ih decodedLater)
  | case3 b bytes rest shorter reading =>
    rw [decode_cons_fault reading] at decoded
    cases decoded

/-- Bytes that all stand for characters are decoded by themselves. -/
theorem decode_append (decoded : decode front = .ok text) (back : List UInt8) :
    decode (front ++ back) = (decode back).map (text ++ ·) := by
  induction front using decode.induct generalizing text with
  | case1 =>
    rw [decode] at decoded
    cases decoded
    rw [List.nil_append]
    cases decode back <;> rfl
  | case2 b bytes c rest shorter reading ih =>
    rw [decode_cons_char reading] at decoded
    obtain ⟨later, decodedLater, rfl⟩ := map_eq_ok_iff.mp decoded
    obtain ⟨taken, rfl, -, again⟩ := exists_taken_of_read reading
    -- the sequence ends before what is put behind
    have next : read b (taken ++ (rest ++ back)) = .char c (rest ++ back) := again _
    rw [List.cons_append, List.append_assoc, decode_cons_char next, ih decodedLater]
    cases decode back <;> rfl
  | case3 b bytes rest shorter reading =>
    rw [decode_cons_fault reading] at decoded
    cases decoded

private theorem decode_singleton (ascii : b < 0x80) : decode [b] = .ok [Char.ofNat b.toNat] := by
  have reading : read b [] = .char (Char.ofNat b.toNat) [] := by
    unfold read
    rw [if_pos ascii]
  rw [decode_cons_char reading, decode]
  rfl

/-- What comes before the first faulty sequence all stands for characters, and the sequence is
faulty wherever it stands. -/
theorem exists_front_of_decode (failed : decode bytes = .error rest) :
    ∃ front text, bytes = front ++ rest ∧ decode front = .ok text ∧ rest ≠ [] ∧
    decode rest = .error rest := by
  induction bytes using decode.induct with
  | case1 =>
    rw [decode] at failed
    cases failed
  | case2 b bytes c after shorter reading ih =>
    rw [decode_cons_char reading] at failed
    obtain ⟨front, text, rfl, decoded, faulty⟩ := ih (map_eq_error_iff.mp failed)
    obtain ⟨taken, rfl, -, again⟩ := exists_taken_of_read reading
    refine ⟨b :: (taken ++ front), c :: text, by simp, ?_, faulty⟩
    rw [decode_cons_char (again front), decoded]
    rfl
  | case3 b bytes after shorter reading =>
    have faulty := decode_cons_fault reading
    rw [faulty] at failed
    cases failed
    exact ⟨[], [], rfl, by rw [decode], List.cons_ne_nil b bytes, faulty⟩

/-- Nothing that goes on into a faulty sequence can be decoded. -/
theorem eq_nil_of_decode (faulty : decode (front ++ back) = .error (front ++ back))
    (decoded : decode front = .ok text) : front = [] := by
  rw [decode_append decoded] at faulty
  have shorter := (isSuffix_of_decode (map_eq_error_iff.mp faulty)).length_le
  rw [List.length_append] at shorter
  exact List.eq_nil_of_length_eq_zero (by omega)

/-- What comes before the first faulty sequence is the longest part at the front that can be
decoded. -/
theorem prefix_of_decode (decoded : decode front = .ok text) (faulty : decode rest = .error rest)
    {longer : List UInt8} {other : List Char} (upTo : longer <+: front ++ rest)
    (decodedLonger : decode longer = .ok other) :
    longer <+: front := by
  obtain ⟨left, parts⟩ := upTo
  rcases List.append_eq_append_iff.mp parts with ⟨taken, same, -⟩ | ⟨taken, rfl, rfl⟩
  · exact ⟨taken, same.symm⟩
  · -- anything longer would go on into the faulty sequence
    rw [decode_append decoded] at decodedLonger
    obtain ⟨more, decodedTaken, -⟩ := map_eq_ok_iff.mp decodedLonger
    obtain rfl := eq_nil_of_decode faulty decodedTaken
    exact ⟨[], by rw [List.append_nil, List.append_nil]⟩

end Utf8

end Text

open Text (Spells Spelled joinCrLf sinceBreak)

variable {bytes front : List UInt8} {text back : List Char} {last : UInt8}

namespace Encoding

private theorem spelled_of_decode {encoding : Encoding}
    (decoded : encoding.decode bytes = .ok text) : Spelled bytes text := by
  cases encoding with
  | utf8 => exact Text.Utf8.spelled_of_decode decoded
  | latin1 =>
    cases decoded
    induction bytes with
    | nil => exact .nil
    | cons b bytes ih =>
      have spells : Spells [b] (Char.ofNat b.toNat) := by
        by_cases ascii : b < 0x80
        · exact .ascii ascii
        · have high := UInt8.not_lt.mp ascii
          refine .further (List.cons_ne_nil b []) (by simpa using high) (Text.ofNat_ne_feed ?_)
          rintro rfl
          exact absurd high (by decide)
      exact .cons spells ih

/-- A byte of ASCII after bytes that are decodable as UTF-8 is a character of its own, also if it
completes the name of another encoding. -/
theorem exists_decode_append (encoding : Encoding) (decoded : Text.Utf8.decode front = .ok text)
    (ascii : last < 0x80) : ∃ text, Spelled front text ∧ encoding.decode (front ++ [last]) =
      .ok (text ++ [Char.ofNat last.toNat]) := by
  cases encoding with
  | utf8 =>
    refine ⟨text, Text.Utf8.spelled_of_decode decoded, ?_⟩
    rw [decode, Text.Utf8.decode_append decoded, Text.Utf8.decode_singleton ascii]
    rfl
  | latin1 =>
    have alone : latin1.decode front = .ok (front.map fun b => Char.ofNat b.toNat) := rfl
    refine ⟨_, spelled_of_decode alone, ?_⟩
    rw [decode, List.map_append, List.map_singleton]

end Encoding

/-- Bytes that are decodable as UTF-8 can be read as a source with a character of ASCII after them,
which stands alone unless it is a line feed. -/
theorem Source.exists_ofBytes_append (decoded : Text.Utf8.decode front = .ok text)
    (ascii : last < 0x80) (other : last ≠ 10) (path : Path) :
    ∃ source text, Source.ofBytes path (front ++ [last]) = .ok source ∧
      source.path = path ∧ Spelled front text ∧
      source.content = joinCrLf text ++ [Char.ofNat last.toNat] := by
  obtain ⟨text, spelled, decodedLast⟩ :=
    (Encoding.ofBytes (front ++ [last])).exists_decode_append decoded ascii
  have noFeed : Char.ofNat last.toNat ≠ '\n' := Text.ofNat_ne_feed other
  have alone : joinCrLf [Char.ofNat last.toNat] = [Char.ofNat last.toNat] :=
    Text.joinCrLf_of_not_mem (by simpa using noFeed.symm)
  have joined :
      joinCrLf (text ++ [Char.ofNat last.toNat]) = joinCrLf text ++ [Char.ofNat last.toNat] := by
    rw [Text.joinCrLf_append_of_apart (.inl (by simpa using noFeed)), alone]
  refine ⟨⟨path, Encoding.ofBytes (front ++ [last]), joinCrLf (text ++ [Char.ofNat last.toNat])⟩,
    text, ?_, rfl, spelled, joined⟩
  simp only [Source.ofBytes, decodedLast, Except.map]

/-- What follows a joined text is as many lines and columns into a source as the text has before
pairs are joined. -/
theorem Source.position_of_joinCrLf {source : Source}
    (parts : source.content = joinCrLf text ++ back) :
    source.position (joinCrLf text).length =
      (text.count '\n' + 1, sinceBreak (· == '\n') text + 1) := by
  have within : (joinCrLf text).length ≤ source.content.length := by
    rw [parts, List.length_append]
    exact Nat.le_add_right _ _
  rw [Source.position_eq within, parts, List.take_left, Text.count_joinCrLf,
    Text.sinceBreak_joinCrLf]

section Agreement

variable {source : Source} (spelled : Spelled front text)
    (parts : source.content = joinCrLf text ++ back)
include spelled parts

/-- A byte is on the line that the source gives to what stands there in its stead. -/
theorem startLine_byteSpan (path : Path) (rest : List UInt8) :
    (byteSpan path (front ++ rest) front.length).startLine =
      (source.position (joinCrLf text).length).1 := by
  simp only [byteSpan, List.take_left, spelled.count_eq, Source.position_of_joinCrLf parts]

private theorem byteSpan_eq_of_ascii (ascii : ∀ b ∈ front.reverse.takeWhile (· ≠ 10), b < 0x80)
    (rest : List UInt8) : byteSpan source.path (front ++ rest) front.length =
      source.span (joinCrLf text).length ((joinCrLf text).length + 1) := by
  have next : ((joinCrLf text).length : Int) + 1 = ((joinCrLf text).length + 1 : Nat) :=
    (Int.natCast_succ _).symm
  have final : max (joinCrLf text).length ((joinCrLf text).length + 1 - 1) =
      (joinCrLf text).length := by omega
  simp only [next, Source.span_natCast, final, Source.position_of_joinCrLf parts, byteSpan,
    List.take_left, spelled.count_eq, spelled.length_takeWhile_eq ascii]

end Agreement

/-- The two ways of counting agree.  In bytes that are no UTF-8, a longest part at the front is
decodable, and what is reported is the place of the byte after it.  A file that goes on from that
part with one character of ASCII, which does not end the line, can be read, and numbers the line of
its last character as that of the byte, however lines end and whatever characters there are.  The
column is the same as well if the bytes before it on that line are ASCII. -/
theorem byteSpan_eq_span (faulty : ∀ text, Text.Utf8.decode bytes ≠ .ok text) : ∃ front rest,
    bytes = front ++ rest ∧ rest ≠ [] ∧ (∃ text, Text.Utf8.decode front = .ok text) ∧
    (∀ longer text, longer <+: bytes → Text.Utf8.decode longer = .ok text → longer <+: front) ∧
    (∀ path, Encoding.ofBytes bytes = .utf8 → Source.read path bytes =
      .error (.undecodable path .utf8 (byteSpan path bytes front.length))) ∧
    ∀ path, ∀ last : UInt8, last < 0x80 → last ≠ 10 → ∃ source offset,
      Source.ofBytes path (front ++ [last]) = .ok source ∧ source.content.length = offset + 1 ∧
      source.content[offset]? = some (Char.ofNat last.toNat) ∧
      (byteSpan path bytes front.length).startLine = (source.position offset).1 ∧
      (byteSpan path bytes front.length).endLine = (source.position offset).1 ∧
      ((∀ b ∈ front.reverse.takeWhile (· ≠ 10), b < 0x80) →
        byteSpan path bytes front.length = source.span offset (offset + 1)) := by
  cases failed : Text.Utf8.decode bytes with
  | ok text => exact absurd failed (faulty text)
  | error rest =>
  obtain ⟨front, text, rfl, decoded, filled, again⟩ := Text.Utf8.exists_front_of_decode failed
  refine ⟨front, rest, rfl, filled, ⟨text, decoded⟩, ?_, ?_, ?_⟩
  · exact fun longer other upTo decodedLonger =>
      Text.Utf8.prefix_of_decode decoded again upTo decodedLonger
  · intro path utf8
    have failedHere : (Encoding.ofBytes (front ++ rest)).decode (front ++ rest) = .error rest := by
      rw [utf8]
      exact failed
    rw [Source.read_of_fault failedHere, utf8, List.length_append, Nat.add_sub_cancel_right]
  · intro path last ascii other
    -- the file that goes on from the decodable part has one more character, at the place of the
    -- byte
    obtain ⟨source, text, read, rfl, spelled, parts⟩ :=
      Source.exists_ofBytes_append decoded ascii other path
    refine ⟨source, (joinCrLf text).length, read, by simp [parts], by simp [parts],
      startLine_byteSpan spelled parts source.path rest,
      startLine_byteSpan spelled parts source.path rest,
      fun ascii => byteSpan_eq_of_ascii spelled parts ascii rest⟩

/-- A letter of two bytes on a line that ends in a pair, and one of ASCII on the next. -/
def accented : List UInt8 := [0xC3, 0xA9, 13, 10, 97]

theorem byteSpan_eq_span_accented : (∀ text, Text.Utf8.decode (accented ++ [0xFF]) ≠ .ok text) ∧
    ∃ source offset, Source.ofBytes (Path.ofString "m.erl") (accented ++ [33]) = .ok source ∧
      source.content[offset]? = some '!' ∧ (source.position offset).1 = 2 ∧
      source.span offset (offset + 1) = ⟨"m.erl", 2, 2, 2, 2⟩ := by
  have decoded : Text.Utf8.decode accented = .ok ['é', '\r', '\n', 'a'] := by
    rw [accented, Text.Utf8.decode_cons_char rfl, Text.Utf8.decode_cons_char rfl,
      Text.Utf8.decode_cons_char rfl, Text.Utf8.decode_cons_char rfl, Text.Utf8.decode]
    rfl
  have faulty : ∀ text, Text.Utf8.decode (accented ++ [0xFF]) ≠ .ok text := by
    intro text whole
    rw [Text.Utf8.decode_append decoded, Text.Utf8.decode_cons_fault rfl] at whole
    cases whole
  obtain ⟨front, rest, parts, filled, -, longest, -, agrees⟩ := byteSpan_eq_span faulty
  -- one byte is left over, so nothing but the last is faulty
  obtain ⟨more, rfl⟩ := longest accented _ (List.prefix_append _ _) decoded
  obtain rfl : more = [] := by
    have lengths := congrArg List.length parts
    have left := List.length_pos_iff.mpr filled
    simp only [List.length_append, List.length_singleton] at lengths
    exact List.eq_nil_of_length_eq_zero (by omega)
  rw [List.append_nil] at agrees
  obtain ⟨source, offset, read, -, stands, line, -, span⟩ :=
    agrees (Path.ofString "m.erl") 33 (by decide) (by decide)
  have ascii : ∀ b ∈ accented.reverse.takeWhile (· ≠ 10), b < 0x80 := by
    have line : accented.reverse.takeWhile (· ≠ 10) = [97] := rfl
    rw [line]
    simp
  exact ⟨faulty, source, offset, read, stands, Int.natCast_inj.mp line.symm, by
    rw [← span ascii]; rfl⟩

end SignatureIndex
