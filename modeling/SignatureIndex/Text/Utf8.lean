/-!
# UTF-8

Bytes are read one sequence at a time.  A sequence is a lead byte and the continuation bytes that
the lead asks for; the first of them may be confined to a narrower range, which keeps out
surrogates, code points past the last one, and long spellings of short ones.  A faulty sequence is
the lead byte with the continuation bytes that could still have belonged to it.

Strict decoding reports what is left from the first faulty sequence on; lenient decoding puts one
replacement character for each.
-/

namespace SignatureIndex.Text.Utf8

/-- What reading one sequence gives: a character, or a fault; and the bytes after it. -/
inductive Reading where
  | char (c : Char) (rest : List UInt8)
  | fault (rest : List UInt8)
  deriving DecidableEq

def Reading.rest : Reading → List UInt8
  | .char _ rest => rest
  | .fault rest => rest

/-- What a lead byte asks for. -/
structure Shape where
  /-- The bits that the lead contributes. -/
  payload : Nat
  /-- The range of the first continuation byte. -/
  low : UInt8
  high : UInt8
  /-- The number of continuation bytes after the first. -/
  further : Nat

/-- The shape that a byte past ASCII leads, if it is a lead byte. -/
def shape? (lead : UInt8) : Option Shape :=
  if lead < 0xC2 then none
  else if lead < 0xE0 then some ⟨lead.toNat - 0xC0, 0x80, 0xBF, 0⟩
  -- A lower continuation byte would spell a code point that two bytes can spell.
  else if lead = 0xE0 then some ⟨0, 0xA0, 0xBF, 1⟩
  -- A higher one would spell a surrogate.
  else if lead = 0xED then some ⟨0xD, 0x80, 0x9F, 1⟩
  else if lead < 0xF0 then some ⟨lead.toNat - 0xE0, 0x80, 0xBF, 1⟩
  else if lead = 0xF0 then some ⟨0, 0x90, 0xBF, 2⟩
  else if lead < 0xF4 then some ⟨lead.toNat - 0xF0, 0x80, 0xBF, 2⟩
  else if lead = 0xF4 then some ⟨4, 0x80, 0x8F, 2⟩
  else none

/-- Reads `further` continuation bytes on top of the bits collected so far. -/
def continuation : (further code : Nat) → List UInt8 → Reading
  | 0, code, bytes => .char (Char.ofNat code) bytes
  | _ + 1, _, [] => .fault []
  | further + 1, code, b :: bytes =>
    if 0x80 ≤ b ∧ b ≤ 0xBF then continuation further (code * 64 + (b.toNat - 0x80)) bytes
    else .fault (b :: bytes)

/-- Reads the sequence that `lead` starts. -/
def read (lead : UInt8) (bytes : List UInt8) : Reading :=
  if lead < 0x80 then .char (Char.ofNat lead.toNat) bytes
  else
    match shape? lead, bytes with
    | none, _ => .fault bytes
    | some _, [] => .fault []
    | some shape, b :: bytes =>
      if shape.low ≤ b ∧ b ≤ shape.high then
        continuation shape.further (shape.payload * 64 + (b.toNat - 0x80)) bytes
      else .fault (b :: bytes)

/-- Continuation bytes are only taken away. -/
theorem length_continuation_le (further code : Nat) (bytes : List UInt8) :
    (continuation further code bytes).rest.length ≤ bytes.length := by
  fun_induction continuation further code bytes with
  | case3 _ _ _ _ _ ih => simp only [List.length_cons]; omega
  | _ => simp [Reading.rest]

/-- Reading a sequence leaves at most what followed its lead byte. -/
theorem length_read_le (lead : UInt8) (bytes : List UInt8) :
    (read lead bytes).rest.length ≤ bytes.length := by
  unfold read
  split
  · -- The lead byte is a character of its own.
    simp [Reading.rest]
  · split
    · -- It leads nothing.
      simp [Reading.rest]
    · -- Nothing follows it.
      simp [Reading.rest]
    · -- It asks for continuation bytes.
      next shape b bytes _ =>
      split
      · have := length_continuation_le shape.further (shape.payload * 64 + (b.toNat - 0x80)) bytes
        simp only [List.length_cons]
        omega
      · simp [Reading.rest]

/-- The characters of the bytes, or the bytes from the first faulty sequence on. -/
def decode : List UInt8 → Except (List UInt8) (List Char)
  | [] => .ok []
  | b :: bytes =>
    match read b bytes, length_read_le b bytes with
    | .char c rest, (_shorter : rest.length ≤ bytes.length) => (decode rest).map (c :: ·)
    | .fault _, _ => .error (b :: bytes)
termination_by bytes => bytes.length

/-- The character that stands for bytes which encode none. -/
def replacement : Char := '\ufffd'

/-- The characters of the bytes, with the replacement character for each faulty sequence. -/
def decodeLenient : List UInt8 → List Char
  | [] => []
  | b :: bytes =>
    match read b bytes, length_read_le b bytes with
    | .char c rest, (_shorter : rest.length ≤ bytes.length) => c :: decodeLenient rest
    | .fault rest, (_shorter : rest.length ≤ bytes.length) => replacement :: decodeLenient rest
termination_by bytes => bytes.length

def encode (text : String) : List UInt8 := text.toUTF8.data.toList

/-- Strict decoding of a sequence that holds a character. -/
theorem decode_cons_char {b : UInt8} {bytes rest : List UInt8} {c : Char}
    (reading : read b bytes = .char c rest) :
    decode (b :: bytes) = (decode rest).map (c :: ·) := by
  rw [decode]
  split <;> simp_all

/-- Strict decoding of a faulty sequence. -/
theorem decode_cons_fault {b : UInt8} {bytes rest : List UInt8}
    (reading : read b bytes = .fault rest) : decode (b :: bytes) = .error (b :: bytes) := by
  rw [decode]
  split <;> simp_all

end SignatureIndex.Text.Utf8
