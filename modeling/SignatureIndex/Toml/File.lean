import SignatureIndex.Problem.Basic
import SignatureIndex.Toml.Document

/-!
# TOML files

A document comes as bytes, which must be UTF-8.  A document that is not valid is a problem, which is
told by whoever asked for the document.  One that holds too long a numeral, or values nested too
deeply, is not read any further.
-/

namespace SignatureIndex.Toml

/-- Reads a document from bytes, where `problem` says what it amounts to that it is not valid. -/
def ofBytes (problem : String → Problem) (bytes : List UInt8) : Except Fault Fields :=
  match Text.Utf8.decode bytes with
  | .error _ => .error .undecodable
  | .ok text =>
    match parse text with
    | .ok fields => .ok fields
    | .error (.malformed detail) => .error (.problem (problem detail))
    | .error (.numeral flaw) => .error (.numeral flaw)
    | .error .nesting => .error .nesting

end SignatureIndex.Toml
