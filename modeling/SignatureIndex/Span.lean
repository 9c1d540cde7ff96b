/-!
# Spans

A stretch of a file, from one line and column to another, both ends included.
-/

namespace SignatureIndex

/-- Where in a file something stands.  Lines and columns count from one; zeros stand for no
place. -/
structure Span where
  file : String
  startLine : Int
  startColumn : Int
  endLine : Int
  endColumn : Int
  deriving DecidableEq, Repr

namespace Span

/-- The span of something that was not read from a file. -/
def unknown : Span := ⟨"<unknown>", 0, 0, 0, 0⟩

def toString (span : Span) : String := s!"{span.file}:{span.startLine}:{span.startColumn}"

instance : ToString Span := ⟨Span.toString⟩

end Span

end SignatureIndex
