import SignatureIndex.Span
import SignatureIndex.TypeScheme

/-!
# Attributes and declarations

A source file is a row of forms.  The forms that start with a dash are *attributes*, a kind and a
text that nobody has looked into yet.  Some of them declare the type of a function or give a type a
name; those become *declarations*, and the rest are kept only as their kind.
-/

namespace SignatureIndex

/-- One attribute: `-kind text.` without the dash and the dot. -/
structure Attribute where
  kind : String
  text : String
  span : Span
  deriving DecidableEq, Repr

/-- What a form of a module declares. -/
inductive Declaration where
  | function (name : String) (arity : Nat) (scheme : TypeScheme) (span : Span)
  | typeName (name : String) (scheme : TypeScheme) (isOpaque : Bool) (span : Span)
  | other (kind : String) (span : Span)
  deriving DecidableEq, Repr

end SignatureIndex
