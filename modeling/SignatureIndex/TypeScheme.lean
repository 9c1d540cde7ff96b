/-!
# Type schemes

A type as it was declared: the variables it is generic in, and its body, which is kept as it was
written because only a type checker reads it.
-/

namespace SignatureIndex

/-- A type with the variables it binds. -/
structure TypeScheme where
  tyvars : List String
  body : String
  deriving DecidableEq, Repr

namespace TypeScheme

def arity (scheme : TypeScheme) : Nat := scheme.tyvars.length

/-- Writes a scheme; a scheme without variables is its body. -/
def toString (scheme : TypeScheme) : String :=
  if scheme.tyvars.isEmpty then scheme.body
  else "forall " ++ ", ".intercalate scheme.tyvars ++ ". " ++ scheme.body

instance : ToString TypeScheme := ⟨TypeScheme.toString⟩

end TypeScheme

end SignatureIndex
