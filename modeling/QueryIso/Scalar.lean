import QueryIso.Binary64
import QueryIso.Identifier

/-!
# Scalars

The atomic values of a tree. Floating point values are compared by their bits.
-/

namespace QueryIso

/-- An atomic value. -/
inductive Scalar
  | null
  | bool (value : Bool)
  | integer (value : Int64)
  | float (value : Binary64)
  | str (text : String)
  deriving DecidableEq

namespace Scalar

/-- The text of a string. -/
def str? : Scalar → Option String
  | str text => some text
  | _ => none

/-- The kind of an identifier. Only strings are identifiers. -/
def idKind? : Scalar → Option IdKind
  | str text => IdKind.of? text
  | _ => none

/-- An unsigned number: an integer where the signed range has it, the nearest floating point value
above. -/
def ofUnsigned (n : UInt64) : Scalar :=
  if n < 0x8000000000000000 then integer n.toInt64 else float (.ofNat n.toNat)

end Scalar

end QueryIso
