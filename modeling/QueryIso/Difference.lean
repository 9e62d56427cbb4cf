import QueryIso.Path
import QueryIso.Tree.Display

/-!
# Differences between trees

Where two trees differ when elements are compared in order and identifiers of one kind count as
equal. This is a hint at the reason why trees do not match, not a test of it.
-/

namespace QueryIso

/-- What differs between two nodes. -/
inductive DifferenceKind
  | shape (expected actual : Shape)
  | scalar (expected actual : Scalar)
  | length (expected actual : Nat)
  | missingField (name : String)
  | extraField (name : String)
  deriving DecidableEq

/-- The difference within a message. -/
def DifferenceKind.text : DifferenceKind → String
  | shape expected actual => s!"expected {expected.text}, found {actual.text}"
  | scalar expected actual => s!"expected {expected.display}, found {actual.display}"
  | length expected actual => s!"expected {expected} element(s), found {actual}"
  | missingField name => s!"missing field '{name}'"
  | extraField name => s!"unexpected field '{name}'"

/-- A difference between two trees. -/
structure Difference where
  /-- The way to the nodes that differ, in both trees. -/
  path : Path
  kind : DifferenceKind
  deriving DecidableEq

namespace Difference

/-- A difference of the roots. -/
def here (kind : DifferenceKind) : Difference :=
  ⟨.root, kind⟩

/-- The differences of children as seen from their parents. -/
def under (step : Step) (differences : List Difference) : List Difference :=
  differences.map fun difference => { difference with path := difference.path.under step }

/-- The difference within a message. -/
def text (difference : Difference) : String :=
  s!"at {difference.path.text}: {difference.kind.text}"

end Difference

/-- Whether two scalars are equal or identifiers of one kind. -/
def Scalar.agrees (expected actual : Scalar) : Bool :=
  expected = actual || (expected.idKind?.isSome && expected.idKind? = actual.idKind?)

namespace Tree

mutual

/-- The differences between two trees, those of a node after those of its elements. -/
def differences : Tree → Tree → List Difference
  | .scalar expected, .scalar actual =>
    if expected.agrees actual then [] else [.here (.scalar expected actual)]
  | .sequence expected, .sequence actual =>
    itemDifferences 0 expected actual ++
      if expected.length = actual.length then []
      else [.here (.length expected.length actual.length)]
  | .record expected, .record actual =>
    fieldDifferences expected actual ++
      (actual.names.filter fun name => (expected.get? name).isNone).map
        fun name => .here (.extraField name)
  | expected, actual => [.here (.shape expected.shape actual.shape)]

/-- The differences between elements from a position on, as far as both sequences go. -/
def itemDifferences (position : Nat) : List Tree → List Tree → List Difference
  | expected :: rest, actual :: others =>
    Difference.under (.index position) (expected.differences actual) ++
      itemDifferences (position + 1) rest others
  | _, _ => []

/-- The differences between expected fields and those of another record. -/
def fieldDifferences {bound : Option String} :
    Entries Tree bound → Dict Tree → List Difference
  | .nil, _ => []
  | .cons name _ expected rest, actual =>
    (match actual.get? name with
      | some value => Difference.under (.field name) (expected.differences value)
      | none => [.here (.missingField name)]) ++
      fieldDifferences rest actual

end

end Tree

end QueryIso
