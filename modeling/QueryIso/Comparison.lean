import QueryIso.Difference
import QueryIso.Isomorphism
import QueryIso.Json.Codec

/-!
# Explained comparisons

Compares two trees within the default limits and reports what is wrong when they do not match.
-/

namespace QueryIso

/-- The report of a comparison that found no renaming. -/
structure Mismatch where
  expected : Tree
  actual : Tree
  /-- Where the trees differ. -/
  differences : List Difference
  /-- The limit that ended the comparison without a verdict, if one did. -/
  cause : Option MatchError

namespace Mismatch

/-- The report on two trees. Trees that are too deep are not looked into any further. -/
def of (expected actual : Tree) (cause : Option MatchError) : Mismatch :=
  { expected, actual, cause
    differences := match cause with
      | some (.tooDeep _) => []
      | _ => expected.differences actual }

/-- The first line of the message. -/
def headline (mismatch : Mismatch) : String :=
  match mismatch.cause with
  | some cause => s!"Could not compare trees: {cause.message}"
  | none => "Trees are not isomorphic"

/-- The reasons in the message. Trees without differences only differ in how their identifiers are
used. -/
def reasons (mismatch : Mismatch) : List String :=
  if mismatch.differences.isEmpty ∧ mismatch.cause = none then
    ["identifiers can not be renamed consistently"]
  else mismatch.differences.map Difference.text

/-- A tree within the message: as indented JSON, or on one line if there is no JSON text of it. -/
def treeText (codec : Json.Codec) (tree : Tree) : String :=
  (codec.prettyText tree).getD tree.display

/-- The message of the report, with both trees. -/
def message (codec : Json.Codec) (mismatch : Mismatch) : String :=
  "\n".intercalate
    (mismatch.headline :: mismatch.reasons.map ("- " ++ ·) ++
      ["expected:", treeText codec mismatch.expected, "actual:", treeText codec mismatch.actual])

end Mismatch

/-- Compares two trees within the default limits: the bindings by which they are isomorphic, or the
report on why they are not. -/
def Tree.checkIsomorphic (expected actual : Tree) : Except Mismatch Bindings :=
  match expected.bindingsWithin .default actual with
  | .ok (some bindings) => .ok bindings
  | .ok none => .error (.of expected actual none)
  | .error cause => .error (.of expected actual (some cause))

end QueryIso
