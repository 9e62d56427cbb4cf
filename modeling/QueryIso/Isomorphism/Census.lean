import QueryIso.Isomorphism.Limits
import QueryIso.Tree

/-!
# Counting identifiers

A renaming is one to one and keeps kinds, so only trees with equally many distinct identifiers of
each kind can match. The walk that counts them stays within the depth limit.
-/

namespace QueryIso

/-- The numbers of distinct identifiers of each kind. -/
structure Census where
  blankNodes : Nat
  vars : Nat
  deriving DecidableEq

/-- How the kind is written where identifiers are counted. -/
def IdKind.label : IdKind → String
  | blankNode => "BlankNode"
  | var => "Variable"

namespace Census

/-- The number of identifiers of a kind. -/
def number (census : Census) : IdKind → Nat
  | .blankNode => census.blankNodes
  | .var => census.vars

/-- The kinds that occur, each with its number. -/
def entries (census : Census) : List (IdKind × Nat) :=
  ([IdKind.blankNode, .var].map fun kind => (kind, census.number kind)).filter (·.2 ≠ 0)

/-- The numbers of the kinds that occur. -/
def text (census : Census) : String :=
  let present := census.entries.map fun (kind, number) => s!"{kind.label}: {number}"
  "\x7b" ++ ", ".intercalate present ++ "\x7d"

/-- Counts identifiers by kind. -/
def ofIdentifiers (identifiers : Dict IdKind) : Census :=
  let kinds := identifiers.toList.map (·.2)
  { blankNodes := kinds.count .blankNode, vars := kinds.count .var }

end Census

namespace Tree

mutual

/-- Adds the identifiers of a node at a depth to those found before. -/
def gather (limits : Limits) : Tree → Nat → Dict IdKind → Except MatchError (Dict IdKind)
  | .scalar value, depth, found => do
    limits.checkDepth depth
    match value.str?, value.idKind? with
    | some text, some kind => return Dict.insert found text kind
    | _, _ => return found
  | .sequence items, depth, found => do
    limits.checkDepth depth
    gatherItems limits items (depth + 1) found
  | .record fields, depth, found => do
    limits.checkDepth depth
    gatherFields limits fields (depth + 1) found

/-- Adds the identifiers of elements. -/
def gatherItems (limits : Limits) :
    List Tree → Nat → Dict IdKind → Except MatchError (Dict IdKind)
  | [], _, found => return found
  | item :: rest, depth, found => do
    gatherItems limits rest depth (← item.gather limits depth found)

/-- Adds the identifiers of fields. -/
def gatherFields (limits : Limits) {bound : Option String} :
    Entries Tree bound → Nat → Dict IdKind → Except MatchError (Dict IdKind)
  | .nil, _, found => return found
  | .cons _ _ value rest, depth, found => do
    gatherFields limits rest depth (← value.gather limits depth found)

end

/-- Counts the identifiers of a tree within the depth limit. -/
def census (limits : Limits) (tree : Tree) : Except MatchError Census := do
  return .ofIdentifiers (← tree.gather limits 0 .nil)

end Tree

end QueryIso
