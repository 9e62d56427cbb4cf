import QueryIso.Isomorphism.Search

/-!
# Isomorphic trees

Whether two trees are equal up to the order of elements and the names of identifiers, and by which
renaming. The search never unbinds what a sequence has bound, so a positive verdict is certain, and
a negative one may miss a renaming that another pairing of some sequence would have allowed.
-/

namespace QueryIso

/-- Searches for a renaming. Both trees are walked once, within the depth limit, before the search:
it is spared when their numbers of identifiers differ. -/
def Tree.search (limits : Limits) (expected actual : Tree) : SearchM (Option Bindings) := do
  let expectedCensus ← expected.census limits
  let actualCensus ← actual.census limits
  if expectedCensus ≠ actualCensus then
    SearchM.tell (.countsDiffer expectedCensus actualCensus)
    return none
  else
    let (verdict, bindings) ← expected.matchWith limits actual 0 .empty
    SearchM.tell (.concluded verdict (← get).steps bindings.length)
    return if verdict then some bindings else none

/-- The outcome of a comparison and what the search did. -/
structure Run where
  outcome : Except MatchError (Option Bindings)
  /-- The number of pairs of nodes compared. -/
  steps : Nat
  /-- The events in order. -/
  events : List Event

/-- Compares two trees within limits. -/
def Run.of (limits : Limits) (expected actual : Tree) : Run :=
  let (outcome, progress) := (expected.search limits actual).run.run {}
  { outcome, steps := progress.steps, events := progress.log.reverse }

namespace Tree

/-- The bindings by which two trees are isomorphic, if the search finds them within limits. -/
def bindingsWithin (limits : Limits) (expected actual : Tree) :
    Except MatchError (Option Bindings) :=
  (Run.of limits expected actual).outcome

/-- The bindings by which two trees are isomorphic, if the search finds them. -/
def bindings? (expected actual : Tree) : Option Bindings :=
  match bindingsWithin .unlimited expected actual with
  | .ok found => found
  | .error _ => none

/-- Whether the search finds two trees isomorphic. -/
def isomorphic (expected actual : Tree) : Bool :=
  (expected.bindings? actual).isSome

end Tree

/-- The least limits within which a comparison has an outcome. -/
structure Cost where
  steps : Nat
  depth : Nat
  deriving DecidableEq

/-- The cost of a comparison, unless it takes more steps than `most`. -/
def Cost.of? (most : Nat) (expected actual : Tree) : Option Cost :=
  let run := Run.of { depth := none, steps := some most } expected actual
  match run.outcome with
  | .ok _ => some { steps := run.steps, depth := max expected.depth actual.depth }
  | .error _ => none

end QueryIso
