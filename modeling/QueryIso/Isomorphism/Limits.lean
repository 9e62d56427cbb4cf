/-!
# Limits of a comparison

Comparing two trees can take a number of steps that grows with the factorial of their size, so a
comparison may be given limits. A limit that is exceeded is not a verdict.
-/

namespace QueryIso

/-- The limits of a comparison. An absent one is never exceeded. -/
structure Limits where
  /-- How many levels below the root the trees may have. -/
  depth : Option Nat
  /-- How many pairs of nodes may be compared, in abandoned branches of the search too. -/
  steps : Option Nat
  deriving DecidableEq

/-- A comparison exceeded one of its limits. -/
inductive MatchError
  | tooDeep (limit : Nat)
  | tooComplex (limit : Nat)
  deriving DecidableEq

/-- The message of the error. -/
def MatchError.message : MatchError → String
  | tooDeep limit => s!"Tree too deep (depth limit set to {limit})"
  | tooComplex limit => s!"Too many comparison steps (limit set to {limit})"

namespace Limits

/-- The limits of a comparison whose mismatch is explained. -/
def default : Limits :=
  { depth := some 256, steps := some 1000000 }

/-- No limit at all. -/
def unlimited : Limits :=
  { depth := none, steps := none }

/-- Fails on a node too far below the root. -/
def checkDepth (limits : Limits) (depth : Nat) : Except MatchError Unit :=
  match limits.depth with
  | none => .ok ()
  | some limit => if depth ≤ limit then .ok () else .error (.tooDeep limit)

/-- Fails after too many steps. -/
def checkSteps (limits : Limits) (steps : Nat) : Except MatchError Unit :=
  match limits.steps with
  | none => .ok ()
  | some limit => if steps ≤ limit then .ok () else .error (.tooComplex limit)

end Limits

end QueryIso
