import QueryIso.Isomorphism.Event
import QueryIso.Matching

/-!
# Matching trees

Two trees match when they are equal up to the order of elements and a one to one renaming that keeps
kinds. `Tree.matchWith` looks for the renaming from the root down: scalars bind identifiers, the
fields of records are matched in name order, and the elements of sequences in any order by
`Matching.find?`. What a sequence has bound stays bound for its siblings.
-/

namespace QueryIso

/-- What a search has done. -/
structure Progress where
  /-- The number of pairs of nodes compared. -/
  steps : Nat := 0
  /-- The events, the last one first. -/
  log : List Event := []

/-- A search counts its steps, tells its events and ends early at a limit. -/
abbrev SearchM : Type → Type :=
  ExceptT MatchError (StateM Progress)

namespace SearchM

/-- Tells an event. -/
def tell (event : Event) : SearchM Unit :=
  modify fun progress => { progress with log := event :: progress.log }

/-- Counts the comparison of two nodes at a depth and checks the limits, the steps first. -/
def step (limits : Limits) (depth : Nat) : SearchM Unit := do
  modify fun progress => { progress with steps := progress.steps + 1 }
  limits.checkSteps (← get).steps
  limits.checkDepth depth

theorem run_tell (event : Event) (progress : Progress) :
    (tell event).run.run progress = (.ok (), { progress with log := event :: progress.log }) :=
  rfl

/-- The step is counted whether or not a limit ends the search. -/
theorem run_step (limits : Limits) (depth : Nat) (progress : Progress) :
    (step limits depth).run.run progress =
      (limits.checkSteps (progress.steps + 1) >>= fun _ => limits.checkDepth depth,
        { progress with steps := progress.steps + 1 }) := by
  change ExceptT.bindCont (fun _ => (liftM (limits.checkDepth depth) : SearchM Unit))
    (limits.checkSteps (progress.steps + 1)) { progress with steps := progress.steps + 1 } = _
  cases limits.checkSteps (progress.steps + 1) <;> rfl

end SearchM

/-- A verdict on two nodes and the bindings reached. After a negative verdict these hold what was
bound before a pair failed. -/
abbrev Matched : Type :=
  Bool × Bindings

/-- Binds two identifiers. -/
def Bindings.bindM (bindings : Bindings) (expected actual : String) : SearchM Matched := do
  if let some event := bindings.bindEvent? expected actual then
    SearchM.tell event
  return bindings.bind expected actual

/-- Matches two scalars: identifiers of one kind are bound, others have to be equal. -/
def Scalar.matchWith (expected actual : Scalar) (bindings : Bindings) : SearchM Matched :=
  match expected, actual with
  | .str e, .str a =>
    match IdKind.of? e with
    | some kind =>
      if IdKind.of? a = some kind then bindings.bindM e a else return (false, bindings)
    | none => return (e = a, bindings)
  | _, _ => return (expected = actual, bindings)

namespace Tree

/-- The match of some tree with actual ones at a depth. -/
abbrev Matcher : Type :=
  Tree → Nat → Bindings → SearchM Matched

/-- Matches the elements of two sequences at a depth in any order. -/
def matchInAnyOrder (expected : List Matcher) (actual : List Tree) (depth : Nat)
    (bindings : Bindings) : SearchM Matched := do
  let found ← Matching.find?
    (fun matcher candidate bindings => do
      let (verdict, reached) ← matcher candidate depth bindings
      return if verdict then some reached else none)
    (fun candidate left => SearchM.tell (.backtracking candidate left))
    expected actual bindings
  return match found with
    | some reached => (true, reached)
    | none => (false, bindings)

mutual

/-- Matches an expected with an actual node. -/
def matchWith (limits : Limits) : Tree → Matcher
  | .scalar expected, actual, depth, bindings => do
    SearchM.step limits depth
    match actual with
    | .scalar actual => expected.matchWith actual bindings
    | _ => return (false, bindings)
  | .sequence expected, actual, depth, bindings => do
    SearchM.step limits depth
    match actual with
    | .sequence actual =>
      matchInAnyOrder (matchersOf limits expected) actual (depth + 1) bindings
    | _ => return (false, bindings)
  | .record expected, actual, depth, bindings => do
    SearchM.step limits depth
    match actual with
    | .record actual =>
      if expected.length = actual.length then
        matchFields limits expected actual (depth + 1) bindings
      else return (false, bindings)
    | _ => return (false, bindings)

/-- The matches of elements. -/
def matchersOf (limits : Limits) : List Tree → List Matcher
  | [] => []
  | item :: rest => matchWith limits item :: matchersOf limits rest

/-- Matches the fields of two records in name order, up to the first that fails. -/
def matchFields (limits : Limits) {bound : Option String} :
    Entries Tree bound → Dict Tree → Nat → Bindings → SearchM Matched
  | .nil, _, _, bindings => return (true, bindings)
  | .cons name _ expected rest, actual, depth, bindings => do
    match actual.get? name with
    | none => return (false, bindings)
    | some value =>
      let (verdict, reached) ← matchWith limits expected value depth bindings
      if verdict then matchFields limits rest actual depth reached else return (false, reached)

end

theorem matchersOf_eq_map (limits : Limits) (items : List Tree) :
    matchersOf limits items = items.map (matchWith limits) := by
  induction items with
  | nil => rfl
  | cons item rest ih => simp [matchersOf, ih]

end Tree

end QueryIso
