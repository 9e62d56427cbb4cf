import QueryIso.Bindings
import QueryIso.Isomorphism.Census

/-!
# Events of a comparison

What a comparison tells about its search, in the order in which it happens.
-/

namespace QueryIso

/-- How detailed an event is. -/
inductive Level
  | debug
  | trace
  deriving DecidableEq

/-- Something that happens during a comparison. -/
inductive Event
  /-- An identifier is bound for the first time. -/
  | bound (expected actual : String)
  /-- The expected identifier is bound to another one. -/
  | expectedTaken (expected current actual : String)
  /-- The actual identifier is bound from another one. -/
  | actualTaken (actual other expected : String)
  /-- The elements that are left match in no way once this candidate is taken. -/
  | backtracking (candidate left : Nat)
  /-- The numbers of identifiers rule out a match. -/
  | countsDiffer (expected actual : Census)
  /-- The search ended with a verdict. -/
  | concluded (verdict : Bool) (steps bindings : Nat)
  deriving DecidableEq

namespace Event

/-- How detailed the event is. -/
def level : Event → Level
  | countsDiffer _ _ | concluded _ _ _ => .debug
  | _ => .trace

/-- The message of the event. -/
def text : Event → String
  | bound expected actual => s!"binding {expected} -> {actual}"
  | expectedTaken expected current actual =>
    s!"{expected} is already bound to {current}, not {actual}"
  | actualTaken actual other expected =>
    s!"{actual} is already bound from {other}, not {expected}"
  | backtracking candidate left =>
    s!"backtracking from candidate #{candidate} ({left} element(s) left)"
  | countsDiffer expected actual =>
    s!"not isomorphic: identifier counts differ ({expected.text} vs. {actual.text})"
  | concluded verdict steps bindings =>
    s!"isomorphic: {verdict} ({steps} step(s), {bindings} binding(s))"

/-- What binding two identifiers tells, by how they stand to the table. -/
def ofStanding? (expected actual : String) : Bindings.Standing → Option Event
  | .known => none
  | .fresh => some (.bound expected actual)
  | .expectedTaken current => some (.expectedTaken expected current actual)
  | .actualTaken other => some (.actualTaken actual other expected)

end Event

/-- What binding two identifiers tells. -/
def Bindings.bindEvent? (bindings : Bindings) (expected actual : String) : Option Event :=
  Event.ofStanding? expected actual (bindings.standing expected actual)

end QueryIso
