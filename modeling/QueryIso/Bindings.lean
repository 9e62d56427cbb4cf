import QueryIso.Entries

/-!
# Bindings

A one to one table from the identifiers of an expected tree to those of an actual one. It is kept in
both directions; `Bindings.bind` adds a pair to both or to neither.
-/

namespace QueryIso

/-- A table of bindings. -/
structure Bindings where
  /-- The actual identifier of each expected one. -/
  forward : Dict String
  /-- The expected identifier of each actual one. -/
  backward : Dict String
  deriving DecidableEq

namespace Bindings

/-- The table without bindings. -/
def empty : Bindings :=
  ⟨.nil, .nil⟩

/-- The actual identifier that an expected one is bound to. -/
def get? (bindings : Bindings) (expected : String) : Option String :=
  bindings.forward.get? expected

/-- The expected identifier that an actual one is bound from. -/
def getReverse? (bindings : Bindings) (actual : String) : Option String :=
  bindings.backward.get? actual

/-- The number of bindings. -/
def length (bindings : Bindings) : Nat :=
  bindings.forward.length

/-- Whether nothing is bound. -/
def isEmpty (bindings : Bindings) : Bool :=
  bindings.length = 0

/-- The pairs in the order of the expected identifiers. -/
def toList (bindings : Bindings) : List (String × String) :=
  bindings.forward.toList

/-- One line for each binding. -/
def text (bindings : Bindings) : String :=
  String.join (bindings.toList.map fun pair => pair.1 ++ " -> " ++ pair.2 ++ "\n")

/-- How a pair stands to a table. -/
inductive Standing
  /-- The pair is in the table. -/
  | known
  /-- Neither identifier is in the table. -/
  | fresh
  /-- The expected identifier is bound to another one. -/
  | expectedTaken (bound : String)
  /-- The expected identifier is not bound, and the actual one is bound from another. -/
  | actualTaken (other : String)
  deriving DecidableEq

/-- How a pair stands to the table. -/
def standing (bindings : Bindings) (expected actual : String) : Standing :=
  match bindings.get? expected with
  | some bound => if bound = actual then .known else .expectedTaken bound
  | none =>
    match bindings.getReverse? actual with
    | some other => .actualTaken other
    | none => .fresh

/-- Binds two identifiers unless one of them is bound otherwise: whether the pair is in the table
now, and the table. -/
def bind (bindings : Bindings) (expected actual : String) : Bool × Bindings :=
  match bindings.standing expected actual with
  | .known => (true, bindings)
  | .fresh =>
    (true, ⟨Dict.insert bindings.forward expected actual,
      Dict.insert bindings.backward actual expected⟩)
  | .expectedTaken _ | .actualTaken _ => (false, bindings)

end Bindings

end QueryIso
