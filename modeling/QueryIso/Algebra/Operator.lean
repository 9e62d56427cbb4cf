/-!
# Algebra operators

The operators of query algebra and the keys by which they are known.
-/

namespace QueryIso

/-- An operator of query algebra. -/
inductive Operator
  /-- An aggregate function, such as `COUNT`. -/
  | aggregate
  /-- An alternative of property paths. -/
  | alt
  /-- A basic graph pattern. -/
  | bgp
  /-- A solution is kept once. -/
  | distinct
  /-- A function or operator applied to arguments. -/
  | expression
  /-- A variable bound to an expression. -/
  | extend
  /-- A condition on solutions. -/
  | filter
  /-- A pattern on a named graph. -/
  | graph
  /-- Solutions in groups. -/
  | group
  /-- A property path the other way round. -/
  | inv
  /-- An inner join. -/
  | join
  /-- An optional part. -/
  | leftJoin
  /-- A property path of a single property. -/
  | link
  /-- Solutions without the compatible ones of another pattern. -/
  | minus
  /-- A negated set of properties. -/
  | nps
  /-- One or more times a property path. -/
  | oneOrMorePath
  /-- Solutions in an order. -/
  | orderBy
  /-- A triple pattern with a property path. -/
  | path
  /-- A selection of variables. -/
  | project
  /-- Repeated solutions may be dropped. -/
  | reduced
  /-- One property path after another. -/
  | seq
  /-- An offset and a limit. -/
  | slice
  /-- Inline data as it is written in a query. -/
  | table
  /-- A triple pattern. -/
  | triple
  /-- The solutions of two patterns. -/
  | union
  /-- Inline data. -/
  | values
  /-- Zero or more times a property path. -/
  | zeroOrMorePath
  /-- Zero times or once a property path. -/
  | zeroOrOnePath
  deriving DecidableEq

namespace Operator

/-- The key of an operator. -/
def key : Operator → String
  | aggregate => "aggregate"
  | alt => "alt"
  | bgp => "bgp"
  | distinct => "distinct"
  | expression => "expression"
  | extend => "extend"
  | filter => "filter"
  | graph => "graph"
  | group => "group"
  | inv => "inv"
  | join => "join"
  | leftJoin => "leftjoin"
  | link => "link"
  | minus => "minus"
  | nps => "nps"
  | oneOrMorePath => "OneOrMorePath"
  | orderBy => "orderby"
  | path => "path"
  | project => "project"
  | reduced => "reduced"
  | seq => "seq"
  | slice => "slice"
  | table => "table"
  | triple => "triple"
  | union => "union"
  | values => "values"
  | zeroOrMorePath => "ZeroOrMorePath"
  | zeroOrOnePath => "ZeroOrOnePath"

/-- Every operator, in alphabetical order. -/
def all : List Operator :=
  [aggregate, alt, bgp, distinct, expression, extend, filter, graph, group, inv, join, leftJoin,
   link, minus, nps, oneOrMorePath, orderBy, path, project, reduced, seq, slice, table, triple,
   union, values, zeroOrMorePath, zeroOrOnePath]

/-- The operator of a key. -/
def ofKey? (key : String) : Option Operator :=
  all.find? fun operator => operator.key = key

/-- The message for a key that no operator has. -/
def unknownKeyMessage (key : String) : String :=
  s!"Unknown algebra operator '{key}'"

theorem mem_all (operator : Operator) : operator ∈ all := by
  cases operator <;> decide

theorem ofKey?_key (operator : Operator) : ofKey? operator.key = some operator := by
  cases operator <;> decide

theorem key_of_ofKey? {key : String} {operator : Operator} (known : ofKey? key = some operator) :
    operator.key = key := by
  simpa [ofKey?] using List.find?_some known

end Operator

end QueryIso
