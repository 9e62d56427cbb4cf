import QueryIso.Algebra.Operator
import QueryIso.Tree.Display

/-!
# Records of operators

`element` builds the record of an operator from its key and its positional arguments. Every record
has a field `type` with the key; a key that no operator has is the symbol of an expression. Some
operators look at their arguments:

* `leftjoin` has an optional condition, and `true` is no condition;
* `slice` with the length -1 has no length;
* `table` turns rows of `[variable, value]` pairs into records and becomes `values`;
* `aggregate` has an optional variable, and `group_concat` also an optional separator before it.
-/

namespace QueryIso

namespace Algebra

/-- Which numbers of arguments are accepted. -/
inductive Arity
  | exactly (count : Nat)
  | between (least most : Nat)
  | atLeast (least : Nat)
  deriving DecidableEq

namespace Arity

/-- Whether a number of arguments is accepted. -/
def accepts : Arity → Nat → Bool
  | exactly count, n => n = count
  | between least most, n => least ≤ n ∧ n ≤ most
  | atLeast least, n => least ≤ n

/-- The accepted numbers within a message. -/
def text : Arity → String
  | exactly count => s!"{count}"
  | between least most => if most = least + 1 then s!"{least} or {most}" else s!"{least} to {most}"
  | atLeast least => s!"at least {least}"

end Arity

/-- What is wrong with an argument of a table. -/
inductive Malformation
  /-- A header or row without a sequence of arguments. -/
  | noArguments (item : Tree)
  /-- An entry of a row whose first element is not a string. -/
  | notVariable (item : Tree)
  /-- An entry of a row that is not a sequence of two elements. -/
  | notPair (item : Tree)
  deriving DecidableEq

/-- The malformation within a message. -/
def Malformation.text : Malformation → String
  | noArguments item => item.display ++ " has no 'args' sequence"
  | notVariable item => item.display ++ " is not a variable name"
  | notPair item => item.display ++ " is not a [variable, value] pair"

/-- Why arguments do not make an operator. -/
inductive ElementError
  | arity (operator : Operator) (expected : Arity) (found : Nat)
  | malformed (operator : Operator) (reason : Malformation)
  deriving DecidableEq

namespace ElementError

/-- The operator that was to be built. -/
def operator : ElementError → Operator
  | arity operator _ _ => operator
  | malformed operator _ => operator

/-- The message of the error. -/
def message : ElementError → String
  | arity operator expected found =>
    s!"'{operator.key}' expects {expected.text} argument(s), got {found}"
  | malformed operator reason => s!"Malformed argument for '{operator.key}': {reason.text}"

end ElementError

/-- How the arguments of an operator become fields. -/
inductive Form
  /-- One argument for each of these fields. -/
  | fields (names : List String)
  /-- All arguments as the sequence of one field. -/
  | gathered (name : String)
  /-- The fields of an application of the key itself. -/
  | application
  | slice
  | leftJoin
  | table
  | aggregate

/-- How the arguments of an operator become fields. -/
def form : Operator → Form
  | .bgp => .gathered "patterns"
  | .nps => .gathered "iris"
  | .distinct | .reduced => .fields ["input"]
  | .extend => .fields ["input", "variable", "expression"]
  | .filter => .fields ["expression", "input"]
  | .graph => .fields ["graph", "input"]
  | .group => .fields ["variables", "aggregates", "input"]
  | .join | .minus | .union | .alt | .seq => .fields ["left", "right"]
  | .orderBy => .fields ["input", "expressions"]
  | .project => .fields ["input", "variables"]
  | .triple | .path => .fields ["subject", "predicate", "object"]
  | .inv | .oneOrMorePath | .zeroOrOnePath | .zeroOrMorePath => .fields ["path"]
  | .link => .fields ["iri"]
  | .expression | .values => .application
  | .slice => .slice
  | .leftJoin => .leftJoin
  | .table => .table
  | .aggregate => .aggregate

/-- The record of an operator with these fields and its type. -/
def node (operator : Operator) (fields : List (String × Tree)) : Tree :=
  .ofFields (fields ++ [("type", .str operator.key)])

/-- The application of a symbol to arguments. -/
def application (symbol : String) (args : List Tree) : Tree :=
  node .expression [("symbol", .str symbol), ("args", .sequence args)]

/-- A triple pattern. -/
def triple (subject predicate object : Tree) : Tree :=
  node .triple [("subject", subject), ("predicate", predicate), ("object", object)]

/-- Gives each argument its name, provided that there are as many of both. -/
def namedArguments (operator : Operator) (names : List String) (args : List Tree) :
    Except ElementError (List (String × Tree)) :=
  if args.length = names.length then .ok (names.zip args)
  else .error (.arity operator (.exactly names.length) args.length)

namespace Slice

/-- The record of a slice. The length -1 stands for no length. -/
def build (args : List Tree) : Except ElementError Tree := do
  let fields ← namedArguments .slice ["start", "length", "input"] args
  return node .slice (fields.filter (· ≠ ("length", .scalar (.integer (-1)))))

end Slice

namespace LeftJoin

/-- The record of an optional part. The condition `true` stands for no condition. -/
def build (args : List Tree) : Except ElementError Tree :=
  match args with
  | [left, right] => .ok (node .leftJoin [("left", left), ("right", right)])
  | [left, right, condition] =>
    if condition = .scalar (.bool true) then
      .ok (node .leftJoin [("left", left), ("right", right)])
    else .ok (node .leftJoin [("left", left), ("right", right), ("expression", condition)])
  | _ => .error (.arity .leftJoin (.between 2 3) args.length)

end LeftJoin

namespace Aggregate

/-- Whether a tree is a variable. -/
def isVariable (tree : Tree) : Bool :=
  tree.str?.bind IdKind.of? = some .var

/-- Whether the first argument asks for the texts of a group in one. -/
def isGroupConcat (args : List Tree) : Bool :=
  args.head?.bind Tree.str? = some "group_concat"

/-- The numbers of arguments that an aggregate accepts. -/
def arity (args : List Tree) : Arity :=
  .between 2 (if isGroupConcat args then 4 else 3)

/-- The record of an aggregate function. -/
def build (args : List Tree) : Except ElementError Tree :=
  match args with
  | [symbol, expression] => .ok (node .aggregate [("symbol", symbol), ("expression", expression)])
  | [symbol, expression, third] =>
    let name := if isGroupConcat args && !isVariable third then "separator" else "variable"
    .ok (node .aggregate [("symbol", symbol), ("expression", expression), (name, third)])
  | [symbol, expression, separator, name] =>
    if isGroupConcat args then
      .ok (node .aggregate [("symbol", symbol), ("expression", expression),
        ("separator", separator), ("variable", name)])
    else .error (.arity .aggregate (arity args) args.length)
  | _ => .error (.arity .aggregate (arity args) args.length)

end Aggregate

namespace Table

/-- The arguments of an expression. -/
def arguments (expression : Tree) : Except Malformation (List Tree) :=
  match (expression.get? "args").bind Tree.items? with
  | some args => .ok args
  | none => .error (.noArguments expression)

/-- The name and the value of an entry of a row. -/
def entry (pair : Tree) : Except Malformation (String × Tree) :=
  match pair.items? with
  | some [name, value] =>
    match name.str? with
    | some text => .ok (text, value)
    | none => .error (.notVariable name)
  | _ => .error (.notPair pair)

/-- The record of a row. -/
def row (expression : Tree) : Except Malformation Tree := do
  let entries ← arguments expression
  return .ofFields (← entries.mapM entry)

/-- The variables of a header and the records of rows. -/
def contents (header : Tree) (rows : List Tree) : Except Malformation (List Tree × List Tree) := do
  let vars ← arguments header
  return (vars, ← rows.mapM row)

/-- The record of inline data. -/
def build (args : List Tree) : Except ElementError Tree :=
  match args with
  | [] => .error (.arity .table (.atLeast 1) 0)
  | header :: rows =>
    match contents header rows with
    | .ok (vars, bindings) =>
      .ok (node .values [("variables", .sequence vars), ("bindings", .sequence bindings)])
    | .error reason => .error (.malformed .table reason)

end Table

/-- The record of an operator with these arguments. -/
def build (operator : Operator) (args : List Tree) : Except ElementError Tree :=
  match form operator with
  | .fields names => return node operator (← namedArguments operator names args)
  | .gathered name => .ok (node operator [(name, .sequence args)])
  | .application => .ok (Algebra.application operator.key args)
  | .slice => Slice.build args
  | .leftJoin => LeftJoin.build args
  | .table => Table.build args
  | .aggregate => Aggregate.build args

/-- The record of the operator with this key, or the application of another symbol. -/
def element (key : String) (args : List Tree) : Except ElementError Tree :=
  match Operator.ofKey? key with
  | some operator => build operator args
  | none => .ok (application key args)

end Algebra

end QueryIso
