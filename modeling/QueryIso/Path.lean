import QueryIso.Text.Integer
import QueryIso.Tree

/-!
# Paths

A path leads from the root of a tree to one of its nodes. Its text is a dollar sign followed by the
steps, as in `$.input.patterns[1]`; field names stand in it as they are.
-/

namespace QueryIso

/-- A step from a node to one of its children. -/
inductive Step
  | field (name : String)
  | index (position : Nat)
  deriving DecidableEq

namespace Step

/-- The text of the step within a path. -/
def chars : Step → List Char
  | field name => '.' :: name.toList
  | index position => '[' :: (Text.natural position ++ [']'])

/-- The order of steps: every field before every index, fields by name, indexes by number. -/
def compare : Step → Step → Ordering
  | field a, field b => Ord.compare a b
  | field _, index _ => .lt
  | index _, field _ => .gt
  | index a, index b => Ord.compare a b

end Step

/-- A path, from the root on. -/
structure Path where
  steps : List Step
  deriving DecidableEq

namespace Path

/-- The path to the root itself. -/
def root : Path :=
  ⟨[]⟩

/-- Whether the path leads to the root. -/
def isRoot (path : Path) : Bool :=
  path.steps.isEmpty

/-- One step further. -/
def child (path : Path) (step : Step) : Path :=
  ⟨path.steps ++ [step]⟩

/-- The path to a field of the node. -/
def field (path : Path) (name : String) : Path :=
  path.child (.field name)

/-- The path to an element of the node. -/
def index (path : Path) (position : Nat) : Path :=
  path.child (.index position)

/-- The path that starts with a step and goes on with this one. -/
def under (step : Step) (path : Path) : Path :=
  ⟨step :: path.steps⟩

/-- The text of the path. -/
def text (path : Path) : String :=
  String.ofList ('$' :: path.steps.flatMap Step.chars)

/-- The order of paths: by the first step in which they differ, a shorter one before its
continuations. -/
def compare (a b : Path) : Ordering :=
  compareSteps a.steps b.steps
where
  /-- The order of lists of steps. -/
  compareSteps : List Step → List Step → Ordering
    | [], [] => .eq
    | [], _ :: _ => .lt
    | _ :: _, [] => .gt
    | a :: as, b :: bs => (a.compare b).then (compareSteps as bs)

/-- The paths in order. -/
def sort (paths : List Path) : List Path :=
  paths.mergeSort fun a b => (a.compare b).isLE

end Path

namespace Tree

/-- The child that a step leads to. -/
def child? (tree : Tree) : Step → Option Tree
  | .field name => tree.get? name
  | .index position => tree.items?.bind (·[position]?)

/-- The node at the end of a path. -/
def at? (tree : Tree) (path : Path) : Option Tree :=
  path.steps.foldlM child? tree

theorem at?_root (tree : Tree) : tree.at? .root = some tree :=
  rfl

theorem at?_under (tree : Tree) (step : Step) (path : Path) :
    tree.at? (path.under step) = (tree.child? step).bind (·.at? path) :=
  rfl

end Tree

end QueryIso
