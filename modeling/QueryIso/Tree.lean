import QueryIso.Entries
import QueryIso.Scalar

/-!
# Trees of query algebra

A node is a scalar, a sequence of trees or a record of named trees. The shape of every node is fixed
when it is built, and a record keeps its fields in name order, so that two trees are equal exactly
when they are the same term; `Tree.beq` decides this.
-/

namespace QueryIso

/-- A query algebra tree. -/
inductive Tree
  | scalar (value : Scalar)
  | sequence (items : List Tree)
  | record (fields : Entries Tree none)

/-- The shape of a node. -/
inductive Shape
  | scalar
  | sequence
  | record
  deriving DecidableEq

/-- The name of the shape. -/
def Shape.text : Shape → String
  | scalar => "scalar"
  | sequence => "sequence"
  | record => "record"

namespace Tree

/-- The tree of a string. -/
def str (text : String) : Tree :=
  .scalar (.str text)

/-- A record with these fields. The last value of a repeated name stays. -/
def ofFields (fields : List (String × Tree)) : Tree :=
  .record (Dict.ofList fields)

/-- The shape of the root. -/
def shape : Tree → Shape
  | .scalar _ => .scalar
  | .sequence _ => .sequence
  | .record _ => .record

/-- The value of a scalar. -/
def scalar? : Tree → Option Scalar
  | .scalar value => some value
  | _ => none

/-- The text of a string. -/
def str? (tree : Tree) : Option String :=
  tree.scalar?.bind Scalar.str?

/-- The elements of a sequence. -/
def items? : Tree → Option (List Tree)
  | .sequence items => some items
  | _ => none

/-- The fields of a record. -/
def fields? : Tree → Option (Dict Tree)
  | .record fields => some fields
  | _ => none

/-- The value of a field of a record. -/
def get? (tree : Tree) (name : String) : Option Tree :=
  tree.fields?.bind (·.get? name)

mutual

/-- The length of the longest way down: scalars and empty nodes have depth 0. -/
def depth : Tree → Nat
  | .scalar _ => 0
  | .sequence items => depthOfItems items
  | .record fields => depthOfFields fields

/-- The depth of a sequence of these elements. -/
def depthOfItems : List Tree → Nat
  | [] => 0
  | item :: rest => max (item.depth + 1) (depthOfItems rest)

/-- The depth of a record of these fields. -/
def depthOfFields {bound : Option String} : Entries Tree bound → Nat
  | .nil => 0
  | .cons _ _ value rest => max (value.depth + 1) (depthOfFields rest)

end

mutual

/-- Whether two trees are the same. -/
def beq : Tree → Tree → Bool
  | .scalar a, .scalar b => a = b
  | .sequence a, .sequence b => beqItems a b
  | .record a, .record b => beqFields a b
  | _, _ => false

/-- Whether two lists of elements are the same. -/
def beqItems : List Tree → List Tree → Bool
  | [], [] => true
  | a :: as, b :: bs => a.beq b && beqItems as bs
  | _, _ => false

/-- Whether two tables of fields are the same. -/
def beqFields {bound bound' : Option String} : Entries Tree bound → Entries Tree bound' → Bool
  | .nil, .nil => true
  | .cons name _ a as, .cons name' _ b bs => name = name' && (a.beq b && beqFields as bs)
  | _, _ => false

end

mutual

theorem eq_of_beq : ∀ {a b : Tree}, a.beq b = true → a = b
  | .scalar _, .scalar _, same => by simpa [beq] using same
  | .sequence _, .sequence _, same => congrArg sequence (eq_of_beqItems (by simpa [beq] using same))
  | .record _, .record _, same => congrArg record (eq_of_beqFields (by simpa [beq] using same))
  | .scalar _, .sequence _, same | .scalar _, .record _, same
  | .sequence _, .scalar _, same | .sequence _, .record _, same
  | .record _, .scalar _, same | .record _, .sequence _, same => by simp [beq] at same

theorem eq_of_beqItems : ∀ {as bs : List Tree}, beqItems as bs = true → as = bs
  | [], [], _ => rfl
  | _ :: _, _ :: _, same => by
    simp only [beqItems, Bool.and_eq_true] at same
    rw [eq_of_beq same.1, eq_of_beqItems same.2]
  | [], _ :: _, same | _ :: _, [], same => by simp [beqItems] at same

theorem eq_of_beqFields {bound : Option String} :
    ∀ {as bs : Entries Tree bound}, beqFields as bs = true → as = bs
  | .nil, .nil, _ => rfl
  | .cons _ _ _ _, .cons _ _ _ _, same => by
    simp only [beqFields, Bool.and_eq_true, decide_eq_true_eq] at same
    obtain ⟨rfl, same⟩ := same
    rw [eq_of_beq same.1, eq_of_beqFields same.2]
  | .nil, .cons _ _ _ _, same | .cons _ _ _ _, .nil, same => by simp [beqFields] at same

end

mutual

theorem beq_self : ∀ a : Tree, a.beq a = true
  | .scalar _ => by simp [beq]
  | .sequence items => by simpa [beq] using beqItems_self items
  | .record fields => by simpa [beq] using beqFields_self fields

theorem beqItems_self : ∀ as : List Tree, beqItems as as = true
  | [] => rfl
  | a :: as => by simp [beqItems, beq_self a, beqItems_self as]

theorem beqFields_self {bound : Option String} : ∀ as : Entries Tree bound, beqFields as as = true
  | .nil => rfl
  | .cons _ _ a as => by simp [beqFields, beq_self a, beqFields_self as]

end

theorem beq_iff_eq {a b : Tree} : a.beq b = true ↔ a = b :=
  ⟨eq_of_beq, fun same => same ▸ beq_self a⟩

instance : DecidableEq Tree :=
  fun _ _ => decidable_of_iff _ beq_iff_eq

end Tree

end QueryIso
