import QueryIso.Proofs.Differences

/-!
# Identifiers in document order

The children of a node are its elements in order or its fields in name order, and the leaves of a
tree are met by going through the children of every node in this order.

* `Tree.induction_children`: sequences and records are one case in an induction over children;
* `Tree.mem_leaves_iff`: the leaves are the identifiers at the ends of paths;
* `Tree.sorted_leaves`: their paths increase, so that no leaf is met twice.
-/

namespace QueryIso

/-- An identifier within a tree. -/
structure Leaf where
  path : Path
  kind : IdKind
  text : String
  deriving DecidableEq

/-- The leaf as it is seen from the node above. -/
def Leaf.under (step : Step) (leaf : Leaf) : Leaf :=
  { leaf with path := leaf.path.under step }

namespace Path

theorem compare_under (step : Step) {path other : Path} :
    (path.under step).compare (other.under step) = path.compare other := by
  have same : step.compare step = .eq := by
    cases step with
    | field name =>
      change Ord.compare name name = .eq
      exact Std.ReflCmp.compare_self
    | index position =>
      change Ord.compare position position = .eq
      exact Std.ReflCmp.compare_self
  change (step.compare step).then _ = _
  rw [same]
  rfl

theorem compare_under_of_lt {first second : Step} (before : first.compare second = .lt)
    {path other : Path} : (path.under first).compare (other.under second) = .lt := by
  change (first.compare second).then _ = _
  rw [before]
  rfl

end Path

namespace Tree

/-- The children of a node in document order, each with the step to it. -/
def children : Tree → List (Step × Tree)
  | .scalar _ => []
  | .sequence items => items.zipIdx.map fun (item, position) => (.index position, item)
  | .record fields => fields.toList.map fun (name, value) => (.field name, value)

mutual

/-- The identifiers of a tree in document order. -/
def leaves : Tree → List Leaf
  | .scalar (.str text) =>
    match IdKind.of? text with
    | some kind => [⟨.root, kind, text⟩]
    | none => []
  | .scalar _ => []
  | .sequence items => leavesOfItems 0 items
  | .record fields => leavesOfFields fields

/-- The identifiers of the elements from a position on. -/
def leavesOfItems (position : Nat) : List Tree → List Leaf
  | [] => []
  | item :: rest => item.leaves.map (.under (.index position)) ++ leavesOfItems (position + 1) rest

/-- The identifiers of fields. -/
def leavesOfFields {bound : Option String} : Entries Tree bound → List Leaf
  | .nil => []
  | .cons name _ value rest => value.leaves.map (.under (.field name)) ++ leavesOfFields rest

end

/-! ## Children -/

section
variable {tree child : Tree}

theorem child?_eq_some_iff {step : Step} :
    tree.child? step = some child ↔ (step, child) ∈ tree.children := by
  cases tree with
  | scalar value => simp [children, exists_child?_scalar]
  | sequence items =>
    cases step with
    | field name => simp [children, child?, get?, fields?]
    | index position => simp [children, child?, items?, List.mem_zipIdx_iff_getElem?]
  | record fields =>
    cases step with
    | field name => simp [children, child?, get?, fields?, Entries.get?_eq_some_iff]
    | index position => simp [children, child?, items?]

theorem at?_eq_some_iff {path : Path} {node : Tree} : tree.at? path = some node ↔
    path = .root ∧ node = tree ∨
      ∃ child ∈ tree.children, ∃ below, path = below.under child.1 ∧
        child.2.at? below = some node := by
  cases path using Path.induction with
  | root =>
    simp only [at?_root, Option.some.injEq, true_and, Path.root_ne_under, false_and, exists_false,
      and_false, or_false, eq_comm]
  | under step path =>
    rw [at?_under, Option.bind_eq_some_iff]
    simp only [child?_eq_some_iff, Path.under_inj, (Path.root_ne_under _ _).symm, false_and,
      false_or]
    constructor
    · rintro ⟨child, mem, below⟩
      exact ⟨_, mem, path, ⟨rfl, rfl⟩, below⟩
    · rintro ⟨⟨_, child⟩, mem, _, ⟨rfl, rfl⟩, below⟩
      exact ⟨child, mem, below⟩

theorem steps_sequence (items : List Tree) :
    (sequence items).children.map (·.1) = (List.range' 0 items.length).map .index := by
  rw [← List.zipIdx_map_snd 0 items, children, List.map_map, List.map_map]
  rfl

theorem steps_record (fields : Dict Tree) :
    (record fields).children.map (·.1) = fields.names.map .field := by
  rw [children, Entries.names, List.map_map, List.map_map]
  rfl

/-- The steps to the children increase. -/
theorem sorted_children (tree : Tree) :
    (tree.children.map (·.1)).Pairwise fun a b => a.compare b = .lt := by
  cases tree with
  | scalar value => exact .nil
  | sequence items =>
    rw [steps_sequence, List.pairwise_map]
    exact (List.pairwise_lt_range' 1 Nat.one_pos).imp Nat.compare_eq_lt.2
  | record fields =>
    rw [steps_record, List.pairwise_map]
    exact fields.sorted_names.imp compareOfLessAndEq_eq_lt.2

theorem mem_of_mem_children {items : List Tree} {step : Step}
    (mem : (step, child) ∈ (sequence items).children) : child ∈ items :=
  exists_child?_sequence.1 ⟨step, child?_eq_some_iff.2 mem⟩

theorem mem_values_of_mem_children {fields : Dict Tree} {step : Step}
    (mem : (step, child) ∈ (record fields).children) : child ∈ fields.values :=
  exists_child?_record.1 ⟨step, child?_eq_some_iff.2 mem⟩

end

/-- A property of all trees holds of scalars, and of a node when it holds of its children. -/
@[elab_as_elim]
theorem induction_children {motive : Tree → Prop}
    (identifier : ∀ text kind, IdKind.of? text = some kind → motive (.str text))
    (plain : ∀ value : Scalar, value.idKind? = none → motive (.scalar value))
    (node : ∀ tree : Tree, tree.shape ≠ .scalar → (∀ child ∈ tree.children, motive child.2) →
      motive tree) (tree : Tree) : motive tree := by
  induction tree with
  | identifier text kind known => exact identifier text kind known
  | plain value none => exact plain value none
  | sequence items ih => exact node _ nofun fun child mem => ih _ (mem_of_mem_children mem)
  | record fields ih => exact node _ nofun fun child mem => ih _ (mem_values_of_mem_children mem)

/-! ## Leaves -/

section
variable {tree : Tree}

theorem leaves_str {text : String} {kind : IdKind} (known : IdKind.of? text = some kind) :
    (str text).leaves = [⟨.root, kind, text⟩] := by
  simp [str, leaves, known]

theorem leaves_plain {value : Scalar} (plain : value.idKind? = none) :
    (scalar value).leaves = [] := by
  cases value with
  | str text =>
    have none : IdKind.of? text = none := plain
    simp [leaves, none]
  | null | bool _ | integer _ | float _ => rfl

theorem leavesOfItems_eq (position : Nat) (items : List Tree) :
    leavesOfItems position items = (items.zipIdx position).flatMap fun (item, position) =>
      item.leaves.map (.under (.index position)) := by
  induction items generalizing position with
  | nil => rfl
  | cons item rest ih => rw [leavesOfItems, ih, List.zipIdx_cons, List.flatMap_cons]

theorem leavesOfFields_eq {bound : Option String} (fields : Entries Tree bound) :
    leavesOfFields fields = fields.toList.flatMap fun (name, value) =>
      value.leaves.map (.under (.field name)) := by
  induction fields with
  | nil => rfl
  | cons name above value rest ih => rw [leavesOfFields, ih, Entries.toList, List.flatMap_cons]

/-- The leaves of a node are those of its children. -/
theorem leaves_node (node : tree.shape ≠ .scalar) :
    tree.leaves = tree.children.flatMap fun child => child.2.leaves.map (.under child.1) := by
  cases tree with
  | scalar value => exact (node rfl).elim
  | sequence items => rw [leaves, leavesOfItems_eq, children, List.flatMap_map]
  | record fields => rw [leaves, leavesOfFields_eq, children, List.flatMap_map]

theorem mem_leaves_node {leaf : Leaf} (node : tree.shape ≠ .scalar) : leaf ∈ tree.leaves ↔
    ∃ child ∈ tree.children, ∃ below ∈ child.2.leaves, below.under child.1 = leaf := by
  rw [leaves_node node]
  simp only [List.mem_flatMap, List.mem_map]

/-- The leaves are the identifiers at the ends of paths. -/
theorem mem_leaves_iff {leaf : Leaf} : leaf ∈ tree.leaves ↔
    tree.at? leaf.path = some (.str leaf.text) ∧ IdKind.of? leaf.text = some leaf.kind := by
  induction tree using induction_children generalizing leaf with
  | identifier text kind known =>
    obtain ⟨path, kind', text'⟩ := leaf
    have found : (str text).at? path = some (.str text') ↔ path = .root ∧ text' = text := by
      rw [at?_eq_some_iff]
      simp [children, str]
    rw [leaves_str known, List.mem_singleton, Leaf.mk.injEq, found, and_assoc]
    apply and_congr_right
    intro _
    constructor
    · rintro ⟨rfl, rfl⟩
      exact ⟨rfl, known⟩
    · rintro ⟨rfl, known'⟩
      exact ⟨Option.some.inj (known'.symm.trans known), rfl⟩
  | plain value plain =>
    rw [leaves_plain plain]
    refine iff_of_false List.not_mem_nil ?_
    rintro ⟨found, known⟩
    rcases at?_eq_some_iff.1 found with ⟨_, same⟩ | ⟨_, mem, _⟩
    · cases same
      cases plain.symm.trans known
    · cases mem
  | node tree node ih =>
    rw [mem_leaves_node node, at?_eq_some_iff]
    constructor
    · rintro ⟨child, mem, below, mem', rfl⟩
      obtain ⟨found, known⟩ := (ih child mem).1 mem'
      exact ⟨.inr ⟨child, mem, below.path, rfl, found⟩, known⟩
    · rintro ⟨⟨_, root⟩ | ⟨child, mem, below, path, found⟩, known⟩
      · exact (node (congrArg shape root.symm)).elim
      · obtain ⟨_, kind, text⟩ := leaf
        obtain rfl : _ = below.under child.1 := path
        exact ⟨child, mem, ⟨below, kind, text⟩, (ih child mem).2 ⟨found, known⟩, rfl⟩

theorem sorted_leaves (tree : Tree) :
    tree.leaves.Pairwise fun a b => a.path.compare b.path = .lt := by
  induction tree using induction_children with
  | identifier text kind known =>
    rw [leaves_str known]
    exact List.pairwise_singleton _ _
  | plain value plain =>
    rw [leaves_plain plain]
    exact .nil
  | node tree node ih =>
    rw [leaves_node node, List.pairwise_flatMap]
    refine ⟨fun child mem => ?_, ?_⟩
    · rw [List.pairwise_map]
      exact (ih child mem).imp (Path.compare_under child.1).trans
    · apply (List.pairwise_map.1 tree.sorted_children).imp
      intro child other before
      simp only [List.forall_mem_map]
      intro below _ below' _
      exact Path.compare_under_of_lt before

end

end Tree

end QueryIso
