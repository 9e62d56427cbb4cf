import QueryIso.Proofs.Leaves

/-!
# Replacing identifiers by answers

The function that `Tree.mapIdentifiersM` asks for new texts may have a state, so that its answers
depend on the questions before. It is asked for the leaves of the tree in document order, and its
answers stand in their places; everything else is as it was.

* `Tree.Replaced`: the calls for a tree, one for each leaf, and the tree with the answers;
* `Tree.answered_node`: the calls for a node are those for its children, one after the other;
* `Tree.asked_in_document_order`: what is asked for a whole tree, and what is made of it.
-/

namespace QueryIso

namespace Tree

/-- One node stands in the place of another: they are alike but for an identifier and for what is
below them. -/
structure Resembles (node other : Tree) : Prop where
  shape : other.shape = node.shape
  length : other.items?.map List.length = node.items?.map List.length
  names : other.fields?.map Entries.names = node.fields?.map Entries.names
  scalar : ∀ value, node = .scalar value → value.idKind? = none → other = .scalar value

/-- A question for the new text of an identifier, and the answer. -/
structure Call where
  kind : IdKind
  text : String
  answer : String

/-- There was one call for each leaf, the answers stand in the places of the leaves, and all other
nodes are as they were. -/
structure Replaced (tree : Tree) (calls : List Call) (result : Tree) : Prop where
  nodes : ∀ path, Option.Rel Resembles (tree.at? path) (result.at? path)
  leaves : List.Forall₂ (fun leaf call => call.kind = leaf.kind ∧ call.text = leaf.text ∧
    result.at? leaf.path = some (.str call.answer)) tree.leaves calls

/-- Each child is replaced by one at the same step, and the calls are those for all children. -/
inductive ReplacedAll : List (Step × Tree) → List Call → List (Step × Tree) → Prop
  | nil : ReplacedAll [] [] []
  | cons {step : Step} {child other : Tree} {rest others : List (Step × Tree)}
      {calls more : List Call} (first : Replaced child calls other)
      (later : ReplacedAll rest more others) :
      ReplacedAll ((step, child) :: rest) (calls ++ more) ((step, other) :: others)

/-! ## Nodes in the places of others -/

section
variable {tree result : Tree} {calls : List Call}

theorem nodes_scalar {value other : Scalar} (same : Resembles (.scalar value) (.scalar other))
    (path : Path) : Option.Rel Resembles ((scalar value).at? path) ((scalar other).at? path) := by
  cases path using Path.induction with
  | root => exact .some same
  | under step path => cases step <;> exact .none

theorem replaced_identifier {text : String} {kind : IdKind} (known : IdKind.of? text = some kind)
    (answer : String) : Replaced (.str text) [⟨kind, text, answer⟩] (.str answer) where
  nodes := by
    refine nodes_scalar ⟨rfl, rfl, rfl, fun value same plain => ?_⟩
    cases same
    cases known.symm.trans plain
  leaves := by
    rw [leaves_str known]
    exact .cons ⟨rfl, rfl, rfl⟩ .nil

theorem replaced_plain {value : Scalar} (plain : value.idKind? = none) :
    Replaced (.scalar value) [] (.scalar value) where
  nodes := nodes_scalar ⟨rfl, rfl, rfl, fun _ same _ => same⟩
  leaves := by
    rw [leaves_plain plain]
    exact .nil

namespace ReplacedAll

variable {rest others : List (Step × Tree)}

theorem steps (all : ReplacedAll rest calls others) : others.map (·.1) = rest.map (·.1) := by
  induction all with
  | nil => rfl
  | cons _ _ ih => rw [List.map_cons, List.map_cons, ih]

theorem exists_right (all : ReplacedAll rest calls others) {step : Step} {child : Tree}
    (mem : (step, child) ∈ rest) :
    ∃ other, (step, other) ∈ others ∧ ∃ part, Replaced child part other := by
  induction all with
  | nil => cases mem
  | cons first _ ih =>
    rcases List.mem_cons.1 mem with same | mem
    · cases same
      exact ⟨_, List.mem_cons_self, _, first⟩
    · obtain ⟨other, mem', replaced⟩ := ih mem
      exact ⟨other, List.mem_cons_of_mem _ mem', replaced⟩

theorem exists_left (all : ReplacedAll rest calls others) {step : Step} {other : Tree}
    (mem : (step, other) ∈ others) : ∃ child, (step, child) ∈ rest := by
  have inSteps : step ∈ others.map (·.1) := List.mem_map_of_mem mem
  rw [all.steps, List.mem_map] at inSteps
  obtain ⟨⟨_, child⟩, present, rfl⟩ := inSteps
  exact ⟨child, present⟩

/-- The calls are for the leaves of all children, and the answers stand in their places. -/
theorem leaves (all : ReplacedAll rest calls others) :
    List.Forall₂ (fun (leaf : Leaf) call => call.kind = leaf.kind ∧ call.text = leaf.text ∧
        ∃ child ∈ others, ∃ below, leaf.path = below.under child.1 ∧
          child.2.at? below = some (.str call.answer))
      (rest.flatMap fun child => child.2.leaves.map (.under child.1)) calls := by
  induction all with
  | nil => exact .nil
  | cons first later ih =>
    rw [List.flatMap_cons]
    refine List.rel_append ?_ (ih.imp ?_)
    · rw [List.forall₂_map_left_iff]
      apply first.leaves.imp
      rintro leaf call ⟨kind, text, found⟩
      exact ⟨kind, text, _, List.mem_cons_self, leaf.path, rfl, found⟩
    · rintro leaf call ⟨kind, text, child, mem, found⟩
      exact ⟨kind, text, child, List.mem_cons_of_mem _ mem, found⟩

end ReplacedAll

theorem resembles_of_steps (node : tree.shape ≠ .scalar) (shape : result.shape = tree.shape)
    (steps : result.children.map (·.1) = tree.children.map (·.1)) : Resembles tree result := by
  cases tree with
  | scalar _ => exact (node rfl).elim
  | sequence items =>
    cases result with
    | scalar _ | record _ => cases shape
    | sequence others =>
      have lengths := congrArg List.length steps
      simp only [steps_sequence, List.length_map, List.length_range'] at lengths
      exact ⟨rfl, congrArg some lengths, rfl, nofun⟩
  | record fields =>
    cases result with
    | scalar _ | sequence _ => cases shape
    | record others =>
      rw [steps_record, steps_record] at steps
      have names := List.map_injective_iff.2 (fun _ _ same => Step.field.inj same) steps
      exact ⟨rfl, rfl, congrArg some names, nofun⟩

/-- A node is replaced by replacing its children. -/
theorem replaced_node (node : tree.shape ≠ .scalar) (shape : result.shape = tree.shape)
    (all : ReplacedAll tree.children calls result.children) : Replaced tree calls result where
  nodes path := by
    cases path using Path.induction with
    | root => exact .some (resembles_of_steps node shape all.steps)
    | under step path =>
      rw [at?_under, at?_under]
      cases here : tree.child? step with
      | none =>
        cases there : result.child? step with
        | none => exact .none
        | some other =>
          obtain ⟨child, mem⟩ := all.exists_left (child?_eq_some_iff.1 there)
          cases here.symm.trans (child?_eq_some_iff.2 mem)
      | some child =>
        obtain ⟨other, mem, _, replaced⟩ := all.exists_right (child?_eq_some_iff.1 here)
        rw [child?_eq_some_iff.2 mem]
        exact replaced.nodes path
  leaves := by
    rw [leaves_node node]
    apply all.leaves.imp
    rintro leaf call ⟨kind, text, child, mem, below, path, found⟩
    exact ⟨kind, text, at?_eq_some_iff.2 (.inr ⟨child, mem, below, path, found⟩)⟩

end

/-! ## Asking for answers -/

section
variable {m : Type → Type} [Monad m] (f : IdKind → String → m String)

theorem mapIdentifiersM_plain {value : Scalar} (plain : value.idKind? = none) :
    (scalar value).mapIdentifiersM f = pure (scalar value) := by
  cases value with
  | str text =>
    have none : IdKind.of? text = none := plain
    rw [mapIdentifiersM]
    simp only [none]
  | null | bool _ | integer _ | float _ => rfl

variable [LawfulMonad m]

theorem mapIdentifiersM_str {text : String} {kind : IdKind} (known : IdKind.of? text = some kind) :
    (str text).mapIdentifiersM f = str <$> f kind text := by
  rw [map_eq_pure_bind, str, mapIdentifiersM]
  simp only [known]
  rfl

theorem children_mapItemsM (items : List Tree) (start : Nat) :
    (fun others : List Tree => (others.zipIdx start).map fun (item, position) =>
        (Step.index position, item)) <$> mapItemsM f items =
      ((items.zipIdx start).map fun (item, position) => (Step.index position, item)).mapM
        fun child => (child.1, ·) <$> child.2.mapIdentifiersM f := by
  induction items generalizing start with
  | nil => simp [mapItemsM]
  | cons item rest ih =>
    rw [List.zipIdx_cons, List.map_cons, List.mapM_cons, ← ih, mapItemsM]
    simp

theorem toList_mapFieldsM {bound : Option String} (fields : Entries Tree bound) :
    (fun others : Entries Tree bound => others.toList.map fun (name, value) =>
        (Step.field name, value)) <$> mapFieldsM f fields =
      (fields.toList.map fun (name, value) => (Step.field name, value)).mapM
        fun child => (child.1, ·) <$> child.2.mapIdentifiersM f := by
  induction fields with
  | nil => simp [mapFieldsM, Entries.toList]
  | cons name above value rest ih =>
    rw [Entries.toList, List.map_cons, List.mapM_cons, ← ih, mapFieldsM]
    simp [Entries.toList]

theorem children_mapIdentifiersM {tree : Tree} (node : tree.shape ≠ .scalar) :
    children <$> tree.mapIdentifiersM f =
      tree.children.mapM fun child => (child.1, ·) <$> child.2.mapIdentifiersM f := by
  cases tree with
  | scalar value => exact (node rfl).elim
  | sequence items =>
    rw [children, ← children_mapItemsM, mapIdentifiersM, map_bind]
    simp [children]
  | record fields =>
    rw [children, ← toList_mapFieldsM, mapIdentifiersM, map_bind]
    simp [children]

end

/-- A node is what its shape and its children are. -/
theorem eq_of_children {tree other : Tree} (node : tree.shape ≠ .scalar)
    (shape : tree.shape = other.shape) (children : tree.children = other.children) :
    tree = other := by
  cases tree with
  | scalar _ => exact (node rfl).elim
  | sequence items =>
    cases other with
    | scalar _ | record _ => cases shape
    | sequence others =>
      have values := congrArg (List.map (·.2)) children
      simpa [Tree.children, Function.comp_def] using values
  | record fields =>
    cases other with
    | scalar _ | sequence _ => cases shape
    | record others =>
      have injective : Function.Injective
          fun entry : String × Tree => (Step.field entry.1, entry.2) := by
        rintro ⟨name, value⟩ ⟨name', value'⟩ same
        cases same
        rfl
      exact congrArg record (Entries.toList_inj.1 (List.map_injective_iff.2 injective children))

section
variable {σ : Type} (f : IdKind → String → StateM σ String) {tree : Tree}

/-- The function, with a record of its calls. -/
def recording (kind : IdKind) (text : String) : StateM (σ × List Call) String :=
  fun (state, calls) =>
    let (answer, next) := (f kind text).run state
    (answer, next, calls ++ [⟨kind, text, answer⟩])

/-- From every state, the function is called for the leaves of the tree, and its answers stand in
their places. -/
def Answered (tree : Tree) : Prop :=
  ∀ state before, ∃ calls result final, (tree.mapIdentifiersM f).run state = (result, final) ∧
    (tree.mapIdentifiersM (recording f)).run (state, before) = (result, final, before ++ calls) ∧
    Replaced tree calls result

theorem answered_identifier {text : String} {kind : IdKind} (known : IdKind.of? text = some kind) :
    Answered f (.str text) := by
  intro state before
  rw [mapIdentifiersM_str f known, mapIdentifiersM_str _ known]
  exact ⟨_, _, _, rfl, rfl, replaced_identifier known _⟩

theorem answered_plain {value : Scalar} (plain : value.idKind? = none) :
    Answered f (.scalar value) := by
  intro state before
  rw [mapIdentifiersM_plain f plain, mapIdentifiersM_plain _ plain]
  refine ⟨[], _, _, rfl, ?_, replaced_plain plain⟩
  rw [List.append_nil]
  rfl

theorem run_bind_of_run {α β : Type} {action : StateM σ α} {next : α → StateM σ β} {value : α}
    {state middle : σ} (run : action.run state = (value, middle)) :
    (action >>= next).run state = (next value).run middle := by
  rw [StateT.run_bind, run]
  rfl

theorem run_map_of_run {α β : Type} {action : StateM σ α} {g : α → β} {value : α}
    {state final : σ} (run : action.run state = (value, final)) :
    (g <$> action).run state = (g value, final) := by
  rw [StateT.run_map, run]
  rfl

theorem shape_run_mapIdentifiersM (node : tree.shape ≠ .scalar) (state : σ) :
    ((tree.mapIdentifiersM f).run state).1.shape = tree.shape := by
  cases tree with
  | scalar value => exact (node rfl).elim
  | sequence items => rfl
  | record fields => rfl

/-- Replaces the identifiers of children, one child after the other. -/
def replaceChildren (children : List (Step × Tree)) : StateM σ (List (Step × Tree)) :=
  children.mapM fun child => (child.1, ·) <$> child.2.mapIdentifiersM f

theorem run_replaceChildren_cons {child : Step × Tree} {rest others : List (Step × Tree)}
    {result : Tree} {state middle final : σ}
    (first : (child.2.mapIdentifiersM f).run state = (result, middle))
    (later : (replaceChildren f rest).run middle = (others, final)) :
    (replaceChildren f (child :: rest)).run state = ((child.1, result) :: others, final) := by
  rw [replaceChildren, List.mapM_cons, run_bind_of_run (run_map_of_run first)]
  exact run_bind_of_run later

theorem answered_children {rest : List (Step × Tree)} (each : ∀ child ∈ rest, Answered f child.2)
    (state : σ) (before : List Call) : ∃ calls others final,
      (replaceChildren f rest).run state = (others, final) ∧
      (replaceChildren (recording f) rest).run (state, before) =
        (others, final, before ++ calls) ∧
      ReplacedAll rest calls others := by
  induction rest generalizing state before with
  | nil => exact ⟨[], [], state, rfl, by rw [List.append_nil]; rfl, .nil⟩
  | cons child rest ih =>
    obtain ⟨calls, result, middle, run, recorded, replaced⟩ :=
      each child List.mem_cons_self state before
    obtain ⟨more, others, final, run', recorded', later⟩ :=
      ih (fun other mem => each other (List.mem_cons_of_mem _ mem)) middle (before ++ calls)
    rw [List.append_assoc] at recorded'
    exact ⟨calls ++ more, (child.1, result) :: others, final, run_replaceChildren_cons f run run',
      run_replaceChildren_cons (recording f) recorded recorded', .cons replaced later⟩

/-- The function is called for the leaves of a node when it is for those of its children. -/
theorem answered_node (node : tree.shape ≠ .scalar)
    (each : ∀ child ∈ tree.children, Answered f child.2) : Answered f tree := by
  intro state before
  obtain ⟨calls, others, final, run, recorded, replaced⟩ :=
    answered_children f each state before
  rw [replaceChildren, ← children_mapIdentifiersM f node, StateT.run_map] at run
  rw [replaceChildren, ← children_mapIdentifiersM _ node, StateT.run_map] at recorded
  obtain ⟨rfl, ends⟩ := Prod.mk.inj run
  obtain ⟨same, ends'⟩ := Prod.mk.inj recorded
  have shape := shape_run_mapIdentifiersM f node state
  have shape' := shape_run_mapIdentifiersM (recording f) node (state, before)
  have results := eq_of_children (shape'.symm ▸ node) (shape'.trans shape.symm) same
  exact ⟨calls, _, final, Prod.ext rfl ends, Prod.ext results ends',
    replaced_node node shape replaced⟩

theorem answered (tree : Tree) : Answered f tree := by
  induction tree using induction_children with
  | identifier text kind known => exact answered_identifier f known
  | plain value plain => exact answered_plain f plain
  | node tree node ih => exact answered_node f node ih

end

/-- **Every identifier is asked for once, in document order.** From every state, the recorded calls
are one for each leaf, with its kind and its text, and the answer to each stands at the path of the
leaf. All other nodes are where they were, and as they were. The leaves are the identifiers at the
ends of paths, by increasing path. -/
theorem asked_in_document_order {σ : Type} (f : IdKind → String → StateM σ String) (tree : Tree)
    (state : σ) : ∃ calls result final,
      (tree.mapIdentifiersM f).run state = (result, final) ∧
      (tree.mapIdentifiersM (recording f)).run (state, []) = (result, final, calls) ∧
      List.Forall₂ (fun leaf call => call.kind = leaf.kind ∧ call.text = leaf.text ∧
        result.at? leaf.path = some (.str call.answer)) tree.leaves calls ∧
      (∀ path, Option.Rel Resembles (tree.at? path) (result.at? path)) ∧
      (∀ leaf, leaf ∈ tree.leaves ↔
        tree.at? leaf.path = some (.str leaf.text) ∧ IdKind.of? leaf.text = some leaf.kind) ∧
      tree.leaves.Pairwise fun leaf other => leaf.path.compare other.path = .lt := by
  obtain ⟨calls, result, final, run, recorded, replaced⟩ := answered f tree state []
  exact ⟨calls, result, final, run, recorded, replaced.leaves, replaced.nodes,
    fun leaf => mem_leaves_iff, tree.sorted_leaves⟩

end Tree

end QueryIso
