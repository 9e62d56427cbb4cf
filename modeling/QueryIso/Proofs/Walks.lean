import QueryIso.Proofs.Leaves
import QueryIso.Proofs.Limits
import QueryIso.Proofs.Positions

/-!
# Two walks over identifiers

The identifiers of a tree are collected by two walks: `Tree.identifiers`, and the one before a
search, which stays within a limit on the depth. Both find what stands at the ends of paths.

* `Tree.depth_le_iff`: a tree is as deep as its longest path is long;
* `Census.lookup_entries`, `Census.entries_inj`: the numbers of the kinds that occur are all that a
  census holds;
* `Tree.number_counts`: they are the numbers of distinct identifiers of each kind;
* `Tree.identifier_walks_agree`: the walk before a search fails exactly if some path is longer than
  the limit, and otherwise collects and counts the identifiers of the tree.
-/

namespace QueryIso

namespace Census

/-- A kind that occurs is listed with its number, and no other kind is listed. -/
theorem lookup_entries (census : Census) (kind : IdKind) :
    census.entries.lookup kind =
      if census.number kind = 0 then none else some (census.number kind) := by
  have apart : (IdKind.blankNode == .var) = false ∧ (IdKind.var == .blankNode) = false :=
    ⟨rfl, rfl⟩
  unfold entries
  by_cases blankNodes : census.number .blankNode = 0 <;>
    by_cases vars : census.number .var = 0 <;>
    cases kind <;> simp [blankNodes, vars, List.lookup_cons, apart]

/-- What a census lists determines it. -/
theorem entries_inj {census other : Census} : census.entries = other.entries ↔ census = other := by
  refine ⟨fun same => ?_, fun same => same ▸ rfl⟩
  have numbers (kind : IdKind) : census.number kind = other.number kind := by
    have here := lookup_entries census kind
    rw [same, lookup_entries] at here
    split at here <;> split at here <;> simp_all
  cases census
  cases other
  exact congrArg₂ Census.mk (numbers .blankNode) (numbers .var)

theorem number_ofIdentifiers (identifiers : Dict IdKind) (kind : IdKind) :
    (ofIdentifiers identifiers).number kind = (identifiers.toList.map (·.2)).count kind := by
  cases kind <;> rfl

end Census

namespace Tree

variable {tree : Tree} {limit : Nat}

/-- A census counts distinct identifiers. -/
theorem number_counts (tree : Tree) (kind : IdKind) :
    tree.counts.number kind = tree.identifiers.names.countP (IdKind.of? · = some kind) := by
  rw [counts, Census.number_ofIdentifiers, kinds_eq_map, List.count, List.countP_map]
  apply List.countP_congr
  intro text mem
  obtain ⟨found, known⟩ := (mem_identifiers_iff.1 mem).kind
  simp [known]

/-- A node is one level deeper than its deepest child. -/
theorem depth_le_iff_children :
    tree.depth ≤ limit ↔ ∀ child ∈ tree.children, child.2.depth + 1 ≤ limit := by
  cases tree with
  | scalar value => simp [depth, children]
  | sequence items =>
    rw [depth, depthOfItems_le_iff]
    constructor
    · intro each child mem
      exact each child.2 (mem_of_mem_children mem)
    · intro each item mem
      obtain ⟨step, here⟩ := exists_child?_sequence.2 mem
      exact each (step, item) (child?_eq_some_iff.1 here)
  | record fields =>
    rw [depth, depthOfFields_eq, depthOfItems_le_iff]
    constructor
    · intro each child mem
      exact each child.2 (mem_values_of_mem_children mem)
    · intro each value mem
      obtain ⟨step, here⟩ := exists_child?_record.2 mem
      exact each (step, value) (child?_eq_some_iff.1 here)

theorem depth_le_iff_scalar (value : Scalar) : (scalar value).depth ≤ limit ↔
    ∀ path node, (scalar value).at? path = some node → path.steps.length ≤ limit := by
  refine iff_of_true (Nat.zero_le limit) fun path node found => ?_
  rcases at?_eq_some_iff.1 found with ⟨rfl, _⟩ | ⟨child, mem, _⟩
  · exact Nat.zero_le limit
  · cases mem

/-- A tree is as deep as its longest path is long. -/
theorem depth_le_iff :
    tree.depth ≤ limit ↔ ∀ path node, tree.at? path = some node → path.steps.length ≤ limit := by
  induction tree using induction_children generalizing limit with
  | identifier text kind known => exact depth_le_iff_scalar (.str text)
  | plain value plain => exact depth_le_iff_scalar value
  | node tree node ih =>
    rw [depth_le_iff_children]
    constructor
    · intro each path final found
      rcases at?_eq_some_iff.1 found with ⟨rfl, _⟩ | ⟨child, mem, below, rfl, rest⟩
      · exact Nat.zero_le limit
      · have here := each child mem
        have short : below.steps.length ≤ limit - 1 :=
          (ih child mem).1 (by omega) below final rest
        simp only [Path.under, List.length_cons]
        omega
    · intro short child mem
      have under (path : Path) (final : Tree) (found : child.2.at? path = some final) :
          path.steps.length + 1 ≤ limit :=
        short (path.under child.1) final (at?_eq_some_iff.2 (.inr ⟨child, mem, path, rfl, found⟩))
      have room : child.2.depth ≤ limit - 1 := by
        refine (ih child mem).2 fun path final found => ?_
        have := under path final found
        omega
      -- the step to the child itself excludes a limit of zero
      have := under .root child.2 rfl
      omega

/-- **Both walks find what paths lead to.** The identifiers of a tree are those that stand at the
ends of its paths. The walk before a search fails with its limit if a path with more steps leads to
a node. Otherwise it collects the identifiers of the tree, and its census lists each kind of them
with their number, and no kind that does not occur. -/
theorem identifier_walks_agree (tree : Tree) :
    (∀ text, text ∈ tree.identifiers.names ↔
      (IdKind.of? text).isSome ∧ ∃ path, tree.at? path = some (.str text)) ∧
    ∀ (limit : Nat) (steps : Option Nat),
      ((∃ path node, tree.at? path = some node ∧ limit < path.steps.length) →
        tree.census ⟨some limit, steps⟩ = .error (.tooDeep limit)) ∧
      ((∀ path node, tree.at? path = some node → path.steps.length ≤ limit) →
        tree.gather ⟨some limit, steps⟩ 0 .nil = .ok tree.identifiers ∧
        ∃ census, tree.census ⟨some limit, steps⟩ = .ok census ∧ ∀ kind,
          let number := tree.identifiers.names.countP (IdKind.of? · = some kind)
          census.entries.lookup kind = if number = 0 then none else some number) := by
  refine ⟨fun text => mem_identifiers_iff.trans mentions_iff_at?, fun limit steps => ⟨?_, ?_⟩⟩
  · rintro ⟨path, node, found, beyond⟩
    have deep : ¬ tree.depth ≤ limit := by
      intro fits
      have := depth_le_iff.1 fits path node found
      omega
    have exceeded : Limits.checkDepth ⟨some limit, steps⟩ tree.depth = .error (.tooDeep limit) :=
      if_neg deep
    rw [census_eq, exceeded]
    rfl
  · intro short
    have within : Limits.checkDepth ⟨some limit, steps⟩ tree.depth = .ok () :=
      if_pos (depth_le_iff.2 short)
    refine ⟨?_, tree.counts, ?_, fun kind => ?_⟩
    · rw [gather_root, within]
      rfl
    · rw [census_eq, within]
      rfl
    · rw [Census.lookup_entries, number_counts]

/-- A variable that occurs on two levels, and a field that is named like a blank node. -/
def recurring : Tree :=
  .sequence [.str "?x", .ofFields [("_:b", .sequence [.str "?x", .scalar .null])]]

/-- What is below the limit need not be an identifier, and a walk that goes as deep as the tree
counts the variable once. -/
theorem identifier_walks_agree_recurring :
    "_:b" ∉ recurring.identifiers.names ∧
      recurring.census ⟨some 2, none⟩ = .error (.tooDeep 2) ∧
      ∃ census, recurring.census ⟨some 3, none⟩ = .ok census ∧
        census.entries.lookup .var = some 1 ∧ census.entries.lookup .blankNode = none := by
  obtain ⟨_, walk⟩ := identifier_walks_agree recurring
  have below : recurring.at? ⟨[.index 1, .field "_:b", .index 1]⟩ = some (.scalar .null) := rfl
  have short : ∀ path node, recurring.at? path = some node → path.steps.length ≤ 3 :=
    depth_le_iff.1 (by decide)
  obtain ⟨_, census, counted, numbers⟩ := (walk 3 none).2 short
  exact ⟨by decide, (walk 2 none).1 ⟨_, _, below, by decide⟩, census, counted, numbers .var,
    numbers .blankNode⟩

end Tree

end QueryIso
