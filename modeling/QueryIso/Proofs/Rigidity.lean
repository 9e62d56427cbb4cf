import QueryIso.Proofs.Completeness
import QueryIso.Proofs.Paths

/-!
# Negative verdicts without symmetric sequences

What a sequence has bound stays bound for its siblings. That makes no difference when the sequences
of the expected tree are *rigid*: a rigid sequence has at most one isomorphism to another one, and
whichever the search finds is the one that the siblings need.

* `Tree.Rigid.unique`: two isomorphisms from a rigid tree agree;
* `Tree.rigid_of_rigidSequences`, `Tree.safeBetween_of_rigidSequences`: a tree of rigid sequences is
  rigid itself, and no isomorphism from it is missed;
* `Tree.verdict_exact_of_rigid`: both verdicts are exact.
-/

namespace QueryIso

namespace Tree

/-- Every isomorphism of the tree with itself leaves its identifiers as they are. -/
def Rigid (tree : Tree) : Prop :=
  ∀ image, Isomorphism image tree tree → ∀ text ∈ tree.identifiers.names, image text = text

/-- Every sequence that occurs in the tree is rigid. -/
def RigidSequences (tree : Tree) : Prop :=
  ∀ path items, tree.at? path = some (.sequence items) → (sequence items).Rigid

theorem Rigid.unique {tree other : Tree} {image next : String → String} (rigid : tree.Rigid)
    (first : Isomorphism image tree other) (second : Isomorphism next tree other)
    {text : String} (mem : text ∈ tree.identifiers.names) : image text = next text := by
  obtain ⟨round, itself, returns, _⟩ := first.exists_round second
  rw [← returns text mem, rigid round itself text mem]

theorem rigidSequences_sequence_iff {items : List Tree} :
    (sequence items).RigidSequences ↔
      (sequence items).Rigid ∧ ∀ item ∈ items, item.RigidSequences :=
  forall_sequences_sequence_iff

theorem rigidSequences_record_iff {fields : Dict Tree} :
    (record fields).RigidSequences ↔ ∀ value ∈ fields.values, value.RigidSequences :=
  forall_sequences_record_iff

/-- A sequence with at most one identifier of each kind has no other isomorphism with itself than to
leave them as they are. -/
theorem rigidSequences_of_few {tree : Tree} (few : ∀ a ∈ tree.identifiers.names,
    ∀ b ∈ tree.identifiers.names, IdKind.of? a = IdKind.of? b → a = b) : tree.RigidSequences := by
  intro path items found image iso text mem
  have inside {name : String} (mem : name ∈ (sequence items).identifiers.names) :
      name ∈ tree.identifiers.names :=
    mem_identifiers_iff.2 (mentions_of_at? found (mem_identifiers_iff.1 mem))
  exact few _ (inside (iso.image_mem mem)) _ (inside mem) (iso.keepsKinds text mem)

theorem eq_of_count_le_one {kind : IdKind} {names : List String}
    (few : (names.map fun text => (IdKind.of? text).getD .var).count kind ≤ 1) {a b : String}
    (memA : a ∈ names) (memB : b ∈ names) (kindA : IdKind.of? a = some kind)
    (kindB : IdKind.of? b = some kind) : a = b := by
  rw [List.count, List.countP_map, List.countP_eq_length_filter] at few
  have keptA : a ∈ names.filter ((· == kind) ∘ fun text => (IdKind.of? text).getD .var) :=
    List.mem_filter.2 ⟨memA, by simp [kindA]⟩
  have keptB : b ∈ names.filter ((· == kind) ∘ fun text => (IdKind.of? text).getD .var) :=
    List.mem_filter.2 ⟨memB, by simp [kindB]⟩
  obtain ⟨only, same⟩ := List.length_eq_one_iff.1
    (Nat.le_antisymm few (List.length_pos_of_mem keptA))
  rw [same, List.mem_singleton] at keptA keptB
  rw [keptA, keptB]

theorem rigidSequences_of_counts {tree : Tree} (blankNodes : tree.counts.blankNodes ≤ 1)
    (vars : tree.counts.vars ≤ 1) : tree.RigidSequences := by
  rw [counts, Census.ofIdentifiers, kinds_eq_map] at blankNodes vars
  apply rigidSequences_of_few
  intro a memA b memB same
  obtain ⟨kind, kindA⟩ := (mem_identifiers_iff.1 memA).kind
  have kindB : IdKind.of? b = some kind := same ▸ kindA
  cases kind with
  | blankNode => exact eq_of_count_le_one blankNodes memA memB kindA kindB
  | var => exact eq_of_count_le_one vars memA memB kindA kindB

/-- A tree is rigid when its sequences are: in a record, every value is mapped to itself. -/
theorem rigid_of_rigidSequences {tree : Tree} (rigid : tree.RigidSequences) : tree.Rigid := by
  induction tree with
  | identifier name kind known =>
    intro image iso text mem
    rw [(mentions_str known).1 (mem_identifiers_iff.1 mem)]
    have same := iso.reordered
    rw [rename_str known] at same
    generalize image name = other at same
    cases same with
    | scalar _ => rfl
  | plain value plain =>
    intro image iso text mem
    exact (not_mentions_plain plain text (mem_identifiers_iff.1 mem)).elim
  | sequence items _ => exact (rigidSequences_sequence_iff.1 rigid).1
  | record fields ih =>
    intro image iso text mem
    obtain ⟨value, memValue, mentioned⟩ := mentions_record.1 (mem_identifiers_iff.1 mem)
    have inside {text : String} (mem : text ∈ value.identifiers.names) :
        text ∈ (record fields).identifiers.names :=
      mem_identifiers_iff.2 (mentions_record.2 ⟨value, memValue, mem_identifiers_iff.1 mem⟩)
    have same := iso.reordered
    rw [rename_record] at same
    cases same with
    | record _ pairs =>
      rw [Entries.values_map, List.forall₂_map_left_iff, List.forall₂_same] at pairs
      have itself : Isomorphism image value value :=
        ⟨fun text mem => iso.keepsKinds text (inside mem),
          fun a memA b memB => iso.injective a (inside memA) b (inside memB), pairs value memValue⟩
      exact ih value memValue (rigidSequences_record_iff.1 rigid value memValue) image itself text
        (mem_identifiers_iff.2 mentioned)

theorem safeBetween_of_rigidSequences {tree : Tree} (rigid : tree.RigidSequences)
    (before : String → Prop) (after : List Tree) : tree.SafeBetween before after := by
  induction tree generalizing before after with
  | identifier _ _ _ => trivial
  | plain _ _ => trivial
  | sequence items ih =>
    obtain ⟨here, each⟩ := rigidSequences_sequence_iff.1 rigid
    refine ⟨neutral_of_fixed fun image iso still next _ text _ => ?_,
      safeItems_of_forall (fun item mem => ih item mem (each item mem)) before⟩
    by_cases mem : text ∈ (sequence items).identifiers.names
    · exact here image iso text mem
    · exact still text mem
  | record fields ih =>
    have each := rigidSequences_record_iff.1 rigid
    exact safeFields_iff.2
      (safeItems_of_forall (fun value mem => ih value mem (each value mem)) before)

theorem verdict?_of_isomorphism {image : String → String} {expected actual : Tree}
    (rigid : expected.RigidSequences) (iso : Isomorphism image expected actual) :
    ∃ bindings, expected.verdict? actual = some bindings ∧
      bindings.Follows image expected.Mentions := by
  obtain ⟨bindings, found⟩ := found_of_isomorphism (safeBetween_of_rigidSequences rigid _ _) iso
  refine ⟨bindings, found, ?_⟩
  obtain ⟨grows, linked⟩ := match?_sound expected actual .empty bindings Bindings.oneToOne_empty
    (reached_of_verdict found)
  refine ⟨grows.oneToOne, fun text target bound => ?_⟩
  rcases grows.added text target bound with impossible | mentioned
  · cases impossible
  · have agree := (rigid_of_rigidSequences rigid).unique iso (linked.isomorphism grows.oneToOne)
      (mem_identifiers_iff.2 mentioned)
    rw [Bindings.image_of_get? bound] at agree
    exact ⟨mentioned, agree.symm⟩

/-- **Without symmetric sequences, both verdicts are exact.** If every sequence that occurs in the
expected tree is rigid, as it is when the tree has at most one identifier of each kind, then a
negative verdict excludes every isomorphism, and the bindings found are the only one. -/
theorem verdict_exact_of_rigid {limits : Limits} {expected actual : Tree} {found : Option Bindings}
    (rigid : expected.RigidSequences ∨
      expected.counts.blankNodes ≤ 1 ∧ expected.counts.vars ≤ 1)
    (done : expected.bindingsWithin limits actual = .ok found) :
    (found = none → ∀ image, ¬ Isomorphism image expected actual) ∧
      ∀ bindings, found = some bindings →
        Isomorphism bindings.image expected actual ∧
          ∀ image, Isomorphism image expected actual →
            bindings.toList = expected.identifiers.names.map fun text => (text, image text) := by
  have rigid' : expected.RigidSequences := by
    rcases rigid with rigid | ⟨blankNodes, vars⟩
    · exact rigid
    · exact rigidSequences_of_counts blankNodes vars
  have verdict : found = expected.verdict? actual := (bindingsWithin_eq_ok.1 done).2.2
  constructor
  · rintro rfl image iso
    obtain ⟨bindings, success, _⟩ := verdict?_of_isomorphism rigid' iso
    rw [← verdict] at success
    cases success
  · rintro bindings rfl
    obtain ⟨grows, linked⟩ :=
      match?_sound expected actual .empty bindings Bindings.oneToOne_empty (reached_of_found done)
    refine ⟨linked.isomorphism grows.oneToOne, fun image iso => ?_⟩
    obtain ⟨bindings', success, follows⟩ := verdict?_of_isomorphism rigid' iso
    rw [← verdict, Option.some.injEq] at success
    exact toList_of_follows (reached_of_found done) (success ▸ follows)

/-- Two sequences with an identifier each, and an identifier beside them. -/
def beside (first second third : String) : Tree :=
  .ofFields [("a", .sequence [.str first, .scalar .null]),
    ("b", .sequence [.scalar (.bool true), .str second]), ("c", .str third)]

theorem rigidSequences_beside : (beside "?x" "?y" "?x").RigidSequences := by
  apply rigidSequences_record_iff.2
  intro value mem
  have cases : value ∈ [sequence [.str "?x", .scalar .null],
    .sequence [.scalar (.bool true), .str "?y"], .str "?x"] := mem
  simp only [List.mem_cons, List.not_mem_nil, or_false] at cases
  rcases cases with rfl | rfl | rfl <;> exact rigidSequences_of_counts (by decide) (by decide)

/-- The identifier beside the sequences is the first one here and the second one there. -/
theorem verdict_exact_of_rigid_beside :
    (beside "?x" "?y" "?x").counts.vars = 2 ∧
      (beside "?x" "?y" "?x").bindingsWithin .default (beside "?u" "?v" "?v") = .ok none ∧
      ∀ image, ¬ Isomorphism image (beside "?x" "?y" "?x") (beside "?u" "?v" "?v") := by
  have missed :
      (beside "?x" "?y" "?x").bindingsWithin .default (beside "?u" "?v" "?v") = .ok none :=
    rfl
  exact ⟨rfl, missed, (verdict_exact_of_rigid (.inl rigidSequences_beside) missed).1 rfl⟩

end Tree

end QueryIso
