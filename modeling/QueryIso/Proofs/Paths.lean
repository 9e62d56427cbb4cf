import QueryIso.Path
import QueryIso.Proofs.Renaming

/-!
# Nodes at the ends of paths

A node of a sequence is the sequence itself or a node of an element (`Tree.exists_at?_sequence`),
and likewise for records, so that facts about all nodes are proved by induction over the tree.
-/

namespace QueryIso

namespace Tree

variable {tree node : Tree} {items : List Tree} {fields : Dict Tree}

/-- A path that goes on with another one leads where that one leads from its end. -/
theorem at?_append (tree : Tree) (first second : List Step) :
    tree.at? ⟨first ++ second⟩ = (tree.at? ⟨first⟩).bind (·.at? ⟨second⟩) :=
  List.foldlM_append

/-- A path into a child leads where it leads from that child. -/
theorem at?_under_of_child? {step : Step} {child : Tree} (here : tree.child? step = some child)
    (path : Path) : tree.at? (path.under step) = child.at? path := by
  rw [at?_under, here, Option.bind_some]

/-- A node at the end of some path is the root or a node of a child. -/
theorem exists_at?_iff : (∃ path, tree.at? path = some node) ↔
    node = tree ∨
      ∃ step child, tree.child? step = some child ∧ ∃ path, child.at? path = some node := by
  constructor
  · rintro ⟨⟨steps⟩, found⟩
    cases steps with
    | nil => exact .inl (Option.some.inj found).symm
    | cons step rest =>
      change (tree.child? step).bind (·.at? ⟨rest⟩) = some node at found
      obtain ⟨child, here, below⟩ := Option.bind_eq_some_iff.1 found
      exact .inr ⟨step, child, here, ⟨rest⟩, below⟩
  · rintro (rfl | ⟨step, child, here, path, below⟩)
    · exact ⟨.root, at?_root node⟩
    · exact ⟨path.under step, (at?_under_of_child? here path).trans below⟩

theorem exists_child?_scalar (value : Scalar) (step : Step) (child : Tree) :
    (scalar value).child? step ≠ some child := by
  cases step <;> exact fun impossible => by cases impossible

theorem exists_child?_sequence {child : Tree} :
    (∃ step, (sequence items).child? step = some child) ↔ child ∈ items := by
  rw [List.mem_iff_getElem?]
  constructor
  · rintro ⟨_ | position, found⟩
    · cases found
    · exact ⟨position, found⟩
  · rintro ⟨position, found⟩
    exact ⟨.index position, found⟩

theorem exists_child?_record {child : Tree} :
    (∃ step, (record fields).child? step = some child) ↔ child ∈ fields.values := by
  constructor
  · rintro ⟨name | _, found⟩
    · have mem : (name, child) ∈ fields.toList := Entries.get?_eq_some_iff.1 found
      exact List.mem_map.2 ⟨_, mem, rfl⟩
    · cases found
  · intro mem
    obtain ⟨⟨name, value⟩, entry, rfl⟩ := List.mem_map.1 mem
    exact ⟨.field name, Entries.get?_eq_some_iff.2 entry⟩

theorem exists_at?_scalar {value : Scalar} :
    (∃ path, (scalar value).at? path = some node) ↔ node = scalar value := by
  rw [exists_at?_iff]
  constructor
  · rintro (root | ⟨step, child, here, _⟩)
    · exact root
    · exact (exists_child?_scalar value step child here).elim
  · exact .inl

theorem exists_at?_sequence : (∃ path, (sequence items).at? path = some node) ↔
    node = sequence items ∨ ∃ item ∈ items, ∃ path, item.at? path = some node := by
  rw [exists_at?_iff]
  apply or_congr_right
  constructor
  · rintro ⟨step, child, here, below⟩
    exact ⟨child, exists_child?_sequence.1 ⟨step, here⟩, below⟩
  · rintro ⟨item, mem, below⟩
    obtain ⟨step, here⟩ := exists_child?_sequence.2 mem
    exact ⟨step, item, here, below⟩

theorem exists_at?_record : (∃ path, (record fields).at? path = some node) ↔
    node = record fields ∨ ∃ value ∈ fields.values, ∃ path, value.at? path = some node := by
  rw [exists_at?_iff]
  apply or_congr_right
  constructor
  · rintro ⟨step, child, here, below⟩
    exact ⟨child, exists_child?_record.1 ⟨step, here⟩, below⟩
  · rintro ⟨value, mem, below⟩
    obtain ⟨step, here⟩ := exists_child?_record.2 mem
    exact ⟨step, value, here, below⟩

/-! ## Properties of all sequences -/

section
variable {property : List Tree → Prop}

theorem forall_sequences_scalar (value : Scalar) (path : Path) (others : List Tree)
    (found : (scalar value).at? path = some (.sequence others)) : property others := by
  cases exists_at?_scalar.1 ⟨path, found⟩

theorem forall_sequences_sequence_iff :
    (∀ path others, (sequence items).at? path = some (.sequence others) → property others) ↔
      property items ∧ ∀ item ∈ items, ∀ path others,
        item.at? path = some (.sequence others) → property others := by
  constructor
  · intro each
    refine ⟨each .root items rfl, fun item mem path others below => ?_⟩
    obtain ⟨path', here⟩ := exists_at?_sequence.2 (.inr ⟨item, mem, path, below⟩)
    exact each path' others here
  · rintro ⟨here, each⟩ path others found
    rcases exists_at?_sequence.1 ⟨path, found⟩ with root | ⟨item, mem, path, below⟩
    · cases root
      exact here
    · exact each item mem path others below

theorem forall_sequences_record_iff :
    (∀ path others, (record fields).at? path = some (.sequence others) → property others) ↔
      ∀ value ∈ fields.values, ∀ path others,
        value.at? path = some (.sequence others) → property others := by
  constructor
  · intro each value mem path others below
    obtain ⟨path', here⟩ := exists_at?_record.2 (.inr ⟨value, mem, path, below⟩)
    exact each path' others here
  · intro each path others found
    rcases exists_at?_record.1 ⟨path, found⟩ with root | ⟨value, mem, path, below⟩
    · cases root
    · exact each value mem path others below

end

/-- A tree mentions what its nodes mention. -/
theorem mentions_of_at? {path : Path} (found : tree.at? path = some node) {text : String}
    (mentioned : node.Mentions text) : tree.Mentions text := by
  induction tree generalizing path with
  | identifier _ _ _ =>
    rw [exists_at?_scalar.1 ⟨path, found⟩] at mentioned
    exact mentioned
  | plain _ _ =>
    rw [exists_at?_scalar.1 ⟨path, found⟩] at mentioned
    exact mentioned
  | sequence items ih =>
    rcases exists_at?_sequence.1 ⟨path, found⟩ with rfl | ⟨item, mem, path, below⟩
    · exact mentioned
    · exact mentions_sequence.2 ⟨item, mem, ih item mem below⟩
  | record fields ih =>
    rcases exists_at?_record.1 ⟨path, found⟩ with rfl | ⟨value, mem, path, below⟩
    · exact mentioned
    · exact mentions_record.2 ⟨value, mem, ih value mem below⟩

end Tree

end QueryIso
