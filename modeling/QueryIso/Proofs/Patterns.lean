import QueryIso.Algebra.Element
import QueryIso.Proofs.Completeness
import QueryIso.Proofs.Paths

/-!
# Basic graph patterns

In a *flat* tree no sequence is inside another one, and nothing after a sequence has identifiers. A
sequence of a flat tree may be as symmetric as it likes: whichever pairing of its elements is found,
it is the last choice of the search.

* `Tree.Flat.safe`: a flat tree is safe;
* `Tree.flat_bgp`: a basic graph pattern of triple patterns between scalars is flat;
* `Tree.verdict_exact_of_flat`: the verdict on a flat tree is exact.
-/

namespace QueryIso

namespace Tree

/-- No sequence occurs in the tree. -/
def SequenceFree (tree : Tree) : Prop :=
  ∀ path items, tree.at? path ≠ some (.sequence items)

theorem sequenceFree_scalar (value : Scalar) : (scalar value).SequenceFree :=
  forall_sequences_scalar value

theorem not_sequenceFree_sequence (items : List Tree) : ¬ (sequence items).SequenceFree :=
  fun free => free .root items rfl

theorem sequenceFree_record_iff {fields : Dict Tree} :
    (record fields).SequenceFree ↔ ∀ value ∈ fields.values, value.SequenceFree :=
  forall_sequences_record_iff

/-- The tree has no sequence, or is a sequence of trees that have none, or is a record with one flat
value that is followed by values without identifiers, and whose other values have no sequence. -/
inductive Flat : Tree → Prop
  | sequenceFree {tree : Tree} (free : tree.SequenceFree) : Flat tree
  | sequence {items : List Tree} (free : ∀ item ∈ items, item.SequenceFree) :
    Flat (.sequence items)
  | record {fields : Dict Tree} {front rest : List Tree} {value : Tree}
    (split : fields.values = front ++ value :: rest) (flat : Flat value)
    (free : ∀ other ∈ front ++ rest, other.SequenceFree)
    (silent : ∀ other ∈ rest, ∀ text, ¬ other.Mentions text) : Flat (.record fields)

theorem safeBetween_of_sequenceFree {tree : Tree} (free : tree.SequenceFree)
    (before : String → Prop) (after : List Tree) : tree.SafeBetween before after := by
  induction tree generalizing before after with
  | identifier _ _ _ => trivial
  | plain _ _ => trivial
  | sequence items _ => exact (not_sequenceFree_sequence items free).elim
  | record fields ih =>
    have each := sequenceFree_record_iff.1 free
    exact safeFields_iff.2
      (safeItems_of_forall (fun value mem => ih value mem (each value mem)) before)

/-- A flat tree is safe between anything and trees without identifiers. -/
theorem safeBetween_of_flat {tree : Tree} (flat : tree.Flat) {after : List Tree}
    (silent : ∀ next ∈ after, ∀ text, ¬ next.Mentions text) (before : String → Prop) :
    tree.SafeBetween before after := by
  induction flat generalizing before after with
  | sequenceFree free => exact safeBetween_of_sequenceFree free before after
  | sequence free =>
    refine ⟨neutral_of_fixed fun _ _ _ next mem text mentioned => ?_,
      safeItems_of_forall (fun item mem => safeBetween_of_sequenceFree (free item mem)) before⟩
    exact (silent next mem text mentioned).elim
  | @record fields front rest value split flat free silentRest ih =>
    apply safeFields_iff.2
    rw [split]
    have freeFront (other : Tree) (mem : other ∈ front) :=
      safeBetween_of_sequenceFree (free other (List.mem_append_left rest mem))
    have freeRest (other : Tree) (mem : other ∈ rest) :=
      safeBetween_of_sequenceFree (free other (List.mem_append_right front mem))
    have silentAfter : ∀ next ∈ rest ++ after, ∀ text, ¬ next.Mentions text := by
      intro next mem
      rcases List.mem_append.1 mem with mem | mem
      · exact silentRest next mem
      · exact silent next mem
    have later (before : String → Prop) : SafeItems (value :: rest) before after :=
      ⟨ih silentAfter before, safeItems_of_forall freeRest _⟩
    exact safeItems_append freeFront later before

theorem Flat.safe {tree : Tree} (flat : tree.Flat) : tree.Safe :=
  safeBetween_of_flat flat (fun _ mem => absurd mem List.not_mem_nil) _

/-- The triple pattern of three scalars. -/
def triplePattern (scalars : Scalar × Scalar × Scalar) : Tree :=
  Algebra.triple (.scalar scalars.1) (.scalar scalars.2.1) (.scalar scalars.2.2)

theorem sequenceFree_triplePattern (scalars : Scalar × Scalar × Scalar) :
    (triplePattern scalars).SequenceFree := by
  apply sequenceFree_record_iff.2
  intro value mem
  obtain ⟨name, given⟩ := Dict.exists_of_mem_values mem
  simp only [List.mem_append, List.mem_cons, Prod.mk.injEq, List.not_mem_nil, or_false] at given
  rcases given with (⟨_, rfl⟩ | ⟨_, rfl⟩ | ⟨_, rfl⟩) | ⟨_, rfl⟩ <;> exact sequenceFree_scalar _

/-- A basic graph pattern of triple patterns is flat: its type comes after its patterns. -/
theorem flat_bgp {patterns : List (Scalar × Scalar × Scalar)} {tree : Tree}
    (built : Algebra.element "bgp" (patterns.map triplePattern) = .ok tree) : tree.Flat := by
  have shape : Algebra.node .bgp [("patterns", .sequence (patterns.map triplePattern))] = tree :=
    Except.ok.inj built
  rw [← shape]
  let fields : List (String × Tree) :=
    [("patterns", .sequence (patterns.map triplePattern)), ("type", .str "bgp")]
  have before : "patterns" < "type" := by decide
  have ordered : (Dict.ofList fields).toList = fields :=
    Dict.toList_ofList (.refl _) (List.pairwise_pair.2 before)
  have values : Flat (.sequence (patterns.map triplePattern)) := by
    refine .sequence fun item mem => ?_
    obtain ⟨scalars, _, rfl⟩ := List.mem_map.1 mem
    exact sequenceFree_triplePattern scalars
  have split : (Dict.ofList fields).values = fields.map (·.2) := by rw [Entries.values, ordered]
  refine @Flat.record _ [] [.str "bgp"] _ split values ?_ ?_
  · intro other mem
    rw [List.mem_singleton.1 mem]
    exact sequenceFree_scalar _
  · intro other mem
    rw [List.mem_singleton.1 mem]
    exact not_mentions_plain rfl

/-- **Verdicts on basic graph patterns are exact.** If the expected tree is flat, as it is when it
is a basic graph pattern of triple patterns between scalars, a negative verdict excludes every
isomorphism, and bindings that are found are one. -/
theorem verdict_exact_of_flat {limits : Limits} {expected actual : Tree} {found : Option Bindings}
    (flat : expected.Flat ∨ ∃ patterns : List (Scalar × Scalar × Scalar),
      Algebra.element "bgp" (patterns.map triplePattern) = .ok expected)
    (done : expected.bindingsWithin limits actual = .ok found) :
    (found = none → ∀ image, ¬ Isomorphism image expected actual) ∧
      ∀ bindings, found = some bindings → Isomorphism bindings.image expected actual := by
  have flat' : expected.Flat := by
    rcases flat with flat | ⟨patterns, built⟩
    · exact flat
    · exact flat_bgp built
  have verdict : found = expected.verdict? actual := (bindingsWithin_eq_ok.1 done).2.2
  constructor
  · rintro rfl image iso
    obtain ⟨bindings, success⟩ := found_of_isomorphism flat'.safe iso
    rw [← verdict] at success
    cases success
  · rintro bindings rfl
    exact isomorphism_of_verdict verdict.symm

/-- The subject, predicate and object of a link. -/
def link (ends : String × String) : Scalar × Scalar × Scalar :=
  (.str ends.1, .str "knows", .str ends.2)

/-- The basic graph pattern of these links. -/
def links (pairs : List (String × String)) : Tree :=
  Algebra.node .bgp [("patterns", .sequence ((pairs.map link).map triplePattern))]

theorem element_links (pairs : List (String × String)) :
    Algebra.element "bgp" ((pairs.map link).map triplePattern) = .ok (links pairs) :=
  rfl

/-- Two variables that are linked both ways may be exchanged; linked twice one way, they are not the
same pattern. -/
theorem verdict_exact_of_flat_exchange :
    (links [("?x", "?y"), ("?y", "?x")]).bindingsWithin .default
        (links [("?u", "?v"), ("?u", "?v")]) = .ok none ∧
      ∀ image, ¬ Isomorphism image (links [("?x", "?y"), ("?y", "?x")])
        (links [("?u", "?v"), ("?u", "?v")]) := by
  have missed : (links [("?x", "?y"), ("?y", "?x")]).bindingsWithin .default
      (links [("?u", "?v"), ("?u", "?v")]) = .ok none := rfl
  exact ⟨missed, (verdict_exact_of_flat (.inr ⟨_, element_links _⟩) missed).1 rfl⟩

end Tree

end QueryIso
