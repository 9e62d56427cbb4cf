import QueryIso.Proofs.Patterns
import QueryIso.Proofs.Rigidity

/-!
# Which tree is called expected

Isomorphisms can be undone, but the search fixes the elements of the expected tree in order, so
what it misses depends on which tree is called expected. A verdict that changes when the trees are
exchanged is a missed isomorphism, and only a tree that is not safe has any:

* `Tree.isomorphic_iff_exists`: for a safe tree, the verdict is the definition;
* `Tree.exchange_finds`: what is found for any tree is found the other way round, from a safe one;
* `Tree.verdict_symmetric`: so the verdict is symmetric on safe trees.
-/

namespace QueryIso

namespace Tree

section
variable {expected actual : Tree}

theorem isomorphic_iff_verdict? :
    expected.isomorphic actual = true ↔ ∃ bindings, expected.verdict? actual = some bindings := by
  rw [isomorphic, bindings?_eq, Option.isSome_iff_exists]

theorem exists_isomorphism (found : expected.isomorphic actual = true) :
    ∃ image, Isomorphism image expected actual := by
  obtain ⟨bindings, verdict⟩ := isomorphic_iff_verdict?.1 found
  exact ⟨bindings.image, isomorphism_of_verdict verdict⟩

theorem isomorphic_iff_exists (safe : expected.Safe) :
    expected.isomorphic actual = true ↔ ∃ image, Isomorphism image expected actual := by
  refine ⟨exists_isomorphism, ?_⟩
  rintro ⟨image, iso⟩
  exact isomorphic_iff_verdict?.2 (found_of_isomorphism safe iso)

theorem exists_isomorphism_back (found : expected.isomorphic actual = true) :
    ∃ image, Isomorphism image actual expected := by
  obtain ⟨image, iso⟩ := exists_isomorphism found
  obtain ⟨back, returns, _⟩ := iso.exists_back
  exact ⟨back, returns⟩

theorem exchange_finds (safe : actual.Safe) (found : expected.isomorphic actual = true) :
    actual.isomorphic expected = true :=
  (isomorphic_iff_exists safe).2 (exists_isomorphism_back found)

end

/-- A variable before two others that are in a sequence. -/
def ahead (first second third : String) : Tree :=
  .sequence [.str first, .sequence [.str second, .str third]]

/-- A variable behind two others that are in a sequence. -/
def behind (first second third : String) : Tree :=
  .sequence [.sequence [.str first, .str second], .str third]

/-- The inner sequence comes last, so nothing depends on how it is matched. -/
theorem safe_ahead (first second third : String) : (ahead first second third).Safe := by
  have last (tree : Tree) (before : String → Prop) : tree.Neutral before [] :=
    fun _ _ _ next mem => absurd mem List.not_mem_nil
  exact ⟨last _ _, trivial, ⟨last _ _, trivial, trivial, trivial⟩, trivial⟩

theorem ahead_finds_behind :
    (ahead "?x" "?x" "?y").isomorphic (behind "?q" "?p" "?p") = true := by
  decide

/-- The inner sequence is first matched in the order that the variable behind it does not fit. -/
theorem behind_misses_ahead :
    (behind "?q" "?p" "?p").isomorphic (ahead "?x" "?x" "?y") = false := by
  decide

/-- Which of two isomorphic trees is called expected can decide the verdict. -/
theorem isomorphic_one_way :
    (ahead "?x" "?x" "?y").isomorphic (behind "?q" "?p" "?p") = true ∧
      (behind "?q" "?p" "?p").isomorphic (ahead "?x" "?x" "?y") = false :=
  ⟨ahead_finds_behind, behind_misses_ahead⟩

/-- **The verdict is symmetric on safe trees.** If two trees are found isomorphic, there is an
isomorphism the other way round as well, and it is found from a safe tree. Hence two safe trees have
the same verdict both ways; trees of rigid sequences and flat trees are safe. -/
theorem verdict_symmetric (expected actual : Tree) :
    (actual.isomorphic expected = true → ∃ image, Isomorphism image expected actual) ∧
      (expected.Safe → actual.isomorphic expected = true → expected.isomorphic actual = true) ∧
      (expected.Safe → actual.Safe →
        expected.isomorphic actual = actual.isomorphic expected) ∧
      (expected.RigidSequences ∨ expected.Flat → expected.Safe) := by
  refine ⟨exists_isomorphism_back, exchange_finds, fun safe safe' => ?_, ?_⟩
  · exact Bool.eq_iff_iff.2 ⟨exchange_finds safe', exchange_finds safe⟩
  · rintro (rigid | flat)
    · exact safeBetween_of_rigidSequences rigid _ _
    · exact flat.safe

/-- What is found where both sequences come last is found the other way round too; a tree from which
an isomorphism is missed is not safe; a basic graph pattern is. -/
theorem verdict_symmetric_ahead :
    (ahead "?x" "?x" "?y").isomorphic (ahead "?p" "?q" "?p") = true ∧
      (ahead "?p" "?q" "?p").isomorphic (ahead "?x" "?x" "?y") = true ∧
      ¬ (behind "?q" "?p" "?p").Safe ∧
      (links [("?x", "?y"), ("?y", "?x")]).Safe := by
  have there : (ahead "?x" "?x" "?y").isomorphic (ahead "?p" "?q" "?p") = true := rfl
  have exchanged := (verdict_symmetric (ahead "?x" "?x" "?y") (ahead "?p" "?q" "?p")).2.2.1
    (safe_ahead _ _ _) (safe_ahead _ _ _)
  refine ⟨there, exchanged ▸ there, fun safe => ?_, ?_⟩
  · have back := (verdict_symmetric (behind "?q" "?p" "?p") (ahead "?x" "?x" "?y")).2.1 safe
      ahead_finds_behind
    rw [behind_misses_ahead] at back
    cases back
  · let exchange := links [("?x", "?y"), ("?y", "?x")]
    exact (verdict_symmetric exchange exchange).2.2.2 (.inr (flat_bgp (element_links _)))

end Tree

end QueryIso
