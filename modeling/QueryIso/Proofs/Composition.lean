import Mathlib.Data.Set.Function
import QueryIso.Proofs.Renaming

/-!
# Renamings one after the other

A function of kinds and texts may make an identifier one of the other kind, or no identifier, which
a second function then leaves as it is. If it keeps kinds and is one to one, a second function can
undo it, the same for all trees.

* `Tree.exists_inverse`: one function undoes a renaming of every tree with these identifiers;
* `Tree.isRenaming_extended`: such a renaming adds one text at the end of all identifiers;
* `Tree.renamings_compose`: the identifiers of a renamed tree, and what two functions make of it.
-/

namespace QueryIso

namespace Tree

section
variable {f : IdKind → String → String} {among : String → Prop}

theorem mapIdentifiers_eq_self {g : IdKind → String → String} {tree : Tree}
    (fixed : ∀ text kind, (text, kind) ∈ tree.occurrences → g kind text = text) :
    tree.mapIdentifiers g = tree := by
  rw [mapIdentifiers_congr fixed]
  exact rename_eq_self fun _ _ => rfl

/-- A renaming that keeps kinds and is one to one can be undone. -/
theorem exists_inverse (renames : IsRenaming (byKind f) among) :
    ∃ g : IdKind → String → String, ∀ tree : Tree, (∀ text, tree.Mentions text → among text) →
      (tree.mapIdentifiers f).mapIdentifiers g = tree := by
  have injective : Set.InjOn (byKind f) {text | among text} := fun a memA b memB =>
    renames.injective a memA b memB
  refine ⟨fun _ => Function.invFunOn (byKind f) {text | among text}, fun tree inside => ?_⟩
  rw [mapIdentifiers_mapIdentifiers]
  apply mapIdentifiers_eq_self
  intro text kind occurs
  have known := kind_of_occurs occurs
  have mem : among text := inside text ⟨kind, occurs⟩
  have known' : IdKind.of? (f kind text) = some kind := by
    rw [← byKind_of_known f known, renames.kinds text mem, known]
  rw [byKind_of_known _ known', ← byKind_of_known f known]
  exact injective.leftInvOn_invFunOn mem

end

/-- Adds a text at the end. -/
def extended (more : String) (_ : IdKind) (text : String) : String :=
  text ++ more

theorem kind_append {text : String} {kind : IdKind} (known : IdKind.of? text = some kind)
    (more : String) : IdKind.of? (text ++ more) = some kind := by
  rw [IdKind.of?] at known
  rw [IdKind.of?, String.toList_append]
  split at known
  · next rest chars =>
    rw [chars]
    exact known
  · next rest chars =>
    rw [chars]
    exact known
  · cases known

theorem isRenaming_extended (more : String) :
    IsRenaming (byKind (extended more)) fun text => (IdKind.of? text).isSome where
  kinds text known := by
    obtain ⟨kind, known⟩ := Option.isSome_iff_exists.1 known
    rw [byKind_of_known _ known, known]
    exact kind_append known more
  injective a knownA b knownB same := by
    obtain ⟨kind, knownA⟩ := Option.isSome_iff_exists.1 knownA
    obtain ⟨kind', knownB⟩ := Option.isSome_iff_exists.1 knownB
    rw [byKind_of_known _ knownA, byKind_of_known _ knownB] at same
    exact (String.append_left_inj more).1 same

/-- **Renamings compose.** The identifiers of a renamed tree are the images of its identifiers that
are identifiers. A second function renames those, and leaves other images as they are. Where kinds
are kept and no two identifiers have one image, some second function gives back every tree. -/
theorem renamings_compose (f : IdKind → String → String) :
    (∀ (tree : Tree) (text : String), text ∈ (tree.mapIdentifiers f).identifiers.names ↔
      (IdKind.of? text).isSome ∧ ∃ source ∈ tree.identifiers.names, byKind f source = text) ∧
    (∀ (g : IdKind → String → String) (tree : Tree), (tree.mapIdentifiers f).mapIdentifiers g =
      tree.mapIdentifiers fun kind text => byKind g (f kind text)) ∧
    ∀ among, IsRenaming (byKind f) among → ∃ g : IdKind → String → String, ∀ tree : Tree,
      (∀ text ∈ tree.identifiers.names, among text) →
        (tree.mapIdentifiers f).mapIdentifiers g = tree := by
  simp only [mem_identifiers_iff]
  exact ⟨fun tree text => mentions_mapIdentifiers, mapIdentifiers_mapIdentifiers f,
    fun among => exists_inverse⟩

/-- Numbered identifiers get their names back. -/
theorem renamings_compose_numbered :
    IsRenaming (byKind (extended "1")) (fun text => (IdKind.of? text).isSome) ∧
    ∃ g : IdKind → String → String, ∀ tree : Tree,
      (tree.mapIdentifiers (extended "1")).mapIdentifiers g = tree := by
  have renames := isRenaming_extended "1"
  obtain ⟨g, undoes⟩ := (renamings_compose (extended "1")).2.2 _ renames
  refine ⟨renames, g, fun tree => undoes tree fun text mem => ?_⟩
  obtain ⟨kind, known⟩ := (mem_identifiers_iff.1 mem).kind
  rw [known, Option.isSome_some]

end Tree

end QueryIso
