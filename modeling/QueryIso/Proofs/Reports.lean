import Mathlib.Algebra.Group.Nat.Defs
import QueryIso.Comparison
import QueryIso.Proofs.Anonymous
import QueryIso.Proofs.Copies

/-!
# What a report may be trusted in

A comparison within the default limits finds bindings, comes to a negative verdict or is ended by a
limit, and its report says which.

* `Tree.bindings?_of_done`: a comparison that comes to a result has that of the one without limits;
* `Tree.rename_ne_of_bindings?`: a negative verdict excludes that one tree is the other one renamed,
  element by element;
* `Tree.report_truthful`: what the bindings, the differences and the cause of a report mean.
-/

namespace QueryIso

theorem Mismatch.reasons_of_nil {mismatch : Mismatch} (alike : mismatch.differences = [])
    (concluded : mismatch.cause = none) :
    mismatch.reasons = ["identifiers can not be renamed consistently"] := by
  rw [reasons, alike, concluded]
  rfl

namespace Tree

variable {expected actual : Tree}

theorem checkIsomorphic_eq_ok {bindings : Bindings} :
    expected.checkIsomorphic actual = .ok bindings ↔
      expected.bindingsWithin .default actual = .ok (some bindings) := by
  unfold checkIsomorphic
  split
  · rename_i found done
    simp [done]
  · rename_i done
    simp [done]
  · rename_i cause done
    simp [done]

theorem checkIsomorphic_eq_error {mismatch : Mismatch} :
    expected.checkIsomorphic actual = .error mismatch ↔
      expected.bindingsWithin .default actual = .ok none ∧ .of expected actual none = mismatch ∨
        ∃ cause, expected.bindingsWithin .default actual = .error cause ∧
          .of expected actual (some cause) = mismatch := by
  unfold checkIsomorphic
  split
  · rename_i found done
    simp [done]
  · rename_i done
    simp [done]
  · rename_i cause done
    simp [done]

theorem bindings?_of_done {limits : Limits} {result : Option Bindings}
    (done : expected.bindingsWithin limits actual = .ok result) :
    expected.bindings? actual = result := by
  rw [bindings?_eq, (bindingsWithin_eq_ok.1 done).2.2]

/-- The first pairing that is tried is that of equal positions. -/
theorem rename_ne_of_bindings? (missed : expected.bindings? actual = none) {image : String → String}
    (renames : IsRenaming image (· ∈ expected.identifiers.names)) :
    expected.rename image ≠ actual := by
  rintro rfl
  obtain ⟨bindings, _, _, found, _⟩ :=
    recognizes_copy ⟨renames.kinds, renames.injective, .refl (expected.rename image)⟩
  rw [missed] at found
  cases found

/-- **Reports are truthful.** Bindings that are returned are those of the comparison without limits.
A report without a cause stands for a negative verdict and lists the differences between the trees;
if there are none, it says that identifiers can not be renamed consistently, and indeed no renaming
makes the expected tree the actual one. A report with a cause names the limit that ended the
comparison, and lists the differences unless the trees were too deep. -/
theorem report_truthful (expected actual : Tree) :
    (∀ bindings, expected.checkIsomorphic actual = .ok bindings →
      expected.bindings? actual = some bindings) ∧
    ∀ mismatch, expected.checkIsomorphic actual = .error mismatch →
      (mismatch.expected = expected ∧ mismatch.actual = actual) ∧
      (mismatch.cause = none →
        expected.bindings? actual = none ∧
        mismatch.differences = expected.differences actual ∧
        (mismatch.differences = [] →
          mismatch.reasons = ["identifiers can not be renamed consistently"] ∧
          ∀ image, IsRenaming image (· ∈ expected.identifiers.names) →
            expected.rename image ≠ actual)) ∧
      ∀ cause, mismatch.cause = some cause →
        expected.bindingsWithin .default actual = .error cause ∧
        (∀ limit, cause = .tooDeep limit → mismatch.differences = []) ∧
        ∀ limit, cause = .tooComplex limit →
          mismatch.differences = expected.differences actual := by
  constructor
  · intro bindings found
    exact bindings?_of_done (checkIsomorphic_eq_ok.1 found)
  · intro mismatch failed
    rcases checkIsomorphic_eq_error.1 failed with ⟨done, rfl⟩ | ⟨cause, ended, rfl⟩
    · have missed := bindings?_of_done done
      refine ⟨⟨rfl, rfl⟩, fun _ => ⟨missed, rfl, fun alike => ?_⟩, fun _ impossible => ?_⟩
      · exact ⟨Mismatch.reasons_of_nil alike rfl, fun _ => rename_ne_of_bindings? missed⟩
      · cases impossible
    · refine ⟨⟨rfl, rfl⟩, fun impossible => ?_, fun _ same => ?_⟩
      · cases impossible
      · cases same
        refine ⟨ended, ?_, ?_⟩
        · rintro limit rfl
          rfl
        · rintro limit rfl
          rfl

/-- A record of two identifiers. -/
def pair (first second : String) : Tree :=
  .ofFields [("a", .str first), ("b", .str second)]

/-- A sequence of twice the same, so many levels deep. -/
def doubled : Nat → Tree
  | 0 => .scalar .null
  | levels + 1 => .sequence [doubled levels, doubled levels]

theorem depth_doubled (levels : Nat) : (doubled levels).depth = levels := by
  induction levels with
  | zero => rfl
  | succ levels ih => simp [doubled, depth, depthOfItems, ih]

theorem size_doubled (levels : Nat) : (doubled levels).size + 1 = 2 ^ (levels + 1) := by
  induction levels with
  | zero => rfl
  | succ levels ih =>
    rw [doubled, size, sizeOfItems, sizeOfItems, sizeOfItems, Nat.pow_succ, ← ih]
    omega

/-- A record of a tree and a scalar. -/
def marked (tree : Tree) (value : Scalar) : Tree :=
  .record (.cons "a" trivial tree (.cons "b" (by decide) (.scalar value) .nil))

theorem counts_marked (tree : Tree) :
    (marked tree .null).counts = (marked tree (.bool true)).counts :=
  rfl

/-- The search goes through the whole tree before it comes to the scalar. -/
theorem effort_marked {tree : Tree} {found : Bindings} {steps : Nat}
    (pass : tree.matchFreely tree .empty = ⟨some found, steps⟩) :
    (marked tree .null).effort (marked tree (.bool true)) = steps + 2 := by
  rw [effort, if_pos (counts_marked tree), marked, marked, matchFreely]
  simp [matchFieldsFreely, matchFreely, Entries.get?, Entries.length, Entries.toList, pass,
    Scalar.match?]
  omega

theorem differences_marked (tree : Tree) :
    (marked tree .null).differences (marked tree (.bool true)) =
      [⟨⟨[.field "b"]⟩, .scalar .null (.bool true)⟩] := by
  have same : tree.differences tree = [] := alike_iff.2 rfl
  rw [marked, marked, differences]
  simp [fieldDifferences, differences, same, Entries.get?, Entries.names, Entries.toList,
    Difference.under, Difference.here, Scalar.agrees, Scalar.idKind?, Path.under, Path.root]

theorem marked_too_complex :
    (marked (doubled 20) .null).bindingsWithin .default (marked (doubled 20) (.bool true)) =
      .error (.tooComplex 1000000) := by
  have unchanged : (doubled 20).rename id = doubled 20 := rename_eq_self fun _ _ => rfl
  have straight : Straight id (fun _ => True) (doubled 20) :=
    matchFreely_copy (fun _ _ => rfl) (fun _ _ _ _ same => same) fun _ _ => trivial
  obtain ⟨found, pass, _⟩ := straight .empty (Bindings.follows_empty _ _)
  rw [unchanged] at pass
  have nodes := size_doubled 20
  have depth (value : Scalar) : (marked (doubled 20) value).depth = 21 := by
    simp [marked, depth, depthOfFields, depth_doubled]
  rw [Limits.default, bindingsWithin_some, depth, depth, effort_marked pass, if_neg (by omega),
    if_pos (by omega)]

/-- Bindings, a report that only identifiers are at fault, one that lists a difference, one on trees
that are too deep, and one that lists a difference of trees that have too many nodes. -/
theorem report_truthful_pair :
    (pair "?x" "?x").bindings? (pair "?u" "?u") =
        some ⟨.ofList [("?x", "?u")], .ofList [("?u", "?x")]⟩ ∧
      (Mismatch.of (pair "?x" "?x") (pair "?u" "?v") none).differences = [] ∧
      (∀ image, IsRenaming image (· ∈ (pair "?x" "?x").identifiers.names) →
        (pair "?x" "?x").rename image ≠ pair "?u" "?v") ∧
      (marked (.str "?x") .null).bindings? (marked (.str "?x") (.bool true)) = none ∧
      (Mismatch.of (marked (.str "?x") .null) (marked (.str "?x") (.bool true)) none).differences =
        [⟨⟨[.field "b"]⟩, .scalar .null (.bool true)⟩] ∧
      (Mismatch.of (doubled 257) (doubled 300) (some (.tooDeep 256))).differences = [] ∧
      (Mismatch.of (marked (doubled 20) .null) (marked (doubled 20) (.bool true))
        (some (.tooComplex 1000000))).differences =
          [⟨⟨[.field "b"]⟩, .scalar .null (.bool true)⟩] := by
  have found : (pair "?x" "?x").checkIsomorphic (pair "?u" "?u") =
      .ok ⟨.ofList [("?x", "?u")], .ofList [("?u", "?x")]⟩ := rfl
  have failed : (pair "?x" "?x").checkIsomorphic (pair "?u" "?v") =
      .error (.of (pair "?x" "?x") (pair "?u" "?v") none) := rfl
  have differs : (marked (.str "?x") .null).checkIsomorphic (marked (.str "?x") (.bool true)) =
      .error (.of (marked (.str "?x") .null) (marked (.str "?x") (.bool true)) none) := rfl
  have deep : (doubled 257).checkIsomorphic (doubled 300) =
      .error (.of (doubled 257) (doubled 300) (some (.tooDeep 256))) := by
    refine checkIsomorphic_eq_error.2 (.inr ⟨_, ?_, rfl⟩)
    rw [Limits.default, bindingsWithin_some, depth_doubled, depth_doubled]
    rfl
  have complex :
      (marked (doubled 20) .null).checkIsomorphic (marked (doubled 20) (.bool true)) =
        .error (.of (marked (doubled 20) .null) (marked (doubled 20) (.bool true))
          (some (.tooComplex 1000000))) :=
    checkIsomorphic_eq_error.2 (.inr ⟨_, marked_too_complex, rfl⟩)
  obtain ⟨_, _, excluded⟩ := ((report_truthful _ _).2 _ failed).2.1 rfl
  obtain ⟨missed, listed, _⟩ := ((report_truthful _ _).2 _ differs).2.1 rfl
  obtain ⟨_, unlisted, _⟩ := ((report_truthful _ _).2 _ deep).2.2 _ rfl
  obtain ⟨_, _, listed'⟩ := ((report_truthful _ _).2 _ complex).2.2 _ rfl
  exact ⟨(report_truthful _ _).1 _ found, rfl, (excluded rfl).2, missed,
    listed.trans (differences_marked _), unlisted _ rfl,
    (listed' _ rfl).trans (differences_marked _)⟩

end Tree

end QueryIso
