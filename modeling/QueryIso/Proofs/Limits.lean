import QueryIso.Isomorphism
import QueryIso.Proofs.Counting
import QueryIso.Proofs.Reordering

/-!
# Limits never change a verdict

* `Tree.census_eq`: the walk before the search fails exactly on trees that are too deep, and counts
  the identifiers of the others;
* `Tree.search_run_of_counts`: what a comparison within the limits on the depth returns and tells;
* `Tree.limits_never_change_verdict`: for two trees there are a number of steps and a result, and
  every comparison of them fails with its limit on the depth, fails with its limit on the steps or
  has that result.
-/

namespace QueryIso

namespace Limits

theorem checkDepth_max (limits : Limits) (a b : Nat) :
    limits.checkDepth (max a b) = limits.checkDepth a >>= fun _ => limits.checkDepth b := by
  unfold checkDepth
  split
  · rfl
  · rename_i limit _
    by_cases fitsA : a ≤ limit <;> by_cases fitsB : b ≤ limit <;> simp [fitsA, fitsB] <;> rfl

theorem checkDepth_add (limits : Limits) (depth more : Nat) :
    limits.checkDepth (depth + more) =
      limits.checkDepth depth >>= fun _ => limits.checkDepth (depth + more) := by
  rw [← checkDepth_max, Nat.max_eq_right (Nat.le_add_right depth more)]

end Limits

namespace Tree

section
variable (limits : Limits)

/-- The table after giving every pair its value in order. -/
def insertAll (pairs : List (String × IdKind)) (found : Dict IdKind) : Dict IdKind :=
  pairs.foldl (fun dict pair => dict.insert pair.1 pair.2) found

theorem gatherItems_eq {items : List Tree} {depth : Nat} (here : limits.checkDepth depth = .ok ())
    (each : ∀ item ∈ items, ∀ depth found, item.gather limits depth found =
      (limits.checkDepth (depth + item.depth)).map fun _ => insertAll item.occurrences found)
    (found : Dict IdKind) :
    gatherItems limits items (depth + 1) found =
      (limits.checkDepth (depth + depthOfItems items)).map fun _ =>
        insertAll (items.flatMap occurrences) found := by
  induction items generalizing found with
  | nil =>
    change _ = (limits.checkDepth depth).map _
    rw [here]
    rfl
  | cons item rest ih =>
    have ih := ih fun other mem => each other (List.mem_cons_of_mem _ mem)
    have sum : depth + 1 + item.depth = depth + (item.depth + 1) := by omega
    rw [gatherItems, each item List.mem_cons_self, depthOfItems, ← Nat.add_max_add_left,
      Limits.checkDepth_max, sum]
    cases limits.checkDepth (depth + (item.depth + 1)) with
    | error error => rfl
    | ok =>
      change gatherItems limits rest (depth + 1) (insertAll item.occurrences found) = _
      rw [ih, insertAll, insertAll, insertAll, List.flatMap_cons, List.foldl_append]
      rfl

theorem gatherFields_eq {bound : Option String} (fields : Entries Tree bound) (depth : Nat)
    (found : Dict IdKind) :
    gatherFields limits fields depth found = gatherItems limits fields.values depth found := by
  induction fields generalizing found with
  | nil => rfl
  | cons name above value rest ih =>
    rw [gatherFields, Entries.values_cons, gatherItems]
    congr 1
    funext found
    exact ih found

theorem gather_eq (tree : Tree) (depth : Nat) (found : Dict IdKind) :
    tree.gather limits depth found =
      (limits.checkDepth (depth + tree.depth)).map fun _ => insertAll tree.occurrences found := by
  induction tree generalizing depth found with
  | identifier text kind known =>
    have kind? : (Scalar.str text).idKind? = some kind := known
    rw [occurrences_str known, str, gather, kind?, Tree.depth, Nat.add_zero]
    cases limits.checkDepth depth <;> rfl
  | plain value plain =>
    rw [occurrences_plain plain, gather, plain, Tree.depth, Nat.add_zero]
    cases limits.checkDepth depth with
    | error error => rfl
    | ok => cases value.str? <;> rfl
  | sequence items ih =>
    rw [gather, occurrences_sequence, Tree.depth, Limits.checkDepth_add]
    cases here : limits.checkDepth depth with
    | error error => rfl
    | ok => exact gatherItems_eq limits here ih found
  | record fields ih =>
    rw [gather, occurrences_record, Tree.depth, depthOfFields_eq, Limits.checkDepth_add]
    cases here : limits.checkDepth depth with
    | error error => rfl
    | ok =>
      exact (gatherFields_eq limits fields _ found).trans (gatherItems_eq limits here ih found)

/-- The walk before the search collects the identifiers of a tree that is not too deep. -/
theorem gather_root (tree : Tree) :
    tree.gather limits 0 .nil = (limits.checkDepth tree.depth).map fun _ => tree.identifiers := by
  rw [gather_eq, Nat.zero_add]
  rfl

/-- It counts what it has collected. -/
theorem census_eq (tree : Tree) :
    tree.census limits =
      (limits.checkDepth tree.depth).map fun _ => Census.ofIdentifiers tree.identifiers := by
  rw [census, gather_root]
  cases limits.checkDepth tree.depth <;> rfl

end

/-- The numbers of identifiers of each kind. -/
def counts (tree : Tree) : Census :=
  .ofIdentifiers tree.identifiers

/-- The number of comparisons that a comparison of two trees takes. -/
def effort (expected actual : Tree) : Nat :=
  if expected.counts = actual.counts then (expected.matchFreely actual .empty).steps else 0

/-- The result of a comparison that no limit ends. -/
def verdict? (expected actual : Tree) : Option Bindings :=
  if expected.counts = actual.counts then (expected.matchFreely actual .empty).value else none

section
variable {limits : Limits} {expected actual : Tree}

theorem search_eq (limits : Limits) (expected actual : Tree) :
    expected.search limits actual =
      (liftM (limits.checkDepth (max expected.depth actual.depth)) : SearchM Unit) >>= fun _ =>
        if expected.counts ≠ actual.counts then do
          SearchM.tell (.countsDiffer expected.counts actual.counts)
          return none
        else do
          let (verdict, bindings) ← expected.matchWith limits actual 0 .empty
          SearchM.tell (.concluded verdict (← get).steps bindings.length)
          return if verdict then some bindings else none := by
  rw [search, census_eq, census_eq, Limits.checkDepth_max]
  cases limits.checkDepth expected.depth with
  | error error => rfl
  | ok =>
    cases limits.checkDepth actual.depth with
    | error error => rfl
    | ok => rfl

theorem search_run_of_counts (room : limits.checkDepth (max expected.depth actual.depth) = .ok ())
    (same : expected.counts = actual.counts) :
    match limits.checkSteps (expected.effort actual) with
    | .ok _ => ∃ size log, (expected.search limits actual).run.run {} =
        (.ok (expected.verdict? actual), ⟨expected.effort actual,
          .concluded (expected.verdict? actual).isSome (expected.effort actual) size :: log⟩)
    | .error error =>
      ∃ after, (expected.search limits actual).run.run {} = (.error error, after) := by
  have shallow : limits.checkDepth (0 + expected.depth) = .ok () := by
    rw [Nat.zero_add]
    exact Limits.checkDepth_mono (Nat.le_max_left _ _) room
  have guarded := matchWith_guarded expected actual 0 .empty shallow {} limits.checkSteps_zero
  rw [search_eq, room, if_neg (not_not.2 same), effort, verdict?, if_pos same, if_pos same]
  rw [Nat.zero_add] at guarded
  cases check : limits.checkSteps (expected.matchFreely actual .empty).steps with
  | error error =>
    rw [check] at guarded
    obtain ⟨after, run⟩ := guarded
    refine ⟨after, ?_⟩
    change (expected.matchWith limits actual 0 .empty >>= fun _ => _).run.run {} = _
    rw [Matching.run_bind, run]
  | ok =>
    rw [check] at guarded
    obtain ⟨⟨verdict, bindings⟩, log, view, run⟩ := guarded
    refine ⟨bindings.length, log, ?_⟩
    change (expected.matchWith limits actual 0 .empty >>= fun _ => _).run.run {} = _
    rw [Matching.run_bind, run, ← view]
    cases verdict <;> rfl

theorem search_run_of_counts_ne
    (room : limits.checkDepth (max expected.depth actual.depth) = .ok ())
    (differ : expected.counts ≠ actual.counts) :
    (expected.search limits actual).run.run {} =
      (.ok none, ⟨0, [.countsDiffer expected.counts actual.counts]⟩) := by
  rw [search_eq, room, if_pos differ]
  rfl

/-- The outcome of a comparison: the limits on the depth are checked before those on the steps, and
the result depends on neither. -/
theorem bindingsWithin_eq (limits : Limits) (expected actual : Tree) :
    expected.bindingsWithin limits actual =
      limits.checkDepth (max expected.depth actual.depth) >>= fun _ =>
        (limits.checkSteps (expected.effort actual)).map fun _ => expected.verdict? actual := by
  change ((expected.search limits actual).run.run {}).1 = _
  cases room : limits.checkDepth (max expected.depth actual.depth) with
  | error error =>
    rw [search_eq, room]
    rfl
  | ok =>
    by_cases same : expected.counts = actual.counts
    · have run := search_run_of_counts room same
      cases check : limits.checkSteps (expected.effort actual) with
      | error error =>
        rw [check] at run
        obtain ⟨after, run⟩ := run
        rw [run]
        rfl
      | ok =>
        rw [check] at run
        obtain ⟨size, log, run⟩ := run
        rw [run]
        rfl
    · rw [search_run_of_counts_ne room same, effort, verdict?, if_neg same, if_neg same,
        limits.checkSteps_zero]
      rfl

theorem bindingsWithin_eq_ok {result : Option Bindings} :
    expected.bindingsWithin limits actual = .ok result ↔
      limits.checkDepth (max expected.depth actual.depth) = .ok () ∧
        limits.checkSteps (expected.effort actual) = .ok () ∧
          result = expected.verdict? actual := by
  rw [bindingsWithin_eq]
  cases limits.checkDepth (max expected.depth actual.depth) with
  | error error =>
    constructor
    · intro impossible
      cases impossible
    · rintro ⟨impossible, _⟩
      cases impossible
  | ok =>
    cases limits.checkSteps (expected.effort actual) with
    | error error =>
      constructor
      · intro impossible
        cases impossible
      · rintro ⟨_, impossible, _⟩
        cases impossible
    | ok =>
      constructor
      · intro done
        exact ⟨rfl, rfl, (Except.ok.inj done).symm⟩
      · rintro ⟨_, _, rfl⟩
        rfl

theorem bindings?_eq (expected actual : Tree) :
    expected.bindings? actual = expected.verdict? actual := by
  rw [bindings?, bindingsWithin_eq]
  rfl

/-- A comparison that comes to a result with the search done ends by telling the steps taken. -/
theorem last_event {result : Option Bindings}
    (done : (Run.of limits expected actual).outcome = .ok result)
    (same : expected.counts = actual.counts) :
    ∃ size, (Run.of limits expected actual).events.getLast? =
      some (.concluded result.isSome (expected.effort actual) size) := by
  obtain ⟨room, enough, rfl⟩ := bindingsWithin_eq_ok.1 done
  have run := search_run_of_counts room same
  rw [enough] at run
  obtain ⟨size, log, run⟩ := run
  refine ⟨size, ?_⟩
  change ((expected.search limits actual).run.run {}).2.log.reverse.getLast? = _
  rw [run]
  simp

/-- The outcome within a limit on the depth and one on the steps. -/
theorem bindingsWithin_some (expected actual : Tree) (depthLimit stepLimit : Nat) :
    expected.bindingsWithin ⟨some depthLimit, some stepLimit⟩ actual =
      if depthLimit < max expected.depth actual.depth then .error (.tooDeep depthLimit)
      else if stepLimit < expected.effort actual then .error (.tooComplex stepLimit)
      else .ok (expected.verdict? actual) := by
  rw [bindingsWithin_eq]
  by_cases deep : depthLimit < max expected.depth actual.depth
  · rw [if_pos deep, Limits.checkDepth]
    dsimp only
    rw [if_neg (by omega)]
    rfl
  · rw [if_neg deep, Limits.checkDepth]
    dsimp only
    rw [if_pos (by omega)]
    by_cases more : stepLimit < expected.effort actual
    · rw [if_pos more, Limits.checkSteps]
      dsimp only
      rw [if_neg (by omega)]
      rfl
    · rw [if_neg more, Limits.checkSteps]
      dsimp only
      rw [if_pos (by omega)]
      rfl

/-- **Limits never change a verdict.** Two trees determine a number of steps and a result. A
comparison of them fails with its limit on the depth if one of them is deeper, otherwise with its
limit on the steps if that is smaller than their number, and otherwise it has the result. The number
is 0 when the trees differ in how many identifiers of a kind they have; otherwise it is what a
comparison tells last. A comparison without limits has the result of those that come to one, and so
has one whose limits are the greatest words, as long as the trees stay below them. -/
theorem limits_never_change_verdict (expected actual : Tree) :
    (∀ depthLimit stepLimit : Nat,
      expected.bindingsWithin ⟨some depthLimit, some stepLimit⟩ actual =
        if depthLimit < max expected.depth actual.depth then .error (.tooDeep depthLimit)
        else if stepLimit < expected.effort actual then .error (.tooComplex stepLimit)
        else .ok (expected.verdict? actual)) ∧
    (expected.counts ≠ actual.counts → expected.effort actual = 0) ∧
    (expected.counts = actual.counts → ∀ limits result,
      (Run.of limits expected actual).outcome = .ok result →
        ∃ size, (Run.of limits expected actual).events.getLast? =
          some (.concluded result.isSome (expected.effort actual) size)) ∧
    expected.bindings? actual = expected.verdict? actual ∧
    (∀ limits result, expected.bindingsWithin limits actual = .ok result →
      expected.bindings? actual = result) ∧
    (max expected.depth actual.depth < UInt64.size → expected.effort actual < UInt64.size →
      expected.bindingsWithin ⟨some (UInt64.size - 1), some (UInt64.size - 1)⟩ actual =
        .ok (expected.verdict? actual)) := by
  refine ⟨bindingsWithin_some expected actual, ?_, ?_, bindings?_eq expected actual, ?_, ?_⟩
  · intro differ
    rw [effort, if_neg differ]
  · intro same limits result done
    exact last_event done same
  · intro limits result done
    rw [bindings?_eq, (bindingsWithin_eq_ok.1 done).2.2]
  · intro shallow few
    rw [bindingsWithin_some, if_neg (by omega), if_neg (by omega)]

end

/-- Two variables, one of them repeated in a sequence within the sequence. -/
def repeated : Tree :=
  .sequence [.str "?x", .sequence [.str "?y", .str "?x"]]

/-- The same with other variables, in another order. -/
def reordered : Tree :=
  .sequence [.sequence [.str "?p", .str "?q"], .str "?p"]

/-- Seven comparisons, and a limit of six that ends the search. -/
theorem limits_never_change_verdict_reordered :
    repeated.effort reordered = 7 ∧
      repeated.bindingsWithin ⟨some 2, some 6⟩ reordered = .error (.tooComplex 6) ∧
      repeated.bindingsWithin ⟨some 1, some 6⟩ reordered = .error (.tooDeep 1) ∧
      repeated.bindingsWithin ⟨some 2, some 7⟩ reordered =
        .ok (some ⟨.ofList [("?x", "?p"), ("?y", "?q")], .ofList [("?p", "?x"), ("?q", "?y")]⟩) ∧
      repeated.bindings? reordered =
        some ⟨.ofList [("?x", "?p"), ("?y", "?q")], .ofList [("?p", "?x"), ("?q", "?y")]⟩ := by
  have steps : repeated.effort reordered = 7 := rfl
  have found : repeated.verdict? reordered =
      some ⟨.ofList [("?x", "?p"), ("?y", "?q")], .ofList [("?p", "?x"), ("?q", "?y")]⟩ := rfl
  obtain ⟨outcome, _, _, free, _⟩ := limits_never_change_verdict repeated reordered
  rw [steps, found] at outcome
  exact ⟨steps, outcome 2 6, outcome 1 6, outcome 2 7, free.trans found⟩

end Tree

end QueryIso
