import QueryIso.Proofs.Soundness

/-!
# Rejection by counting

A comparison rejects two trees with different numbers of identifiers without searching. The search
would not have found anything either, whatever the limits, because what it finds is one to one and
keeps kinds.

* `SearchM.matchWith_relaxed`: limits only end a search, so one that is not ended does what the
  search without limits does;
* `Tree.match?_of_run`: hence its answer is that of `Tree.match?`, from any table and at any depth;
* `Tree.counts_eq_of_match?`: what it finds from the empty table pairs all identifiers;
* `Tree.counting_agrees`: so counting first replaces no positive verdict.
-/

namespace QueryIso

namespace SearchM

/-- The second search does all that the first one does when the first one is not ended. -/
def Relaxed {α : Type} (limited free : SearchM α) : Prop :=
  ∀ progress value after,
    limited.run.run progress = (.ok value, after) → free.run.run progress = (.ok value, after)

namespace Relaxed

variable {limits : Limits}

theorem refl {α : Type} (x : SearchM α) : Relaxed x x :=
  fun _ _ _ run => run

theorem bind {α β : Type} {x y : SearchM α} {f g : α → SearchM β} (first : Relaxed x y)
    (second : ∀ value, Relaxed (f value) (g value)) : Relaxed (x >>= f) (y >>= g) := by
  intro progress value after run
  rw [Matching.run_bind] at run ⊢
  cases here : x.run.run progress with
  | mk outcome middle =>
    rw [here] at run
    cases outcome with
    | error error => cases run
    | ok found =>
      rw [first progress found middle here]
      exact second found middle value after run

/-- Searches that relax others step by step. -/
def simulation : Matching.Simulation SearchM SearchM where
  Rel := Relaxed
  pure value := refl (pure value)
  bind := bind

theorem step (depth : Nat) : Relaxed (step limits depth) (step .unlimited depth) := by
  intro progress value after run
  rw [run_step] at run ⊢
  cases steps : limits.checkSteps (progress.steps + 1) with
  | error error =>
    rw [steps] at run
    cases run
  | ok =>
    rw [steps] at run
    exact Prod.ext rfl (congrArg (·.2) run)

theorem matchInAnyOrder {items actual : List Tree} {depth : Nat} {bindings : Bindings}
    (relaxed : ∀ item ∈ items, ∀ candidate bindings, Relaxed
      (item.matchWith limits candidate depth bindings)
      (item.matchWith .unlimited candidate depth bindings)) :
    Relaxed (Tree.matchInAnyOrder (Tree.matchersOf limits items) actual depth bindings)
      (Tree.matchInAnyOrder (Tree.matchersOf .unlimited items) actual depth bindings) := by
  rw [Tree.matchersOf_eq_map, Tree.matchersOf_eq_map, Tree.matchInAnyOrder, Tree.matchInAnyOrder,
    Matching.find?_map, Matching.find?_map]
  refine bind (Matching.find?_related simulation ?_ (fun _ _ => refl _) actual bindings)
    fun found => refl _
  intro item mem candidate bindings
  exact bind (relaxed item mem candidate bindings) fun matched => refl _

theorem matchFields {bound : Option String} {fields : Entries Tree bound} {actual : Dict Tree}
    {depth : Nat} {bindings : Bindings}
    (relaxed : ∀ value ∈ fields.values, ∀ candidate bindings, Relaxed
      (value.matchWith limits candidate depth bindings)
      (value.matchWith .unlimited candidate depth bindings)) :
    Relaxed (Tree.matchFields limits fields actual depth bindings)
      (Tree.matchFields .unlimited fields actual depth bindings) := by
  induction fields generalizing bindings with
  | nil => exact refl _
  | cons name above expected rest ih =>
    unfold Tree.matchFields
    cases actual.get? name with
    | none => exact refl _
    | some value =>
      apply bind (relaxed expected List.mem_cons_self value bindings)
      rintro ⟨verdict, reached⟩
      cases verdict with
      | false => exact refl _
      | true => exact ih fun other mem => relaxed other (List.mem_cons_of_mem _ mem)

end Relaxed

/-- Limits only end a search. -/
theorem matchWith_relaxed (limits : Limits) (expected actual : Tree) (depth : Nat)
    (bindings : Bindings) :
    Relaxed (expected.matchWith limits actual depth bindings)
      (expected.matchWith .unlimited actual depth bindings) := by
  induction expected generalizing actual depth bindings with
  | identifier text kind _ => exact .bind (.step depth) fun _ => .refl _
  | plain value _ => exact .bind (.step depth) fun _ => .refl _
  | sequence items ih =>
    cases actual with
    | scalar _ | record _ => exact .bind (.step depth) fun _ => .refl _
    | sequence actual =>
      rw [Tree.matchWith, Tree.matchWith]
      exact .bind (.step depth) fun _ => .matchInAnyOrder fun item mem candidate bindings =>
        ih item mem candidate (depth + 1) bindings
  | record fields ih =>
    cases actual with
    | scalar _ | sequence _ => exact .bind (.step depth) fun _ => .refl _
    | record actual =>
      rw [Tree.matchWith, Tree.matchWith]
      refine .bind (.step depth) fun _ => ?_
      split
      · exact .matchFields fun value mem candidate bindings =>
          ih value mem candidate (depth + 1) bindings
      · exact .refl _

end SearchM

namespace Tree

variable {limits : Limits} {expected actual : Tree}

/-- A search that no limit ends answers what `match?` does. -/
theorem match?_of_run {depth : Nat} {start : Bindings} {matched : Matched}
    {progress after : Progress}
    (run : (expected.matchWith limits actual depth start).run.run progress = (.ok matched, after)) :
    expected.match? actual start = matched.reached? := by
  have free := SearchM.matchWith_relaxed limits expected actual depth start _ _ _ run
  obtain ⟨value, log, view, run'⟩ :=
    @matchWith_guarded .unlimited expected actual depth start rfl progress rfl
  rw [run'] at free
  cases free
  exact view.symm

/-- Bindings that make two trees equal pair all their identifiers. -/
theorem counts_eq_of_match? {bindings : Bindings}
    (success : expected.match? actual .empty = some bindings) :
    expected.counts = actual.counts := by
  obtain ⟨grows, linked⟩ :=
    match?_sound expected actual .empty bindings Bindings.oneToOne_empty success
  exact (linked.isomorphism grows.oneToOne).census_eq

/-- **Counting agrees with the search.** If the trees differ in how many identifiers of some kind
they have, a comparison of trees that are not too deep finds nothing, and the search itself, within
any limits, either answers in the negative or is ended by a limit. -/
theorem counting_agrees (differ : expected.counts.blankNodes ≠ actual.counts.blankNodes ∨
    expected.counts.vars ≠ actual.counts.vars) (limits : Limits) :
    (limits.checkDepth (max expected.depth actual.depth) = .ok () →
      expected.bindingsWithin limits actual = .ok none) ∧
    ∀ progress, ∃ after,
      (∃ bindings, (expected.matchWith limits actual 0 .empty).run.run progress =
        (.ok (false, bindings), after)) ∨
      ∃ error, (expected.matchWith limits actual 0 .empty).run.run progress =
        (.error error, after) := by
  have counts : expected.counts ≠ actual.counts := by
    intro same
    rw [same] at differ
    exact differ.elim (· rfl) (· rfl)
  constructor
  · intro room
    rw [bindingsWithin_eq, room, effort, verdict?, if_neg counts, if_neg counts,
      limits.checkSteps_zero]
    rfl
  · intro progress
    cases run : (expected.matchWith limits actual 0 .empty).run.run progress with
    | mk outcome after =>
      refine ⟨after, ?_⟩
      cases outcome with
      | error error => exact .inr ⟨error, rfl⟩
      | ok result =>
        obtain ⟨verdict, bindings⟩ := result
        cases verdict with
        | false => exact .inl ⟨bindings, rfl⟩
        | true => exact (counts (counts_eq_of_match? (match?_of_run run))).elim

/-- Two variables against one that occurs twice: pair by pair there is nothing wrong with them. -/
theorem counting_agrees_repeated :
    let expected : Tree := .sequence [.str "?x", .str "?y"]
    let actual : Tree := .sequence [.str "?u", .str "?u"]
    expected.counts.vars ≠ actual.counts.vars ∧
      expected.bindingsWithin .default actual = .ok none ∧
      ∃ after, (∃ bindings, (expected.matchWith .unlimited actual 0 .empty).run.run {} =
          (.ok (false, bindings), after)) ∨
        ∃ error, (expected.matchWith .unlimited actual 0 .empty).run.run {} =
          (.error error, after) := by
  intro expected actual
  have differ : expected.counts.vars ≠ actual.counts.vars := by decide
  exact ⟨differ, (counting_agrees (.inr differ) .default).1 rfl,
    (counting_agrees (.inr differ) .unlimited).2 {}⟩

end Tree

end QueryIso
