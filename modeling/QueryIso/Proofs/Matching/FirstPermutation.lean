import Mathlib.Data.List.Perm.Subperm
import Mathlib.Data.List.Lex
import QueryIso.Proofs.Matching.Trace

/-!
# The matching that a search finds

A search whose tests neither fail nor have effects is compared with a search through all orders of
the candidates, each given as a permutation of their positions.

* `Matching.search_eq`: the search concludes with the first branch of its walk that pairs all
  elements and is accepted;
* `Matching.findSome?_eq_some_iff_of_sorted`: in a sorted list that is the least one;
* `Matching.search_first_permutation`: so the search finds the state along the lexicographically
  first order whose pairs are all accepted, and nothing if there is no such order.
-/

namespace QueryIso

namespace Matching

/-- The first answer in a sorted list is that of its least element with an answer. -/
theorem findSome?_eq_some_iff_of_sorted {α β : Type} [Preorder α] {f : α → Option β}
    {list : List α} (sorted : list.Pairwise (· < ·)) {answer : β} :
    list.findSome? f = some answer ↔
      ∃ first ∈ list, f first = some answer ∧ ∀ other ∈ list, other < first → f other = none := by
  rw [List.findSome?_eq_some_iff]
  constructor
  · rintro ⟨before, first, after, rfl, found, silent⟩
    have later := (List.pairwise_cons.1 (List.pairwise_append.1 sorted).2.1).1
    refine ⟨first, by simp, found, fun other mem less => ?_⟩
    rcases List.mem_append.1 mem with mem | mem
    · exact silent other mem
    · rcases List.mem_cons.1 mem with rfl | mem
      · exact absurd less (lt_irrefl other)
      · exact absurd less (lt_asymm (later other mem))
  · rintro ⟨first, mem, found, silent⟩
    obtain ⟨before, after, rfl⟩ := List.append_of_mem mem
    have earlier := (List.pairwise_append.1 sorted).2.2
    refine ⟨before, first, after, rfl, found, fun other mem => ?_⟩
    exact silent other (List.mem_append_left _ mem) (earlier other mem first List.mem_cons_self)

theorem perm_range_iff {order : List Nat} {size : Nat} : order.Perm (List.range size) ↔
    order.Nodup ∧ (∀ position ∈ order, position ∈ List.range size) ∧ order.length = size := by
  constructor
  · intro perm
    exact ⟨perm.nodup_iff.2 List.nodup_range, fun position mem => perm.subset mem,
      perm.length_eq.trans List.length_range⟩
  · rintro ⟨nodup, inside, length⟩
    apply (List.subperm_of_subset nodup inside).perm_of_length_le
    rw [List.length_range, length]

variable {E A S : Type}

/-- A search whose tests neither fail nor have effects. -/
def search (test : E → A → S → Bool × S) (expected : List E) (actual : List A) (state : S) :
    Option S :=
  (find? (fun element candidate state => pure (answer (test element candidate state)))
    (fun _ _ => pure ()) expected actual state : Id (Option S)).run

/-- The state along an order of the candidates, if a test accepts every pair on the way. -/
def reachedAlong (test : E → A → S → Bool × S) (expected : List E) (actual : List A) (state : S)
    (order : List Nat) : Option S :=
  reached? (fun element candidate state => answer (test element candidate state)) actual expected
    state order

/-- A test that cannot fail, among those that may. -/
def total (test : E → A → S → Bool × S) (element : E) (candidate : A) (state : S) :
    Except Empty (Bool × S) :=
  .ok (test element candidate state)

/-- The walk of a search whose tests cannot fail. -/
def branches (test : E → A → S → Bool × S) (expected : List E) (actual : List A) (state : S) :
    List (List Nat) :=
  walk (accepts (total test)) actual expected (List.range actual.length) state

theorem sorted_branches (test : E → A → S → Bool × S) (expected : List E) (actual : List A)
    (state : S) : (branches test expected actual state).Pairwise (· < ·) :=
  sorted_walk List.pairwise_lt_range

/-- A computation, and one with the same result that leaves a trace. -/
def traced (X E A S : Type) : Simulation Id (TraceM X E A S) where
  Rel x y := ∀ trace, ∃ after, y.run.run trace = (.ok x.run, after)
  pure _ trace := ⟨trace, rfl⟩
  bind first second := by
    intro trace
    obtain ⟨after, run⟩ := first trace
    rw [run_bind, run]
    exact second _ after

variable {test : E → A → S → Bool × S} {expected : List E} {actual : List A} {state final : S}
  {order : List Nat}

theorem conclude_eq_none_iff {X : Type} {ends : Option (Except X S)} :
    conclude ends = .ok none ↔ ends = none := by
  rcases ends with _ | failure | final <;> simp [conclude, Except.map]

theorem conclude_eq_some_iff {X : Type} {ends : Option (Except X S)} :
    conclude ends = .ok (some final) ↔ ends = some (.ok final) := by
  rcases ends with _ | failure | last <;> simp [conclude, Except.map]

theorem stop?_total : stop? (total test) actual expected state order = some (.ok final) ↔
    order.length = expected.length ∧ reachedAlong test expected actual state order = some final := by
  rw [stop?]
  split
  · rename_i failure _
    exact failure.elim
  · split
    · rename_i complete
      simp only [complete, true_and, Option.map_eq_some_iff, Except.ok.injEq, exists_eq_right]
      rfl
    · rename_i incomplete
      simp [incomplete]

theorem search_of_length_ne (differ : expected.length ≠ actual.length) :
    search test expected actual state = none := by
  rw [search, find?, if_neg differ]
  rfl

section
variable (sizes : expected.length = actual.length)
include sizes

/-- Without failures, a search finds what it finds when it leaves a trace. -/
theorem search_eq : .ok (search test expected actual state) =
    outcomeOf (total test) actual expected state (branches test expected actual state) := by
  have related : (traced Empty E A S).Rel
      (find? (fun element candidate state => pure (answer (test element candidate state)))
        (fun _ _ => pure ()) expected actual state)
      (find? (traceTest (total test)) traceAbandon expected actual state) := by
    apply find?_related
    · intro element _ candidate state trace
      exact ⟨_, run_traceTest (total test) element candidate state trace⟩
    · intro position left trace
      exact ⟨_, rfl⟩
  obtain ⟨abandoned, run, _⟩ := visits_find? (total test) state sizes
  obtain ⟨after, run'⟩ := related {}
  rw [run] at run'
  exact (congrArg Prod.fst run').symm

theorem search_eq_none_iff : search test expected actual state = none ↔
    (branches test expected actual state).findSome? (stop? (total test) actual expected state) =
      none := by
  rw [← conclude_eq_none_iff, ← outcomeOf, ← search_eq sizes, Except.ok.injEq]

theorem search_eq_some_iff : search test expected actual state = some final ↔
    (branches test expected actual state).findSome? (stop? (total test) actual expected state) =
      some (.ok final) := by
  rw [← conclude_eq_some_iff, ← outcomeOf, ← search_eq sizes, Except.ok.injEq]

/-- The branches of the walk that end it are the orders whose pairs are all accepted. -/
theorem ends_iff :
    order ∈ branches test expected actual state ∧
        stop? (total test) actual expected state order = some (.ok final) ↔
      order.Perm (List.range actual.length) ∧
        reachedAlong test expected actual state order = some final := by
  rw [branches, mem_walk_iff List.nodup_range, stop?_total, perm_range_iff, sizes]
  constructor
  · rintro ⟨tried, length, accepted⟩
    exact ⟨⟨tried.distinct, tried.inside, length⟩, accepted⟩
  · rintro ⟨⟨distinct, inside, length⟩, accepted⟩
    exact ⟨⟨distinct, inside, length_le_of_reached? accepted, exists_reached?_dropLast accepted⟩,
      length, accepted⟩

/-- Among some branches, none of the walk ends it exactly if none is an order whose pairs are all
accepted. -/
theorem silent_iff (test : E → A → S → Bool × S) (state : S) (among : List Nat → Prop) :
    (∀ order ∈ branches test expected actual state, among order →
        stop? (total test) actual expected state order = none) ↔
      ∀ order : List Nat, order.Perm (List.range actual.length) → among order →
        reachedAlong test expected actual state order = none := by
  constructor
  · intro silent order perm inside
    rw [Option.eq_none_iff_forall_ne_some]
    intro final accepted
    obtain ⟨mem, ends⟩ := (ends_iff sizes).2 ⟨perm, accepted⟩
    rw [silent order mem inside] at ends
    cases ends
  · intro refused order mem inside
    rw [Option.eq_none_iff_forall_ne_some]
    rintro (failure | final) ends
    · exact failure.elim
    · obtain ⟨perm, accepted⟩ := (ends_iff sizes).1 ⟨mem, ends⟩
      rw [refused order perm inside] at accepted
      cases accepted

end

/-- **A search finds the first permutation that fits.** If there are as many candidates as elements,
a search finds nothing exactly if no permutation of the candidates has all its pairs accepted, and
otherwise the state along the lexicographically first of those that do. If not, it finds nothing. -/
theorem search_first_permutation (test : E → A → S → Bool × S) (expected : List E)
    (actual : List A) (state : S) :
    (expected.length ≠ actual.length → search test expected actual state = none) ∧
    (expected.length = actual.length →
      (search test expected actual state = none ↔
        ∀ order : List Nat, order.Perm (List.range actual.length) →
          reachedAlong test expected actual state order = none) ∧
      ∀ final, search test expected actual state = some final ↔
        ∃ order : List Nat, order.Perm (List.range actual.length) ∧
          reachedAlong test expected actual state order = some final ∧
          ∀ other : List Nat, other.Perm (List.range actual.length) → other < order →
            reachedAlong test expected actual state other = none) := by
  refine ⟨search_of_length_ne, fun sizes => ⟨?_, fun final => ?_⟩⟩
  · have silent := silent_iff sizes test state fun _ => True
    rw [search_eq_none_iff sizes, List.findSome?_eq_none_iff]
    simpa only [forall_const] using silent
  · rw [search_eq_some_iff sizes,
      findSome?_eq_some_iff_of_sorted (sorted_branches test expected actual state)]
    refine exists_congr fun order => ?_
    rw [silent_iff sizes test state (· < order), ← and_assoc, ends_iff sizes, and_assoc]

/-- Accepts all pairs that have a `1` in them, and counts its calls. -/
def loose (element candidate calls : Nat) : Bool × Nat :=
  (element = 1 || candidate = 1, calls + 1)

/-- The first order is refused at its second pair; the state found knows nothing of it. -/
theorem search_first_permutation_swapped :
    search loose [1, 2] [1, 2] 0 = some 2 ∧
      (search loose [1, 2] [1, 2, 3] 0 = none) ∧
      ∃ order : List Nat, order.Perm (List.range 2) ∧
        reachedAlong loose [1, 2] [1, 2] 0 order = some 2 ∧
        ∀ other : List Nat, other.Perm (List.range 2) → other < order →
          reachedAlong loose [1, 2] [1, 2] 0 other = none := by
  have found : search loose [1, 2] [1, 2] 0 = some 2 := rfl
  refine ⟨found, (search_first_permutation loose [1, 2] [1, 2, 3] 0).1 (by decide), ?_⟩
  exact (((search_first_permutation loose [1, 2] [1, 2] 0).2 rfl).2 2).1 found

end Matching

end QueryIso
