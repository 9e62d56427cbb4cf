import Mathlib.Data.List.Forall2
import Mathlib.Tactic.Ring
import QueryIso.Proofs.Matching.Trace

/-!
# Searches without backtracking

Where candidates that fit one element fit the same elements, it does not matter which of them the
element is paired with, so the first that fits can be kept.

* `Matching.exists_matching_without`: a matching stays possible after an element has been paired
  with any candidate that fits it, because its partner can take that candidate's place;
* `Matching.run_extend`: so a search that can find a matching makes one test for each candidate up
  to the first that fits, and never comes back to an element;
* `Matching.search_without_backtracking`: that are at most `n * (n + 1) / 2` tests for `n` elements.
-/

namespace QueryIso

namespace Matching

variable {E A S X K : Type}

/-- The test does not fail, and whether it accepts a pair does not depend on the state. -/
def Answers (test : E → A → S → Except X (Bool × S)) (fits : E → A → Bool) : Prop :=
  ∀ element candidate state, ∃ after,
    test element candidate state = .ok (fits element candidate, after)

/-- Candidates that fit one element fit the same elements. -/
def Interchangeable (fits : E → A → Bool) : Prop :=
  ∀ element other candidate substitute, fits element candidate → fits element substitute →
    fits other candidate → fits other substitute

/-- The candidates can be brought into an order in which each fits the element at its position. -/
def HasMatching (fits : E → A → Bool) (expected : List E) (actual : List A) : Prop :=
  ∃ paired, paired.Perm actual ∧ List.Forall₂ (fun element candidate => fits element candidate)
    expected paired

/-- Candidates that fit an element if they have its key are interchangeable. -/
theorem interchangeable_of_keys [DecidableEq K] (key : E → K) (key' : A → K) :
    Interchangeable fun element candidate => key element = key' candidate := by
  intro element other candidate substitute
  simp only [decide_eq_true_eq]
  intro same same' same''
  rw [same'', ← same, same']

/-! ## The exchange -/

section
variable {fits : E → A → Bool} {element : E} {rest : List E} {candidate partner : A}
  {free others : List A}

/-- In a matching, a substitute for a candidate can take its place. -/
theorem exists_exchanged (swap : Interchangeable fits) (accepted : fits element candidate)
    (accepted' : fits element partner) (pairs : List.Forall₂ (fun e a => fits e a) rest others)
    (mem : candidate ∈ others) : ∃ exchanged, (candidate :: exchanged).Perm (partner :: others) ∧
      List.Forall₂ (fun e a => fits e a) rest exchanged := by
  induction pairs with
  | nil => cases mem
  | @cons other first _ later here pairs ih =>
    rcases List.mem_cons.1 mem with rfl | mem
    · exact ⟨partner :: later, .swap .., .cons (swap _ _ _ _ accepted accepted' here) pairs⟩
    · obtain ⟨exchanged, order, pairs'⟩ := ih mem
      refine ⟨first :: exchanged, ?_, .cons here pairs'⟩
      calc (candidate :: first :: exchanged).Perm (first :: candidate :: exchanged) := .swap ..
        _ |>.Perm (first :: partner :: later) := order.cons first
        _ |>.Perm (partner :: first :: later) := .swap ..

/-- Pairing an element with any candidate that fits it leaves a matching for the others. -/
theorem exists_matching_without (swap : Interchangeable fits) (accepted : fits element candidate)
    (matching : HasMatching fits (element :: rest) (candidate :: free)) :
    HasMatching fits rest free := by
  obtain ⟨_, order, pairs⟩ := matching
  cases pairs with
  | @cons _ partner _ others accepted' pairs =>
    rcases List.mem_cons.1 (order.symm.subset List.mem_cons_self) with rfl | mem
    · exact ⟨others, order.cons_inv, pairs⟩
    · obtain ⟨exchanged, order', pairs'⟩ := exists_exchanged swap accepted accepted' pairs mem
      exact ⟨exchanged, (order'.trans order).cons_inv, pairs'⟩

theorem exists_candidate (matching : HasMatching fits (element :: rest) free) :
    ∃ candidate ∈ free, fits element candidate := by
  obtain ⟨_, order, pairs⟩ := matching
  cases pairs with
  | cons accepted _ => exact ⟨_, order.subset List.mem_cons_self, accepted⟩

theorem length_of_hasMatching {expected : List E} (matching : HasMatching fits expected free) :
    expected.length = free.length := by
  obtain ⟨paired, order, pairs⟩ := matching
  rw [pairs.length_eq, order.length_eq]

/-- The first candidate that fits an element leaves a matching for the others. -/
theorem exists_first_fit {free : List (A × Nat)} (swap : Interchangeable fits)
    (matching : HasMatching fits (element :: rest) (free.map (·.1))) :
    ∃ passed candidate after, free = passed ++ candidate :: after ∧
      (∀ entry ∈ passed, fits element entry.1 = false) ∧ fits element candidate.1 = true ∧
      HasMatching fits rest ((passed ++ after).map (·.1)) := by
  obtain ⟨_, mem, accepted⟩ := exists_candidate matching
  obtain ⟨entry, memFree, rfl⟩ := List.mem_map.1 mem
  obtain ⟨candidate, first⟩ :=
    Option.isSome_iff_exists.1 (List.find?_isSome (p := fun entry => fits element entry.1).2
      ⟨entry, memFree, accepted⟩)
  obtain ⟨accepted, passed, after, rfl, refused⟩ := List.find?_eq_some_iff_append.1 first
  refine ⟨passed, candidate, after, rfl, by simpa using refused, accepted, ?_⟩
  apply exists_matching_without swap accepted
  obtain ⟨paired, order, pairs⟩ := matching
  refine ⟨paired, order.trans ?_, pairs⟩
  rw [List.map_append, List.map_append, List.map_cons]
  exact List.perm_middle

end

/-! ## The run -/

section
variable {test : E → A → S → Except X (Bool × S)} {fits : E → A → Bool} {element : E}
  {rest expected : List E} {actual : List A} {state reached final : S} {left : Nat}
  {tests : List (E × A × S)}

theorem run_attempt_refused {candidate : A × Nat}
    (told : test element candidate.1 state = .ok (false, reached))
    (next : S → TraceM X E A S (Option S)) (trace : Trace E A S) :
    (attempt test element left state next candidate).run.run trace =
      (.ok none, trace ++ { tests := [(element, candidate.1, state)] }) := by
  rw [attempt, run_bind, run_traceTest, told]
  rfl

theorem run_attempt_found {candidate : A × Nat}
    (told : test element candidate.1 state = .ok (true, reached))
    {next : S → TraceM X E A S (Option S)}
    (later : ∀ trace, (next reached).run.run trace =
      (.ok (some final), trace ++ { tests := tests }))
    (trace : Trace E A S) : (attempt test element left state next candidate).run.run trace =
      (.ok (some final), trace ++ { tests := (element, candidate.1, state) :: tests }) := by
  rw [attempt, run_bind, run_traceTest, told]
  change ((next reached >>= _ : TraceM X E A S (Option S)).run.run _) = _
  rw [run_bind, later, Trace.append_assoc]
  rfl

/-- Candidates that are refused are passed, and one that leads to a matching ends the search. -/
theorem run_tryEach {next : List (A × Nat) → List (A × Nat) → S → TraceM X E A S (Option S)}
    {passed before after : List (A × Nat)} {candidate : A × Nat}
    (refused : ∀ entry ∈ passed, ∃ reached, test element entry.1 state = .ok (false, reached))
    (told : test element candidate.1 state = .ok (true, reached))
    (later : ∀ trace, (next (passed.reverse ++ before) after reached).run.run trace =
      (.ok (some final), trace ++ { tests := tests })) (trace : Trace E A S) :
    (tryEach (fun candidate before after =>
        attempt test element left state (next before after) candidate)
      before (passed ++ candidate :: after)).run.run trace =
      (.ok (some final), trace ++
        { tests :=
            (passed ++ [candidate]).map (fun entry => (element, entry.1, state)) ++ tests }) := by
  induction passed generalizing before trace with
  | nil =>
    rw [List.reverse_nil, List.nil_append] at later
    rw [List.nil_append, tryEach, run_bind, run_attempt_found told later]
    rfl
  | cons entry passed ih =>
    obtain ⟨_, told'⟩ := refused entry List.mem_cons_self
    rw [List.reverse_cons, List.append_assoc] at later
    rw [List.cons_append, tryEach, run_bind, run_attempt_refused told']
    refine (ih (fun other mem => refused other (List.mem_cons_of_mem _ mem)) later _).trans ?_
    rw [Trace.append_assoc]
    rfl

theorem extend_cons_eq_tryEach (test : E → A → S → Except X (Bool × S)) (element : E)
    (rest : List E) (free : List (A × Nat)) (state : S) :
    extend (traceTest test) traceAbandon (element :: rest) free state =
      tryEach (fun candidate before after => attempt test element rest.length state
        (extend (traceTest test) traceAbandon rest (before.reverseAux after)) candidate) [] free :=
  rfl

/-- A search that can find a matching keeps the first candidate that fits, for every element. -/
theorem run_extend (state : S) (answers : Answers test fits) (swap : Interchangeable fits)
    {free : List (A × Nat)} (placed : Placed actual free)
    (matching : HasMatching fits expected (free.map (·.1))) :
    ∃ order final tests, order.Perm (free.map (·.2)) ∧
      reached? (accepts test) actual expected state order = some final ∧
      (∀ trace, (extend (traceTest test) traceAbandon expected free state).run.run trace =
        (.ok (some final), trace ++ { tests := tests })) ∧
      2 * tests.length ≤ expected.length * (expected.length + 1) := by
  induction expected generalizing free state with
  | nil =>
    have none : free = [] := List.length_eq_zero_iff.1 (by
      rw [← List.length_map (f := (·.1)), ← length_of_hasMatching matching, List.length_nil])
    refine ⟨[], state, [], by rw [none]; exact .nil, rfl, fun trace => ?_, Nat.zero_le _⟩
    exact congrArg (Prod.mk _) (Trace.append_empty trace).symm
  | cons element rest ih =>
    obtain ⟨passed, candidate, after, rfl, refused, accepted, matching'⟩ :=
      exists_first_fit swap matching
    obtain ⟨reached, told⟩ := answers element candidate.1 state
    rw [accepted] at told
    obtain ⟨order, final, tests, perm, found, run, count⟩ :=
      ih reached placed.without matching'
    refine ⟨candidate.2 :: order, final,
      (passed ++ [candidate]).map (fun entry => (element, entry.1, state)) ++ tests, ?_, ?_, ?_, ?_⟩
    · rw [List.map_append] at perm
      rw [List.map_append, List.map_cons]
      exact (perm.cons _).trans List.perm_middle.symm
    · have position := placed.found candidate (List.mem_append_right _ List.mem_cons_self)
      rw [reached?_cons, step?_accepted position told, Option.bind_some, found]
    · intro trace
      rw [extend_cons_eq_tryEach]
      apply run_tryEach _ told
      · rw [List.append_nil, List.reverseAux_eq, List.reverse_reverse]
        exact run
      · intro entry mem
        obtain ⟨after, told⟩ := answers element entry.1 state
        rw [refused entry mem] at told
        exact ⟨after, told⟩
    · have sizes := length_of_hasMatching matching'
      have square : (rest.length + 1) * (rest.length + 1 + 1) =
          rest.length * (rest.length + 1) + 2 * (rest.length + 1) := by ring
      simp only [List.length_append, List.length_map, List.length_cons, List.length_nil] at sizes ⊢
      omega

end

/-- **Interchangeable candidates need no backtracking.** If the test does not fail and answers by a
relation alone, if candidates that fit one element fit the same elements, and if there is a
matching, then a search finds the state along one, abandons no candidate that it has accepted, and
makes at most `n * (n + 1) / 2` tests for `n` elements. -/
theorem search_without_backtracking (test : E → A → S → Except X (Bool × S)) (fits : E → A → Bool)
    (answers : Answers test fits) (swap : Interchangeable fits) (expected : List E)
    (actual : List A) (state : S) (matching : HasMatching fits expected actual) :
    ∃ order final trace, order.Perm (List.range actual.length) ∧
      reached? (accepts test) actual expected state order = some final ∧
      (find? (traceTest test) traceAbandon expected actual state).run.run {} =
        (.ok (some final), trace) ∧
      trace.abandoned = [] ∧
      trace.tests.length ≤ expected.length * (expected.length + 1) / 2 := by
  have matching' : HasMatching fits expected (actual.zipIdx.map (·.1)) := by
    rwa [List.zipIdx_map_fst]
  obtain ⟨order, final, tests, perm, found, run, count⟩ :=
    run_extend state answers swap (placed_zipIdx actual) matching'
  rw [List.zipIdx_map_snd, ← List.range_eq_range'] at perm
  refine ⟨order, final, { tests := tests }, perm, found, ?_, rfl, ?_⟩
  · rw [find?, if_pos (length_of_hasMatching matching)]
    exact run {}
  · rw [Nat.le_div_iff_mul_le (by decide), Nat.mul_comm]
    exact count

/-- Accepts candidates with the same remainder, and counts its calls. -/
def sameRemainder (element candidate calls : Nat) : Except String (Bool × Nat) :=
  .ok (element % 3 = candidate % 3, calls + 1)

/-- The first two elements fit the same candidates; neither has to give back the one it takes. -/
theorem search_without_backtracking_remainders :
    Answers sameRemainder (fun element candidate => element % 3 = candidate % 3) ∧
    Interchangeable (fun element candidate : Nat => element % 3 = candidate % 3) ∧
    HasMatching (fun element candidate => element % 3 = candidate % 3) [0, 3, 1, 4] [7, 1, 6, 9] ∧
    ∃ order final trace, order.Perm (List.range 4) ∧
      reached? (accepts sameRemainder) [7, 1, 6, 9] [0, 3, 1, 4] 0 order = some final ∧
      (find? (traceTest sameRemainder) traceAbandon [0, 3, 1, 4] [7, 1, 6, 9] 0).run.run {} =
        (.ok (some final), trace) ∧
      trace.abandoned = [] ∧ trace.tests.length ≤ 4 * (4 + 1) / 2 := by
  have answers : Answers sameRemainder fun element candidate => element % 3 = candidate % 3 :=
    fun _ _ calls => ⟨calls + 1, rfl⟩
  have swap : Interchangeable fun element candidate : Nat => element % 3 = candidate % 3 :=
    interchangeable_of_keys (· % 3) (· % 3)
  have matching : HasMatching (fun element candidate => element % 3 = candidate % 3)
      [0, 3, 1, 4] [7, 1, 6, 9] := by
    refine ⟨[6, 9, 7, 1], by decide, ?_⟩
    simp
  exact ⟨answers, swap, matching, search_without_backtracking sameRemainder _ answers swap
    [0, 3, 1, 4] [7, 1, 6, 9] 0 matching⟩

end Matching

end QueryIso
