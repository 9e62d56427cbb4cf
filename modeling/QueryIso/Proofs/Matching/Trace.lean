import QueryIso.Proofs.Matching
import QueryIso.Proofs.Matching.Walk

/-!
# What a search does

A search for a perfect matching leaves a trace: the tests that it makes and the accepted candidates
that it abandons. A test is a function of an element, a candidate and a state, and may fail.

* `Matching.visits_extend`: a search makes the tests of the branches of its walk, in order, up to
  the first branch that ends it, and concludes with what that branch ends it with;
* `Matching.search_depth_first`: so it is a depth-first walk in lexicographic order, and unless it
  fails it abandons all candidates that it accepts but those of the matching that it finds.
-/

namespace QueryIso

namespace Matching

variable {E A S X : Type}

/-! ## Traces -/

/-- What a search has done. -/
structure Trace (E A S : Type) where
  /-- The tests made, in order. -/
  tests : List (E × A × S) := []
  /-- The positions of the accepted candidates that were abandoned, in order, each with the number of
  elements after its own. -/
  abandoned : List (Nat × Nat) := []

instance : Append (Trace E A S) where
  append trace later := ⟨trace.tests ++ later.tests, trace.abandoned ++ later.abandoned⟩

theorem Trace.append_assoc (first second third : Trace E A S) :
    first ++ second ++ third = first ++ (second ++ third) :=
  congrArg₂ Trace.mk (List.append_assoc ..) (List.append_assoc ..)

theorem Trace.append_empty (trace : Trace E A S) : trace ++ {} = trace :=
  congrArg₂ Trace.mk (List.append_nil _) (List.append_nil _)

/-- A search that may fail and leaves a trace. -/
abbrev TraceM (X E A S : Type) : Type → Type :=
  ExceptT X (StateM (Trace E A S))

/-- Makes a test and traces it. -/
def traceTest (test : E → A → S → Except X (Bool × S)) (element : E) (candidate : A) (state : S) :
    TraceM X E A S (Option S) := do
  modify (· ++ { tests := [(element, candidate, state)] })
  return answer (← test element candidate state)

/-- Traces that a candidate is abandoned. -/
def traceAbandon (position left : Nat) : TraceM X E A S Unit :=
  modify (· ++ { abandoned := [(position, left)] })

theorem run_traceTest (test : E → A → S → Except X (Bool × S)) (element : E) (candidate : A)
    (state : S) (trace : Trace E A S) :
    (traceTest test element candidate state).run.run trace =
      ((test element candidate state).map answer,
        trace ++ { tests := [(element, candidate, state)] }) := by
  change ExceptT.bindCont (fun verdict => (pure (answer verdict) : TraceM X E A S (Option S)))
    (test element candidate state) _ = _
  cases test element candidate state <;> rfl

/-! ## Tests of branches -/

/-- The state that a test leaves if it accepts. -/
def accepts (test : E → A → S → Except X (Bool × S)) (element : E) (candidate : A) (state : S) :
    Option S :=
  match test element candidate state with
  | .ok verdict => answer verdict
  | .error _ => none

section
variable (test : E → A → S → Except X (Bool × S)) (actual : List A) (expected : List E) (state : S)

/-- What is tested at a branch: the element and the candidate of its last position, in the state
along the positions before. -/
def tested? (branch : List Nat) : Option (E × A × S) := do
  let position ← branch.getLast?
  let element ← expected[branch.length - 1]?
  let candidate ← actual[position]?
  let reached ← reached? (accepts test) actual expected state branch.dropLast
  return (element, candidate, reached)

/-- What the test at a branch says. -/
def verdict? (branch : List Nat) : Option (Except X (Bool × S)) :=
  (tested? test actual expected state branch).map fun (element, candidate, reached) =>
    test element candidate reached

/-- What a branch ends the search with, if it does: its test fails, or it pairs all elements and is
accepted. -/
def stop? (branch : List Nat) : Option (Except X S) :=
  match verdict? test actual expected state branch with
  | some (.error failure) => some (.error failure)
  | _ =>
    if branch.length = expected.length then
      (reached? (accepts test) actual expected state branch).map .ok
    else none

/-- Whether the test at a branch accepts. -/
def accepted (branch : List Nat) : Bool :=
  branch ≠ [] ∧ (reached? (accepts test) actual expected state branch).isSome

end

/-- The outcome of a search that ends with this, or that nothing ends. -/
def conclude : Option (Except X S) → Except X (Option S)
  | none => .ok none
  | some result => result.map some

section
variable {test : E → A → S → Except X (Bool × S)} {actual : List A} {element : E}
  {rest expected : List E} {state reached : S} {position : Nat} {candidate : A} {branch : List Nat}

theorem step?_accepted (found : actual[position]? = some candidate)
    (told : test element candidate state = .ok (true, reached)) :
    step? (accepts test) actual element state position = some reached := by
  rw [step?, found, Option.bind_some, accepts, told]
  rfl

theorem step?_refused (found : actual[position]? = some candidate)
    (told : test element candidate state = .ok (false, reached)) :
    step? (accepts test) actual element state position = none := by
  rw [step?, found, Option.bind_some, accepts, told]
  rfl

theorem step?_failed (found : actual[position]? = some candidate) {failure : X}
    (told : test element candidate state = .error failure) :
    step? (accepts test) actual element state position = none := by
  rw [step?, found, Option.bind_some, accepts, told]

theorem tested?_nil : tested? test actual expected state [] = none :=
  rfl

theorem tested?_singleton (found : actual[position]? = some candidate) :
    tested? test actual (element :: rest) state [position] = some (element, candidate, state) := by
  simp [tested?, found, reached?_nil]

theorem tested?_cons (stepped : step? (accepts test) actual element state position = some reached)
    (nonempty : branch ≠ []) : tested? test actual (element :: rest) state (position :: branch) =
      tested? test actual rest reached branch := by
  obtain ⟨first, later, rfl⟩ := List.exists_cons_of_ne_nil nonempty
  simp only [tested?, List.getLast?_cons_cons, List.dropLast_cons_cons, reached?_cons, stepped,
    List.length_cons, Nat.add_sub_cancel, List.getElem?_cons_succ, Option.bind_some]

theorem verdict?_singleton (found : actual[position]? = some candidate) :
    verdict? test actual (element :: rest) state [position] =
      some (test element candidate state) := by
  rw [verdict?, tested?_singleton found]
  rfl

theorem stop?_nil : stop? test actual (element :: rest) state [] = none :=
  rfl

theorem stop?_failed (found : actual[position]? = some candidate) {failure : X}
    (told : test element candidate state = .error failure) :
    stop? test actual (element :: rest) state [position] = some (.error failure) := by
  rw [stop?, verdict?_singleton found, told]

theorem stop?_refused (found : actual[position]? = some candidate)
    (told : test element candidate state = .ok (false, reached)) :
    stop? test actual (element :: rest) state [position] = none := by
  rw [stop?, verdict?_singleton found, told, reached?_cons, step?_refused found told]
  simp

/-- After an accepted pair, a branch ends the search with what the rest of it ends the search for
the other elements with. -/
theorem stop?_cons (found : actual[position]? = some candidate)
    (told : test element candidate state = .ok (true, reached)) :
    stop? test actual (element :: rest) state (position :: branch) =
      stop? test actual rest reached branch := by
  have stepped := step?_accepted found told
  have same : reached? (accepts test) actual (element :: rest) state (position :: branch) =
      reached? (accepts test) actual rest reached branch := by
    rw [reached?_cons, stepped, Option.bind_some]
  rcases eq_or_ne branch [] with rfl | nonempty
  · rw [stop?, stop?, verdict?_singleton found, told, same]
    simp only [verdict?, tested?_nil, Option.map_none, List.length_cons, List.length_nil,
      Nat.add_right_cancel_iff]
  · rw [stop?, stop?, verdict?, verdict?, tested?_cons stepped nonempty, same]
    simp only [List.length_cons, Nat.add_right_cancel_iff]

theorem not_accepted_nil : ¬ accepted test actual expected state [] = true :=
  Bool.false_ne_true

theorem accepted_cons (stepped : step? (accepts test) actual element state position = some reached) :
    accepted test actual (element :: rest) state (position :: branch) =
      (branch = [] || accepted test actual rest reached branch) := by
  rw [accepted, accepted, reached?_cons, stepped, Option.bind_some]
  cases branch with
  | nil => simp [reached?_nil]
  | cons => simp

theorem accepted_refused (stepped : step? (accepts test) actual element state position = none) :
    accepted test actual (element :: rest) state (position :: branch) = false := by
  rw [accepted, reached?_cons, stepped]
  simp

end

/-! ## Visiting branches -/

section
variable (test : E → A → S → Except X (Bool × S)) (actual : List A) (expected : List E) (state : S)
  (branches : List (List Nat))

/-- The branches up to the first that ends the search. -/
def visited : List (List Nat) :=
  upTo (stop? test actual expected state) branches

/-- The outcome of visiting branches up to the first that ends the search. -/
def outcomeOf : Except X (Option S) :=
  conclude (branches.findSome? (stop? test actual expected state))

/-- The trace of visiting branches up to the first that ends the search. -/
def traceOf (abandoned : List (Nat × Nat)) : Trace E A S where
  tests := (visited test actual expected state branches).filterMap
    (tested? test actual expected state)
  abandoned := abandoned

/-- The computation makes the tests of these branches in order, up to the first that ends the
search, and concludes with that. If no test fails, it abandons the candidates that it accepts but
those of the matching that it finds. -/
def Visits (x : TraceM X E A S (Option S)) : Prop :=
  ∃ abandoned,
    (∀ trace, x.run.run trace = (outcomeOf test actual expected state branches,
      trace ++ traceOf test actual expected state branches abandoned)) ∧
    ∀ found, outcomeOf test actual expected state branches = .ok found →
      abandoned.length + (if found.isSome then expected.length else 0) =
        (visited test actual expected state branches).countP (accepted test actual expected state)

end

section
variable {test : E → A → S → Except X (Bool × S)} {actual : List A} {element : E}
  {rest expected : List E} {state : S} {branches others : List (List Nat)}
  {x y : TraceM X E A S (Option S)} {abandoned later : List (Nat × Nat)}

/-- The empty branch is visited first, and only then. -/
theorem exists_visited_walk_eq (test : E → A → S → Except X (Bool × S)) (actual : List A)
    (expected : List E) (free : List Nat) (state : S) :
    ∃ made, visited test actual expected state (walk (accepts test) actual expected free state) =
      [] :: made ∧ [] ∉ made := by
  obtain ⟨later, same, once⟩ := exists_walk_eq (accepts test) actual expected free state
  rw [visited, same, upTo]
  split
  · exact ⟨[], rfl, List.not_mem_nil⟩
  · refine ⟨upTo (stop? test actual expected state) later, rfl, fun again => ?_⟩
    exact once ((sublist_upTo _ later).subset again)

theorem traceOf_append_abandoned (branches : List (List Nat)) (abandoned later : List (Nat × Nat)) :
    traceOf test actual expected state branches (abandoned ++ later) =
      traceOf test actual expected state branches abandoned ++ { abandoned := later } :=
  congrArg₂ Trace.mk (List.append_nil _).symm rfl

section
variable (quiet : branches.findSome? (stop? test actual expected state) = none)
include quiet

theorem visited_append :
    visited test actual expected state (branches ++ others) =
      branches ++ visited test actual expected state others :=
  upTo_append_of_none quiet others

theorem visited_of_quiet : visited test actual expected state branches = branches :=
  upTo_of_none quiet

theorem outcomeOf_append :
    outcomeOf test actual expected state (branches ++ others) =
      outcomeOf test actual expected state others := by
  rw [outcomeOf, List.findSome?_append, quiet]
  rfl

theorem traceOf_append :
    traceOf test actual expected state (branches ++ others) (abandoned ++ later) =
      traceOf test actual expected state branches abandoned ++
        traceOf test actual expected state others later := by
  refine congrArg₂ Trace.mk ?_ rfl
  rw [visited_append quiet, List.filterMap_append, traceOf, visited_of_quiet quiet]
  rfl

end

theorem visits_nothing : Visits test actual expected state [] (pure none) := by
  refine ⟨[], fun trace => ?_, ?_⟩
  · exact congrArg (Prod.mk _) (Trace.append_empty trace).symm
  · rintro _ ⟨⟩
    rfl

/-- With all elements paired, the empty branch ends the search. -/
theorem visits_matching : Visits test actual [] state [[]] (pure (some state)) := by
  refine ⟨[], fun trace => ?_, ?_⟩
  · exact congrArg (Prod.mk _) (Trace.append_empty trace).symm
  · rintro _ ⟨⟩
    rfl

/-- A search that finds nothing in some branches goes on with others. -/
theorem Visits.orElse (first : Visits test actual expected state branches x)
    (second : Visits test actual expected state others y) :
    Visits test actual expected state (branches ++ others) (do
      match ← x with
      | some found => pure (some found)
      | none => y) := by
  obtain ⟨abandoned, run, count⟩ := first
  cases ends : branches.findSome? (stop? test actual expected state) with
  | some result =>
    have stays : visited test actual expected state (branches ++ others) =
        visited test actual expected state branches :=
      upTo_append_of_some ends others
    have outcome : outcomeOf test actual expected state branches = result.map some := by
      rw [outcomeOf, ends, conclude]
    have outcome' : outcomeOf test actual expected state (branches ++ others) =
        result.map some := by
      rw [outcomeOf, List.findSome?_append, ends, Option.some_or, conclude]
    refine ⟨abandoned, fun trace => ?_, ?_⟩
    · rw [run_bind, run, outcome, outcome', traceOf, traceOf, stays]
      cases result <;> rfl
    · rw [outcome', stays, ← outcome]
      exact count
  | none =>
    obtain ⟨later, run', count'⟩ := second
    have outcome : outcomeOf test actual expected state branches = .ok none := by
      rw [outcomeOf, ends, conclude]
    refine ⟨abandoned ++ later, fun trace => ?_, ?_⟩
    · rw [run_bind, run, outcome, outcomeOf_append ends, traceOf_append ends, ← Trace.append_assoc]
      exact run' _
    · rw [outcomeOf_append ends, visited_append ends, List.countP_append]
      intro found same
      have here := count none outcome
      rw [visited_of_quiet ends] at here
      rw [List.length_append, ← count' found same, ← here]
      simp only [Option.isSome_none, Bool.false_eq_true, if_false]
      omega

/-- The empty branch is visited without a test. -/
theorem Visits.root (visits : Visits test actual (element :: rest) state branches x) :
    Visits test actual (element :: rest) state ([] :: branches) x := by
  have outcome : outcomeOf test actual (element :: rest) state ([] :: branches) =
      outcomeOf test actual (element :: rest) state branches := by
    rw [outcomeOf, List.findSome?_cons, stop?_nil, outcomeOf]
  have more : visited test actual (element :: rest) state ([] :: branches) =
      [] :: visited test actual (element :: rest) state branches := by
    rw [visited, upTo, stop?_nil]
    rfl
  obtain ⟨abandoned, run, count⟩ := visits
  refine ⟨abandoned, fun trace => ?_, fun found same => ?_⟩
  · rw [run, outcome, traceOf, traceOf, more, List.filterMap_cons_none tested?_nil]
  · rw [more, List.countP_cons_of_neg not_accepted_nil]
    exact count found (outcome ▸ same)

/-! ## One candidate -/

/-- The branches that start with a position. -/
def startingWith (accept : E → A → S → Option S) (actual : List A) (element : E) (rest : List E)
    (free : List Nat) (state : S) (position : Nat) : List (List Nat) :=
  (match step? accept actual element state position with
    | some reached => walk accept actual rest free reached
    | none => [[]]).map (position :: ·)

/-- The test of a candidate and, if that accepts, the search for the other elements. -/
def attempt (test : E → A → S → Except X (Bool × S)) (element : E) (left : Nat) (state : S)
    (next : S → TraceM X E A S (Option S)) (candidate : A × Nat) : TraceM X E A S (Option S) := do
  match ← traceTest test element candidate.1 state with
  | none => pure none
  | some reached =>
    match ← next reached with
    | some found => pure (some found)
    | none => do
      traceAbandon candidate.2 left
      pure none

section
variable {position : Nat} {candidate : A} {reached : S} {free : List Nat}
  {next : S → TraceM X E A S (Option S)}

theorem startingWith_of_none
    (stepped : step? (accepts test) actual element state position = none) :
    startingWith (accepts test) actual element rest free state position = [[position]] := by
  rw [startingWith, stepped]
  rfl

theorem startingWith_of_some
    (stepped : step? (accepts test) actual element state position = some reached) :
    startingWith (accepts test) actual element rest free state position =
      (walk (accepts test) actual rest free reached).map (position :: ·) := by
  rw [startingWith, stepped]

theorem visits_failed (found : actual[position]? = some candidate) {failure : X}
    (told : test element candidate state = .error failure) :
    Visits test actual (element :: rest) state
      (startingWith (accepts test) actual element rest free state position)
      (attempt test element rest.length state next (candidate, position)) := by
  have stops : stop? test actual (element :: rest) state [position] = some (.error failure) :=
    stop?_failed found told
  have outcome : outcomeOf test actual (element :: rest) state [[position]] = .error failure := by
    rw [outcomeOf, List.findSome?_cons, stops]
    rfl
  have alone : visited test actual (element :: rest) state [[position]] = [[position]] := by
    rw [visited, upTo, stops]
    rfl
  rw [startingWith_of_none (step?_failed found told)]
  refine ⟨[], fun trace => ?_, fun result same => ?_⟩
  · rw [attempt, run_bind, run_traceTest, told, outcome, traceOf, alone,
      List.filterMap_cons_some (tested?_singleton found)]
    rfl
  · rw [outcome] at same
    cases same

theorem visits_refused (found : actual[position]? = some candidate)
    (told : test element candidate state = .ok (false, reached)) :
    Visits test actual (element :: rest) state
      (startingWith (accepts test) actual element rest free state position)
      (attempt test element rest.length state next (candidate, position)) := by
  have stepped := step?_refused found told
  have quiet : [[position]].findSome? (stop? test actual (element :: rest) state) = none := by
    rw [List.findSome?_cons, stop?_refused found told]
    rfl
  have outcome : outcomeOf test actual (element :: rest) state [[position]] = .ok none := by
    rw [outcomeOf, quiet, conclude]
  rw [startingWith_of_none stepped]
  refine ⟨[], fun trace => ?_, fun result same => ?_⟩
  · rw [attempt, run_bind, run_traceTest, told, outcome, traceOf, visited_of_quiet quiet,
      List.filterMap_cons_some (tested?_singleton found)]
    rfl
  · rw [outcome] at same
    cases same
    rw [visited_of_quiet quiet, List.countP_singleton, accepted_refused stepped]
    rfl

section
variable (found : actual[position]? = some candidate)
  (told : test element candidate state = .ok (true, reached))
include found told

theorem stop?_below (rest : List E) :
    stop? test actual (element :: rest) state ∘ (position :: ·) = stop? test actual rest reached :=
  funext fun _ => stop?_cons found told

theorem outcomeOf_below (rest : List E) (branches : List (List Nat)) :
    outcomeOf test actual (element :: rest) state (branches.map (position :: ·)) =
      outcomeOf test actual rest reached branches := by
  rw [outcomeOf, List.findSome?_map, stop?_below found told, outcomeOf]

theorem visited_below (branches : List (List Nat)) :
    visited test actual (element :: rest) state (branches.map (position :: ·)) =
      (visited test actual rest reached branches).map (position :: ·) := by
  rw [visited, upTo_map, stop?_below found told, visited]

/-- Seen from above, the walk of the other elements also has the test of the pair before it. -/
theorem traceOf_below (free : List Nat) (abandoned : List (Nat × Nat)) :
    traceOf test actual (element :: rest) state
        ((walk (accepts test) actual rest free reached).map (position :: ·)) abandoned =
      { tests := [(element, candidate, state)] } ++
        traceOf test actual rest reached (walk (accepts test) actual rest free reached)
          abandoned := by
  obtain ⟨made, start, once⟩ := exists_visited_walk_eq test actual rest free reached
  refine congrArg₂ Trace.mk ?_ rfl
  rw [visited_below found told, traceOf, start, List.map_cons,
    List.filterMap_cons_some (tested?_singleton found), List.filterMap_cons_none tested?_nil,
    List.filterMap_map]
  refine congrArg (List.cons _) (List.filterMap_congr fun branch mem => ?_)
  exact tested?_cons (step?_accepted found told) fun empty => once (empty ▸ mem)

/-- Seen from above, the walk of the other elements has the pair before it as one more accepted. -/
theorem countP_below (rest : List E) (free : List Nat) :
    (visited test actual (element :: rest) state
        ((walk (accepts test) actual rest free reached).map (position :: ·))).countP
          (accepted test actual (element :: rest) state) =
      (visited test actual rest reached (walk (accepts test) actual rest free reached)).countP
        (accepted test actual rest reached) + 1 := by
  obtain ⟨made, start, once⟩ := exists_visited_walk_eq test actual rest free reached
  have stepped := step?_accepted found told
  rw [visited_below found told, start, List.map_cons,
    List.countP_cons_of_pos (by rw [accepted_cons stepped]; rfl),
    List.countP_cons_of_neg not_accepted_nil, List.countP_map]
  refine congrArg (· + 1) (List.countP_congr fun branch mem => ?_)
  have other : branch ≠ [] := fun empty => once (empty ▸ mem)
  simp only [Function.comp_apply, accepted_cons stepped, other, decide_false, Bool.false_or]

theorem visits_accepted (later : Visits test actual rest reached
      (walk (accepts test) actual rest free reached) (next reached)) :
    Visits test actual (element :: rest) state
      (startingWith (accepts test) actual element rest free state position)
      (attempt test element rest.length state next (candidate, position)) := by
  obtain ⟨abandoned, run, count⟩ := later
  have goesOn : ∀ trace : Trace E A S,
      (attempt test element rest.length state next (candidate, position)).run.run trace =
        match outcomeOf test actual rest reached (walk (accepts test) actual rest free reached),
          trace ++ traceOf test actual (element :: rest) state
            ((walk (accepts test) actual rest free reached).map (position :: ·)) abandoned with
        | .ok none, after => (.ok none, after ++ { abandoned := [(position, rest.length)] })
        | ended, after => (ended, after) := by
    intro trace
    rw [attempt, run_bind, run_traceTest, told]
    change ((next reached >>= _ : TraceM X E A S (Option S)).run.run _) = _
    rw [run_bind, run, traceOf_below found told, ← Trace.append_assoc]
    rcases outcomeOf test actual rest reached (walk (accepts test) actual rest free reached)
      with failure | _ | final <;> rfl
  rw [startingWith_of_some (step?_accepted found told)]
  have outcome := outcomeOf_below found told rest
    (walk (accepts test) actual rest free reached)
  have counted := countP_below found told rest free
  rcases ended : outcomeOf test actual rest reached (walk (accepts test) actual rest free reached)
    with failure | _ | final
  · refine ⟨abandoned, fun trace => ?_, fun result same => ?_⟩
    · rw [goesOn, outcome, ended]
    · rw [outcome, ended] at same
      cases same
  · -- nothing was found below, so the candidate is abandoned
    refine ⟨abandoned ++ [(position, rest.length)], fun trace => ?_, fun result same => ?_⟩
    · rw [goesOn, outcome, ended, traceOf_append_abandoned, ← Trace.append_assoc]
    · rw [outcome, ended] at same
      cases same
      rw [counted, ← count none ended, List.length_append]
      rfl
  · refine ⟨abandoned, fun trace => ?_, fun result same => ?_⟩
    · rw [goesOn, outcome, ended]
    · rw [outcome, ended] at same
      cases same
      rw [counted, ← count (some final) ended]
      rfl

end

theorem visits_attempt (found : actual[position]? = some candidate)
    (later : ∀ reached, Visits test actual rest reached
      (walk (accepts test) actual rest free reached) (next reached)) :
    Visits test actual (element :: rest) state
      (startingWith (accepts test) actual element rest free state position)
      (attempt test element rest.length state next (candidate, position)) := by
  rcases told : test element candidate state with failure | ⟨_ | _, reached⟩
  · exact visits_failed found told
  · exact visits_refused found told
  · exact visits_accepted found told (later reached)

end

/-! ## The whole search -/

theorem visits_tryEach
    {attempt : A × Nat → List (A × Nat) → List (A × Nat) → TraceM X E A S (Option S)}
    {branchesOf : Nat → List (List Nat)} {free before after : List (A × Nat)}
    (attempts : ∀ candidate before after, before.reverseAux (candidate :: after) = free →
      Visits test actual expected state (branchesOf candidate.2) (attempt candidate before after))
    (split : before.reverseAux after = free) :
    Visits test actual expected state ((after.map (·.2)).flatMap branchesOf)
      (tryEach attempt before after) := by
  induction after generalizing before with
  | nil => exact visits_nothing
  | cons candidate after ih =>
    rw [List.map_cons, List.flatMap_cons]
    exact (attempts candidate before after split).orElse (ih split)

/-- The candidates come with their positions, none of them twice. -/
structure Placed (actual : List A) (free : List (A × Nat)) : Prop where
  distinct : (free.map (·.2)).Nodup
  found : ∀ entry ∈ free, actual[entry.2]? = some entry.1

theorem placed_zipIdx (actual : List A) : Placed actual actual.zipIdx := by
  refine ⟨?_, fun entry mem => ?_⟩
  · rw [List.zipIdx_map_snd]
    exact List.nodup_range'
  · exact List.mem_zipIdx_iff_getElem?.1 mem

theorem Placed.without {before after : List (A × Nat)} {candidate : A × Nat}
    (placed : Placed actual (before ++ candidate :: after)) : Placed actual (before ++ after) := by
  have fewer : (before ++ after).Sublist (before ++ candidate :: after) :=
    (List.sublist_cons_self candidate after).append_left before
  refine ⟨placed.distinct.sublist (fewer.map _), fun entry mem => ?_⟩
  exact placed.found entry (fewer.subset mem)

theorem Placed.erase_position {before after : List (A × Nat)} {candidate : A × Nat}
    (placed : Placed actual (before ++ candidate :: after)) :
    ((before ++ candidate :: after).map (·.2)).erase candidate.2 =
      (before ++ after).map (·.2) := by
  have distinct := placed.distinct
  rw [List.map_append, List.map_cons, List.nodup_append] at distinct
  have absent : candidate.2 ∉ before.map (·.2) := fun mem =>
    distinct.2.2 _ mem _ List.mem_cons_self rfl
  rw [List.map_append, List.map_cons, List.map_append, List.erase_append_right _ absent,
    List.erase_cons_head]

/-- **A search makes the tests of its walk.** -/
theorem visits_extend {free : List (A × Nat)} (placed : Placed actual free) :
    Visits test actual expected state (walk (accepts test) actual expected (free.map (·.2)) state)
      (extend (traceTest test) traceAbandon expected free state) := by
  induction expected generalizing free state with
  | nil => exact visits_matching
  | cons element rest ih =>
    apply Visits.root
    have whole : [].reverseAux free = free := rfl
    refine visits_tryEach ?_ whole
    rintro candidate before after split
    rw [List.reverseAux_eq] at split
    subst split
    have mem : candidate ∈ before.reverse ++ candidate :: after :=
      List.mem_append_right _ List.mem_cons_self
    apply visits_attempt (placed.found candidate mem)
    intro reached
    rw [placed.erase_position, List.reverseAux_eq]
    exact ih placed.without

theorem visits_find? (test : E → A → S → Except X (Bool × S)) (state : S)
    (sizes : expected.length = actual.length) :
    Visits test actual expected state
      (walk (accepts test) actual expected (List.range actual.length) state)
      (find? (traceTest test) traceAbandon expected actual state) := by
  have positions : actual.zipIdx.map (·.2) = List.range actual.length := by
    rw [List.zipIdx_map_snd, List.range_eq_range']
  rw [find?, if_pos sizes, ← positions]
  exact visits_extend (placed_zipIdx actual)

/-- At every branch but the empty one there is a test to make. -/
theorem exists_tested?_eq
    (tried : Tried (accepts test) actual expected (List.range actual.length) state branch)
    (nonempty : branch ≠ []) :
    ∃ call, tested? test actual expected state branch = some call := by
  obtain ⟨reached, opened⟩ := tried.opened
  have positive := List.length_pos_iff.2 nonempty
  have fits := tried.fits
  have inExpected : branch.length - 1 < expected.length := by omega
  have inActual := List.mem_range.1 (tried.inside _ (List.getLast_mem nonempty))
  rw [tested?, List.getLast?_eq_some_getLast nonempty, Option.bind_eq_bind, Option.bind_some,
    List.getElem?_eq_getElem inExpected, List.getElem?_eq_getElem inActual, opened]
  exact ⟨_, rfl⟩

end

/-- **A search is a depth-first walk.** A search among as many candidates as there are elements goes
through the branches that are tried, in lexicographic order, each once: those of distinct positions
that are accepted up to their last one. It makes one test for each but the empty one, that of the
last pair in the state along the pairs before, up to the first test that fails or the first accepted
branch that pairs all elements. That is its outcome; if there is none, it makes all the tests and
finds nothing. Unless it fails, it abandons the accepted candidates but those of the matching
found. -/
theorem search_depth_first (test : E → A → S → Except X (Bool × S)) (expected : List E)
    (actual : List A) (state : S) (sizes : expected.length = actual.length) :
    ∃ branches : List (List Nat), branches.Pairwise (· < ·) ∧
      (∀ branch, branch ∈ branches ↔
        Tried (accepts test) actual expected (List.range actual.length) state branch) ∧
      ∃ made trace, visited test actual expected state branches = [] :: made ∧
        (find? (traceTest test) traceAbandon expected actual state).run.run {} =
          (outcomeOf test actual expected state branches, trace) ∧
        trace.tests.map some = made.map (tested? test actual expected state) ∧
        ∀ found, outcomeOf test actual expected state branches = .ok found →
          trace.abandoned.length + (if found.isSome then expected.length else 0) =
            made.countP (accepted test actual expected state) := by
  let branches := walk (accepts test) actual expected (List.range actual.length) state
  have tried : ∀ branch, branch ∈ branches ↔
      Tried (accepts test) actual expected (List.range actual.length) state branch :=
    fun _ => mem_walk_iff List.nodup_range
  obtain ⟨made, start, once⟩ :=
    exists_visited_walk_eq test actual expected (List.range actual.length) state
  obtain ⟨abandoned, run, count⟩ := visits_find? test state sizes
  refine ⟨branches, sorted_walk List.pairwise_lt_range, tried, made, _, start, run {}, ?_, ?_⟩
  · change (([] ++ (visited test actual expected state branches).filterMap _).map some) = _
    rw [start, List.nil_append, List.filterMap_cons_none tested?_nil,
      List.map_filterMap_some_eq_filter_map_isSome, List.filter_eq_self]
    intro call mem
    obtain ⟨branch, here, rfl⟩ := List.mem_map.1 mem
    have inside : branch ∈ branches :=
      (sublist_upTo _ branches).subset (start ▸ List.mem_cons_of_mem [] here)
    obtain ⟨call, same⟩ := exists_tested?_eq ((tried branch).1 inside) fun empty => once (empty ▸ here)
    rw [same]
    rfl
  · intro found same
    have counted := count found same
    rwa [start, List.countP_cons_of_neg not_accepted_nil] at counted

/-- Accepts candidates that are at least the element, and fails on one pair. -/
def picky (element candidate calls : Nat) : Except String (Bool × Nat) :=
  if element = 3 ∧ candidate = 2 then .error "no" else .ok (element ≤ candidate, calls + 1)

/-- The walk goes on after the branch `[0, 2]` is given up, and the failure at `[1, 0, 2]` ends it
before the branches that start with `2`. -/
theorem search_depth_first_failing :
    ([1, 2, 3].length = [3, 1, 2].length ∧
      ∃ branches : List (List Nat), branches.Pairwise (· < ·) ∧
        (∀ branch, branch ∈ branches ↔
          Tried (accepts picky) [3, 1, 2] [1, 2, 3] (List.range 3) 0 branch) ∧
        ∃ made trace, visited picky [3, 1, 2] [1, 2, 3] 0 branches = [] :: made ∧
          (find? (traceTest picky) traceAbandon [1, 2, 3] [3, 1, 2] 0).run.run {} =
            (outcomeOf picky [3, 1, 2] [1, 2, 3] 0 branches, trace) ∧
          trace.tests.map some = made.map (tested? picky [3, 1, 2] [1, 2, 3] 0) ∧
          ∀ found, outcomeOf picky [3, 1, 2] [1, 2, 3] 0 branches = .ok found →
            trace.abandoned.length + (if found.isSome then 3 else 0) =
              made.countP (accepted picky [3, 1, 2] [1, 2, 3] 0)) ∧
    (find? (traceTest picky) traceAbandon [1, 2, 3] [3, 1, 2] 0).run.run {} =
      (.error "no",
        { tests := [(1, 3, 0), (2, 1, 1), (2, 2, 1), (3, 1, 2), (1, 1, 0), (2, 3, 1), (3, 2, 2)]
          abandoned := [(2, 1), (0, 2)] }) :=
  ⟨⟨rfl, search_depth_first picky [1, 2, 3] [3, 1, 2] 0 rfl⟩, rfl⟩

end Matching

end QueryIso
