import QueryIso.Isomorphism.Search
import QueryIso.Proofs.Matching
import QueryIso.Proofs.Trees

/-!
# Searches without limits

`Tree.matchFreely` does what `Tree.matchWith` does when no limit ends it: it has the bindings
reached and the number of comparisons, and no other effect. `Tree.matchWith_guarded` says so: within
limits on the depth, a guarded search has the same outcome unless it takes more steps than its
limit, and then it fails with that limit.
-/

namespace QueryIso

/-- A result and the number of comparisons it took. -/
structure Counted (α : Type) where
  value : α
  steps : Nat

namespace Counted

instance : Monad Counted where
  pure value := ⟨value, 0⟩
  bind x f := ⟨(f x.value).value, x.steps + (f x.value).steps⟩

/-- One comparison. -/
def tick : Counted Unit :=
  ⟨(), 1⟩

variable {α β : Type}

@[simp] theorem value_pure (value : α) : (pure value : Counted α).value = value :=
  rfl

@[simp] theorem steps_pure (value : α) : (pure value : Counted α).steps = 0 :=
  rfl

@[simp] theorem value_bind (x : Counted α) (f : α → Counted β) :
    (x >>= f).value = (f x.value).value :=
  rfl

@[simp] theorem steps_bind (x : Counted α) (f : α → Counted β) :
    (x >>= f).steps = x.steps + (f x.value).steps :=
  rfl

@[simp] theorem steps_tick : tick.steps = 1 :=
  rfl

theorem bind_pure (x : Counted α) : x >>= pure = x :=
  rfl

/-- The value of a search is that of the same search without effects. -/
def values : Matching.Simulation Counted Id where
  Rel x y := x.value = y
  pure _ := rfl
  bind := by
    rintro _ _ x _ f g rfl related
    exact related x.value

end Counted

/-- The bindings reached, after a positive verdict. -/
def Matched.reached? (matched : Matched) : Option Bindings :=
  if matched.1 then some matched.2 else none

theorem Matched.reached?_eq_some_iff {matched : Matched} {reached : Bindings} :
    matched.reached? = some reached ↔ matched = (true, reached) := by
  obtain ⟨verdict, bindings⟩ := matched
  cases verdict <;> simp [Matched.reached?]

/-- The bindings after matching two scalars. -/
def Scalar.match? (expected actual : Scalar) (bindings : Bindings) : Option Bindings :=
  match expected, actual with
  | .str e, .str a =>
    match IdKind.of? e with
    | some kind =>
      if IdKind.of? a = some kind then Matched.reached? (bindings.bind e a) else none
    | none => if e = a then some bindings else none
  | _, _ => if expected = actual then some bindings else none

namespace Tree

mutual

/-- Matches an expected with an actual node, with no limit. -/
def matchFreely : Tree → Tree → Bindings → Counted (Option Bindings)
  | .scalar expected, actual, bindings => do
    Counted.tick
    match actual with
    | .scalar actual => return expected.match? actual bindings
    | _ => return none
  | .sequence expected, actual, bindings => do
    Counted.tick
    match actual with
    | .sequence actual =>
      Matching.find? id (fun _ _ => pure ()) (freeMatchersOf expected) actual bindings
    | _ => return none
  | .record expected, actual, bindings => do
    Counted.tick
    match actual with
    | .record actual =>
      if expected.length = actual.length then matchFieldsFreely expected actual bindings
      else return none
    | _ => return none

/-- The matches of elements. -/
def freeMatchersOf : List Tree → List (Tree → Bindings → Counted (Option Bindings))
  | [] => []
  | item :: rest => matchFreely item :: freeMatchersOf rest

/-- Matches the fields of two records in name order, up to the first that fails. -/
def matchFieldsFreely {bound : Option String} :
    Entries Tree bound → Dict Tree → Bindings → Counted (Option Bindings)
  | .nil, _, bindings => return some bindings
  | .cons name _ expected rest, actual, bindings => do
    match actual.get? name with
    | none => return none
    | some value =>
      match ← matchFreely expected value bindings with
      | none => return none
      | some reached => matchFieldsFreely rest actual reached

end

theorem freeMatchersOf_eq_map (items : List Tree) :
    freeMatchersOf items = items.map matchFreely := by
  induction items with
  | nil => rfl
  | cons item rest ih => simp [freeMatchersOf, ih]

theorem matchFreely_sequence (expected actual : List Tree) (bindings : Bindings) :
    (sequence expected).matchFreely (sequence actual) bindings =
      Counted.tick >>= fun _ =>
        Matching.find? matchFreely (fun _ _ => pure ()) expected actual bindings := by
  rw [matchFreely, freeMatchersOf_eq_map, Matching.find?_map]
  rfl

end Tree

namespace Limits

theorem checkSteps_mono {limits : Limits} {fewer more : Nat} {error : MatchError}
    (le : fewer ≤ more) (exceeded : limits.checkSteps fewer = .error error) :
    limits.checkSteps more = .error error := by
  unfold checkSteps at exceeded ⊢
  split at exceeded
  · cases exceeded
  · split at exceeded
    · cases exceeded
    · rename_i limit _ beyond
      rw [if_neg (by omega), exceeded]

theorem checkSteps_zero (limits : Limits) : limits.checkSteps 0 = .ok () := by
  unfold checkSteps
  cases limits.steps <;> rfl

theorem checkDepth_mono {limits : Limits} {shallow deep : Nat} (le : shallow ≤ deep)
    (within : limits.checkDepth deep = .ok ()) : limits.checkDepth shallow = .ok () := by
  unfold checkDepth at within ⊢
  split at within
  · rfl
  · split at within
    · rw [if_pos (by omega)]
    · cases within

end Limits

namespace SearchM

variable {α β γ δ : Type}

/-- The search has the outcome of the free one while its steps stay within the limit, and fails with
the limit otherwise. -/
def Guarded (limits : Limits) (view : α → γ) (x : SearchM α) (free : Counted γ) : Prop :=
  ∀ progress : Progress, limits.checkSteps progress.steps = .ok () →
    match limits.checkSteps (progress.steps + free.steps) with
    | .ok _ => ∃ value log, view value = free.value ∧
        x.run.run progress = (.ok value, ⟨progress.steps + free.steps, log⟩)
    | .error error => ∃ after, x.run.run progress = (.error error, after)

namespace Guarded

variable {limits : Limits} {view : α → γ}

theorem pure (view : α → γ) (value : α) : Guarded limits view (pure value) (pure (view value)) := by
  intro progress within
  rw [Counted.steps_pure, Nat.add_zero, within]
  exact ⟨value, progress.log, rfl, rfl⟩

theorem bind {next : β → δ} {x : SearchM α} {free : Counted γ} {f : α → SearchM β}
    {g : γ → Counted δ} (first : Guarded limits view x free)
    (second : ∀ value, Guarded limits next (f value) (g (view value))) :
    Guarded limits next (x >>= f) (free >>= g) := by
  intro progress within
  have here := first progress within
  rw [Counted.steps_bind, Counted.value_bind, ← Nat.add_assoc]
  cases check : limits.checkSteps (progress.steps + free.steps) with
  | error error =>
    -- the limit stays exceeded, whatever the rest of the search would do
    rw [Limits.checkSteps_mono (Nat.le_add_right _ (g free.value).steps) check]
    rw [check] at here
    obtain ⟨after, run⟩ := here
    exact ⟨after, by rw [Matching.run_bind, run]⟩
  | ok =>
    rw [check] at here
    obtain ⟨value, log, same, run⟩ := here
    have there := second value ⟨_, log⟩ check
    rw [same] at there
    rwa [Matching.run_bind, run]

theorem tell (event : Event) : Guarded limits id (tell event) (Pure.pure ()) := by
  intro progress within
  rw [Counted.steps_pure, Nat.add_zero, within]
  exact ⟨(), event :: progress.log, rfl, rfl⟩

theorem step {depth : Nat} (room : limits.checkDepth depth = .ok ()) :
    Guarded limits id (step limits depth) Counted.tick := by
  intro progress _
  rw [Counted.steps_tick, run_step]
  cases limits.checkSteps (progress.steps + 1) with
  | error error => exact ⟨⟨progress.steps + 1, progress.log⟩, rfl⟩
  | ok =>
    rw [room]
    exact ⟨(), progress.log, rfl, rfl⟩

/-- Guarded searches follow free ones. -/
def simulation (limits : Limits) : Matching.Simulation SearchM Counted where
  Rel := Guarded limits id
  pure := pure id
  bind := bind

theorem decided (condition : Prop) [Decidable condition] (bindings : Bindings) :
    Guarded limits Matched.reached? (Pure.pure (decide condition, bindings))
      (Pure.pure (if condition then some bindings else none)) := by
  have view : Matched.reached? (decide condition, bindings) =
      if condition then some bindings else none := by
    by_cases holds : condition <;> simp [Matched.reached?, holds]
  rw [← view]
  exact pure Matched.reached? (decide condition, bindings)

theorem refused (bindings : Bindings) :
    Guarded limits Matched.reached? (Pure.pure (false, bindings)) (Pure.pure none) :=
  pure Matched.reached? (false, bindings)

theorem bindM (bindings : Bindings) (expected actual : String) :
    Guarded limits Matched.reached? (bindings.bindM expected actual)
      (Pure.pure (Matched.reached? (bindings.bind expected actual))) := by
  unfold Bindings.bindM
  cases bindings.bindEvent? expected actual with
  | none => exact pure Matched.reached? _
  | some event =>
    change Guarded limits _ _ (Pure.pure () >>= fun _ => Pure.pure (Matched.reached? _))
    exact bind (tell event) fun _ => pure Matched.reached? _

theorem matchScalars (expected actual : Scalar) (bindings : Bindings) :
    Guarded limits Matched.reached? (expected.matchWith actual bindings)
      (Pure.pure (expected.match? actual bindings)) := by
  cases expected with
  | str e =>
    cases actual with
    | str a =>
      simp only [Scalar.matchWith, Scalar.match?]
      cases IdKind.of? e with
      | none => exact decided _ bindings
      | some kind =>
        by_cases same : IdKind.of? a = some kind
        · simp only [same, if_true]
          exact bindM bindings e a
        · simp only [same, if_false]
          exact refused bindings
    | null | bool _ | integer _ | float _ => exact decided _ bindings
  | null | bool _ | integer _ | float _ => exact decided _ bindings

/-- The elements of sequences are matched as by the free matches of the elements. -/
theorem matchInAnyOrder {items actual : List Tree} {depth : Nat} {bindings : Bindings}
    (guarded : ∀ item ∈ items, ∀ candidate bindings, Guarded limits Matched.reached?
      (item.matchWith limits candidate depth bindings) (item.matchFreely candidate bindings)) :
    Guarded limits Matched.reached?
      (Tree.matchInAnyOrder (Tree.matchersOf limits items) actual depth bindings)
      (Matching.find? Tree.matchFreely (fun _ _ => Pure.pure ()) items actual bindings) := by
  rw [Tree.matchersOf_eq_map, Tree.matchInAnyOrder, Matching.find?_map, ← Counted.bind_pure
    (Matching.find? Tree.matchFreely _ items actual bindings)]
  refine bind (Matching.find?_related (simulation limits) ?_ (fun _ _ => tell _) actual bindings) ?_
  · intro item mem candidate bindings
    rw [← Counted.bind_pure (item.matchFreely candidate bindings)]
    exact (guarded item mem candidate bindings).bind fun matched => pure id matched.reached?
  · intro found
    cases found with
    | none => exact refused bindings
    | some reached => exact pure Matched.reached? (true, reached)

end Guarded

end SearchM

namespace Tree

open SearchM

variable {limits : Limits}

theorem matchScalar_guarded {value : Scalar} {actual : Tree} {depth : Nat} {bindings : Bindings}
    (room : limits.checkDepth depth = .ok ()) :
    Guarded limits Matched.reached? ((scalar value).matchWith limits actual depth bindings)
      ((scalar value).matchFreely actual bindings) := by
  cases actual with
  | scalar actual => exact .bind (.step room) fun _ => .matchScalars value actual bindings
  | sequence _ | record _ => exact .bind (.step room) fun _ => .refused bindings

theorem matchFields_guarded {bound : Option String} {fields : Entries Tree bound}
    {actual : Dict Tree} {depth : Nat} {bindings : Bindings}
    (guarded : ∀ value ∈ fields.values, ∀ candidate bindings, Guarded limits Matched.reached?
      (value.matchWith limits candidate depth bindings) (value.matchFreely candidate bindings)) :
    Guarded limits Matched.reached? (matchFields limits fields actual depth bindings)
      (matchFieldsFreely fields actual bindings) := by
  induction fields generalizing bindings with
  | nil => exact .pure Matched.reached? (true, bindings)
  | cons name above expected rest ih =>
    unfold matchFields matchFieldsFreely
    cases actual.get? name with
    | none => exact .refused bindings
    | some value =>
      apply Guarded.bind (guarded expected List.mem_cons_self value bindings)
      rintro ⟨verdict, reached⟩
      cases verdict with
      | false => exact .refused reached
      | true => exact ih fun other mem => guarded other (List.mem_cons_of_mem _ mem)

/-- Within limits on the depth, a guarded search follows the free one. -/
theorem matchWith_guarded (expected actual : Tree) (depth : Nat) (bindings : Bindings)
    (room : limits.checkDepth (depth + expected.depth) = .ok ()) :
    Guarded limits Matched.reached? (expected.matchWith limits actual depth bindings)
      (expected.matchFreely actual bindings) := by
  have here : limits.checkDepth depth = .ok () := Limits.checkDepth_mono (Nat.le_add_right _ _) room
  induction expected generalizing actual depth bindings with
  | identifier text kind known => exact matchScalar_guarded here
  | plain value plain => exact matchScalar_guarded here
  | sequence items ih =>
    cases actual with
    | scalar _ | record _ => exact .bind (.step here) fun _ => .refused bindings
    | sequence actual =>
      rw [matchFreely_sequence, matchWith]
      refine .bind (.step here) fun _ => .matchInAnyOrder fun item mem candidate bindings => ?_
      have below : depth + 1 + item.depth ≤ depth + (sequence items).depth := by
        have := depth_item_lt mem
        omega
      have room' := Limits.checkDepth_mono below room
      exact ih item mem candidate (depth + 1) bindings room'
        (Limits.checkDepth_mono (Nat.le_add_right _ _) room')
  | record fields ih =>
    cases actual with
    | scalar _ | sequence _ => exact .bind (.step here) fun _ => .refused bindings
    | record actual =>
      rw [matchFreely, matchWith]
      refine .bind (.step here) fun _ => ?_
      by_cases sizes : fields.length = actual.length
      · rw [if_pos sizes, if_pos sizes]
        refine matchFields_guarded fun value mem candidate bindings => ?_
        have below : depth + 1 + value.depth ≤ depth + (record fields).depth := by
          have := depth_value_lt mem
          omega
        have room' := Limits.checkDepth_mono below room
        exact ih value mem candidate (depth + 1) bindings room'
          (Limits.checkDepth_mono (Nat.le_add_right _ _) room')
      · rw [if_neg sizes, if_neg sizes]
        exact .refused bindings

end Tree

end QueryIso
