import Mathlib.Data.List.Perm.Basic
import QueryIso.Matching

/-!
# The search for a perfect matching

What the search does depends on its test only through how the answers are chained, so a relation
between two monads that chaining respects carries over from the tests to the searches
(`find?_related`), and so does one between states, elements and candidates of different types
(`find?_corresponds`). Without effects, the search answers exactly when a matching exists:

* `find?_sound`: what it finds is the state along some pairing with a permutation of the candidates;
* `find?_complete`: if the test accepts every pair along such a pairing, the search finds something.
-/

namespace QueryIso

namespace Matching

/-- Chaining computations that may fail and keep a state either way. -/
theorem run_bind {X S α β : Type} (x : ExceptT X (StateM S) α) (f : α → ExceptT X (StateM S) β)
    (state : S) : (x >>= f).run.run state =
      match x.run.run state with
      | (.ok value, after) => (f value).run.run after
      | (.error error, after) => (.error error, after) := by
  change ExceptT.bindCont f (x.run.run state).1 (x.run.run state).2 = _
  rcases x.run.run state with ⟨_ | _, after⟩ <;> rfl

/-- A relation between the computations of two monads that returning and chaining respect. -/
structure Simulation (m n : Type → Type) [Monad m] [Monad n] where
  Rel : {α : Type} → m α → n α → Prop
  pure : ∀ {α : Type} (a : α), Rel (Pure.pure a) (Pure.pure a)
  bind : ∀ {α β : Type} {x : m α} {y : n α} {f : α → m β} {g : α → n β},
    Rel x y → (∀ a, Rel (f a) (g a)) → Rel (x >>= f) (y >>= g)

section
variable {m n : Type → Type} [Monad m] [Monad n] {D E A S : Type}

/-- The state along a pairing, up to the first pair that the test refuses. -/
def along (compatible : E → A → S → m (Option S)) : List E → List A → S → m (Option S)
  | [], [], state => pure (some state)
  | element :: rest, candidate :: others, state => do
    match ← compatible element candidate state with
    | none => pure none
    | some reached => along compatible rest others reached
  | _, _, _ => pure none

theorem extend_map (compatible : E → A → S → m (Option S)) (abandon : Nat → Nat → m Unit)
    (f : D → E) (expected : List D) (free : List (A × Nat)) (state : S) :
    extend compatible abandon (expected.map f) free state =
      extend (fun element => compatible (f element)) abandon expected free state := by
  induction expected generalizing free state with
  | nil => rfl
  | cons element rest ih => simp only [List.map_cons, extend, ih, List.length_map]

theorem find?_map (compatible : E → A → S → m (Option S)) (abandon : Nat → Nat → m Unit)
    (f : D → E) (expected : List D) (actual : List A) (state : S) :
    find? compatible abandon (expected.map f) actual state =
      find? (fun element => compatible (f element)) abandon expected actual state := by
  rw [find?, find?, List.length_map, extend_map]

/-- A relation between computations that may find states of two types: finding nothing, finding
states that correspond, and going on after either keeps it, and so do effects that correspond. -/
structure Correspondence (m n : Type → Type) [Monad m] [Monad n] (S T : Type) where
  States : S → T → Prop
  Effects : m Unit → n Unit → Prop
  Rel : m (Option S) → n (Option T) → Prop
  missed : Rel (pure none) (pure none)
  found : ∀ {state : S} {state' : T}, States state state' →
    Rel (pure (some state)) (pure (some state'))
  bind : ∀ {x : m (Option S)} {y : n (Option T)} {next : Option S → m (Option S)}
    {next' : Option T → n (Option T)}, Rel x y → Rel (next none) (next' none) →
    (∀ state state', States state state' → Rel (next (some state)) (next' (some state'))) →
    Rel (x >>= next) (y >>= next')
  after : ∀ {effect : m Unit} {effect' : n Unit} {x : m (Option S)} {y : n (Option T)},
    Effects effect effect' → Rel x y → Rel (effect >>= fun _ => x) (effect' >>= fun _ => y)

/-- Where computations simulate each other, every state corresponds to itself. -/
def Simulation.correspondence (sim : Simulation m n) (S : Type) : Correspondence m n S S where
  States state state' := state = state'
  Effects := sim.Rel
  Rel := sim.Rel
  missed := sim.pure none
  found := by
    rintro state _ rfl
    exact sim.pure (some state)
  bind := by
    intro _ _ _ _ related missed found
    apply sim.bind related
    intro result
    cases result with
    | none => exact missed
    | some state => exact found state state rfl
  after effects related := sim.bind effects fun _ => related

section
variable {F B T : Type} (corr : Correspondence m n S T) (onElements : E → F) (onCandidates : A → B)

theorem tryEach_corresponds {attempt : A × Nat → List (A × Nat) → List (A × Nat) → m (Option S)}
    {attempt' : B × Nat → List (B × Nat) → List (B × Nat) → n (Option T)}
    {free before after : List (A × Nat)}
    (attempts : ∀ candidate before after, before.reverseAux (candidate :: after) = free →
      corr.Rel (attempt candidate before after)
        (attempt' (candidate.map onCandidates id) (before.map (Prod.map onCandidates id))
          (after.map (Prod.map onCandidates id))))
    (split : before.reverseAux after = free) :
    corr.Rel (tryEach attempt before after)
      (tryEach attempt' (before.map (Prod.map onCandidates id))
        (after.map (Prod.map onCandidates id))) := by
  induction after generalizing before with
  | nil => exact corr.missed
  | cons candidate rest ih =>
    apply corr.bind (attempts candidate before rest split)
    · exact ih split
    · exact fun _ _ states => corr.found states

variable {compatible : E → A → S → m (Option S)} {compatible' : F → B → T → n (Option T)}
  {abandon : Nat → Nat → m Unit} {abandon' : Nat → Nat → n Unit}

theorem extend_corresponds {expected : List E} {free : List (A × Nat)} {state : S} {state' : T}
    (tests : ∀ element ∈ expected, ∀ candidate ∈ free, ∀ state state', corr.States state state' →
      corr.Rel (compatible element candidate.1 state)
        (compatible' (onElements element) (onCandidates candidate.1) state'))
    (abandons : ∀ position left, corr.Effects (abandon position left) (abandon' position left))
    (states : corr.States state state') :
    corr.Rel (extend compatible abandon expected free state)
      (extend compatible' abandon' (expected.map onElements)
        (free.map (Prod.map onCandidates id)) state') := by
  induction expected generalizing free state state' with
  | nil => exact corr.found states
  | cons element rest ih =>
    have whole : [].reverseAux free = free := rfl
    refine tryEach_corresponds corr onCandidates ?_ whole
    intro candidate before after split
    rw [List.reverseAux_eq] at split
    have member : candidate ∈ free := split ▸ List.mem_append_right _ List.mem_cons_self
    have members : ∀ entry ∈ before.reverse ++ after, entry ∈ free := by
      intro entry mem
      rw [← split, List.mem_append, List.mem_cons]
      exact (List.mem_append.1 mem).imp_right .inr
    apply corr.bind (tests element List.mem_cons_self candidate member state state' states)
    · exact corr.missed
    · intro reached reached' states
      have tests' : ∀ other ∈ rest, ∀ entry ∈ before.reverse ++ after, ∀ state state',
          corr.States state state' → corr.Rel (compatible other entry.1 state)
            (compatible' (onElements other) (onCandidates entry.1) state') :=
        fun other mem entry memEntry =>
          tests other (List.mem_cons_of_mem _ mem) entry (members entry memEntry)
      have later := ih tests' states
      rw [List.map_append, List.map_reverse] at later
      rw [List.reverseAux_eq, List.reverseAux_eq]
      apply corr.bind later
      · rw [List.length_map]
        exact corr.after (abandons candidate.2 rest.length) corr.missed
      · exact fun _ _ states => corr.found states

/-- Searches correspond when the tests of their elements and candidates do. -/
theorem find?_corresponds {expected : List E} {actual : List A} {state : S} {state' : T}
    (tests : ∀ element ∈ expected, ∀ candidate ∈ actual, ∀ state state',
      corr.States state state' → corr.Rel (compatible element candidate state)
        (compatible' (onElements element) (onCandidates candidate) state'))
    (abandons : ∀ position left, corr.Effects (abandon position left) (abandon' position left))
    (states : corr.States state state') :
    corr.Rel (find? compatible abandon expected actual state)
      (find? compatible' abandon' (expected.map onElements) (actual.map onCandidates) state') := by
  rw [find?, find?, List.length_map, List.length_map, List.zipIdx_map]
  split
  · refine extend_corresponds corr onElements onCandidates ?_ abandons states
    intro element mem candidate memFree
    have memActual : candidate.1 ∈ actual := by
      rw [← List.zipIdx_map_fst 0 actual]
      exact List.mem_map_of_mem memFree
    exact tests element mem candidate.1 memActual
  · exact corr.missed

end

section
variable (sim : Simulation m n) {compatible : E → A → S → m (Option S)}
  {compatible' : E → A → S → n (Option S)} {abandon : Nat → Nat → m Unit}
  {abandon' : Nat → Nat → n Unit}

/-- Searches whose tests are related are related. -/
theorem find?_related {expected : List E}
    (tests : ∀ element ∈ expected, ∀ candidate state,
      sim.Rel (compatible element candidate state) (compatible' element candidate state))
    (abandons : ∀ position left, sim.Rel (abandon position left) (abandon' position left))
    (actual : List A) (state : S) :
    sim.Rel (find? compatible abandon expected actual state)
      (find? compatible' abandon' expected actual state) := by
  have same : ∀ element ∈ expected, ∀ candidate ∈ actual, ∀ state state', state = state' →
      sim.Rel (compatible element candidate state) (compatible' element candidate state') := by
    rintro element mem candidate _ state _ rfl
    exact tests element mem candidate state
  have related : sim.Rel (find? compatible abandon expected actual state)
      (find? compatible' abandon' (expected.map id) (actual.map id) state) :=
    find?_corresponds (sim.correspondence S) id id same abandons rfl
  rwa [List.map_id, List.map_id] at related

theorem along_related {expected : List E}
    (tests : ∀ element ∈ expected, ∀ candidate state,
      sim.Rel (compatible element candidate state) (compatible' element candidate state))
    (actual : List A) (state : S) :
    sim.Rel (along compatible expected actual state) (along compatible' expected actual state) := by
  induction expected generalizing actual state with
  | nil => cases actual <;> exact sim.pure _
  | cons element rest ih =>
    cases actual with
    | nil => exact sim.pure none
    | cons candidate others =>
      apply sim.bind (tests element List.mem_cons_self candidate state)
      intro reached
      cases reached with
      | none => exact sim.pure none
      | some reached =>
        exact ih (fun other mem => tests other (List.mem_cons_of_mem _ mem)) others reached

end

end

/-! ## Searches without effects -/

section
variable {E A S : Type} {compatible : E → A → S → Id (Option S)} {abandon : Nat → Nat → Id Unit}

theorem along_cons (element : E) (rest : List E) (candidate : A) (others : List A) (state : S) :
    along compatible (element :: rest) (candidate :: others) state =
      match compatible element candidate state with
      | none => none
      | some reached => along compatible rest others reached := by
  rw [along]
  change (match compatible element candidate state with | none => _ | some reached => _) = _
  cases compatible element candidate state <;> rfl

theorem along_cons_iff {element : E} {rest : List E} {candidate : A} {others : List A}
    {state final : S} :
    along compatible (element :: rest) (candidate :: others) state = some final ↔
      ∃ reached, compatible element candidate state = some reached ∧
        along compatible rest others reached = some final := by
  rw [along_cons]
  cases compatible element candidate state with
  | none =>
    constructor
    · intro success
      cases success
    · rintro ⟨_, success, _⟩
      cases success
  | some reached =>
    constructor
    · exact fun later => ⟨reached, rfl, later⟩
    · rintro ⟨_, same, later⟩
      cases same
      exact later

theorem along_nil_iff {actual : List A} {state final : S} :
    along compatible [] actual state = some final ↔ actual = [] ∧ state = final := by
  cases actual with
  | nil => exact ⟨fun same => ⟨rfl, Option.some.inj same⟩, fun both => congrArg some both.2⟩
  | cons candidate others =>
    constructor
    · intro success
      cases success
    · rintro ⟨empty, _⟩
      cases empty

theorem length_of_along {expected : List E} {paired : List A} {state final : S}
    (accepted : along compatible expected paired state = some final) :
    expected.length = paired.length := by
  induction expected generalizing paired state with
  | nil => rw [(along_nil_iff.1 accepted).1]; rfl
  | cons element rest ih =>
    cases paired with
    | nil => cases accepted
    | cons candidate others =>
      obtain ⟨reached, _, later⟩ := along_cons_iff.1 accepted
      rw [List.length_cons, List.length_cons, ih later]

theorem tryEach_cons (attempt : A × Nat → List (A × Nat) → List (A × Nat) → Id (Option S))
    (candidate : A × Nat) (before after : List (A × Nat)) :
    tryEach attempt before (candidate :: after) =
      match attempt candidate before after with
      | some found => some found
      | none => tryEach attempt (candidate :: before) after := by
  rw [tryEach]
  change (match attempt candidate before after with | some found => _ | none => _) = _
  cases attempt candidate before after <;> rfl

/-- An attempt that succeeds leaves the candidates before and after its own. -/
theorem tryEach_sound {attempt : A × Nat → List (A × Nat) → List (A × Nat) → Id (Option S)}
    {before after : List (A × Nat)} {found : S}
    (success : tryEach attempt before after = some found) :
    ∃ passed candidate rest, after = passed ++ candidate :: rest ∧
      attempt candidate (passed.reverse ++ before) rest = some found := by
  induction after generalizing before with
  | nil => cases success
  | cons first after ih =>
    rw [tryEach_cons] at success
    cases here : attempt first before after with
    | some other =>
      rw [here] at success
      exact ⟨[], first, after, rfl, here.trans success⟩
    | none =>
      rw [here] at success
      obtain ⟨passed, candidate, rest, split, attempted⟩ := ih success
      refine ⟨first :: passed, candidate, rest, by rw [split, List.cons_append], ?_⟩
      rwa [List.reverse_cons, List.append_assoc]

theorem tryEach_complete {attempt : A × Nat → List (A × Nat) → List (A × Nat) → Id (Option S)}
    {passed rest : List (A × Nat)} {candidate : A × Nat} {before : List (A × Nat)} {found : S}
    (attempted : attempt candidate (passed.reverse ++ before) rest = some found) :
    ∃ first, tryEach attempt before (passed ++ candidate :: rest) = some first := by
  induction passed generalizing before with
  | nil =>
    have here : attempt candidate before rest = some found := attempted
    refine ⟨found, ?_⟩
    rw [List.nil_append, tryEach_cons, here]
  | cons first passed ih =>
    rw [List.cons_append, tryEach_cons]
    cases here : attempt first before (passed ++ candidate :: rest) with
    | some other => exact ⟨other, rfl⟩
    | none =>
      apply ih
      rwa [List.reverse_cons, List.append_assoc] at attempted

theorem extend_cons (element : E) (rest : List E) (free : List (A × Nat)) (state : S) :
    extend compatible abandon (element :: rest) free state =
      tryEach (fun candidate before after =>
        match compatible element candidate.1 state with
        | none => none
        | some reached => extend compatible abandon rest (before.reverseAux after) reached)
        [] free := by
  rw [extend]
  congr 1
  funext candidate before after
  change (match compatible element candidate.1 state with | none => _ | some reached => _) = _
  cases compatible element candidate.1 state with
  | none => rfl
  | some reached =>
    change (match extend compatible abandon rest _ reached with | some found => _ | none => _) =
      extend compatible abandon rest (before.reverseAux after) reached
    cases extend compatible abandon rest (before.reverseAux after) reached <;> rfl

theorem extend_sound {expected : List E} {free : List (A × Nat)} {state found : S}
    (sizes : expected.length = free.length)
    (success : extend compatible abandon expected free state = some found) :
    ∃ paired, paired.Perm (free.map (·.1)) ∧
      along compatible expected paired state = some found := by
  induction expected generalizing free state with
  | nil =>
    have none : free = [] := List.length_eq_zero_iff.1 sizes.symm
    exact ⟨[], by rw [none]; exact .nil, success⟩
  | cons element rest ih =>
    rw [extend_cons] at success
    obtain ⟨passed, candidate, after, rfl, attempted⟩ := tryEach_sound success
    rw [List.append_nil, List.reverseAux_eq, List.reverse_reverse] at attempted
    cases accepted : compatible element candidate.1 state with
    | none =>
      rw [accepted] at attempted
      cases attempted
    | some reached =>
      rw [accepted] at attempted
      have sizes' : rest.length = (passed ++ after).length := by
        simp only [List.length_cons, List.length_append] at sizes ⊢
        omega
      obtain ⟨paired, order, later⟩ := ih sizes' attempted
      refine ⟨candidate.1 :: paired, ?_, along_cons_iff.2 ⟨reached, accepted, later⟩⟩
      rw [List.map_append, List.map_cons]
      rw [List.map_append] at order
      exact (order.cons candidate.1).trans List.perm_middle.symm

theorem extend_complete {expected : List E} {free : List (A × Nat)} {paired : List A}
    {state final : S} (order : paired.Perm (free.map (·.1)))
    (accepted : along compatible expected paired state = some final) :
    ∃ found, extend compatible abandon expected free state = some found := by
  induction expected generalizing free paired state with
  | nil => exact ⟨state, rfl⟩
  | cons element rest ih =>
    cases paired with
    | nil => cases accepted
    | cons candidate others =>
      obtain ⟨reached, tested, later⟩ := along_cons_iff.1 accepted
      obtain ⟨entry, mem, rfl⟩ := List.mem_map.1 (order.subset List.mem_cons_self)
      obtain ⟨passed, after, rfl⟩ := List.append_of_mem mem
      have order' : others.Perm ((passed ++ after).map (·.1)) := by
        rw [List.map_append, List.map_cons] at order
        rw [List.map_append]
        exact (order.trans List.perm_middle).cons_inv
      obtain ⟨found, success⟩ := ih order' later
      rw [extend_cons]
      apply tryEach_complete
      rw [tested, List.append_nil, List.reverseAux_eq, List.reverse_reverse]
      exact success

/-- What the search finds is the state along a pairing with all candidates. -/
theorem find?_sound {expected : List E} {actual : List A} {state found : S}
    (success : find? compatible abandon expected actual state = some found) :
    ∃ paired, paired.Perm actual ∧ along compatible expected paired state = some found := by
  unfold find? at success
  split at success
  · rename_i sizes
    have sizes' : expected.length = actual.zipIdx.length := by rw [sizes, List.length_zipIdx]
    obtain ⟨paired, order, accepted⟩ := extend_sound sizes' success
    rw [List.zipIdx_map_fst] at order
    exact ⟨paired, order, accepted⟩
  · cases success

/-- The search finds something whenever the test accepts every pair along some pairing. -/
theorem find?_complete {expected : List E} {actual paired : List A} {state final : S}
    (order : paired.Perm actual) (accepted : along compatible expected paired state = some final) :
    ∃ found, find? compatible abandon expected actual state = some found := by
  have sizes : expected.length = actual.length := by
    rw [length_of_along accepted, order.length_eq]
  rw [find?, if_pos sizes]
  apply extend_complete _ accepted
  rwa [List.zipIdx_map_fst]

end

end Matching

end QueryIso
