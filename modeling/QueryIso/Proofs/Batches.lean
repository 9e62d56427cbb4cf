import QueryIso.Proofs.Histories

/-!
# Binding many pairs

Whether one pair is accepted depends on what was bound before it: of two pairs in conflict the first
one stays. Whether all pairs of a list are accepted does not depend on their order:

* `Bindings.bindAll_accepted_iff`: they are exactly if the table and the list together pair texts
  one to one;
* `Bindings.get?_bindAll`: the table then holds both, and nothing else;
* `Bindings.order_does_not_matter`: so every order of the list is accepted with the same table, or
  none is accepted.
-/

namespace QueryIso

namespace Bindings

/-- Binds pairs one after the other: whether all of them were accepted, and the table. -/
def bindAll (bindings : Bindings) : List (String × String) → Bool × Bindings
  | [] => (true, bindings)
  | (expected, actual) :: rest =>
    let (accepted, reached) := bindings.bind expected actual
    let (others, last) := reached.bindAll rest
    (accepted && others, last)

/-- The pairs of the table and those of a list. -/
def Joined (bindings : Bindings) (pairs : List (String × String)) (text target : String) : Prop :=
  bindings.get? text = some target ∨ (text, target) ∈ pairs

/-- Every text is related to at most one, and at most one to every text. -/
structure PairsUp (related : String → String → Prop) : Prop where
  functional : ∀ text target other, related text target → related text other → target = other
  injective : ∀ text other target, related text target → related other target → text = other

variable {bindings : Bindings} {expected actual : String} {pairs order : List (String × String)}

theorem bindAll_cons (bindings : Bindings) (expected actual : String)
    (rest : List (String × String)) :
    bindings.bindAll ((expected, actual) :: rest) =
      ((bindings.bind expected actual).1 && ((bindings.bind expected actual).2.bindAll rest).1,
        ((bindings.bind expected actual).2.bindAll rest).2) :=
  rfl

theorem OneToOne.bindAll (oneToOne : bindings.OneToOne) (pairs : List (String × String)) :
    (bindings.bindAll pairs).2.OneToOne := by
  induction pairs generalizing bindings with
  | nil => exact oneToOne
  | cons pair rest ih => exact ih (oneToOne.bind pair.1 pair.2)

theorem joined_nil : bindings.Joined [] = fun text target => bindings.get? text = some target := by
  funext text target
  simp [Joined]

/-- An accepted pair has only moved from the list into the table. -/
theorem joined_bind (oneToOne : bindings.OneToOne)
    (accepted : (bindings.bind expected actual).1 = true) (rest : List (String × String)) :
    (bindings.bind expected actual).2.Joined rest = bindings.Joined ((expected, actual) :: rest) := by
  funext text target
  rw [Joined, Joined, get?_bind_accepted oneToOne accepted, List.mem_cons, Prod.mk.injEq, or_assoc]

theorem Joined.perm (perm : order.Perm pairs) : bindings.Joined order = bindings.Joined pairs := by
  funext text target
  rw [Joined, Joined, perm.mem_iff]

theorem OneToOne.pairsUp (oneToOne : bindings.OneToOne) : PairsUp (bindings.Joined []) := by
  rw [joined_nil]
  refine ⟨fun text target other here there => ?_, fun _ _ _ => oneToOne.injective⟩
  exact Option.some.inj (here.symm.trans there)

theorem PairsUp.fits (pairsUp : PairsUp (bindings.Joined pairs))
    (mem : (expected, actual) ∈ pairs) : bindings.Fits expected actual := by
  intro other target bound
  constructor
  · rintro rfl
    exact pairsUp.functional other target actual (.inl bound) (.inr mem)
  · rintro rfl
    exact pairsUp.injective other expected target (.inl bound) (.inr mem)

/-- All pairs are accepted exactly if the table and the list together pair texts one to one. -/
theorem bindAll_accepted_iff (oneToOne : bindings.OneToOne) :
    (bindings.bindAll pairs).1 = true ↔ PairsUp (bindings.Joined pairs) := by
  induction pairs generalizing bindings with
  | nil => exact iff_of_true rfl oneToOne.pairsUp
  | cons pair rest ih =>
    obtain ⟨expected, actual⟩ := pair
    rw [bindAll_cons, Bool.and_eq_true, ih (oneToOne.bind expected actual)]
    by_cases accepted : (bindings.bind expected actual).1 = true
    · rw [joined_bind oneToOne accepted, and_iff_right accepted]
    · refine iff_of_false (fun both => accepted both.1) fun pairsUp => ?_
      exact accepted ((accepted_iff oneToOne).2 (pairsUp.fits List.mem_cons_self))

/-- Where all pairs are accepted, the table holds them besides what it held. -/
theorem get?_bindAll (oneToOne : bindings.OneToOne) (accepted : (bindings.bindAll pairs).1 = true)
    (text target : String) :
    (bindings.bindAll pairs).2.get? text = some target ↔ bindings.Joined pairs text target := by
  induction pairs generalizing bindings with
  | nil => rw [joined_nil]; rfl
  | cons pair rest ih =>
    obtain ⟨expected, actual⟩ := pair
    rw [bindAll_cons, Bool.and_eq_true] at accepted
    rw [bindAll_cons, ← joined_bind oneToOne accepted.1]
    exact ih (oneToOne.bind expected actual) accepted.2

/-- One to one tables with the same pairs are equal. -/
theorem OneToOne.ext {other : Bindings} (oneToOne : bindings.OneToOne) (oneToOne' : other.OneToOne)
    (same : ∀ text target, bindings.get? text = some target ↔ other.get? text = some target) :
    bindings = other := by
  rw [oneToOne.eq_iff oneToOne']
  apply Dict.ext_get?
  intro text
  exact Option.ext (same text)

/-- **The outcome of a set of pairs does not depend on their order.** Binding the pairs of a list one
after the other is accepted throughout exactly if the table and the list together pair texts one to
one. Then every order of the list is accepted throughout and leads to the same table, which holds
what the table held and the pairs of the list. If one order of the list has a refused pair, every
order has one. -/
theorem order_does_not_matter (reachable : bindings.Reachable) (pairs : List (String × String)) :
    ((bindings.bindAll pairs).1 = true ↔ PairsUp (bindings.Joined pairs)) ∧
    ((bindings.bindAll pairs).1 = true → ∀ order : List (String × String), order.Perm pairs →
      (bindings.bindAll order).1 = true ∧
        (bindings.bindAll order).2 = (bindings.bindAll pairs).2 ∧
        ∀ text target, (bindings.bindAll order).2.get? text = some target ↔
          bindings.get? text = some target ∨ (text, target) ∈ pairs) ∧
    ((bindings.bindAll pairs).1 = false → ∀ order : List (String × String), order.Perm pairs →
      (bindings.bindAll order).1 = false) := by
  have oneToOne := reachable.oneToOne
  have verdicts : ∀ order : List (String × String), order.Perm pairs →
      ((bindings.bindAll order).1 = true ↔ (bindings.bindAll pairs).1 = true) := by
    intro order perm
    rw [bindAll_accepted_iff oneToOne, bindAll_accepted_iff oneToOne, Joined.perm perm]
  refine ⟨bindAll_accepted_iff oneToOne, fun accepted order perm => ?_, fun refused order perm => ?_⟩
  · have accepted' := (verdicts order perm).2 accepted
    have held : ∀ text target, (bindings.bindAll order).2.get? text = some target ↔
        bindings.Joined pairs text target := by
      intro text target
      rw [get?_bindAll oneToOne accepted', Joined.perm perm]
    refine ⟨accepted', ?_, held⟩
    apply (oneToOne.bindAll order).ext (oneToOne.bindAll pairs)
    intro text target
    rw [held, get?_bindAll oneToOne accepted]
  · rw [← Bool.not_eq_true, verdicts order perm, refused]
    exact Bool.false_ne_true

/-- The table in which `?x` is bound to `?a`. -/
def oneBound : Bindings :=
  (empty.bind "?x" "?a").2

/-- Pairs that go together, one of which the table has. -/
def agreeing : List (String × String) :=
  [("?y", "?b"), ("?x", "?a"), ("?z", "?c")]

/-- Two pairs of which the table can take one. -/
def conflicting : List (String × String) :=
  [("?y", "?b"), ("?z", "?b")]

/-- Pairs that go together lead to the same table from either end. Of two in conflict the first one
stays, so the tables differ, but one of the two is refused either way. -/
theorem order_does_not_matter_oneBound :
    oneBound.Reachable ∧ (oneBound.bindAll agreeing).1 = true ∧
      (oneBound.bindAll agreeing.reverse).2 = (oneBound.bindAll agreeing).2 ∧
      (oneBound.bindAll conflicting).1 = false ∧
      (oneBound.bindAll conflicting.reverse).1 = false ∧
      (oneBound.bindAll conflicting.reverse).2 ≠ (oneBound.bindAll conflicting).2 := by
  have reachable : oneBound.Reachable := Reachable.empty.bind "?x" "?a"
  obtain ⟨_, accepted, _⟩ := order_does_not_matter reachable agreeing
  obtain ⟨_, _, refused⟩ := order_does_not_matter reachable conflicting
  exact ⟨reachable, rfl, (accepted rfl _ (List.reverse_perm agreeing)).2.1, rfl,
    refused rfl _ (List.reverse_perm conflicting), by decide⟩

end Bindings

end QueryIso
