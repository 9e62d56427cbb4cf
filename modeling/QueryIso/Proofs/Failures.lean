import Mathlib.Data.List.Forall2

/-!
# The first failure

A reader that goes through a list fails for the first element that fails (`failure?_mapM`), and
otherwise reads every element (`mapM_eq_ok_iff`).
-/

namespace QueryIso

variable {α β γ ε : Type}

/-- The error of an outcome that is one. -/
def failure? : Except ε α → Option ε
  | .error error => some error
  | .ok _ => none

theorem failure?_eq_some_iff {outcome : Except ε α} {error : ε} :
    failure? outcome = some error ↔ outcome = .error error := by
  cases outcome <;> simp [failure?]

theorem failure?_eq_none_iff {outcome : Except ε α} :
    failure? outcome = none ↔ ∃ value, outcome = .ok value := by
  cases outcome <;> simp [failure?]

theorem failure?_map (f : α → β) (outcome : Except ε α) :
    failure? (f <$> outcome) = failure? outcome := by
  cases outcome <;> rfl

theorem findSome?_flatMap (f : β → Option γ) (g : α → List β) (items : List α) :
    (items.flatMap g).findSome? f = items.findSome? fun item => (g item).findSome? f := by
  induction items with
  | nil => rfl
  | cons item rest ih =>
    rw [List.flatMap_cons, List.findSome?_append, ih, List.findSome?_cons]
    cases (g item).findSome? f <;> rfl

/-- Going through a list fails for the first element that fails. -/
theorem failure?_mapM (f : α → Except ε β) (items : List α) :
    failure? (items.mapM f) = items.findSome? fun item => failure? (f item) := by
  induction items with
  | nil => rfl
  | cons item rest ih =>
    rw [List.mapM_cons, List.findSome?_cons, ← ih]
    cases f item with
    | error error => rfl
    | ok value => cases rest.mapM f <;> rfl

theorem mapM_eq_ok_iff {f : α → Except ε β} {items : List α} {values : List β} :
    items.mapM f = .ok values ↔
      List.Forall₂ (fun item value => f item = .ok value) items values := by
  induction items generalizing values with
  | nil =>
    rw [List.forall₂_nil_left_iff]
    exact ⟨fun same => (Except.ok.inj same).symm, fun same => same ▸ rfl⟩
  | cons item rest ih =>
    rw [List.mapM_cons, List.forall₂_cons_left_iff]
    simp only [← ih]
    cases f item with
    | error error => simp [bind, Except.bind]
    | ok value => cases rest.mapM f <;> simp [bind, Except.bind, pure, Except.pure, eq_comm]

end QueryIso
