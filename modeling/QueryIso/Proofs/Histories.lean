import QueryIso.Proofs.Bindings

/-!
# Histories of a table

What holds of a table of bindings whatever was bound before, refused pairs included:

* `Bindings.Reachable.oneToOne`: its two directions are inverse to each other;
* `Bindings.OneToOne.backward_perm`, `Bindings.OneToOne.eq_iff`: they are equally long, and one of
  them determines the table;
* `Bindings.get?_bind_accepted`, `Bindings.bind_refused`: an accepted pair is added and changes no
  other, a refused one has an identifier that is bound otherwise, and changes nothing;
* `Bindings.table_invariant`: all of this together.
-/

namespace QueryIso

namespace Bindings

variable {bindings other : Bindings} {expected actual : String}

namespace OneToOne

theorem nodup_targets (oneToOne : bindings.OneToOne) : bindings.forward.values.Nodup := by
  refine bindings.forward.nodup_toList.map_on ?_
  rintro ⟨a, target⟩ memA ⟨b, _⟩ memB rfl
  have same : a = b :=
    oneToOne.injective (Entries.get?_eq_some_iff.2 memA) (Entries.get?_eq_some_iff.2 memB)
  rw [same]

/-- The names of the backward direction are the values of the forward one. -/
theorem backward_perm (oneToOne : bindings.OneToOne) :
    bindings.backward.names.Perm bindings.forward.values := by
  rw [List.perm_ext_iff_of_nodup (Entries.nodup_names _) oneToOne.nodup_targets]
  intro target
  rw [Entries.mem_names_iff, Entries.mem_values_iff]
  exact exists_congr fun text => (oneToOne text target).symm

theorem length_backward (oneToOne : bindings.OneToOne) :
    bindings.backward.length = bindings.length := by
  have lengths := oneToOne.backward_perm.length_eq
  rwa [Entries.length_names, Entries.values, List.length_map] at lengths

/-- Tables are equal when their forward directions are. -/
theorem eq_iff (oneToOne : bindings.OneToOne) (oneToOne' : other.OneToOne) :
    bindings = other ↔ bindings.forward = other.forward := by
  refine ⟨fun same => same ▸ rfl, fun same => ?_⟩
  have backward : bindings.backward = other.backward := by
    apply Dict.ext_get?
    intro target
    apply Option.ext
    intro text
    have there := oneToOne text target
    have here := oneToOne' text target
    rw [get?, same] at there
    exact there.symm.trans here
  cases bindings
  cases other
  exact congrArg₂ Bindings.mk same backward

theorem bind (oneToOne : bindings.OneToOne) (expected actual : String) :
    (bindings.bind expected actual).2.OneToOne := by
  by_cases fits : bindings.Fits expected actual
  · obtain ⟨reached, bound, oneToOne', _⟩ := bind_of_fits oneToOne fits
    rwa [bound]
  · rwa [bind_of_not_fits oneToOne fits]

end OneToOne

theorem accepted_iff (oneToOne : bindings.OneToOne) :
    (bindings.bind expected actual).1 = true ↔ bindings.Fits expected actual := by
  by_cases fits : bindings.Fits expected actual
  · obtain ⟨_, bound, _⟩ := bind_of_fits oneToOne fits
    exact iff_of_true (by rw [bound]) fits
  · rw [bind_of_not_fits oneToOne fits]
    exact iff_of_false Bool.false_ne_true fits

/-- A pair that is accepted is added, and every other pair stays as it is. -/
theorem get?_bind_accepted (oneToOne : bindings.OneToOne)
    (accepted : (bindings.bind expected actual).1 = true) (text target : String) :
    (bindings.bind expected actual).2.get? text = some target ↔
      bindings.get? text = some target ∨ text = expected ∧ target = actual := by
  have fits := (accepted_iff oneToOne).1 accepted
  obtain ⟨reached, bound, _, get⟩ := bind_of_fits oneToOne fits
  rw [bound, get]
  by_cases same : text = expected
  · rw [if_pos same, Option.some.injEq]
    constructor
    · exact fun here => .inr ⟨same, here.symm⟩
    · rintro (before | ⟨_, here⟩)
      · exact ((fits text target before).1 same).symm
      · exact here.symm
  · rw [if_neg same]
    exact ⟨.inl, fun either => either.resolve_right fun pair => same pair.1⟩

/-- A pair is refused when one of its identifiers is bound otherwise, and the table stays. -/
theorem bind_refused (oneToOne : bindings.OneToOne)
    (refused : (bindings.bind expected actual).1 = false) :
    (bindings.bind expected actual).2 = bindings ∧
      ((∃ target, bindings.get? expected = some target ∧ target ≠ actual) ∨
        ∃ text, bindings.getReverse? actual = some text ∧ text ≠ expected) := by
  have conflict : ¬ bindings.Fits expected actual := by
    rw [← accepted_iff oneToOne, refused]
    exact Bool.false_ne_true
  refine ⟨by rw [bind_of_not_fits oneToOne conflict], ?_⟩
  obtain ⟨text, target, bound, differ⟩ : ∃ text target,
      bindings.get? text = some target ∧ ¬ (text = expected ↔ target = actual) := by
    simpa [Fits] using conflict
  by_cases same : text = expected
  · exact .inl ⟨target, same ▸ bound, fun other => differ (iff_of_true same other)⟩
  · have here : target = actual := by
      by_contra otherTarget
      exact differ (iff_of_false same otherTarget)
    exact .inr ⟨text, here ▸ (oneToOne text target).1 bound, same⟩

/-- A table that comes from the empty one by binding pairs, accepted or not. -/
inductive Reachable : Bindings → Prop
  | empty : Reachable .empty
  | bind {bindings : Bindings} (before : Reachable bindings) (expected actual : String) :
    Reachable (bindings.bind expected actual).2

theorem Reachable.oneToOne (reachable : bindings.Reachable) : bindings.OneToOne := by
  induction reachable with
  | empty => exact oneToOne_empty
  | bind before expected actual ih => exact ih.bind expected actual

/-- **Every history leaves a one to one table.** The two directions of a reachable table are inverse
to each other and equally long, no two identifiers are bound to the same one, and the forward
direction determines the table. Binding a further pair either is refused because one of its
identifiers is bound otherwise, and leaves the table as it is, or adds the pair and nothing else. -/
theorem table_invariant (reachable : bindings.Reachable) :
    (∀ text target,
      bindings.get? text = some target ↔ bindings.getReverse? target = some text) ∧
    (∀ a b target, bindings.get? a = some target → bindings.get? b = some target → a = b) ∧
    (bindings.forward.length = bindings.length ∧ bindings.backward.length = bindings.length) ∧
    (∀ other : Bindings, other.Reachable →
      (bindings = other ↔ bindings.forward = other.forward)) ∧
    ∀ expected actual,
      ((bindings.bind expected actual).1 = false →
        (bindings.bind expected actual).2 = bindings ∧
          ((∃ target, bindings.get? expected = some target ∧ target ≠ actual) ∨
            ∃ text, bindings.getReverse? actual = some text ∧ text ≠ expected)) ∧
      ((bindings.bind expected actual).1 = true → ∀ text target,
        (bindings.bind expected actual).2.get? text = some target ↔
          bindings.get? text = some target ∨ text = expected ∧ target = actual) := by
  have oneToOne := reachable.oneToOne
  refine ⟨oneToOne, fun _ _ _ => oneToOne.injective, ⟨rfl, oneToOne.length_backward⟩, ?_, ?_⟩
  · intro other reachable'
    exact oneToOne.eq_iff reachable'.oneToOne
  · intro expected actual
    exact ⟨bind_refused oneToOne, get?_bind_accepted oneToOne⟩

/-- The table after `?x` is bound to `?a`, and then refused `?b`, as `?y` is refused `?a`. -/
def afterRefusals : Bindings :=
  (((empty.bind "?x" "?a").2.bind "?x" "?b").2.bind "?y" "?a").2

theorem table_invariant_afterRefusals :
    afterRefusals.Reachable ∧ afterRefusals.toList = [("?x", "?a")] ∧
      afterRefusals.backward.length = 1 ∧
      (afterRefusals.bind "?y" "?a").2 = afterRefusals ∧
      ∀ text target, (afterRefusals.bind "?y" "?b").2.get? text = some target ↔
        afterRefusals.get? text = some target ∨ text = "?y" ∧ target = "?b" := by
  have reachable : afterRefusals.Reachable :=
    ((Reachable.empty.bind "?x" "?a").bind "?x" "?b").bind "?y" "?a"
  obtain ⟨_, _, ⟨_, backward⟩, _, further⟩ := table_invariant reachable
  exact ⟨reachable, rfl, backward.trans rfl, ((further "?y" "?a").1 rfl).1,
    (further "?y" "?b").2 rfl⟩

end Bindings

end QueryIso
