import QueryIso.Bindings
import QueryIso.Proofs.Tables

/-!
# Tables of bindings

A table is one to one when its two directions are inverse to each other. Binding two identifiers
keeps it so: `Bindings.bind_of_fits` adds the pair when no other pair shares one of them, and
`Bindings.bind_of_not_fits` leaves the table as it is otherwise. So a table that binds identifiers
to their images under a one to one function can be grown by another one of them (`Follows.bind`).
-/

namespace QueryIso

namespace Bindings

/-- The two directions of the table are inverse to each other. -/
def OneToOne (bindings : Bindings) : Prop :=
  ∀ expected actual,
    bindings.get? expected = some actual ↔ bindings.getReverse? actual = some expected

/-- No pair of the table has exactly one of these two identifiers. -/
def Fits (bindings : Bindings) (expected actual : String) : Prop :=
  ∀ other target, bindings.get? other = some target → (other = expected ↔ target = actual)

variable {bindings : Bindings} {expected actual : String}

theorem oneToOne_empty : empty.OneToOne := by
  intro expected actual
  constructor <;> intro impossible <;> cases impossible

theorem OneToOne.injective (oneToOne : bindings.OneToOne) {other target : String}
    (first : bindings.get? expected = some target) (second : bindings.get? other = some target) :
    expected = other := by
  have back := (oneToOne expected target).1 first
  rw [(oneToOne other target).1 second] at back
  exact (Option.some.inj back).symm

theorem standing_of_fits (oneToOne : bindings.OneToOne) (fits : bindings.Fits expected actual) :
    bindings.standing expected actual = .known ∧ bindings.get? expected = some actual ∨
      bindings.standing expected actual = .fresh ∧ bindings.get? expected = none ∧
        bindings.getReverse? actual = none := by
  unfold standing
  cases forward : bindings.get? expected with
  | some target =>
    have same : target = actual := (fits expected target forward).1 rfl
    exact .inl ⟨if_pos same, congrArg some same⟩
  | none =>
    cases backward : bindings.getReverse? actual with
    | none => exact .inr ⟨rfl, rfl, rfl⟩
    | some other =>
      have bound := (oneToOne other actual).2 backward
      rw [(fits other actual bound).2 rfl, forward] at bound
      cases bound

/-- A pair that fits is in the table afterwards, and nothing else has changed. -/
theorem bind_of_fits (oneToOne : bindings.OneToOne) (fits : bindings.Fits expected actual) :
    ∃ reached, bindings.bind expected actual = (true, reached) ∧ reached.OneToOne ∧
      ∀ name, reached.get? name = if name = expected then some actual else bindings.get? name := by
  rcases standing_of_fits oneToOne fits with ⟨known, bound⟩ | ⟨fresh, forward, backward⟩
  · refine ⟨bindings, by rw [bind, known], oneToOne, ?_⟩
    intro name
    split
    · rename_i same
      rw [same, bound]
    · rfl
  · refine ⟨⟨Dict.insert bindings.forward expected actual,
      Dict.insert bindings.backward actual expected⟩, by rw [bind, fresh], ?_,
      fun name => Dict.get?_insert bindings.forward expected name actual⟩
    intro name target
    change (Dict.insert bindings.forward expected actual).get? name = _ ↔
      (Dict.insert bindings.backward actual expected).get? target = _
    rw [Dict.get?_insert, Dict.get?_insert]
    have old := oneToOne name target
    by_cases sameName : name = expected
    · by_cases sameTarget : target = actual
      · simp [sameName, sameTarget]
      · subst sameName
        rw [if_pos rfl, if_neg sameTarget]
        change some actual = some target ↔ bindings.getReverse? target = some name
        rw [← old, forward]
        simp [Ne.symm sameTarget]
    · by_cases sameTarget : target = actual
      · subst sameTarget
        rw [if_pos rfl, if_neg sameName]
        change bindings.get? name = some target ↔ some expected = some name
        rw [old, backward]
        simp [Ne.symm sameName]
      · rw [if_neg sameName, if_neg sameTarget]
        exact old

theorem bind_of_not_fits (oneToOne : bindings.OneToOne)
    (conflict : ¬ bindings.Fits expected actual) :
    bindings.bind expected actual = (false, bindings) := by
  unfold bind standing
  cases forward : bindings.get? expected with
  | some target =>
    by_cases same : target = actual
    · -- a pair of the table fits it
      exfalso
      apply conflict
      intro other target' bound
      subst same
      constructor
      · rintro rfl
        rw [forward] at bound
        exact (Option.some.inj bound).symm
      · rintro rfl
        exact oneToOne.injective bound forward
    · dsimp only
      rw [if_neg same]
  | none =>
    cases backward : bindings.getReverse? actual with
    | some other => rfl
    | none =>
      exfalso
      apply conflict
      intro other target bound
      constructor
      · rintro rfl
        rw [forward] at bound
        cases bound
      · rintro rfl
        rw [(oneToOne other target).1 bound] at backward
        cases backward

/-- The table binds some of these identifiers, each to its image. -/
structure Follows (bindings : Bindings) (image : String → String) (among : String → Prop) :
    Prop where
  oneToOne : bindings.OneToOne
  agrees : ∀ text target, bindings.get? text = some target → among text ∧ target = image text

section
variable {image : String → String} {among : String → Prop}

theorem follows_empty (image : String → String) (among : String → Prop) :
    empty.Follows image among :=
  ⟨oneToOne_empty, fun _ _ impossible => by cases impossible⟩

/-- A table that follows a one to one function follows it further. -/
theorem Follows.bind (follows : bindings.Follows image among)
    (injective : ∀ a, among a → ∀ b, among b → image a = image b → a = b) {text : String}
    (mem : among text) :
    ∃ reached, bindings.bind text (image text) = (true, reached) ∧ reached.Follows image among := by
  have fits : bindings.Fits text (image text) := by
    intro other target bound
    obtain ⟨mem', rfl⟩ := follows.agrees other target bound
    exact ⟨fun same => by rw [same], injective other mem' text mem⟩
  obtain ⟨reached, bound, oneToOne, get⟩ := bind_of_fits follows.oneToOne fits
  refine ⟨reached, bound, oneToOne, ?_⟩
  intro name target after
  rw [get] at after
  split at after
  · rename_i same
    rw [same]
    exact ⟨mem, (Option.some.inj after).symm⟩
  · exact follows.agrees name target after

end

end Bindings

end QueryIso
