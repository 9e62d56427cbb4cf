import QueryIso.Proofs.Bindings
import QueryIso.Proofs.Counting

/-!
# Verdicts on trees

`Tree.match?` holds the bindings after matching two trees with no limit. Identifiers are bound,
plain scalars have to be equal, elements are searched for a perfect matching, and the values of
records with the same names are matched one after the other.

What a positive verdict says about the actual tree and the bindings is one lemma for each kind of
expected tree: `Tree.of_match?_identifier`, `Tree.of_match?_plain`, `Tree.of_match?_sequence`,
`Tree.of_match?_record`.
-/

namespace QueryIso

namespace Entries

variable {α : Type} {bound other : Option String}

theorem get?_values (entries : Entries α bound) :
    List.Forall₂ (fun name value => entries.get? name = some value)
      entries.names entries.values := by
  rw [names, values, List.forall₂_map_left_iff, List.forall₂_map_right_iff, List.forall₂_same]
  intro entry mem
  exact get?_eq_some_iff.2 mem

theorem names_eq_of_subset {a : Entries α bound} {b : Entries α other}
    (subset : ∀ name ∈ a.names, name ∈ b.names) (sizes : a.length = b.length) :
    a.names = b.names := by
  have sub : a.names.Subperm b.names := List.subperm_of_subset a.nodup_names subset
  have perm := sub.perm_of_length_le (by rw [length_names, length_names, sizes])
  exact names_eq_iff.2 fun _ => perm.mem_iff

end Entries

namespace Tree

/-- The bindings after matching two trees, with no limit. -/
def match? (expected actual : Tree) (bindings : Bindings) : Id (Option Bindings) :=
  (expected.matchFreely actual bindings).value

theorem match?_identifier {text other : String} {kind : IdKind}
    (known : IdKind.of? text = some kind) (bindings : Bindings) :
    (str text).match? (str other) bindings =
      if IdKind.of? other = some kind then Matched.reached? (bindings.bind text other)
      else none := by
  change Scalar.match? (.str text) (.str other) bindings = _
  simp only [Scalar.match?, known]

theorem match?_plain {value : Scalar} (plain : value.idKind? = none) (other : Scalar)
    (bindings : Bindings) :
    (scalar value).match? (scalar other) bindings =
      if value = other then some bindings else none := by
  change value.match? other bindings = _
  unfold Scalar.match?
  split
  · rename_i text _
    have none : IdKind.of? text = none := plain
    simp [none]
  · rfl

theorem match?_identifier_plain {text : String} {value : Scalar} {kind : IdKind}
    (known : IdKind.of? text = some kind) (plain : value.idKind? = none) (bindings : Bindings) :
    (str text).match? (scalar value) bindings = none := by
  cases value with
  | null | bool _ | integer _ | float _ => rfl
  | str other =>
    have none : IdKind.of? other = none := plain
    rw [← str, match?_identifier known, none]
    exact if_neg (Option.some_ne_none kind).symm

theorem match?_plain_identifier {value : Scalar} {text : String} {kind : IdKind}
    (plain : value.idKind? = none) (known : IdKind.of? text = some kind) (bindings : Bindings) :
    (scalar value).match? (str text) bindings = none := by
  rw [str, match?_plain plain]
  apply if_neg
  rintro rfl
  cases known.symm.trans plain

theorem match?_sequence (expected actual : List Tree) (bindings : Bindings) :
    (sequence expected).match? (sequence actual) bindings =
      Matching.find? match? (fun _ _ => pure ()) expected actual bindings := by
  rw [match?, matchFreely_sequence]
  exact Matching.find?_related Counted.values (fun _ _ _ _ => rfl) (fun _ _ => rfl) actual bindings

theorem matchFieldsFreely_eq_along {bound : Option String} {fields : Entries Tree bound}
    {actual : Dict Tree} {values : List Tree}
    (found : List.Forall₂ (fun name value => actual.get? name = some value) fields.names values)
    (bindings : Bindings) :
    matchFieldsFreely fields actual bindings =
      Matching.along matchFreely fields.values values bindings := by
  induction fields generalizing values bindings with
  | nil =>
    cases found
    rfl
  | cons name above expected rest ih =>
    cases found with
    | cons here later =>
      rw [matchFieldsFreely, here, Entries.values_cons, Matching.along]
      dsimp only
      congr 1
      funext reached
      cases reached with
      | none => rfl
      | some reached => exact ih later reached

theorem names_of_matchFieldsFreely {bound : Option String} {fields : Entries Tree bound}
    {actual : Dict Tree} {start reached : Bindings}
    (success : (matchFieldsFreely fields actual start).value = some reached) :
    ∀ name ∈ fields.names, name ∈ actual.names := by
  induction fields generalizing start with
  | nil =>
    intro name mem
    cases mem
  | cons first above expected rest ih =>
    rw [matchFieldsFreely] at success
    cases here : actual.get? first with
    | none =>
      rw [here] at success
      cases success
    | some value =>
      rw [here, Counted.value_bind] at success
      cases step : (expected.matchFreely value start).value with
      | none =>
        rw [step] at success
        cases success
      | some next =>
        rw [step] at success
        intro name mem
        rcases List.mem_cons.1 mem with rfl | later
        · exact Entries.mem_names_iff.2 ⟨value, here⟩
        · exact ih success name later

theorem match?_record (expected actual : Dict Tree) (bindings : Bindings) :
    (record expected).match? (record actual) bindings =
      if expected.names = actual.names then
        Matching.along match? expected.values actual.values bindings
      else none := by
  have unfolded : (record expected).match? (record actual) bindings =
      if expected.length = actual.length then (matchFieldsFreely expected actual bindings).value
      else none := by
    rw [match?, matchFreely, Counted.value_bind]
    split <;> rfl
  rw [unfolded]
  by_cases names : expected.names = actual.names
  · have sizes : expected.length = actual.length := by
      rw [← Entries.length_names, names, Entries.length_names]
    rw [if_pos sizes, if_pos names, matchFieldsFreely_eq_along (names ▸ actual.get?_values)]
    exact Matching.along_related Counted.values (fun _ _ _ _ => rfl) actual.values bindings
  · rw [if_neg names]
    by_cases sizes : expected.length = actual.length
    · rw [if_pos sizes]
      cases success : (matchFieldsFreely expected actual bindings).value with
      | none => rfl
      | some reached =>
        exact (names (Entries.names_eq_of_subset (names_of_matchFieldsFreely success) sizes)).elim
    · rw [if_neg sizes]

/-! ## Positive verdicts -/

section
variable {actual : Tree} {start reached : Bindings}

/-- An identifier matches one of its kind that it can be bound to. -/
theorem of_match?_identifier {text : String} {kind : IdKind} (known : IdKind.of? text = some kind)
    (success : (str text).match? actual start = some reached) :
    ∃ other, actual = str other ∧ IdKind.of? other = some kind ∧
      start.bind text other = (true, reached) := by
  cases actual with
  | sequence _ | record _ => cases success
  | scalar value =>
    cases value with
    | null | bool _ | integer _ | float _ => cases success
    | str other =>
      rw [← str, match?_identifier known] at success
      split at success
      · rename_i sameKind
        exact ⟨other, rfl, sameKind, Matched.reached?_eq_some_iff.1 success⟩
      · cases success

/-- A plain scalar matches itself, and nothing is bound. -/
theorem of_match?_plain {value : Scalar} (plain : value.idKind? = none)
    (success : (scalar value).match? actual start = some reached) :
    actual = scalar value ∧ reached = start := by
  cases actual with
  | sequence _ | record _ => cases success
  | scalar other =>
    rw [match?_plain plain] at success
    split at success
    · rename_i same
      cases success
      exact ⟨by rw [same], rfl⟩
    · cases success

/-- A sequence matches one whose elements can be ordered to match its own one after the other. -/
theorem of_match?_sequence {items : List Tree}
    (success : (sequence items).match? actual start = some reached) :
    ∃ others paired, actual = sequence others ∧ paired.Perm others ∧
      Matching.along match? items paired start = some reached := by
  cases actual with
  | scalar _ | record _ => cases success
  | sequence others =>
    rw [match?_sequence] at success
    obtain ⟨paired, order, accepted⟩ := Matching.find?_sound success
    exact ⟨others, paired, rfl, order, accepted⟩

/-- A record matches one with the same names whose values match its own one after the other. -/
theorem of_match?_record {fields : Dict Tree}
    (success : (record fields).match? actual start = some reached) :
    ∃ others : Dict Tree, actual = record others ∧ fields.names = others.names ∧
      Matching.along match? fields.values others.values start = some reached := by
  cases actual with
  | scalar _ | sequence _ => cases success
  | record others =>
    rw [match?_record] at success
    split at success
    · rename_i names
      exact ⟨others, rfl, names, success⟩
    · cases success

end

end Tree

end QueryIso
