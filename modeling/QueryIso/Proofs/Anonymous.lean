import QueryIso.Proofs.Positions

/-!
# Trees without names

Without names, every identifier is the bare marker of its kind, and nothing else has changed.

* `Scalar.agrees_iff_bare`: scalars agree exactly if they are the same without names;
* `Tree.isEmpty_differences_eq`: trees have no differences exactly if they are.
-/

namespace QueryIso

namespace Scalar

/-- An identifier without its name: the bare marker of its kind. Other scalars stay. -/
def bare (value : Scalar) : Scalar :=
  match value.idKind? with
  | some kind => .str kind.marker
  | none => value

variable {value other : Scalar}

theorem bare_identifier {kind : IdKind} (known : value.idKind? = some kind) :
    value.bare = .str kind.marker := by
  rw [bare, known]

theorem bare_plain (plain : value.idKind? = none) : value.bare = value := by
  rw [bare, plain]

theorem idKind?_bare (value : Scalar) : value.bare.idKind? = value.idKind? := by
  cases known : value.idKind? with
  | none => rw [bare_plain known, known]
  | some kind => rw [bare_identifier known]; exact IdKind.of?_marker kind

/-- Scalars agree exactly if they are the same without names. -/
theorem agrees_iff_bare : value.agrees other = true ↔ value.bare = other.bare := by
  rw [agrees_iff]
  constructor
  · rintro (rfl | ⟨kind, known, known'⟩)
    · rfl
    · rw [bare_identifier known, bare_identifier known']
  · intro same
    have kinds : value.idKind? = other.idKind? := by
      rw [← idKind?_bare value, same, idKind?_bare]
    cases known : value.idKind? with
    | none => exact .inl (by rwa [bare_plain known, bare_plain (kinds ▸ known)] at same)
    | some kind => exact .inr ⟨kind, rfl, kinds ▸ known⟩

end Scalar

namespace Tree

/-- The tree without names: every identifier is the bare marker of its kind. -/
def anonymize (tree : Tree) : Tree :=
  tree.mapIdentifiers fun kind _ => kind.marker

variable {expected actual : Tree}

theorem anonymize_scalar (value : Scalar) : (scalar value).anonymize = scalar value.bare := by
  cases known : value.idKind? with
  | none => rw [Scalar.bare_plain known]; exact mapIdentifiers_plain _ known
  | some kind =>
    rw [Scalar.bare_identifier known]
    cases value with
    | null | bool _ | integer _ | float _ => cases known
    | str text => exact mapIdentifiers_str _ known

theorem anonymize_sequence (items : List Tree) :
    (sequence items).anonymize = sequence (items.map anonymize) :=
  mapIdentifiers_sequence _ items

theorem anonymize_record (fields : Dict Tree) :
    (record fields).anonymize = record (fields.map anonymize) :=
  mapIdentifiers_record _ fields

theorem shape_anonymize (tree : Tree) : tree.anonymize.shape = tree.shape :=
  shape_mapIdentifiers _ tree

/-- Trees of different shapes differ, and have different shapes without names as well. -/
theorem alike_iff_of_shape_ne (differ : expected.shape ≠ actual.shape) :
    expected.differences actual = [] ↔ expected.anonymize = actual.anonymize := by
  apply iff_of_false
  · rw [differences_of_shape_ne differ]
    exact List.cons_ne_nil _ _
  · intro same
    apply differ
    rw [← shape_anonymize expected, same, shape_anonymize]

/-- A scalar is alike to one that agrees with it, and to nothing else. -/
theorem alike_scalar_iff (value : Scalar) (actual : Tree) :
    (scalar value).differences actual = [] ↔ (scalar value).anonymize = actual.anonymize := by
  cases actual with
  | sequence _ | record _ => exact alike_iff_of_shape_ne nofun
  | scalar other =>
    rw [anonymize_scalar, anonymize_scalar, scalar.injEq, ← Scalar.agrees_iff_bare, differences]
    split
    · rename_i agrees
      exact iff_of_true rfl agrees
    · rename_i differ
      exact iff_of_false (List.cons_ne_nil _ _) differ

/-- There are no differences exactly if the trees are the same without names. -/
theorem alike_iff : expected.differences actual = [] ↔ expected.anonymize = actual.anonymize := by
  induction expected generalizing actual with
  | identifier text kind _ => exact alike_scalar_iff (.str text) actual
  | plain value _ => exact alike_scalar_iff value actual
  | sequence items ih =>
    cases actual with
    | scalar _ | record _ => exact alike_iff_of_shape_ne nofun
    | sequence others =>
      rw [anonymize_sequence, anonymize_sequence, sequence.injEq, items_map_eq_iff,
        differences_eq_nil_iff]
      apply and_congr_right
      intro _
      refine forall₄_congr fun step child other here => imp_congr_right fun _ => ?_
      exact ih child (exists_child?_sequence.1 ⟨step, here⟩)
  | record fields ih =>
    cases actual with
    | scalar _ | sequence _ => exact alike_iff_of_shape_ne nofun
    | record others =>
      rw [anonymize_record, anonymize_record, record.injEq, fields_map_eq_iff,
        differences_eq_nil_iff]
      apply and_congr_right
      intro _
      refine forall₄_congr fun step child other here => imp_congr_right fun _ => ?_
      exact ih child (exists_child?_record.1 ⟨step, here⟩)

/-- **Only names make no difference.** The list of differences is empty exactly if the trees are
equal once every identifier of both is the bare marker of its kind. -/
theorem isEmpty_differences_eq (expected actual : Tree) :
    (expected.differences actual).isEmpty = expected.anonymize.beq actual.anonymize := by
  rw [Bool.eq_iff_iff, List.isEmpty_iff, beq_iff_eq, alike_iff]

end Tree

end QueryIso
