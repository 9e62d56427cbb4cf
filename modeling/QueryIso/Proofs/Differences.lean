import QueryIso.Difference
import QueryIso.Proofs.Paths

/-!
# What the differences between trees are

`Tree.Differs` says how two nodes differ, apart from what is below them. The differences between two
trees are those of the nodes that the same path leads to in both:

* `Tree.mem_differences_iff`: a difference is one of the roots, or one of two children;
* `Tree.nodup_differences`: none is reported twice;
* `Tree.differences_exact`: so the list holds the differences of all pairs of nodes, once each.
-/

namespace QueryIso

namespace Path

theorem root_ne_under (step : Step) (path : Path) : root ≠ path.under step := by
  intro same
  cases congrArg steps same

theorem under_inj {first second : Step} {path other : Path} :
    path.under first = other.under second ↔ first = second ∧ path = other := by
  cases path
  cases other
  simp [under]

/-- A path leads to the root, or starts with a step. -/
@[elab_as_elim]
theorem induction {motive : Path → Prop} (root : motive .root)
    (under : ∀ step path, motive path → motive (path.under step)) : ∀ path, motive path
  | ⟨[]⟩ => root
  | ⟨step :: steps⟩ => under step ⟨steps⟩ (induction root under ⟨steps⟩)

end Path

theorem Scalar.agrees_iff {expected actual : Scalar} : expected.agrees actual = true ↔
    expected = actual ∨ ∃ kind, expected.idKind? = some kind ∧ actual.idKind? = some kind := by
  simp only [agrees, Bool.or_eq_true, Bool.and_eq_true, decide_eq_true_eq,
    Option.isSome_iff_exists]
  constructor
  · rintro (same | ⟨⟨kind, known⟩, same⟩)
    · exact .inl same
    · exact .inr ⟨kind, known, same ▸ known⟩
  · rintro (same | ⟨kind, known, known'⟩)
    · exact .inl same
    · exact .inr ⟨⟨kind, known⟩, known.trans known'.symm⟩

namespace Difference

theorem mem_here {kind other : DifferenceKind} {path : Path} :
    (⟨path, other⟩ : Difference) ∈ [here kind] ↔ path = .root ∧ other = kind := by
  simp [here]

theorem mem_under {step : Step} {differences : List Difference} {path : Path}
    {kind : DifferenceKind} : ⟨path, kind⟩ ∈ under step differences ↔
      ∃ below, path = below.under step ∧ ⟨below, kind⟩ ∈ differences := by
  rw [under, List.mem_map]
  constructor
  · rintro ⟨⟨below, _⟩, mem, same⟩
    cases same
    exact ⟨below, rfl, mem⟩
  · rintro ⟨below, rfl, mem⟩
    exact ⟨⟨below, kind⟩, mem, rfl⟩

theorem nodup_under {step : Step} {differences : List Difference} (nodup : differences.Nodup) :
    (under step differences).Nodup := by
  apply nodup.map
  rintro ⟨path, kind⟩ ⟨other, _⟩ same
  obtain ⟨paths, kinds⟩ := Difference.mk.inj same
  exact congrArg₂ Difference.mk (Path.under_inj.1 paths).2 kinds

end Difference

namespace Tree

/-- How two nodes differ, apart from what is below them. -/
inductive Differs : Tree → Tree → DifferenceKind → Prop
  | shape {node other : Tree} (differ : node.shape ≠ other.shape) :
    Differs node other (.shape node.shape other.shape)
  | scalar {expected actual : Scalar} (differ : expected ≠ actual)
      (apart : ¬ ∃ kind, expected.idKind? = some kind ∧ actual.idKind? = some kind) :
    Differs (.scalar expected) (.scalar actual) (.scalar expected actual)
  | length {expected actual : List Tree} (differ : expected.length ≠ actual.length) :
    Differs (.sequence expected) (.sequence actual) (.length expected.length actual.length)
  | missingField {expected actual : Dict Tree} {name : String} (has : name ∈ expected.names)
      (lacks : name ∉ actual.names) :
    Differs (.record expected) (.record actual) (.missingField name)
  | extraField {expected actual : Dict Tree} {name : String} (has : name ∈ actual.names)
      (lacks : name ∉ expected.names) :
    Differs (.record expected) (.record actual) (.extraField name)

/-- The difference stands below two children that the same step leads to. -/
def DiffersBelow (expected actual : Tree) (path : Path) (kind : DifferenceKind) : Prop :=
  ∃ step below child other, path = below.under step ∧ expected.child? step = some child ∧
    actual.child? step = some other ∧ ⟨below, kind⟩ ∈ child.differences other

variable {path : Path} {kind : DifferenceKind}

theorem mem_differences_scalar {expected actual : Scalar} :
    ⟨path, kind⟩ ∈ (scalar expected).differences (.scalar actual) ↔
      path = .root ∧ Differs (.scalar expected) (.scalar actual) kind := by
  rw [differences]
  split
  · rename_i agrees
    rw [Scalar.agrees_iff] at agrees
    constructor
    · intro mem
      cases mem
    · rintro ⟨_, differs⟩
      cases differs with
      | shape differ => exact (differ rfl).elim
      | scalar differ apart => exact (agrees.elim differ apart).elim
  · rename_i differ
    rw [Scalar.agrees_iff, not_or] at differ
    rw [Difference.mem_here]
    constructor
    · rintro ⟨root, rfl⟩
      exact ⟨root, .scalar differ.1 differ.2⟩
    · rintro ⟨root, differs⟩
      cases differs with
      | shape differ => exact (differ rfl).elim
      | scalar _ _ => exact ⟨root, rfl⟩

theorem mem_itemDifferences {expected actual : List Tree} {position : Nat} :
    ⟨path, kind⟩ ∈ itemDifferences position expected actual ↔
      ∃ (index : Nat) (child other : Tree) (below : Path),
        path = below.under (.index (position + index)) ∧ expected[index]? = some child ∧
          actual[index]? = some other ∧ ⟨below, kind⟩ ∈ child.differences other := by
  induction expected generalizing actual position with
  | nil => simp [itemDifferences]
  | cons first rest ih =>
    cases actual with
    | nil => simp [itemDifferences]
    | cons candidate others =>
      rw [itemDifferences, List.mem_append, Difference.mem_under, ih]
      constructor
      · rintro (⟨below, same, mem⟩ | ⟨index, child, other, below, same, here, there, mem⟩)
        · exact ⟨0, first, candidate, below, same, rfl, rfl, mem⟩
        · rw [Nat.add_assoc, Nat.add_comm 1] at same
          exact ⟨index + 1, child, other, below, same, here, there, mem⟩
      · rintro ⟨_ | index, child, other, below, same, here, there, mem⟩
        · cases here
          cases there
          exact .inl ⟨below, same, mem⟩
        · rw [Nat.add_comm index, ← Nat.add_assoc] at same
          exact .inr ⟨index, child, other, below, same, here, there, mem⟩

theorem mem_differences_sequence {expected actual : List Tree} :
    ⟨path, kind⟩ ∈ (sequence expected).differences (.sequence actual) ↔
      path = .root ∧ Differs (.sequence expected) (.sequence actual) kind ∨
        DiffersBelow (.sequence expected) (.sequence actual) path kind := by
  have own : (⟨path, kind⟩ : Difference) ∈ (if expected.length = actual.length then []
      else [Difference.here (.length expected.length actual.length)]) ↔
      path = .root ∧ Differs (.sequence expected) (.sequence actual) kind := by
    split
    · rename_i same
      constructor
      · intro mem
        cases mem
      · rintro ⟨_, differs⟩
        cases differs with
        | shape differ => exact (differ rfl).elim
        | length differ => exact (differ same).elim
    · rename_i differ
      rw [Difference.mem_here]
      constructor
      · rintro ⟨root, rfl⟩
        exact ⟨root, .length differ⟩
      · rintro ⟨root, differs⟩
        cases differs with
        | shape differ => exact (differ rfl).elim
        | length _ => exact ⟨root, rfl⟩
  have children : ⟨path, kind⟩ ∈ itemDifferences 0 expected actual ↔
      DiffersBelow (.sequence expected) (.sequence actual) path kind := by
    rw [mem_itemDifferences]
    constructor
    · rintro ⟨index, child, other, below, same, here, there, mem⟩
      rw [Nat.zero_add] at same
      exact ⟨.index index, below, child, other, same, here, there, mem⟩
    · rintro ⟨_ | index, below, child, other, same, here, there, mem⟩
      · cases here
      · rw [← Nat.zero_add index] at same
        exact ⟨index, child, other, below, same, here, there, mem⟩
  rw [differences, List.mem_append, own, children]
  exact Or.comm

theorem not_mem_names_iff {fields : Dict Tree} {name : String} :
    name ∉ fields.names ↔ fields.get? name = none := by
  rw [Entries.mem_names_iff, Option.eq_none_iff_forall_ne_some, not_exists]

/-- What is reported for one expected field. -/
def fieldDifference (name : String) (expected : Tree) (actual : Dict Tree) : List Difference :=
  match actual.get? name with
  | some value => Difference.under (.field name) (expected.differences value)
  | none => [.here (.missingField name)]

theorem fieldDifferences_cons {bound : Option String} (name : String) (above : Above bound name)
    (expected : Tree) (rest : Entries Tree (some name)) (actual : Dict Tree) :
    fieldDifferences (.cons name above expected rest) actual =
      fieldDifference name expected actual ++ fieldDifferences rest actual :=
  rfl

theorem mem_fieldDifference {name : String} {expected : Tree} {actual : Dict Tree} :
    ⟨path, kind⟩ ∈ fieldDifference name expected actual ↔
      (name ∉ actual.names ∧ path = .root ∧ kind = .missingField name) ∨
        ∃ other below, path = below.under (.field name) ∧ actual.get? name = some other ∧
          ⟨below, kind⟩ ∈ expected.differences other := by
  rw [not_mem_names_iff, fieldDifference]
  cases actual.get? name with
  | none =>
    dsimp only
    rw [Difference.mem_here]
    constructor
    · exact fun missing => .inl ⟨rfl, missing⟩
    · rintro (⟨_, missing⟩ | ⟨_, _, _, impossible, _⟩)
      · exact missing
      · cases impossible
  | some value =>
    dsimp only
    rw [Difference.mem_under]
    constructor
    · rintro ⟨below, same, mem⟩
      exact .inr ⟨value, below, same, rfl, mem⟩
    · rintro (⟨impossible, _⟩ | ⟨other, below, same, there, mem⟩)
      · cases impossible
      · cases there
        exact ⟨below, same, mem⟩

theorem mem_fieldDifferences {bound : Option String} {expected : Entries Tree bound}
    {actual : Dict Tree} : ⟨path, kind⟩ ∈ fieldDifferences expected actual ↔
      (∃ name ∈ expected.names, name ∉ actual.names ∧ path = .root ∧ kind = .missingField name) ∨
        ∃ name child other below, path = below.under (.field name) ∧
          (name, child) ∈ expected.toList ∧ actual.get? name = some other ∧
            ⟨below, kind⟩ ∈ child.differences other := by
  induction expected with
  | nil => simp [fieldDifferences, Entries.toList]
  | cons first above value rest ih =>
    rw [fieldDifferences_cons, List.mem_append, mem_fieldDifference, ih]
    simp only [Entries.names_cons, List.mem_cons, Entries.toList, Prod.mk.injEq]
    constructor
    · rintro ((missing | ⟨other, below, same, found⟩) |
        (⟨name, has, missing⟩ | ⟨name, child, other, below, same, mem, found⟩))
      · exact .inl ⟨first, .inl rfl, missing⟩
      · exact .inr ⟨first, value, other, below, same, .inl ⟨rfl, rfl⟩, found⟩
      · exact .inl ⟨name, .inr has, missing⟩
      · exact .inr ⟨name, child, other, below, same, .inr mem, found⟩
    · rintro (⟨name, rfl | has, missing⟩ |
        ⟨name, child, other, below, same, ⟨rfl, rfl⟩ | mem, found⟩)
      · exact .inl (.inl missing)
      · exact .inr (.inl ⟨name, has, missing⟩)
      · exact .inl (.inr ⟨other, below, same, found⟩)
      · exact .inr (.inr ⟨name, child, other, below, same, mem, found⟩)

theorem mem_extraFields {expected actual : Dict Tree} :
    ⟨path, kind⟩ ∈ (actual.names.filter fun name => (expected.get? name).isNone).map
        (fun name => Difference.here (.extraField name)) ↔
      ∃ name ∈ actual.names, name ∉ expected.names ∧ path = .root ∧ kind = .extraField name := by
  simp only [List.mem_map, List.mem_filter, Option.isNone_iff_eq_none, ← not_mem_names_iff,
    Difference.here, Difference.mk.injEq, and_assoc]
  constructor
  · rintro ⟨name, has, lacks, root, extra⟩
    exact ⟨name, has, lacks, root.symm, extra.symm⟩
  · rintro ⟨name, has, lacks, root, extra⟩
    exact ⟨name, has, lacks, root.symm, extra.symm⟩

theorem mem_differences_record {expected actual : Dict Tree} :
    ⟨path, kind⟩ ∈ (record expected).differences (.record actual) ↔
      path = .root ∧ Differs (.record expected) (.record actual) kind ∨
        DiffersBelow (.record expected) (.record actual) path kind := by
  rw [differences, List.mem_append, mem_fieldDifferences, mem_extraFields]
  constructor
  · rintro ((⟨name, has, lacks, root, rfl⟩ |
      ⟨name, child, other, below, same, mem, there, rest⟩) | ⟨name, has, lacks, root, rfl⟩)
    · exact .inl ⟨root, .missingField has lacks⟩
    · exact .inr ⟨.field name, below, child, other, same, Entries.get?_eq_some_iff.2 mem, there,
        rest⟩
    · exact .inl ⟨root, .extraField has lacks⟩
  · rintro (⟨root, differs⟩ | ⟨step, below, child, other, same, here, there, mem⟩)
    · cases differs with
      | shape differ => exact (differ rfl).elim
      | @missingField _ _ name has lacks => exact .inl (.inl ⟨name, has, lacks, root, rfl⟩)
      | @extraField _ _ name has lacks => exact .inr ⟨name, has, lacks, root, rfl⟩
    · cases step with
      | index position => cases here
      | field name =>
        exact .inl (.inr ⟨name, child, other, below, same, Entries.get?_eq_some_iff.1 here, there,
          mem⟩)

theorem differences_of_shape_ne {expected actual : Tree} (differ : expected.shape ≠ actual.shape) :
    expected.differences actual = [.here (.shape expected.shape actual.shape)] := by
  cases expected <;> cases actual <;> first | rfl | exact (differ rfl).elim

theorem child?_none_of_shape_ne {expected actual : Tree} (differ : expected.shape ≠ actual.shape)
    {step : Step} {child other : Tree} (here : expected.child? step = some child)
    (there : actual.child? step = some other) : False := by
  cases step with
  | field name =>
    cases expected <;> cases actual <;> first | cases here | cases there | exact differ rfl
  | index position =>
    cases expected <;> cases actual <;> first | cases here | cases there | exact differ rfl

/-- A difference is one of the roots, or one of two children. -/
theorem mem_differences_iff {expected actual : Tree} :
    ⟨path, kind⟩ ∈ expected.differences actual ↔
      path = .root ∧ expected.Differs actual kind ∨ expected.DiffersBelow actual path kind := by
  by_cases same : expected.shape = actual.shape
  · cases expected with
    | scalar expected =>
      cases actual with
      | sequence _ | record _ => cases same
      | scalar actual =>
        rw [mem_differences_scalar, or_iff_left]
        rintro ⟨step, below, child, other, _, here, _⟩
        exact exists_child?_scalar expected step child here
    | sequence expected =>
      cases actual with
      | scalar _ | record _ => cases same
      | sequence actual => exact mem_differences_sequence
    | record expected =>
      cases actual with
      | scalar _ | sequence _ => cases same
      | record actual => exact mem_differences_record
  · rw [differences_of_shape_ne same, Difference.mem_here, or_iff_left]
    · constructor
      · rintro ⟨root, rfl⟩
        exact ⟨root, .shape same⟩
      · rintro ⟨root, differs⟩
        cases differs with
        | shape _ => exact ⟨root, rfl⟩
        | scalar _ _ | length _ | missingField _ _ | extraField _ _ => exact (same rfl).elim
    · rintro ⟨_, _, _, _, _, here, there, _⟩
      exact child?_none_of_shape_ne same here there

theorem mem_differences_root {expected actual : Tree} :
    ⟨.root, kind⟩ ∈ expected.differences actual ↔ expected.Differs actual kind := by
  rw [mem_differences_iff]
  constructor
  · rintro (⟨_, differs⟩ | ⟨_, _, _, _, same, _⟩)
    · exact differs
    · exact (Path.root_ne_under _ _ same).elim
  · exact fun differs => .inl ⟨rfl, differs⟩

theorem mem_differences_under {expected actual : Tree} {step : Step} {below : Path} :
    ⟨below.under step, kind⟩ ∈ expected.differences actual ↔
      ∃ child other, expected.child? step = some child ∧ actual.child? step = some other ∧
        ⟨below, kind⟩ ∈ child.differences other := by
  rw [mem_differences_iff]
  constructor
  · rintro (⟨root, _⟩ | ⟨_, _, child, other, same, found⟩)
    · exact (Path.root_ne_under _ _ root.symm).elim
    · obtain ⟨rfl, rfl⟩ := Path.under_inj.1 same
      exact ⟨child, other, found⟩
  · rintro ⟨child, other, found⟩
    exact .inr ⟨step, below, child, other, rfl, found⟩

theorem nodup_itemDifferences {expected : List Tree}
    (each : ∀ item ∈ expected, ∀ other, (item.differences other).Nodup) (actual : List Tree)
    (position : Nat) : (itemDifferences position expected actual).Nodup := by
  induction expected generalizing actual position with
  | nil => exact List.nodup_nil
  | cons first rest ih =>
    cases actual with
    | nil => exact List.nodup_nil
    | cons candidate others =>
      rw [itemDifferences, List.nodup_append]
      refine ⟨Difference.nodup_under (each first List.mem_cons_self candidate),
        ih (fun item mem => each item (List.mem_cons_of_mem _ mem)) others (position + 1), ?_⟩
      rintro ⟨path, kind⟩ here _ later rfl
      obtain ⟨below, same, _⟩ := Difference.mem_under.1 here
      obtain ⟨index, _, _, _, same', _⟩ := mem_itemDifferences.1 later
      have steps := (Path.under_inj.1 (same.symm.trans same')).1
      rw [Step.index.injEq] at steps
      omega

/-- Whatever is reported for a field names it: in the path, or as missing. -/
theorem nodup_fieldDifferences {bound : Option String} {expected : Entries Tree bound}
    (each : ∀ value ∈ expected.values, ∀ other, (value.differences other).Nodup)
    (actual : Dict Tree) : (fieldDifferences expected actual).Nodup := by
  induction expected with
  | nil => exact List.nodup_nil
  | cons first above value rest ih =>
    have later : ∀ name ∈ rest.names, name ≠ first := by
      rintro name mem rfl
      obtain ⟨entry, mem, same⟩ := List.mem_map.1 mem
      have above : Above (some name) entry.1 := Entries.above_of_mem mem
      rw [same] at above
      exact String.lt_irrefl name above
    rw [fieldDifferences_cons, List.nodup_append]
    refine ⟨?_, ih fun other mem => each other (List.mem_cons_of_mem _ mem), ?_⟩
    · unfold fieldDifference
      split
      · exact Difference.nodup_under (each value List.mem_cons_self _)
      · exact List.nodup_singleton _
    · rintro ⟨path, kind⟩ here _ there rfl
      rcases mem_fieldDifference.1 here with ⟨_, root, missing⟩ | ⟨_, below, same, _⟩
      · rcases mem_fieldDifferences.1 there with ⟨name, has, _, _, missing'⟩ | ⟨_, _, _, _, same, _⟩
        · exact later name has (DifferenceKind.missingField.inj (missing'.symm.trans missing))
        · exact Path.root_ne_under _ _ (root.symm.trans same)
      · rcases mem_fieldDifferences.1 there with ⟨_, _, _, root, _⟩ | ⟨name, _, _, _, same', mem, _⟩
        · exact Path.root_ne_under _ _ (root.symm.trans same)
        · have steps := (Path.under_inj.1 (same'.symm.trans same)).1
          exact later name (List.mem_map.2 ⟨_, mem, rfl⟩) (Step.field.inj steps)

theorem nodup_extraFields (expected actual : Dict Tree) :
    ((actual.names.filter fun name => (expected.get? name).isNone).map
      fun name => Difference.here (.extraField name)).Nodup := by
  apply (actual.nodup_names.filter _).map
  intro name other same
  cases same
  rfl

theorem nodup_differences_scalar (expected : Scalar) (actual : Tree) :
    ((scalar expected).differences actual).Nodup := by
  cases actual with
  | sequence _ | record _ => exact List.nodup_singleton _
  | scalar actual =>
    rw [differences]
    split
    · exact List.nodup_nil
    · exact List.nodup_singleton _

/-- No difference is reported twice: those of the node itself have no steps in their paths, and of
the others only those of one child have its step first. -/
theorem nodup_differences (expected actual : Tree) : (expected.differences actual).Nodup := by
  induction expected generalizing actual with
  | identifier text kind _ => exact nodup_differences_scalar (.str text) actual
  | plain value _ => exact nodup_differences_scalar value actual
  | sequence expected ih =>
    cases actual with
    | scalar _ | record _ => exact List.nodup_singleton _
    | sequence actual =>
      rw [differences, List.nodup_append]
      refine ⟨nodup_itemDifferences ih actual 0, ?_, ?_⟩
      · split
        · exact List.nodup_nil
        · exact List.nodup_singleton _
      · rintro ⟨path, kind⟩ below _ own rfl
        obtain ⟨_, _, _, _, same, _⟩ := mem_itemDifferences.1 below
        split at own
        · cases own
        · exact Path.root_ne_under _ _ ((Difference.mem_here.1 own).1.symm.trans same)
  | record expected ih =>
    cases actual with
    | scalar _ | sequence _ => exact List.nodup_singleton _
    | record actual =>
      rw [differences, List.nodup_append]
      refine ⟨nodup_fieldDifferences ih actual, nodup_extraFields expected actual, ?_⟩
      rintro ⟨path, kind⟩ first _ extra rfl
      obtain ⟨_, _, _, root, extra⟩ := mem_extraFields.1 extra
      rcases mem_fieldDifferences.1 first with ⟨_, _, _, _, missing⟩ | ⟨_, _, _, _, same, _⟩
      · cases missing.symm.trans extra
      · exact Path.root_ne_under _ _ (root.symm.trans same)

/-- **The differences are those of all pairs of nodes.** A difference is listed at a path exactly if
the path leads to a node in both trees and the two nodes differ in that way, and none is listed
twice. -/
theorem differences_exact (expected actual : Tree) :
    (expected.differences actual).Nodup ∧
      ∀ path kind, ⟨path, kind⟩ ∈ expected.differences actual ↔
        ∃ node other, expected.at? path = some node ∧ actual.at? path = some other ∧
          node.Differs other kind := by
  refine ⟨nodup_differences expected actual, fun path kind => ?_⟩
  induction path using Path.induction generalizing expected actual with
  | root =>
    rw [mem_differences_iff]
    constructor
    · rintro (⟨_, differs⟩ | ⟨_, _, _, _, same, _⟩)
      · exact ⟨expected, actual, rfl, rfl, differs⟩
      · exact (Path.root_ne_under _ _ same).elim
    · rintro ⟨node, other, here, there, differs⟩
      cases here
      cases there
      exact .inl ⟨rfl, differs⟩
  | under step path ih =>
    rw [mem_differences_iff]
    constructor
    · rintro (⟨root, _⟩ | ⟨step', below, child, child', same, here, there, mem⟩)
      · exact (Path.root_ne_under _ _ root.symm).elim
      · obtain ⟨rfl, rfl⟩ := Path.under_inj.1 same
        obtain ⟨node, other, below, below', differs⟩ := (ih child child').1 mem
        exact ⟨node, other, by rw [at?_under, here, Option.bind_some, below],
          by rw [at?_under, there, Option.bind_some, below'], differs⟩
    · rintro ⟨node, other, found, found', differs⟩
      rw [at?_under] at found found'
      obtain ⟨child, here, below⟩ := Option.bind_eq_some_iff.1 found
      obtain ⟨child', there, below'⟩ := Option.bind_eq_some_iff.1 found'
      exact .inr ⟨step, path, child, child', rfl, here, there,
        (ih child child').2 ⟨node, other, below, below', differs⟩⟩

end Tree

end QueryIso
