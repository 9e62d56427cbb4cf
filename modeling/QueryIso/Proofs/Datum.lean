import QueryIso.Datum.Messages
import QueryIso.Proofs.Failures

/-!
# Reading data from left to right

A reader goes through a datum from left to right and is stopped by the first part that it refuses.
Whether it refuses a part depends on the type of that part alone, not on what the part holds; only
names are left to the reader of plain text, whatever that takes.

* `Datum.failure?_toTree`, `Datum.failure?_toScalar`: reading fails for the first refused part;
* `Datum.toScalar_eq_ok_iff`: the scalars that are read are the trees that are read as scalars;
* `Datum.readers_agree`: what the two readers make of a datum, and what they refuse it for.
-/

namespace QueryIso

namespace Datum

/-- What a datum is read as. -/
inductive Target
  | tree
  | scalar
  | name

/-- A datum where a reader meets it. -/
structure Part where
  /-- What the datum is read as there. -/
  target : Target
  datum : Datum

mutual

/-- What a reader meets in a datum, from left to right: each datum before what it holds, and the
name of a field before its value. -/
def parts (target : Target) : Datum → List Part
  | .present datum => ⟨target, .present datum⟩ :: datum.parts target
  | .seq items => ⟨target, .seq items⟩ :: partsOfItems items
  | .map entries => ⟨target, .map entries⟩ :: partsOfFields entries
  | datum => [⟨target, datum⟩]

/-- What a reader meets in elements. -/
def partsOfItems : List Datum → List Part
  | [] => []
  | datum :: rest => datum.parts .tree ++ partsOfItems rest

/-- What a reader meets in fields. -/
def partsOfFields : List (Datum × Datum) → List Part
  | [] => []
  | (name, value) :: rest => ⟨.name, name⟩ :: (value.parts .tree ++ partsOfFields rest)

end

/-- Whether both readers take data of this type. -/
def isSimple : Datum → Bool
  | .unit | .absent | .present _ | .bool _ | .signed _ | .unsigned _ | .float _ => true
  | .char _ | .str _ | .string _ => true
  | .wrapped _ | .wideSigned _ | .wideUnsigned _ | .bytes _ | .rawBytes | .seq _ | .map _ => false

/-- Whether the reader of trees takes data of this type, and that of scalars does not. -/
def isCompound : Datum → Bool
  | .seq _ | .map _ => true
  | _ => false

/-- The message with which a part is refused, if it is: a name with that of the reader of plain
text, other data with one on their type. -/
def Part.refusal? (protocol : Protocol) : Part → Option String
  | ⟨.name, datum⟩ => failure? (protocol.readText datum)
  | ⟨.scalar, datum⟩ =>
    if datum.isSimple then none
    else some (protocol.invalidType datum "null, a boolean, a number or a string")
  | ⟨.tree, datum⟩ =>
    if datum.isSimple || datum.isCompound then none
    else some (protocol.invalidType datum "a scalar, a sequence or a record")

/-- One of the parts is refused with this message, and none before it is refused. -/
def FirstRefusal (protocol : Protocol) (parts : List Part) (message : String) : Prop :=
  ∃ before part after, parts = before ++ part :: after ∧ part.refusal? protocol = some message ∧
    ∀ other ∈ before, other.refusal? protocol = none

variable {protocol : Protocol}

theorem firstRefusal_iff {parts : List Part} {message : String} :
    FirstRefusal protocol parts message ↔
      parts.findSome? (Part.refusal? protocol) = some message := by
  rw [List.findSome?_eq_some_iff, FirstRefusal]

/-! ## Refusals -/

theorem failure?_toScalar : ∀ datum : Datum,
    failure? (datum.toScalar protocol) =
      (datum.parts .scalar).findSome? (Part.refusal? protocol)
  | .present datum => failure?_toScalar datum
  | .unit | .absent | .bool _ | .signed _ | .unsigned _ | .float _ => rfl
  | .char _ | .str _ | .string _ => rfl
  | .wrapped _ | .wideSigned _ | .wideUnsigned _ | .bytes _ | .rawBytes | .seq _ | .map _ => rfl

mutual

/-- Reading a tree fails for the first refused part. -/
theorem failure?_toTree : ∀ datum : Datum,
    failure? (datum.toTree protocol) = (datum.parts .tree).findSome? (Part.refusal? protocol)
  | .present datum => failure?_toTree datum
  | .seq items => by
    rw [toTree, bind_pure_comp, failure?_map, failure?_toItems items]
    rfl
  | .map entries => by
    rw [toTree, bind_pure_comp, failure?_map, failure?_toFields entries]
    rfl
  | .unit | .absent | .bool _ | .signed _ | .unsigned _ | .float _ => rfl
  | .char _ | .str _ | .string _ => rfl
  | .wrapped _ | .wideSigned _ | .wideUnsigned _ | .bytes _ | .rawBytes => rfl

theorem failure?_toItems : ∀ items : List Datum,
    failure? (toItems protocol items) =
      (partsOfItems items).findSome? (Part.refusal? protocol)
  | [] => rfl
  | datum :: rest => by
    rw [toItems, partsOfItems, List.findSome?_append, ← failure?_toTree datum,
      ← failure?_toItems rest]
    cases datum.toTree protocol with
    | error message => rfl
    | ok tree => cases toItems protocol rest <;> rfl

theorem failure?_toFields : ∀ entries : List (Datum × Datum),
    failure? (toFields protocol entries) =
      (partsOfFields entries).findSome? (Part.refusal? protocol)
  | [] => rfl
  | (name, value) :: rest => by
    rw [toFields, partsOfFields, List.findSome?_cons, List.findSome?_append, Part.refusal?,
      ← failure?_toTree value, ← failure?_toFields rest]
    cases protocol.readText name with
    | error message => rfl
    | ok text =>
      cases value.toTree protocol with
      | error message => rfl
      | ok tree => cases toFields protocol rest <;> rfl

end

/-! ## What is read -/

/-- The scalars that are read are the trees that are read as scalars. -/
theorem toScalar_eq_ok_iff {value : Scalar} : ∀ datum : Datum,
    datum.toScalar protocol = .ok value ↔ datum.toTree protocol = .ok (.scalar value)
  | .present datum => toScalar_eq_ok_iff datum
  | .seq items => by
    rw [toScalar, toTree]
    · cases toItems protocol items <;> exact ⟨nofun, nofun⟩
    · exact nofun
  | .map entries => by
    rw [toScalar, toTree]
    · cases toFields protocol entries <;> exact ⟨nofun, nofun⟩
    · exact nofun
  | .unit | .absent | .bool _ | .signed _ | .unsigned _ | .float _ | .char _ | .str _
  | .string _ => by
    simp [toScalar, toTree, visit, scalarVisitor, treeVisitor, Except.map]
  | .wrapped _ | .wideSigned _ | .wideUnsigned _ | .bytes _ | .rawBytes => ⟨nofun, nofun⟩

theorem toItems_eq_ok_iff {items : List Datum} {trees : List Tree} :
    toItems protocol items = .ok trees ↔
      List.Forall₂ (fun item tree => item.toTree protocol = .ok tree) items trees := by
  have listed : toItems protocol items = items.mapM (toTree protocol) := by
    induction items with
    | nil => rfl
    | cons item rest ih => rw [toItems, ih, List.mapM_cons]
  rw [listed, mapM_eq_ok_iff]

/-- The field that an entry is read as. -/
def IsField (protocol : Protocol) (entry : Datum × Datum) (field : String × Tree) : Prop :=
  protocol.readText entry.1 = .ok field.1 ∧ entry.2.toTree protocol = .ok field.2

theorem toFields_eq_ok_iff {entries : List (Datum × Datum)} {fields : List (String × Tree)} :
    toFields protocol entries = .ok fields ↔
      List.Forall₂ (IsField protocol) entries fields := by
  induction entries generalizing fields with
  | nil =>
    rw [List.forall₂_nil_left_iff]
    exact ⟨fun same => (Except.ok.inj same).symm, fun same => same ▸ rfl⟩
  | cons entry rest ih =>
    obtain ⟨name, value⟩ := entry
    rw [toFields, List.forall₂_cons_left_iff]
    simp only [← ih, IsField]
    cases protocol.readText name with
    | error message => simp [bind, Except.bind]
    | ok text =>
      cases value.toTree protocol with
      | error message => simp [bind, Except.bind]
      | ok tree =>
        cases toFields protocol rest <;> simp [bind, Except.bind, pure, Except.pure, eq_comm]

theorem toTree_seq_eq_ok_iff {items : List Datum} {tree : Tree} :
    (Datum.seq items).toTree protocol = .ok tree ↔
      ∃ trees, List.Forall₂ (fun item tree => item.toTree protocol = .ok tree) items trees ∧
        tree = .sequence trees := by
  simp only [← toItems_eq_ok_iff]
  rw [toTree]
  cases toItems protocol items with
  | error message => exact ⟨nofun, nofun⟩
  | ok trees => simp [bind, Except.bind, pure, Except.pure, eq_comm]

theorem toTree_map_eq_ok_iff {entries : List (Datum × Datum)} {tree : Tree} :
    (Datum.map entries).toTree protocol = .ok tree ↔
      ∃ fields, List.Forall₂ (IsField protocol) entries fields ∧ tree = .ofFields fields := by
  simp only [← toFields_eq_ok_iff]
  rw [toTree]
  cases toFields protocol entries with
  | error message => exact ⟨nofun, nofun⟩
  | ok fields => simp [bind, Except.bind, pure, Except.pure, eq_comm]

/-- **The two readers agree.** A datum is read as a scalar exactly if it is read as a tree that is
this scalar. It is read as a tree exactly if no part of it is refused, elements then making the
sequence of their trees and fields the record of their names and values in order. Otherwise it is
refused with the message of its first part that is refused; and so it is with scalars. -/
theorem readers_agree (protocol : Protocol) (datum : Datum) :
    (∀ value, datum.toScalar protocol = .ok value ↔
      datum.toTree protocol = .ok (.scalar value)) ∧
    ((∃ tree, datum.toTree protocol = .ok tree) ↔
      ∀ part ∈ datum.parts .tree, part.refusal? protocol = none) ∧
    (∀ items tree, (Datum.seq items).toTree protocol = .ok tree ↔
      ∃ trees, List.Forall₂ (fun item tree => item.toTree protocol = .ok tree) items trees ∧
        tree = .sequence trees) ∧
    (∀ entries tree, (Datum.map entries).toTree protocol = .ok tree ↔
      ∃ fields, List.Forall₂ (IsField protocol) entries fields ∧ tree = .ofFields fields) ∧
    (∀ message, datum.toTree protocol = .error message ↔
      FirstRefusal protocol (datum.parts .tree) message) ∧
    ∀ message, datum.toScalar protocol = .error message ↔
      FirstRefusal protocol (datum.parts .scalar) message := by
  refine ⟨fun value => toScalar_eq_ok_iff datum, ?_, fun items tree => toTree_seq_eq_ok_iff,
    fun entries tree => toTree_map_eq_ok_iff, fun message => ?_, fun message => ?_⟩
  · rw [← failure?_eq_none_iff, failure?_toTree, List.findSome?_eq_none_iff]
  · rw [← failure?_eq_some_iff, failure?_toTree, firstRefusal_iff]
  · rw [← failure?_eq_some_iff, failure?_toScalar, firstRefusal_iff]

/-- The name of a field is refused before its value. -/
example :
    (Datum.seq [.absent, .map [(.string "a", .unit), (.bool true, .wrapped .unit)]]).toTree
      .standard = .error "invalid type: boolean `true`, expected a string" :=
  rfl

end Datum

end QueryIso
