import QueryIso.Proofs.Tables
import QueryIso.Renaming

/-!
# Induction over trees

`Tree.induction` reduces a property of all trees to identifiers, plain scalars, sequences of trees
that have it and records of values that have it.
-/

namespace QueryIso

namespace Tree

section
set_option linter.unusedSectionVars false
variable {motive : Tree → Prop}
  (identifier : ∀ text kind, IdKind.of? text = some kind → motive (.str text))
  (plain : ∀ value : Scalar, value.idKind? = none → motive (.scalar value))
  (sequence : ∀ items, (∀ item ∈ items, motive item) → motive (.sequence items))
  (record : ∀ fields : Dict Tree, (∀ value ∈ fields.values, motive value) → motive (.record fields))
include identifier plain sequence record

mutual

@[elab_as_elim, induction_eliminator]
theorem induction : ∀ tree : Tree, motive tree
  | .scalar value => by
    cases kind : value.idKind? with
    | none => exact plain value kind
    | some found =>
      cases value with
      | str text => exact identifier text found kind
      | null | bool _ | integer _ | float _ => cases kind
  | .sequence items => sequence items (induction_items items)
  | .record fields => record fields (induction_fields fields)

theorem induction_items : ∀ items : List Tree, ∀ item ∈ items, motive item
  | [], _, mem => by cases mem
  | first :: rest, item, mem => by
    rcases List.mem_cons.1 mem with same | later
    · exact same ▸ induction first
    · exact induction_items rest item later

theorem induction_fields {bound : Option String} :
    ∀ fields : Entries Tree bound, ∀ value ∈ fields.values, motive value
  | .nil, _, mem => by cases mem
  | .cons _ _ first rest, value, mem => by
    rcases List.mem_cons.1 mem with same | later
    · exact same ▸ induction first
    · exact induction_fields rest value later

end

end

theorem items?_eq_some_iff {tree : Tree} {items : List Tree} :
    tree.items? = some items ↔ tree = .sequence items := by
  cases tree <;> simp [items?]

theorem str?_eq_some_iff {tree : Tree} {text : String} :
    tree.str? = some text ↔ tree = .str text := by
  cases tree with
  | scalar value => cases value <;> simp [str?, scalar?, Scalar.str?, str]
  | sequence items => simp [str?, scalar?, str]
  | record fields => simp [str?, scalar?, str]

theorem depthOfItems_le_iff {items : List Tree} {limit : Nat} :
    depthOfItems items ≤ limit ↔ ∀ item ∈ items, item.depth + 1 ≤ limit := by
  induction items with
  | nil => simp [depthOfItems]
  | cons item rest ih => simp only [depthOfItems, Nat.max_le, ih, List.forall_mem_cons]

theorem depthOfFields_eq {bound : Option String} (fields : Entries Tree bound) :
    depthOfFields fields = depthOfItems fields.values := by
  induction fields with
  | nil => rfl
  | cons name above value rest ih => rw [depthOfFields, ih, Entries.values_cons, depthOfItems]

theorem depth_item_lt {items : List Tree} {item : Tree} (mem : item ∈ items) :
    item.depth < (sequence items).depth :=
  depthOfItems_le_iff.1 (Nat.le_refl _) item mem

theorem depth_value_lt {fields : Dict Tree} {value : Tree} (mem : value ∈ fields.values) :
    value.depth < (record fields).depth := by
  rw [depth, depthOfFields_eq]
  exact depthOfItems_le_iff.1 (Nat.le_refl _) value mem

end Tree

end QueryIso
