import Mathlib.Data.List.Nodup
import QueryIso.Algebra.Element
import QueryIso.Proofs.Tables

/-!
# Records of operators

What a record built by `Algebra.node` answers. Its type is the key of the operator, and the
arguments are found under the names of their fields, in the order of these names
(`Algebra.filterMap_get?_node`).
-/

namespace QueryIso

namespace Algebra

theorem key_inj {first second : Operator} : first.key = second.key ↔ first = second := by
  refine ⟨fun same => ?_, fun same => same ▸ rfl⟩
  have known := Operator.ofKey?_key first
  rw [same, Operator.ofKey?_key] at known
  exact (Option.some.inj known).symm

/-- Keys of operators are not identifiers. -/
theorem key_plain (operator : Operator) : IdKind.of? operator.key = none := by
  cases operator <;> decide

theorem form_eq_application_iff {operator : Operator} :
    form operator = .application ↔ operator = .expression ∨ operator = .values := by
  cases operator <;> simp [form]

theorem form_eq_table_iff {operator : Operator} : form operator = .table ↔ operator = .table := by
  cases operator <;> simp [form]

theorem form_eq_leftJoin_iff {operator : Operator} :
    form operator = .leftJoin ↔ operator = .leftJoin := by
  cases operator <;> simp [form]

theorem form_eq_slice_iff {operator : Operator} : form operator = .slice ↔ operator = .slice := by
  cases operator <;> simp [form]

theorem form_eq_aggregate_iff {operator : Operator} :
    form operator = .aggregate ↔ operator = .aggregate := by
  cases operator <;> simp [form]

theorem namedArguments_eq_ok_iff {operator : Operator} {names : List String} {args : List Tree}
    {fields : List (String × Tree)} :
    namedArguments operator names args = .ok fields ↔
      fields.map (·.1) = names ∧ fields.map (·.2) = args := by
  rw [namedArguments]
  split
  · next sizes =>
    rw [Except.ok.injEq]
    constructor
    · rintro rfl
      exact ⟨List.map_fst_zip (Nat.le_of_eq sizes.symm), List.map_snd_zip (Nat.le_of_eq sizes)⟩
    · rintro ⟨rfl, rfl⟩
      exact (List.zip_of_prod rfl rfl).symm
  · next sizes =>
    refine ⟨nofun, ?_⟩
    rintro ⟨rfl, rfl⟩
    rw [List.length_map, List.length_map] at sizes
    exact (sizes rfl).elim

section
variable {operator : Operator} {fields : List (String × Tree)} {name : String} {value : Tree}

theorem get?_ofFields (fields : List (String × Tree)) (name : String) :
    (Tree.ofFields fields).get? name = (Dict.ofList fields).get? name :=
  rfl

theorem get?_node_type (operator : Operator) (fields : List (String × Tree)) :
    (node operator fields).get? "type" = some (.str operator.key) := by
  rw [node, get?_ofFields, Dict.get?_ofList, List.reverse_append]
  rfl

theorem get?_node_of_mem (distinct : ("type" :: fields.map (·.1)).Nodup)
    (mem : (name, value) ∈ fields) : (node operator fields).get? name = some value := by
  have names : ((fields ++ [("type", Tree.str operator.key)]).map (·.1)).Nodup := by
    rw [List.map_append]
    exact List.nodup_append_comm.1 distinct
  exact Dict.get?_ofList_of_mem names (List.mem_append_left _ mem)

theorem get?_node_of_not_mem (other : name ≠ "type") (absent : name ∉ fields.map (·.1)) :
    (node operator fields).get? name = none := by
  rw [Option.eq_none_iff_forall_ne_some]
  intro value get
  rcases List.mem_append.1 (Dict.mem_of_get?_ofList get) with mem | mem
  · exact absent (List.mem_map.2 ⟨_, mem, rfl⟩)
  · rw [List.mem_singleton, Prod.mk.injEq] at mem
    exact other mem.1

/-- Looking up names in an order in which the fields stand gives the values of the fields. -/
theorem filterMap_of_sublist {get? : String → Option Tree} {order : List String}
    (sub : (fields.map (·.1)).Sublist order) (distinct : order.Nodup)
    (present : ∀ field ∈ fields, get? field.1 = some field.2)
    (absent : ∀ name ∈ order, name ∉ fields.map (·.1) → get? name = none) :
    order.filterMap get? = fields.map (·.2) := by
  induction order generalizing fields with
  | nil => rw [List.map_eq_nil_iff.1 (List.sublist_nil.1 sub), List.filterMap_nil, List.map_nil]
  | cons name rest ih =>
    obtain ⟨fresh, distinct'⟩ := List.nodup_cons.1 distinct
    rcases List.sublist_cons_iff.1 sub with skipped | ⟨names, first, sub'⟩
    · have missing : get? name = none :=
        absent name List.mem_cons_self fun mem => fresh (skipped.subset mem)
      rw [List.filterMap_cons_none missing]
      exact ih skipped distinct' present fun other mem => absent other (List.mem_cons_of_mem _ mem)
    · cases fields with
      | nil => cases first
      | cons field fields =>
        rw [List.map_cons, List.cons.injEq] at first
        obtain ⟨rfl, rfl⟩ := first
        rw [List.filterMap_cons_some (present field List.mem_cons_self), List.map_cons]
        congr 1
        refine ih sub' distinct' (fun other mem => present other (List.mem_cons_of_mem _ mem)) ?_
        intro other mem missing
        apply absent other (List.mem_cons_of_mem _ mem)
        rw [List.map_cons, List.mem_cons, not_or]
        exact ⟨fun same => fresh (same ▸ mem), missing⟩

theorem filterMap_get?_node {order : List String} (sub : (fields.map (·.1)).Sublist order)
    (distinct : ("type" :: order).Nodup) :
    order.filterMap (node operator fields).get? = fields.map (·.2) := by
  obtain ⟨apart, distinct'⟩ := List.nodup_cons.1 distinct
  have names : ("type" :: fields.map (·.1)).Nodup := distinct.sublist (sub.cons_cons "type")
  refine filterMap_of_sublist sub distinct' (fun field mem => get?_node_of_mem names mem) ?_
  intro name mem absent
  exact get?_node_of_not_mem (fun same => apart (same ▸ mem)) absent

end

end Algebra

end QueryIso
