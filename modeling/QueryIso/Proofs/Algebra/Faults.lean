import QueryIso.Proofs.Algebra.InlineData
import QueryIso.Proofs.Text.Display

/-!
# Reading a table from left to right

The items of a table are its header and its rows, each row followed by its entries. A table is
refused for the first item in this order with which something is wrong, and makes inline data
otherwise.

* `Algebra.Malformation.text_inj`: the text of a fault says which item is at fault, and how;
* `Algebra.Table.failure?_parts`: reading a table fails for its first fault;
* `Algebra.table_read_in_order`: what a table makes, and what it is refused for.
-/

namespace QueryIso

namespace Algebra

/-- The item that a malformation is about. -/
def Malformation.item : Malformation → Tree
  | noArguments item | notVariable item | notPair item => item

/-- What a malformation says about its item. -/
def Malformation.complaint : Malformation → String
  | noArguments _ => " has no 'args' sequence"
  | notVariable _ => " is not a variable name"
  | notPair _ => " is not a [variable, value] pair"

theorem Malformation.text_eq (reason : Malformation) :
    reason.text = reason.item.display ++ reason.complaint := by
  cases reason <;> rfl

/-- A complaint starts with a blank, which ends the text of the item before it. -/
theorem Malformation.ends_complaint (reason : Malformation) :
    Json.Ends reason.complaint.toList := by
  have blank : reason.complaint.toList.head? = some ' ' := by
    cases reason <;> simp only [complaint] <;> decide
  intro c head
  cases blank.symm.trans head
  exact .inl rfl

/-- The text of a malformation says which item is malformed, and in which way. -/
theorem Malformation.text_inj {reason other : Malformation} (free : reason.item.IsNaNFree)
    (free' : other.item.IsNaNFree) (same : reason.text = other.text) : reason = other := by
  rw [text_eq, text_eq] at same
  obtain ⟨items, complaints⟩ := Tree.eq_of_display_append free free' reason.ends_complaint
    other.ends_complaint same
  cases reason <;> cases other <;> simp_all [item, complaint]

/-- The names of the fields of an operator's record, in order. -/
theorem fieldNames_node {operator : Operator} {fields : List (String × Tree)}
    {names : List String} (sorted : names.Pairwise (· < ·))
    (same : names.Perm (fields.map (·.1) ++ ["type"])) :
    (node operator fields).fieldNames = names := by
  apply Entries.eq_of_sorted (Entries.sorted_names _) sorted
  intro name
  rw [Dict.mem_names_ofList, same.mem_iff]
  simp only [List.mem_append, List.mem_map, List.mem_singleton, Prod.mk.injEq]
  constructor
  · rintro ⟨value, mem | ⟨rfl, rfl⟩⟩
    · exact .inl ⟨_, mem, rfl⟩
    · exact .inr rfl
  · rintro (⟨field, mem, rfl⟩ | rfl)
    · exact ⟨field.2, .inl mem⟩
    · exact ⟨_, .inr ⟨rfl, rfl⟩⟩

namespace Table

/-- What is looked at in a table. -/
inductive Item
  /-- The header or a row. -/
  | list (expression : Tree)
  /-- An entry of a row. -/
  | entry (item : Tree)

/-- A row, and after it the entries that it lists. -/
def itemsOfRow (row : Tree) : List Item :=
  .list row :: (row.fieldItems "args").map .entry

/-- The header, and after it the rows. -/
def items (header : Tree) (rows : List Tree) : List Item :=
  .list header :: rows.flatMap itemsOfRow

/-- What is wrong with an item. -/
inductive Faulty : Item → Malformation → Prop
  | noArguments {expression : Tree}
      (lacks : ∀ items, expression.get? "args" ≠ some (.sequence items)) :
      Faulty (.list expression) (.noArguments expression)
  | notPair {item : Tree} (other : ∀ name value, item ≠ .sequence [name, value]) :
      Faulty (.entry item) (.notPair item)
  | notVariable {name value : Tree} (other : ∀ text, name ≠ .str text) :
      Faulty (.entry (.sequence [name, value])) (.notVariable name)

/-- Something is wrong with one of the items, and nothing with those before it. -/
def FirstFault (items : List Item) (reason : Malformation) : Prop :=
  ∃ before item after, items = before ++ item :: after ∧ Faulty item reason ∧
    ∀ other ∈ before, ∀ fault, ¬ Faulty other fault

/-- The row is a list of pairs of a name and a value. -/
def IsRow (row : Tree) : Prop :=
  ∃ items, row.get? "args" = some (.sequence items) ∧
    ∀ item ∈ items, ∃ name value, item = .sequence [.str name, value]

/-- The fields of the record are the names in the row, each with the value of its last pair. -/
def IsRecordOf (row record : Tree) : Prop :=
  ∃ items fields, row.get? "args" = some (.sequence items) ∧ record = .record fields ∧
    (∀ name, name ∈ fields.names ↔ ∃ value, .sequence [.str name, value] ∈ items) ∧
    ∀ name value, fields.get? name = some value ↔
      ∃ before after, items = before ++ .sequence [.str name, value] :: after ∧
        ∀ other, .sequence [.str name, other] ∉ after

/-- Inline data with the variables of a header and the records of rows. -/
structure IsInlineData (header : Tree) (rows : List Tree) (tree : Tree) : Prop where
  names : tree.fieldNames = ["bindings", "type", "variables"]
  type : tree.get? "type" = some (.str "values")
  vars : ∃ vars, header.get? "args" = some (.sequence vars) ∧
    tree.get? "variables" = some (.sequence vars)
  bindings : ∃ records, tree.get? "bindings" = some (.sequence records) ∧
    List.Forall₂ IsRecordOf rows records

/-! ## The first fault -/

theorem arguments_eq_error_iff {expression : Tree} {reason : Malformation} :
    arguments expression = .error reason ↔
      (∀ items, expression.get? "args" ≠ some (.sequence items)) ∧
        reason = .noArguments expression := by
  simp only [ne_eq, ← arguments_eq_ok_iff]
  rw [arguments]
  cases (expression.get? "args").bind Tree.items? <;> simp [eq_comm]

theorem entry_eq_error_iff {item : Tree} {reason : Malformation} :
    entry item = .error reason ↔ Faulty (.entry item) reason := by
  constructor
  · intro refused
    rw [entry] at refused
    split at refused
    · next name value isPair =>
      split at refused
      · cases refused
      · next isText =>
        cases refused
        rw [Tree.items?_eq_some_iff.1 isPair]
        exact .notVariable fun text same => by simp [Tree.str?_eq_some_iff.2 same] at isText
    · next other =>
      cases refused
      exact .notPair fun name value same => other name value (Tree.items?_eq_some_iff.2 same)
  · rintro (_ | other | @⟨name, value, other⟩)
    · rw [entry]
      split
      · next name value isPair => exact (other name value (Tree.items?_eq_some_iff.1 isPair)).elim
      · rfl
    · rw [entry]
      cases isText : name.str? with
      | none => simp [Tree.items?, isText]
      | some text => exact (other text (Tree.str?_eq_some_iff.1 isText)).elim

/-- Why an item is refused. -/
def Item.fault? : Item → Option Malformation
  | list expression => failure? (arguments expression)
  | entry item => failure? (Table.entry item)

theorem fault?_eq_some_iff {item : Item} {reason : Malformation} :
    item.fault? = some reason ↔ Faulty item reason := by
  cases item with
  | entry item =>
    rw [Item.fault?, failure?_eq_some_iff, entry_eq_error_iff]
  | list expression =>
    rw [Item.fault?, failure?_eq_some_iff, arguments_eq_error_iff]
    constructor
    · rintro ⟨lacks, rfl⟩
      exact .noArguments lacks
    · rintro ⟨lacks⟩
      exact ⟨lacks, rfl⟩

theorem firstFault_iff {items : List Item} {reason : Malformation} :
    FirstFault items reason ↔ items.findSome? Item.fault? = some reason := by
  simp only [List.findSome?_eq_some_iff, Option.eq_none_iff_forall_ne_some, ne_eq,
    fault?_eq_some_iff, FirstFault]

theorem fieldItems_of_get? {tree : Tree} {name : String} {items : List Tree}
    (get : tree.get? name = some (.sequence items)) : tree.fieldItems name = items := by
  rw [Tree.fieldItems, get]
  rfl

/-- A row is refused for its first fault. -/
theorem failure?_entries (row : Tree) :
    failure? (entries row) = (itemsOfRow row).findSome? Item.fault? := by
  rw [entries, itemsOfRow, List.findSome?_cons, Item.fault?]
  cases read : arguments row with
  | error reason => rfl
  | ok listed =>
    rw [fieldItems_of_get? (arguments_eq_ok_iff.1 read), List.findSome?_map]
    exact failure?_mapM entry listed

/-- A table is refused for its first fault. -/
theorem failure?_parts (header : Tree) (rows : List Tree) :
    failure? (parts (header :: rows)) =
      ((items header rows).findSome? Item.fault?).map (.malformed .table) := by
  have inRows : (rows.flatMap itemsOfRow).findSome? Item.fault? = failure? (rows.mapM entries) := by
    rw [findSome?_flatMap, failure?_mapM]
    simp only [failure?_entries]
  rw [items, List.findSome?_cons, inRows, Item.fault?, parts]
  cases arguments header with
  | error reason => rfl
  | ok vars => cases rows.mapM entries <;> rfl

theorem parts_eq_error_iff {header : Tree} {rows : List Tree} {error : ElementError} :
    parts (header :: rows) = .error error ↔
      ∃ reason, FirstFault (items header rows) reason ∧ .malformed .table reason = error := by
  rw [← failure?_eq_some_iff, failure?_parts, Option.map_eq_some_iff]
  simp only [firstFault_iff]

/-! ## Tables without faults -/

theorem fault?_list_eq_none_iff {expression : Tree} :
    (Item.list expression).fault? = none ↔
      ∃ items, expression.get? "args" = some (.sequence items) := by
  simp only [Item.fault?, failure?_eq_none_iff, arguments_eq_ok_iff]

theorem fault?_entry_eq_none_iff {item : Tree} :
    (Item.entry item).fault? = none ↔ ∃ name value, item = .sequence [.str name, value] := by
  simp only [Item.fault?, failure?_eq_none_iff, entry_eq_ok_iff, Prod.exists, pair]

theorem isRow_iff {row : Tree} : IsRow row ↔ ∀ item ∈ itemsOfRow row, item.fault? = none := by
  simp only [itemsOfRow, List.forall_mem_cons, List.forall_mem_map, fault?_list_eq_none_iff,
    fault?_entry_eq_none_iff]
  constructor
  · rintro ⟨items, get, each⟩
    rw [fieldItems_of_get? get]
    exact ⟨⟨items, get⟩, each⟩
  · rintro ⟨⟨items, get⟩, each⟩
    rw [fieldItems_of_get? get] at each
    exact ⟨items, get, each⟩

theorem exists_parts_iff {header : Tree} {rows : List Tree} :
    (∃ found, parts (header :: rows) = .ok found) ↔
      (∃ vars, header.get? "args" = some (.sequence vars)) ∧ ∀ row ∈ rows, IsRow row := by
  rw [← failure?_eq_none_iff, failure?_parts, Option.map_eq_none_iff, List.findSome?_eq_none_iff]
  simp only [items, List.forall_mem_cons, List.forall_mem_flatMap, fault?_list_eq_none_iff,
    isRow_iff]

/-! ## Inline data -/

theorem pair_injective : Function.Injective pair := by
  rintro ⟨name, value⟩ ⟨name', value'⟩ same
  cases same
  rfl

/-- What is given last in a row is what is last among the pairs read from it. -/
theorem last_map_pair {found : List (String × Tree)} {name : String} {value : Tree} :
    (∃ before after, found.map pair = before ++ pair (name, value) :: after ∧
      ∀ other, pair (name, other) ∉ after) ↔
    ∃ before after, found = before ++ (name, value) :: after ∧ ∀ other, (name, other) ∉ after := by
  constructor
  · rintro ⟨before, after, split, absent⟩
    obtain ⟨first, rest, rfl, rfl, tail⟩ := List.map_eq_append_iff.1 split
    obtain ⟨entry, second, rfl, same, rfl⟩ := List.map_eq_cons_iff.1 tail
    refine ⟨first, second, by rw [pair_injective same], fun other mem => ?_⟩
    exact absent other (List.mem_map_of_mem mem)
  · rintro ⟨before, after, rfl, absent⟩
    refine ⟨before.map pair, after.map pair, by simp, fun other mem => ?_⟩
    exact absent other ((List.mem_map_of_injective pair_injective).1 mem)

/-- The record of a row is made from what is read in it. -/
theorem isRecordOf_of_get? {row : Tree} {found : List (String × Tree)}
    (get : row.get? "args" = some (.sequence (found.map pair))) :
    IsRecordOf row (.ofFields found) := by
  refine ⟨_, Dict.ofList found, get, rfl, fun name => ?_, fun name value => ?_⟩
  · rw [Dict.mem_names_ofList]
    exact exists_congr fun value => (List.mem_map_of_injective pair_injective).symm
  · rw [Dict.get?_ofList_iff_last]
    exact last_map_pair.symm

theorem isInlineData_of_parts {header : Tree} {rows : List Tree} {found : Parts}
    (read : parts (header :: rows) = .ok found) : IsInlineData header rows found.values := by
  obtain ⟨get, each⟩ := parts_eq_ok_iff.1 read
  constructor
  · apply fieldNames_node (by decide)
    change List.Perm _ ["variables", "bindings", "type"]
    decide
  · exact get?_node_type .values _
  · exact ⟨found.header, get, get?_node_of_mem (by simp) (by simp)⟩
  · refine ⟨found.rows.map .ofFields, get?_node_of_mem (by simp) (by simp), ?_⟩
    rw [List.forall₂_map_right_iff]
    exact each.imp fun _ _ => isRecordOf_of_get?

end Table

/-- **A table is read from left to right.** It makes inline data exactly if the header and all rows
list their arguments and every entry of a row is a pair of a name and a value. Otherwise the error
is about the first item with which something is wrong. It shows that item and says what is wrong
with it, so that no other fault has the same text, as long as no NaN is shown. -/
theorem table_read_in_order (header : Tree) (rows : List Tree) :
    ((∃ tree, element "table" (header :: rows) = .ok tree) ↔
      (∃ vars, header.get? "args" = some (.sequence vars)) ∧ ∀ row ∈ rows, Table.IsRow row) ∧
    (∀ tree, element "table" (header :: rows) = .ok tree → Table.IsInlineData header rows tree) ∧
    ∀ error, element "table" (header :: rows) = .error error ↔
      ∃ reason, Table.FirstFault (Table.items header rows) reason ∧
        error = .malformed .table reason ∧
        reason.text = reason.item.display ++ reason.complaint ∧
        (reason.item.IsNaNFree →
          ∀ other : Malformation, other.item.IsNaNFree → other.text = reason.text →
            other = reason) := by
  rw [element_table, Table.build_eq_parts, ← Table.exists_parts_iff]
  refine ⟨?_, ?_, ?_⟩
  · simp only [bimap_eq_ok_iff]
    exact ⟨fun ⟨_, found, read, _⟩ => ⟨found, read⟩, fun ⟨found, read⟩ => ⟨_, found, read, rfl⟩⟩
  · intro tree built
    obtain ⟨found, read, rfl⟩ := bimap_eq_ok_iff.1 built
    exact Table.isInlineData_of_parts read
  · intro error
    simp only [bimap_eq_error_iff, Table.parts_eq_error_iff]
    constructor
    · rintro ⟨_, ⟨reason, first, rfl⟩, rfl⟩
      exact ⟨reason, first, rfl, reason.text_eq, fun free other free' same =>
        Malformation.text_inj free' free same⟩
    · rintro ⟨reason, first, rfl, _⟩
      exact ⟨_, ⟨reason, first, rfl⟩, rfl⟩

/-- Rows with two faults: an entry of the second that is no pair, and a last one without entries. -/
def faultyRows : List Tree :=
  [.ofFields [("args", .sequence [.sequence [.str "?x", .str "?y"]])],
    .ofFields [("args", .sequence [.sequence [.str "?x", .str "?z"], .str "?x"])], .str "?z"]

/-- A table with these rows is refused for the entry, and no other fault has the same text. -/
theorem table_read_in_order_faultyRows :
    ∃ reason, element "table" (.ofFields [("args", .sequence [.str "?x"])] :: faultyRows) =
        .error (.malformed .table reason) ∧
      reason.text = "\"?x\" is not a [variable, value] pair" ∧
      ∀ other : Malformation, other.item.IsNaNFree →
        other.text = "\"?x\" is not a [variable, value] pair" → other = reason := by
  have failed : element "table" (.ofFields [("args", .sequence [.str "?x"])] :: faultyRows) =
      .error (.malformed .table (.notPair (.str "?x"))) := rfl
  have free : (Tree.str "?x").IsNaNFree := by
    intro path value found
    cases Tree.exists_at?_scalar.1 ⟨path, found⟩
    rfl
  obtain ⟨reason, _, same, text, only⟩ := ((table_read_in_order _ faultyRows).2.2 _).1 failed
  cases same
  have shown : Malformation.text (.notPair (.str "?x")) =
      "\"?x\" is not a [variable, value] pair" := text.trans (by decide)
  refine ⟨.notPair (.str "?x"), failed, shown, fun other free' same => ?_⟩
  exact only free other free' (same.trans shown.symm)

end Algebra

end QueryIso
