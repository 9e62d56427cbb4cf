import QueryIso.Proofs.Algebra.Records
import QueryIso.Proofs.Algebra.Rows
import QueryIso.Proofs.Renaming

/-!
# Operators with renamed arguments

Building the record of an operator commutes with renaming identifiers: the tests that operators make
on their arguments are for texts and values that no renaming makes or removes.

The names of a table's rows become names of fields, which stay as they are when the record is
renamed, and are renamed with the arguments. So a renaming of a table has to fix them.
-/

namespace QueryIso

namespace Tree

variable {image : String → String}

theorem rename_ofFields (fields : List (String × Tree)) :
    (ofFields fields).rename image =
      ofFields (fields.map fun field => (field.1, field.2.rename image)) := by
  rw [ofFields, ofFields, rename_record, Dict.map_ofList]

end Tree

namespace Algebra

open QueryIso.Tree (rename renameText KeepsKinds)

section
variable {image : String → String}

/-- The malformation of a renamed item. -/
def Malformation.rename (image : String → String) : Malformation → Malformation
  | noArguments item => noArguments (item.rename image)
  | notVariable item => notVariable (item.rename image)
  | notPair item => notPair (item.rename image)

/-- The error of renamed arguments: only the item that is malformed is another one. -/
def ElementError.rename (image : String → String) : ElementError → ElementError
  | arity operator expected found => arity operator expected found
  | malformed operator reason => malformed operator (reason.rename image)

theorem rename_node (operator : Operator) (fields : List (String × Tree)) :
    (node operator fields).rename image =
      node operator (fields.map fun field => (field.1, field.2.rename image)) := by
  have type : (Tree.str operator.key).rename image = .str operator.key :=
    Tree.rename_plain (key_plain operator)
  rw [node, Tree.rename_ofFields, List.map_append, List.map_singleton, type, node]

theorem bimap_node (operator : Operator) (fields : List (String × Tree)) :
    bimap (ElementError.rename image) (rename image) (.ok (node operator fields)) =
      .ok (node operator (fields.map fun field => (field.1, field.2.rename image))) :=
  congrArg Except.ok (rename_node operator fields)

theorem rename_application {symbol : String} (plain : IdKind.of? symbol = none)
    (args : List Tree) :
    (application symbol args).rename image = application symbol (args.map (rename image)) := by
  have same : (Tree.str symbol).rename image = .str symbol := Tree.rename_plain plain
  rw [application, rename_node, List.map_cons, List.map_singleton, same, Tree.rename_sequence,
    application]

theorem namedArguments_map (operator : Operator) (names : List String) (args : List Tree) :
    namedArguments operator names (args.map (rename image)) =
      bimap (ElementError.rename image) (List.map fun field => (field.1, field.2.rename image))
        (namedArguments operator names args) := by
  rw [namedArguments, namedArguments, List.length_map]
  split
  · rw [List.zip_map_right]
    rfl
  · rfl

theorem Slice.build_rename {args : List Tree} (keeps : ∀ arg ∈ args, arg.KeepsKinds image) :
    Slice.build (args.map (rename image)) =
      bimap (ElementError.rename image) (rename image) (Slice.build args) := by
  rw [Slice.build, Slice.build, namedArguments_map]
  cases read : namedArguments .slice ["start", "length", "input"] args with
  | error error => rfl
  | ok fields =>
    -- the length -1 is no identifier, so the same fields are left out
    have kept (field : String × Tree) (mem : field ∈ fields) :
        ((field.1, field.2.rename image) ≠ ("length", .scalar (.integer (-1)))) ↔
          field ≠ ("length", .scalar (.integer (-1))) := by
      have arg : field.2 ∈ args := by
        rw [← (namedArguments_eq_ok_iff.1 read).2]
        exact List.mem_map_of_mem mem
      have same : field.2.rename image = .scalar (.integer (-1)) ↔
          field.2 = .scalar (.integer (-1)) :=
        Tree.rename_eq_scalar_iff (keeps _ arg) rfl
      rw [ne_eq, ne_eq, Prod.ext_iff, Prod.ext_iff, same]
    change Except.ok (node .slice ((fields.map _).filter _)) =
      bimap _ _ (.ok (node .slice (fields.filter _)))
    rw [bimap_node, List.filter_map]
    congr 3
    apply List.filter_congr
    intro field mem
    exact decide_eq_decide.2 (kept field mem)

theorem LeftJoin.build_rename {args : List Tree} (keeps : ∀ arg ∈ args, arg.KeepsKinds image) :
    LeftJoin.build (args.map (rename image)) =
      bimap (ElementError.rename image) (rename image) (LeftJoin.build args) := by
  match args with
  | [left, right] =>
    rw [LeftJoin.build, bimap_node]
    rfl
  | [left, right, condition] =>
    have always : condition.rename image = .scalar (.bool true) ↔
        condition = .scalar (.bool true) :=
      Tree.rename_eq_scalar_iff (keeps _ (by simp)) rfl
    simp only [List.map_cons, List.map_nil, LeftJoin.build, always]
    split <;>
    · rw [bimap_node]
      rfl
  | [] | [_] => rfl
  | _ :: _ :: _ :: _ :: _ => simp [LeftJoin.build, bimap, ElementError.rename]

theorem Aggregate.isVariable_rename {tree : Tree} (keeps : tree.KeepsKinds image) :
    isVariable (tree.rename image) = isVariable tree := by
  rw [isVariable, isVariable, Tree.kind_rename keeps]

theorem Aggregate.isGroupConcat_rename {args : List Tree}
    (keeps : ∀ arg ∈ args, arg.KeepsKinds image) :
    isGroupConcat (args.map (rename image)) = isGroupConcat args := by
  cases args with
  | nil => rfl
  | cons symbol rest =>
    apply decide_eq_decide.2
    change (symbol.rename image).str? = _ ↔ symbol.str? = _
    rw [Tree.str?_eq_some_iff, Tree.str?_eq_some_iff]
    exact Tree.rename_eq_scalar_iff (keeps _ List.mem_cons_self) (by decide)

theorem Aggregate.build_rename {args : List Tree} (keeps : ∀ arg ∈ args, arg.KeepsKinds image) :
    Aggregate.build (args.map (rename image)) =
      bimap (ElementError.rename image) (rename image) (Aggregate.build args) := by
  have concat := Aggregate.isGroupConcat_rename keeps
  match args with
  | [symbol, expression] =>
    rw [Aggregate.build, bimap_node]
    rfl
  | [symbol, expression, third] =>
    have sort := Aggregate.isVariable_rename (keeps third (by simp))
    simp only [List.map_cons, List.map_nil] at concat
    simp only [List.map_cons, List.map_nil, Aggregate.build, concat, sort]
    rw [bimap_node]
    rfl
  | [symbol, expression, separator, name] =>
    simp only [List.map_cons, List.map_nil] at concat
    simp only [List.map_cons, List.map_nil, Aggregate.build, arity, concat]
    split
    · rw [bimap_node]
      rfl
    · rfl
  | [] => rfl
  | [symbol] =>
    simp only [List.map_cons, List.map_nil] at concat
    simp only [List.map_cons, List.map_nil, Aggregate.build, arity, concat]
    rfl
  | _ :: _ :: _ :: _ :: _ :: rest =>
    simp only [List.map_cons] at concat
    simp [Aggregate.build, arity, concat, bimap, ElementError.rename]

/-- The entry of a row whose arguments are renamed. -/
def Table.renameEntry (image : String → String) (entry : String × Tree) : String × Tree :=
  (renameText image entry.1, entry.2.rename image)

theorem Table.arguments_rename (expression : Tree) :
    arguments (expression.rename image) =
      bimap (Malformation.rename image) (List.map (rename image)) (arguments expression) := by
  have items : ((expression.rename image).get? "args").bind Tree.items? =
      ((expression.get? "args").bind Tree.items?).map (List.map (rename image)) := by
    rw [Tree.get?_rename, Option.bind_map, Option.map_bind]
    exact congrArg _ (funext (Tree.items?_rename image))
  rw [arguments, arguments, items]
  cases (expression.get? "args").bind Tree.items? <;> rfl

theorem Table.entry_rename (item : Tree) :
    entry (item.rename image) =
      bimap (Malformation.rename image) (renameEntry image) (entry item) := by
  rw [entry, entry, Tree.items?_rename]
  cases item.items? with
  | none => rfl
  | some items =>
    rcases items with _ | ⟨name, _ | ⟨value, _ | ⟨_, _⟩⟩⟩
    · rfl
    · rfl
    · simp only [Option.map_some, List.map_cons, List.map_nil, Tree.str?_rename]
      cases name.str? <;> rfl
    · rfl

theorem Table.entries_rename (expression : Tree) :
    entries (expression.rename image) =
      bimap (Malformation.rename image) (List.map (renameEntry image)) (entries expression) := by
  rw [entries, entries, arguments_rename]
  cases arguments expression with
  | error reason => rfl
  | ok items => exact mapM_map entry_rename items

/-- The parts of a table whose arguments are renamed. -/
def Table.Parts.rename (image : String → String) (parts : Parts) : Parts where
  header := parts.header.map (Tree.rename image)
  rows := parts.rows.map (List.map (renameEntry image))

theorem Table.parts_rename (args : List Tree) :
    parts (args.map (rename image)) =
      bimap (ElementError.rename image) (Parts.rename image) (parts args) := by
  cases args with
  | nil => rfl
  | cons header rows =>
    rw [List.map_cons, parts, parts, arguments_rename, mapM_map entries_rename]
    cases arguments header with
    | error reason => rfl
    | ok items => cases rows.mapM entries <;> rfl

theorem Table.build_rename (args : List Tree) :
    Table.build (args.map (rename image)) =
      bimap (ElementError.rename image) (fun parts => (parts.rename image).values)
        (parts args) := by
  rw [build_eq_parts, parts_rename]
  cases parts args <;> rfl

/-- The renaming fixes the names of a table's rows. -/
def Table.KeepsNames (image : String → String) (args : List Tree) : Prop :=
  ∀ row ∈ args.tail, ∀ items, row.get? "args" = some (.sequence items) →
    ∀ name value, .sequence [.str name, value] ∈ items → (IdKind.of? name).isSome →
      image name = name

theorem Table.KeepsNames.renameText_eq {args : List Tree} {found : Parts}
    (keeps : KeepsNames image args) (read : parts args = .ok found)
    {row : List (String × Tree)} (mem : row ∈ found.rows) {entry : String × Tree}
    (mem' : entry ∈ row) : renameText image entry.1 = entry.1 := by
  obtain ⟨expression, argument, get⟩ := exists_of_mem_rows read mem
  rw [renameText]
  split
  · next identifier =>
    exact keeps expression argument _ get entry.1 entry.2 (List.mem_map_of_mem mem') identifier
  · rfl

theorem Table.KeepsNames.values_rename {args : List Tree} {found : Parts}
    (keeps : KeepsNames image args) (read : parts args = .ok found) :
    (found.rename image).values = found.values.rename image := by
  have records : (found.rows.map (List.map (renameEntry image))).map Tree.ofFields =
      (found.rows.map Tree.ofFields).map (rename image) := by
    rw [List.map_map, List.map_map]
    apply List.map_congr_left
    intro row mem
    rw [Function.comp_apply, Function.comp_apply, Tree.rename_ofFields]
    congr 1
    apply List.map_congr_left
    intro entry mem'
    rw [renameEntry, keeps.renameText_eq read mem mem']
  rw [Parts.values, Parts.values, rename_node, Parts.rename, records]
  simp only [List.map_cons, List.map_nil, Tree.rename_sequence]

theorem build_rename {operator : Operator} (other : operator ≠ .table) {args : List Tree}
    (keeps : ∀ arg ∈ args, arg.KeepsKinds image) :
    build operator (args.map (rename image)) =
      bimap (ElementError.rename image) (rename image) (build operator args) := by
  cases kind : form operator with
  | fields names =>
    simp only [build, kind]
    rw [namedArguments_map]
    cases namedArguments operator names args with
    | error error => rfl
    | ok fields => exact (bimap_node operator fields).symm
  | gathered name =>
    simp only [build, kind]
    rw [bimap_node, List.map_singleton, Tree.rename_sequence]
  | application =>
    simp only [build, kind]
    exact congrArg Except.ok (rename_application (key_plain operator) args).symm
  | slice =>
    simp only [build, kind]
    exact Slice.build_rename keeps
  | leftJoin =>
    simp only [build, kind]
    exact LeftJoin.build_rename keeps
  | aggregate =>
    simp only [build, kind]
    exact Aggregate.build_rename keeps
  | table => exact (other (form_eq_table_iff.1 kind)).elim

theorem element_rename_of_ne {key : String} (plain : IdKind.of? key = none) (other : key ≠ "table")
    {args : List Tree} (keeps : ∀ arg ∈ args, arg.KeepsKinds image) :
    element key (args.map (rename image)) =
      bimap (ElementError.rename image) (rename image) (element key args) := by
  rw [element, element]
  cases known : Operator.ofKey? key with
  | none => exact congrArg Except.ok (rename_application plain args).symm
  | some operator =>
    apply build_rename _ keeps
    rintro rfl
    exact other (Operator.key_of_ofKey? known).symm

theorem element_table (args : List Tree) : element "table" args = Table.build args := by
  have known : Operator.ofKey? "table" = some .table := Operator.ofKey?_key .table
  rw [element, known]
  rfl

/-- **Building commutes with renaming.** Renamed arguments make an operator exactly when the
arguments do, and fail in the same way when they do not. The record made is the renamed record; for
a table that is so as long as the renaming fixes the names of its rows. -/
theorem element_rename (key : String) (args : List Tree) (image : String → String)
    (plain : IdKind.of? key = none) (keeps : ∀ arg ∈ args, arg.KeepsKinds image) :
    ((∃ tree, element key (args.map (rename image)) = .ok tree) ↔
      ∃ tree, element key args = .ok tree) ∧
    (∀ error, element key args = .error error →
      element key (args.map (rename image)) = .error (error.rename image)) ∧
    ∀ tree, element key args = .ok tree → (key = "table" → Table.KeepsNames image args) →
      element key (args.map (rename image)) = .ok (tree.rename image) := by
  by_cases isTable : key = "table"
  · subst isTable
    rw [element_table, element_table, Table.build_rename, Table.build_eq_parts]
    cases read : Table.parts args with
    | error error => simp [bimap]
    | ok found =>
      refine ⟨⟨fun _ => ⟨_, rfl⟩, fun _ => ⟨_, rfl⟩⟩, ?_, ?_⟩
      · rintro _ ⟨⟩
      · rintro _ ⟨⟩ names
        exact congrArg Except.ok ((names rfl).values_rename read)
  · rw [element_rename_of_ne plain isTable keeps]
    cases element key args with
    | error error => simp [bimap]
    | ok tree => simp [bimap]

/-- One row, which gives `?y` to `?x`. -/
def oneRow : List Tree :=
  [.ofFields [("args", .sequence [.str "?x"])],
    .ofFields [("args", .sequence [.sequence [.str "?x", .str "?y"]])]]

/-- The variable `?y` becomes `?z`. -/
def movesValue (text : String) : String :=
  if text = "?y" then "?z" else text

theorem keepsNames_oneRow : Table.KeepsNames movesValue oneRow := by
  intro row mem items get name value entry _
  cases List.mem_singleton.1 mem
  cases get
  cases List.mem_singleton.1 entry
  decide

theorem element_oneRow :
    element "table" oneRow = .ok (node .values [("variables", .sequence [.str "?x"]),
      ("bindings", .sequence [.ofFields [("?x", .str "?y")]])]) := by
  rw [element_table]
  rfl

theorem keepsKinds_movesValue (tree : Tree) : tree.KeepsKinds movesValue := by
  intro text _
  rw [movesValue]
  split
  · next same =>
    subst same
    decide
  · rfl

/-- The operators that look at their arguments, and a header that is none. -/
theorem element_rename_movesValue :
    (∀ key ∈ ["table", "slice", "leftjoin", "aggregate"], IdKind.of? key = none) ∧
      (∀ tree : Tree, tree.KeepsKinds movesValue) ∧ Table.KeepsNames movesValue oneRow ∧
      element "table" (oneRow.map (rename movesValue)) =
        .ok (.ofFields [("variables", .sequence [.str "?x"]),
          ("bindings", .sequence [.ofFields [("?x", .str "?z")]]), ("type", .str "values")]) ∧
      element "slice"
          ([.scalar (.integer 2), .scalar (.integer (-1)), .str "?y"].map (rename movesValue)) =
        .ok (.ofFields [("start", .scalar (.integer 2)), ("input", .str "?z"),
          ("type", .str "slice")]) ∧
      element "leftjoin"
          ([.str "?x", .str "?y", .scalar (.bool true)].map (rename movesValue)) =
        .ok (.ofFields [("left", .str "?x"), ("right", .str "?z"), ("type", .str "leftjoin")]) ∧
      element "aggregate"
          ([.str "group_concat", .str "?x", .str "?y"].map (rename movesValue)) =
        .ok (.ofFields [("symbol", .str "group_concat"), ("expression", .str "?x"),
          ("variable", .str "?z"), ("type", .str "aggregate")]) ∧
      element "table" ([.str "?y"].map (rename movesValue)) =
        .error (.malformed .table (.noArguments (.str "?z"))) ∧
      ¬ ∃ tree, element "slice" ([.str "?y"].map (rename movesValue)) = .ok tree := by
  have keeps (args : List Tree) (arg : Tree) (_ : arg ∈ args) : arg.KeepsKinds movesValue :=
    keepsKinds_movesValue arg
  refine ⟨by decide, keepsKinds_movesValue, keepsNames_oneRow, ?table, ?slice, ?leftJoin,
    ?aggregate, ?header, ?short⟩
  case table =>
    exact (element_rename "table" oneRow movesValue (by decide) (keeps _)).2.2 _ element_oneRow
      fun _ => keepsNames_oneRow
  case slice =>
    exact (element_rename "slice" _ movesValue (by decide) (keeps _)).2.2
      (.ofFields [("start", .scalar (.integer 2)), ("input", .str "?y"), ("type", .str "slice")])
      (by rfl) fun isTable => absurd isTable (by decide)
  case leftJoin =>
    exact (element_rename "leftjoin" _ movesValue (by decide) (keeps _)).2.2
      (.ofFields [("left", .str "?x"), ("right", .str "?y"), ("type", .str "leftjoin")])
      (by rfl) fun isTable => absurd isTable (by decide)
  case aggregate =>
    exact (element_rename "aggregate" _ movesValue (by decide) (keeps _)).2.2
      (.ofFields [("symbol", .str "group_concat"), ("expression", .str "?x"),
        ("variable", .str "?y"), ("type", .str "aggregate")])
      (by rfl) fun isTable => absurd isTable (by decide)
  case header =>
    exact (element_rename "table" _ movesValue (by decide) (keeps _)).2.1
      (.malformed .table (.noArguments (.str "?y"))) (by rfl)
  case short =>
    rw [(element_rename "slice" _ movesValue (by decide) (keeps _)).1]
    rintro ⟨tree, built⟩
    cases built

end

end Algebra

end QueryIso
