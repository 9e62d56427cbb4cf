import QueryIso.Algebra.Element
import QueryIso.Proofs.Failures
import QueryIso.Proofs.Trees

/-!
# Rows of inline data

Before the rows of a table become records they are lists of names and values, in which a name may
repeat. `Algebra.Table.parts` reads the arguments of a table that far, and
`Algebra.Table.build_eq_parts` makes the record from what it has read.
-/

namespace QueryIso

namespace Algebra

section
variable {α α' β β' ε ε' : Type}

/-- Applies functions to the error and to the value of an outcome. -/
def bimap (onError : ε → ε') (onValue : α → α') : Except ε α → Except ε' α'
  | .error error => .error (onError error)
  | .ok value => .ok (onValue value)

theorem bimap_eq_ok_iff {onError : ε → ε'} {onValue : α → α'} {outcome : Except ε α} {value : α'} :
    bimap onError onValue outcome = .ok value ↔
      ∃ found, outcome = .ok found ∧ onValue found = value := by
  cases outcome <;> simp [bimap]

theorem bimap_eq_error_iff {onError : ε → ε'} {onValue : α → α'} {outcome : Except ε α}
    {error : ε'} : bimap onError onValue outcome = .error error ↔
      ∃ found, outcome = .error found ∧ onError found = error := by
  cases outcome <;> simp [bimap]

theorem mapM_map {onError : ε → ε'} {onValue : β → β'} {change : α → α'} {f : α → Except ε β}
    {f' : α' → Except ε' β'} (each : ∀ item, f' (change item) = bimap onError onValue (f item))
    (items : List α) :
    (items.map change).mapM f' = bimap onError (List.map onValue) (items.mapM f) := by
  induction items with
  | nil => rfl
  | cons item rest ih =>
    rw [List.map_cons, List.mapM_cons, List.mapM_cons, each, ih]
    cases f item with
    | error error => rfl
    | ok value => cases rest.mapM f <;> rfl

theorem exists_of_mem_right {related : α → β → Prop} {items : List α} {values : List β}
    (pairs : List.Forall₂ related items values) {value : β} (mem : value ∈ values) :
    ∃ item ∈ items, related item value := by
  induction pairs with
  | nil => cases mem
  | cons first _ ih =>
    rcases List.mem_cons.1 mem with rfl | mem
    · exact ⟨_, List.mem_cons_self, first⟩
    · obtain ⟨item, mem', later⟩ := ih mem
      exact ⟨item, List.mem_cons_of_mem _ mem', later⟩

end

namespace Table

theorem arguments_eq_ok_iff {expression : Tree} {items : List Tree} :
    arguments expression = .ok items ↔ expression.get? "args" = some (.sequence items) := by
  rw [arguments]
  cases found : (expression.get? "args").bind Tree.items? with
  | none =>
    refine ⟨nofun, fun get => ?_⟩
    rw [get] at found
    cases found
  | some known =>
    obtain ⟨tree, get, isSequence⟩ := Option.bind_eq_some_iff.1 found
    rw [get, Tree.items?_eq_some_iff.1 isSequence]
    simp

/-- An entry of a row as it is given. -/
def pair (entry : String × Tree) : Tree :=
  .sequence [.str entry.1, entry.2]

theorem entry_eq_ok_iff {item : Tree} {found : String × Tree} :
    entry item = .ok found ↔ item = pair found := by
  refine ⟨fun read => ?_, fun same => same ▸ rfl⟩
  rw [entry] at read
  split at read
  · next name value isPair =>
    split at read
    · next text isText =>
      cases read
      rw [Tree.items?_eq_some_iff.1 isPair, Tree.str?_eq_some_iff.1 isText, pair]
    · cases read
  · cases read

theorem mapM_entry_eq_ok_iff {items : List Tree} {found : List (String × Tree)} :
    items.mapM entry = .ok found ↔ items = found.map pair := by
  simp only [mapM_eq_ok_iff, entry_eq_ok_iff]
  rw [← List.forall₂_map_right_iff (R := Eq), List.forall₂_eq_eq_eq]

/-- The names and values of a row in the order in which they are given. -/
def entries (expression : Tree) : Except Malformation (List (String × Tree)) := do
  (← arguments expression).mapM entry

theorem entries_eq_ok_iff {expression : Tree} {found : List (String × Tree)} :
    entries expression = .ok found ↔
      expression.get? "args" = some (.sequence (found.map pair)) := by
  rw [entries, ← arguments_eq_ok_iff]
  cases arguments expression with
  | error reason => exact ⟨nofun, nofun⟩
  | ok items =>
    change items.mapM entry = .ok found ↔ _
    rw [mapM_entry_eq_ok_iff, Except.ok.injEq]

theorem row_eq (expression : Tree) :
    row expression = bimap id Tree.ofFields (entries expression) := by
  rw [row, entries]
  cases arguments expression with
  | error reason => rfl
  | ok items =>
    change (items.mapM entry >>= fun x => _) = bimap _ _ (items.mapM entry)
    cases items.mapM entry <;> rfl

/-- What the arguments of a table hold. -/
structure Parts where
  /-- The arguments of the header. -/
  header : List Tree
  /-- The names and values of each row. -/
  rows : List (List (String × Tree))

/-- Reads the arguments of a table. -/
def parts (args : List Tree) : Except ElementError Parts :=
  match args with
  | [] => .error (.arity .table (.atLeast 1) 0)
  | header :: rows => bimap (.malformed .table) id do
    return { header := ← arguments header, rows := ← rows.mapM entries }

/-- The record of inline data. -/
def Parts.values (parts : Parts) : Tree :=
  node .values [("variables", .sequence parts.header),
    ("bindings", .sequence (parts.rows.map Tree.ofFields))]

/-- The record of a table is made from its parts. -/
theorem build_eq_parts (args : List Tree) :
    build args = bimap id Parts.values (parts args) := by
  cases args with
  | nil => rfl
  | cons header rows =>
    have records : rows.mapM row = bimap id (List.map Tree.ofFields) (rows.mapM entries) := by
      have each : ∀ row, Table.row (id row) = bimap id Tree.ofFields (entries row) := row_eq
      simpa using mapM_map each rows
    rw [build, parts, contents, records]
    cases arguments header with
    | error reason => rfl
    | ok items => cases rows.mapM entries <;> rfl

theorem parts_eq_ok_iff {header : Tree} {rows : List Tree} {found : Parts} :
    parts (header :: rows) = .ok found ↔
      header.get? "args" = some (.sequence found.header) ∧
        List.Forall₂ (fun row entries => row.get? "args" = some (.sequence (entries.map pair)))
          rows found.rows := by
  obtain ⟨vars, lists⟩ := found
  simp only [← entries_eq_ok_iff, ← mapM_eq_ok_iff]
  rw [parts, ← arguments_eq_ok_iff]
  cases arguments header with
  | error reason => exact ⟨nofun, nofun⟩
  | ok items =>
    cases rows.mapM entries with
    | error reason => exact ⟨nofun, nofun⟩
    | ok read => simp [bimap, bind, Except.bind, pure, Except.pure]

/-- Every row read is among the arguments after the header. -/
theorem exists_of_mem_rows {args : List Tree} {found : Parts} (read : parts args = .ok found)
    {row : List (String × Tree)} (mem : row ∈ found.rows) :
    ∃ expression ∈ args.tail, expression.get? "args" = some (.sequence (row.map pair)) := by
  cases args with
  | nil => cases read
  | cons header rows => exact exists_of_mem_right (parts_eq_ok_iff.1 read).2 mem

end Table

end Algebra

end QueryIso
