import QueryIso.Proofs.Algebra.Renaming
import QueryIso.Proofs.Copies
import QueryIso.Proofs.Symmetry

/-!
# Inline data with renamed variables

A table gives its variables to the records of its rows as names of fields. Names of fields are
compared as they are, so renaming the variables of a table can make other inline data:

* `Algebra.rowNames_perm`: isomorphic inline data have rows with the same names;
* `Algebra.table_recognized`: inline data are recognized if the renaming fixes the names of rows.
-/

namespace QueryIso

namespace Tree

section
variable {tree other : Tree} {name text : String} {value : Tree}

/-- The names of the fields of a record. -/
def fieldNames (tree : Tree) : List String :=
  (tree.fields?.map Entries.names).getD []

/-- The elements of the sequence in a field. -/
def fieldItems (tree : Tree) (name : String) : List Tree :=
  ((tree.get? name).bind items?).getD []

theorem mentions_of_get? (get : tree.get? name = some value) (mentions : value.Mentions text) :
    tree.Mentions text := by
  cases tree with
  | scalar _ => cases get
  | sequence _ => cases get
  | record fields =>
    exact mentions_record.2 ⟨value, Entries.mem_values_iff.2 ⟨name, get⟩, mentions⟩

theorem exists_mentions_ofFields {fields : List (String × Tree)}
    (mentions : (ofFields fields).Mentions text) : ∃ field ∈ fields, field.2.Mentions text := by
  obtain ⟨value, mem, mentions⟩ := mentions_record.1 mentions
  obtain ⟨name, mem⟩ := Dict.exists_of_mem_values mem
  exact ⟨(name, value), mem, mentions⟩

theorem fieldNames_rename (image : String → String) (tree : Tree) :
    (tree.rename image).fieldNames = tree.fieldNames := by
  induction tree with
  | identifier text kind known =>
    rw [rename_str known]
    rfl
  | plain value plain => rw [rename_plain plain]
  | sequence items _ =>
    rw [rename_sequence]
    rfl
  | record fields _ =>
    rw [rename_record]
    exact Entries.names_map _ fields

theorem fieldItems_rename (image : String → String) (tree : Tree) (name : String) :
    (tree.rename image).fieldItems name = (tree.fieldItems name).map (rename image) := by
  rw [fieldItems, fieldItems, get?_rename]
  cases tree.get? name with
  | none => rfl
  | some value =>
    dsimp only [Option.map_some, Option.bind_some]
    rw [items?_rename]
    cases value.items? <;> rfl

namespace Reordered

theorem get? (same : Reordered tree other) (get : tree.get? name = some value) :
    ∃ value', other.get? name = some value' ∧ Reordered value value' := by
  cases same with
  | scalar _ => cases get
  | sequence _ _ => cases get
  | record names pairs => exact Entries.exists_get?_of_forall₂ names pairs get

theorem fieldNames (same : Reordered tree other) : tree.fieldNames = other.fieldNames := by
  cases same with
  | scalar _ => rfl
  | sequence _ _ => rfl
  | record names _ => exact names

theorem fieldItems (same : Reordered tree other) (name : String) :
    ∃ paired, List.Forall₂ Reordered (tree.fieldItems name) paired ∧
      paired.Perm (other.fieldItems name) := by
  rw [Tree.fieldItems, Tree.fieldItems]
  cases get : tree.get? name with
  | some value =>
    obtain ⟨value', get', same'⟩ := same.get? get
    rw [get']
    cases same' with
    | scalar _ => exact ⟨[], .nil, .refl _⟩
    | sequence pairs order => exact ⟨_, pairs, order⟩
    | record _ _ => exact ⟨[], .nil, .refl _⟩
  | none =>
    cases get' : other.get? name with
    | none => exact ⟨[], .nil, .refl _⟩
    | some value =>
      obtain ⟨_, found, _⟩ := same.symm.get? get'
      cases get.symm.trans found

end Reordered

end

end Tree

namespace Algebra

open QueryIso.Tree (rename)

/-- The names of the fields in each row of inline data. -/
def rowNames (tree : Tree) : List (List String) :=
  (tree.fieldItems "bindings").map Tree.fieldNames

theorem rowNames_rename (image : String → String) (tree : Tree) :
    rowNames (tree.rename image) = rowNames tree := by
  rw [rowNames, Tree.fieldItems_rename, List.map_map, rowNames]
  exact List.map_congr_left fun row _ => Tree.fieldNames_rename image row

/-- No renaming of identifiers changes the names in rows. -/
theorem rowNames_perm {image : String → String} {tree other : Tree}
    (iso : Tree.Isomorphism image tree other) : (rowNames tree).Perm (rowNames other) := by
  obtain ⟨paired, pairs, order⟩ := iso.reordered.fieldItems "bindings"
  have names : rowNames (tree.rename image) = paired.map Tree.fieldNames := by
    rw [rowNames, ← List.forall₂_eq_eq_eq, List.forall₂_map_left_iff, List.forall₂_map_right_iff]
    exact pairs.imp fun _ _ => Tree.Reordered.fieldNames
  rw [← rowNames_rename image, names]
  exact order.map _

/-- Inline data mention no other identifiers than the arguments of the table. -/
theorem Table.exists_arg_mentions {args : List Tree} {found : Parts}
    (read : parts args = .ok found) {text : String} (mentions : found.values.Mentions text) :
    ∃ arg ∈ args, arg.Mentions text := by
  obtain ⟨field, mem, mentions⟩ := Tree.exists_mentions_ofFields mentions
  simp only [List.cons_append, List.nil_append, List.mem_cons, List.not_mem_nil, or_false] at mem
  rcases mem with rfl | rfl | rfl
  · cases args with
    | nil => cases read
    | cons header rows =>
      have get := (parts_eq_ok_iff.1 read).1
      exact ⟨header, List.mem_cons_self, Tree.mentions_of_get? get mentions⟩
  · obtain ⟨item, mem, mentions⟩ := Tree.mentions_sequence.1 mentions
    obtain ⟨row, given, rfl⟩ := List.mem_map.1 mem
    obtain ⟨entry, mem', mentions⟩ := Tree.exists_mentions_ofFields mentions
    obtain ⟨expression, argument, get⟩ := exists_of_mem_rows read given
    have inPair : (pair entry).Mentions text :=
      Tree.mentions_sequence.2 ⟨entry.2, by simp, mentions⟩
    have inRow : (Tree.sequence (row.map pair)).Mentions text :=
      Tree.mentions_sequence.2 ⟨pair entry, List.mem_map_of_mem mem', inPair⟩
    exact ⟨expression, List.mem_of_mem_tail argument, Tree.mentions_of_get? get inRow⟩
  · have plain : (Scalar.str Operator.values.key).idKind? = none := key_plain .values
    exact (Tree.not_mentions_plain plain text mentions).elim

/-- **Inline data are recognized if the names of rows stay.** A table with renamed arguments makes
inline data as well. They are found isomorphic to the original if the renaming fixes the names of
rows, and whenever they are found isomorphic the rows have the same names up to their order. -/
theorem table_recognized {args : List Tree} {image : String → String} {tree : Tree}
    (built : element "table" args = .ok tree)
    (renames : IsRenaming image fun text => ∃ arg ∈ args, arg.Mentions text) :
    ∃ renamed, element "table" (args.map (rename image)) = .ok renamed ∧
      (Table.KeepsNames image args → tree.isomorphic renamed = true) ∧
      (tree.isomorphic renamed = true → (rowNames tree).Perm (rowNames renamed)) := by
  rw [element_table, Table.build_eq_parts] at built
  obtain ⟨found, read, rfl⟩ := bimap_eq_ok_iff.1 built
  refine ⟨(found.rename image).values, ?_, ?_, ?_⟩
  · rw [element_table, Table.build_rename, read]
    rfl
  · intro names
    have inside (text : String) (mem : text ∈ found.values.identifiers.names) :
        ∃ arg ∈ args, arg.Mentions text :=
      Table.exists_arg_mentions read (Tree.mem_identifiers_iff.1 mem)
    have copy : Tree.Isomorphism image found.values (found.values.rename image) :=
      ⟨fun text mem => renames.kinds text (inside text mem),
        fun a memA b memB => renames.injective a (inside a memA) b (inside b memB), .refl _⟩
    obtain ⟨bindings, _, _, recognized, _⟩ := Tree.recognizes_copy copy
    rw [names.values_rename read, Tree.isomorphic, recognized, Option.isSome_some]
  · intro isomorphic
    obtain ⟨_, iso⟩ := Tree.exists_isomorphism isomorphic
    exact rowNames_perm iso

theorem isRenaming_of_identifiers {args : List Tree} {image : String → String}
    (kinds : ∀ text ∈ (Tree.sequence args).identifiers.names,
      IdKind.of? (image text) = IdKind.of? text)
    (injective : ∀ a ∈ (Tree.sequence args).identifiers.names,
      ∀ b ∈ (Tree.sequence args).identifiers.names, image a = image b → a = b) :
    IsRenaming image fun text => ∃ arg ∈ args, arg.Mentions text := by
  have mem (text : String) (mentioned : ∃ arg ∈ args, arg.Mentions text) :
      text ∈ (Tree.sequence args).identifiers.names :=
    Tree.mem_identifiers_iff.2 (Tree.mentions_sequence.2 mentioned)
  exact ⟨fun text mentioned => kinds text (mem text mentioned),
    fun a mentionedA b mentionedB => injective a (mem a mentionedA) b (mem b mentionedB)⟩

/-- A table of one row, which gives a number to its variable. -/
def numbered (name : String) : List Tree :=
  [.ofFields [("args", .sequence [.str name])],
    .ofFields [("args", .sequence [.sequence [.str name, .scalar (.integer 1)]])]]

/-- The variable `?x` becomes `?y`. -/
def movesName (text : String) : String :=
  if text = "?x" then "?y" else text

/-- Renaming the variable of a table can make inline data that are not found isomorphic. -/
theorem renamed_table_missed :
    ∃ tree renamed, element "table" (numbered "?x") = .ok tree ∧
      IsRenaming movesName (fun text => ∃ arg ∈ numbered "?x", arg.Mentions text) ∧
      element "table" ((numbered "?x").map (rename movesName)) = .ok renamed ∧
      tree.isomorphic renamed = false := by
  refine ⟨_, _, rfl, isRenaming_of_identifiers (by decide) (by decide), rfl, ?_⟩
  decide

theorem table_recognized_oneRow :
    ∃ tree renamed, element "table" oneRow = .ok tree ∧
      IsRenaming movesValue (fun text => ∃ arg ∈ oneRow, arg.Mentions text) ∧
      element "table" (oneRow.map (rename movesValue)) = .ok renamed ∧
      tree.isomorphic renamed = true := by
  have renames : IsRenaming movesValue fun text => ∃ arg ∈ oneRow, arg.Mentions text :=
    isRenaming_of_identifiers (by decide) (by decide)
  obtain ⟨renamed, built, recognized, _⟩ := table_recognized element_oneRow renames
  exact ⟨_, renamed, element_oneRow, renames, built, recognized keepsNames_oneRow⟩

end Algebra

end QueryIso
