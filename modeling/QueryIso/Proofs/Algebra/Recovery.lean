import QueryIso.Proofs.Algebra.Records
import QueryIso.Proofs.Algebra.Rows

/-!
# Arguments read back from records

The key and the arguments from which a record was built can be read from it, so that constructions
are never conflated. Two things are lost: how the rows of a table were written, and whether an
optional part was given the condition `true` or none.
-/

namespace QueryIso

namespace Algebra

namespace Form

/-- The names of the fields, in the order of the arguments. -/
def order : Form → List String
  | fields names => names
  | gathered name => [name]
  | application => ["symbol", "args"]
  | slice => ["start", "length", "input"]
  | leftJoin => ["left", "right", "expression"]
  | table => ["variables", "bindings"]
  | aggregate => ["symbol", "expression", "separator", "variable"]

/-- The arguments that are given by the values of the fields in this order. -/
def given : Form → List Tree → List Tree
  | gathered _, [.sequence args] => args
  | application, [_, .sequence args] => args
  | slice, [start, input] => [start, .scalar (.integer (-1)), input]
  | _, values => values

/-- The arguments, but for the condition `true` of an optional part. -/
def settled : Form → List Tree → List Tree
  | leftJoin, [left, right, condition] =>
    if condition = .scalar (.bool true) then [left, right] else [left, right, condition]
  | _, args => args

/-- The fields hold the arguments in their order. -/
structure Holds (form : Form) (args : List Tree) (fields : List (String × Tree)) : Prop where
  order : (fields.map (·.1)).Sublist form.order
  given : form.given (fields.map (·.2)) = form.settled args

end Form

section
variable {args : List Tree} {tree : Tree}

theorem Slice.exists_fields (built : Slice.build args = .ok tree) :
    ∃ fields, tree = node .slice fields ∧ Form.slice.Holds args fields := by
  match args with
  | [start, length, input] =>
    by_cases none : length = .scalar (.integer (-1))
    · have same : Slice.build [start, length, input] =
          .ok (node .slice [("start", start), ("input", input)]) := by
        simp [Slice.build, namedArguments, none]
      cases same.symm.trans built
      exact ⟨_, rfl, by simp [Form.order], by simp [Form.given, Form.settled, none]⟩
    · have same : Slice.build [start, length, input] =
          .ok (node .slice [("start", start), ("length", length), ("input", input)]) := by
        simp [Slice.build, namedArguments, none]
      cases same.symm.trans built
      exact ⟨_, rfl, by simp [Form.order], rfl⟩
  | [] | [_] | [_, _] | _ :: _ :: _ :: _ :: _ => simp [Slice.build, namedArguments] at built

theorem LeftJoin.exists_fields (built : LeftJoin.build args = .ok tree) :
    ∃ fields, tree = node .leftJoin fields ∧ Form.leftJoin.Holds args fields := by
  rw [LeftJoin.build.eq_def] at built
  split at built
  · next left right =>
    cases built
    exact ⟨_, rfl, by simp [Form.order], rfl⟩
  · next left right condition =>
    split at built
    · next always =>
      cases built
      exact ⟨_, rfl, by simp [Form.order], by simp [Form.given, Form.settled, always]⟩
    · next asks =>
      cases built
      exact ⟨_, rfl, by simp [Form.order], by simp [Form.given, Form.settled, asks]⟩
  · cases built

theorem Aggregate.exists_fields (built : Aggregate.build args = .ok tree) :
    ∃ fields, tree = node .aggregate fields ∧ Form.aggregate.Holds args fields := by
  rw [Aggregate.build.eq_def] at built
  split at built
  · cases built
    exact ⟨_, rfl, by simp [Form.order], rfl⟩
  · cases built
    refine ⟨_, rfl, ?_, rfl⟩
    split <;> simp [Form.order]
  · split at built
    · cases built
      exact ⟨_, rfl, by simp [Form.order], rfl⟩
    · cases built
  · cases built

theorem exists_fields_of_build {operator : Operator} (applied : form operator ≠ .application)
    (other : form operator ≠ .table) (built : build operator args = .ok tree) :
    ∃ fields, tree = node operator fields ∧ (form operator).Holds args fields := by
  cases kind : form operator with
  | fields names =>
    simp only [build, kind] at built
    cases read : namedArguments operator names args with
    | error error =>
      rw [read] at built
      cases built
    | ok fields =>
      rw [read] at built
      cases built
      obtain ⟨rfl, rfl⟩ := namedArguments_eq_ok_iff.1 read
      exact ⟨fields, rfl, .refl _, rfl⟩
  | gathered name =>
    simp only [build, kind] at built
    cases built
    exact ⟨_, rfl, .refl _, rfl⟩
  | application => exact (applied kind).elim
  | slice =>
    cases form_eq_slice_iff.1 kind
    exact Slice.exists_fields built
  | leftJoin =>
    cases form_eq_leftJoin_iff.1 kind
    exact LeftJoin.exists_fields built
  | aggregate =>
    cases form_eq_aggregate_iff.1 kind
    exact Aggregate.exists_fields built
  | table => exact (other kind).elim

end

/-- The form of the operator with this key, or of an application. -/
def formOf (key : String) : Form :=
  (Operator.ofKey? key).elim .application form

theorem formOf_key (operator : Operator) : formOf operator.key = form operator := by
  rw [formOf, Operator.ofKey?_key, Option.elim_some]

theorem nodup_order (key : String) : ("type" :: (formOf key).order).Nodup := by
  cases known : Operator.ofKey? key with
  | none =>
    rw [formOf, known]
    decide
  | some operator =>
    rw [formOf, known]
    cases operator <;> decide

/-- The key from which a record was built. -/
def keyOf? (tree : Tree) : Option String :=
  let type := (tree.get? "type").bind Tree.str?
  if type = some Operator.expression.key then (tree.get? "symbol").bind Tree.str?
  else if type = some Operator.values.key then some Operator.table.key
  else type

/-- The arguments from which a record was built with this key. -/
def argsOf (key : String) (tree : Tree) : List Tree :=
  (formOf key).given ((formOf key).order.filterMap tree.get?)

theorem type_node (operator : Operator) (fields : List (String × Tree)) :
    ((node operator fields).get? "type").bind Tree.str? = some operator.key := by
  rw [get?_node_type]
  rfl

theorem keyOf?_node {operator : Operator} {fields : List (String × Tree)}
    (applied : operator ≠ .expression) (data : operator ≠ .values) :
    keyOf? (node operator fields) = some operator.key := by
  simp [keyOf?, type_node, key_inj, applied, data]

theorem keyOf?_values (fields : List (String × Tree)) :
    keyOf? (node .values fields) = some Operator.table.key := by
  simp [keyOf?, type_node, key_inj]

theorem keyOf?_application (symbol : String) (args : List Tree) :
    keyOf? (application symbol args) = some symbol := by
  have type : ((application symbol args).get? "type").bind Tree.str? =
      some Operator.expression.key := type_node _ _
  have get : (application symbol args).get? "symbol" = some (.str symbol) :=
    get?_node_of_mem (by simp) (by simp)
  rw [keyOf?, if_pos type, get]
  rfl

section
variable {key : String} {args : List Tree} {tree : Tree}

theorem element_cases (built : element key args = .ok tree) :
    formOf key = .application ∧ tree = application key args ∨
    key = "table" ∧ (∃ fields, tree = node .values fields) ∨
    ∃ operator fields, operator.key = key ∧ form operator ≠ .application ∧
      tree = node operator fields ∧ (form operator).Holds args fields := by
  rw [element] at built
  cases known : Operator.ofKey? key with
  | none =>
    rw [known] at built
    cases built
    exact .inl ⟨by rw [formOf, known, Option.elim_none], rfl⟩
  | some operator =>
    obtain rfl := Operator.key_of_ofKey? known
    rw [known] at built
    by_cases applied : form operator = .application
    · simp only [build, applied] at built
      cases built
      exact .inl ⟨(formOf_key operator).trans applied, rfl⟩
    · by_cases isTable : operator = .table
      · subst isTable
        obtain ⟨found, _, rfl⟩ := bimap_eq_ok_iff.1 ((Table.build_eq_parts args).symm.trans built)
        exact .inr (.inl ⟨rfl, _, rfl⟩)
      · obtain ⟨fields, same, holds⟩ :=
          exists_fields_of_build applied (fun kind => isTable (form_eq_table_iff.1 kind)) built
        exact .inr (.inr ⟨operator, fields, rfl, applied, same, holds⟩)

/-- The key can be read from the record. -/
theorem keyOf?_element (built : element key args = .ok tree) : keyOf? tree = some key := by
  rcases element_cases built with ⟨_, rfl⟩ | ⟨rfl, fields, rfl⟩ | ⟨_, _, rfl, own, rfl, _⟩
  · exact keyOf?_application key args
  · exact keyOf?_values fields
  · rw [ne_eq, form_eq_application_iff, not_or] at own
    exact keyOf?_node own.1 own.2

theorem Form.Holds.read {operator : Operator} {fields : List (String × Tree)}
    (holds : (formOf key).Holds args fields) :
    argsOf key (node operator fields) = (formOf key).settled args := by
  rw [argsOf, filterMap_get?_node holds.order (nodup_order key), holds.given]

/-- The arguments can be read from the record, but for tables. -/
theorem argsOf_element (built : element key args = .ok tree) (other : key ≠ "table") :
    argsOf key tree = (formOf key).settled args := by
  rcases element_cases built with ⟨kind, rfl⟩ | ⟨rfl, _⟩ | ⟨operator, fields, rfl, _, rfl, holds⟩
  · apply Form.Holds.read
    rw [kind]
    exact ⟨.refl _, rfl⟩
  · exact (other rfl).elim
  · apply Form.Holds.read
    rwa [formOf_key]

end

/-- An optional part with these arguments, and with the condition `true` after them. -/
def Unconditional (args others : List Tree) : Prop :=
  ∃ left right, args = [left, right] ∧ others = [left, right, .scalar (.bool true)]

theorem Form.settled_cases (form : Form) (args : List Tree) :
    form.settled args = args ∨ form = .leftJoin ∧ Unconditional (form.settled args) args := by
  rw [Form.settled.eq_def]
  split
  · next left right condition =>
    by_cases always : condition = .scalar (.bool true)
    · rw [if_pos always, always]
      exact .inr ⟨rfl, left, right, rfl, rfl⟩
    · exact .inl (if_neg always)
  · exact .inl rfl

theorem Form.eq_of_settled_eq {form : Form} {args others : List Tree}
    (same : form.settled args = form.settled others) :
    args = others ∨
      form = .leftJoin ∧ (Unconditional args others ∨ Unconditional others args) := by
  -- either list may be the one that loses its condition, or both
  rcases form.settled_cases args with kept | ⟨kind, shorter⟩
  · rcases form.settled_cases others with kept' | ⟨kind, shorter'⟩
    · exact .inl (kept.symm.trans (same.trans kept'))
    · rw [← same, kept] at shorter'
      exact .inr ⟨kind, .inl shorter'⟩
  · rcases form.settled_cases others with kept' | ⟨_, shorter'⟩
    · rw [same, kept'] at shorter
      exact .inr ⟨kind, .inr shorter⟩
    · obtain ⟨left, right, short, rfl⟩ := shorter
      obtain ⟨left', right', short', rfl⟩ := shorter'
      cases short.symm.trans (same.trans short')
      exact .inl rfl

theorem key_of_formOf_leftJoin {key : String} (kind : formOf key = .leftJoin) :
    key = "leftjoin" := by
  rw [formOf] at kind
  cases known : Operator.ofKey? key with
  | none =>
    rw [known] at kind
    cases kind
  | some operator =>
    rw [known] at kind
    cases form_eq_leftJoin_iff.1 kind
    exact (Operator.key_of_ofKey? known).symm

/-- **Constructions are never conflated.** Equal records were built with the same key, and from the
same arguments unless they are tables. The one exception is an optional part without a condition:
the condition `true` makes the same record. -/
theorem element_injective {key other : String} {args others : List Tree} {tree : Tree}
    (built : element key args = .ok tree) (built' : element other others = .ok tree) :
    key = other ∧
      (key ≠ "table" → args = others ∨
        key = "leftjoin" ∧ (Unconditional args others ∨ Unconditional others args)) ∧
      ∀ shorter longer, Unconditional shorter longer → ∃ optional,
        element "leftjoin" shorter = .ok optional ∧ element "leftjoin" longer = .ok optional := by
  have same : key = other :=
    Option.some.inj ((keyOf?_element built).symm.trans (keyOf?_element built'))
  subst same
  refine ⟨rfl, fun named => ?_, ?_⟩
  · have settled : (formOf key).settled args = (formOf key).settled others :=
      (argsOf_element built named).symm.trans (argsOf_element built' named)
    exact (Form.eq_of_settled_eq settled).imp_right (.imp_left key_of_formOf_leftJoin)
  · rintro _ _ ⟨left, right, rfl, rfl⟩
    have known : Operator.ofKey? "leftjoin" = some .leftJoin := Operator.ofKey?_key .leftJoin
    simp [element, known, build, form, LeftJoin.build]

/-- An optional part without a condition. -/
def optional : Tree :=
  node .leftJoin [("left", .str "?x"), ("right", .str "?y")]

theorem element_injective_optional :
    element "leftjoin" [.str "?x", .str "?y"] = .ok optional ∧
      element "leftjoin" [.str "?x", .str "?y", .scalar (.bool true)] = .ok optional ∧
      ([.str "?x", .str "?y"] = [Tree.str "?x", .str "?y", .scalar (.bool true)] ∨
        "leftjoin" = "leftjoin" ∧
          (Unconditional [.str "?x", .str "?y"] [.str "?x", .str "?y", .scalar (.bool true)] ∨
            Unconditional [.str "?x", .str "?y", .scalar (.bool true)]
              [.str "?x", .str "?y"])) := by
  have shorter : element "leftjoin" [.str "?x", .str "?y"] = .ok optional := rfl
  have longer : element "leftjoin" [.str "?x", .str "?y", .scalar (.bool true)] = .ok optional :=
    rfl
  exact ⟨shorter, longer, (element_injective shorter longer).2.1 (by decide)⟩

end Algebra

end QueryIso
