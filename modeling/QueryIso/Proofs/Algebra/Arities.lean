import QueryIso.Proofs.Algebra.Recovery
import QueryIso.Proofs.Algebra.Renaming

/-!
# Numbers of arguments

Every key says how many arguments it accepts, and arguments are refused for their number exactly if
it is another one. The form of an operator decides both.

* `Algebra.Counts`: the outcomes of an operator that counts its arguments;
* `Algebra.counts_build`: every operator counts its arguments, as its form says;
* `Algebra.element_counts_arguments`: the numbers that a key accepts, and the type of its records.
-/

namespace QueryIso

namespace Algebra

/-- The numbers of arguments that a key accepts. -/
def arityOf (key : String) (args : List Tree) : Arity :=
  if key ∈ ["distinct", "reduced", "inv", "link", "OneOrMorePath", "ZeroOrOnePath",
      "ZeroOrMorePath"] then .exactly 1
  else if key ∈ ["filter", "graph", "join", "minus", "union", "alt", "seq", "orderby",
      "project"] then .exactly 2
  else if key ∈ ["extend", "group", "slice", "triple", "path"] then .exactly 3
  else if key = "leftjoin" then .between 2 3
  else if key = "aggregate" then
    .between 2 (if args.head? = some (.str "group_concat") then 4 else 3)
  else if key = "table" then .atLeast 1
  else .atLeast 0

/-- The type of the records that are built with a key. -/
def typeOf (key : String) : String :=
  if key = "table" then "values"
  else if key ∈ ["expression", "values"] ∨ key ∉ Operator.all.map Operator.key then "expression"
  else key

/-- The outcome for this many arguments of an operator that counts them: they are refused exactly if
it does not accept the number. -/
inductive Counts {α : Type} (operator : Operator) (arity : Arity) (found : Nat) :
    Except ElementError α → Prop
  | refused (other : ¬ arity.accepts found) :
      Counts operator arity found (.error (.arity operator arity found))
  | malformed (same : arity.accepts found) (reason : Malformation) :
      Counts operator arity found (.error (.malformed operator reason))
  | built (same : arity.accepts found) (value : α) : Counts operator arity found (.ok value)

/-- The numbers of arguments that operators of this form accept. -/
def Form.arity : Form → List Tree → Arity
  | fields names, _ => .exactly names.length
  | gathered _, _ | application, _ => .atLeast 0
  | slice, _ => .exactly 3
  | leftJoin, _ => .between 2 3
  | table, _ => .atLeast 1
  | aggregate, args => Aggregate.arity args

section
variable {α β : Type} {operator : Operator} {arity : Arity} {found : Nat}

theorem Arity.accepts_exactly {count : Nat} : (exactly count).accepts found ↔ found = count := by
  simp [accepts]

theorem Arity.accepts_between {least most : Nat} :
    (between least most).accepts found ↔ least ≤ found ∧ found ≤ most := by
  simp [accepts]

theorem Arity.accepts_atLeast {least : Nat} : (atLeast least).accepts found ↔ least ≤ found := by
  simp [accepts]

theorem Arity.accepts_any : (atLeast 0).accepts found :=
  accepts_atLeast.2 (Nat.zero_le found)

/-- What is made of the outcome afterwards is not counted. -/
theorem Counts.map {outcome : Except ElementError α} (counts : Counts operator arity found outcome)
    (f : α → β) : Counts operator arity found (outcome >>= fun value => pure (f value)) := by
  cases counts with
  | refused other => exact .refused other
  | malformed same reason => exact .malformed same reason
  | built same value => exact .built same (f value)

theorem Counts.eq_arity_iff {outcome : Except ElementError α}
    (counts : Counts operator arity found outcome) {other : Operator} {expected : Arity}
    {count : Nat} : outcome = .error (.arity other expected count) ↔
      ¬ arity.accepts found ∧ other = operator ∧ expected = arity ∧ count = found := by
  cases counts with
  | refused differs => simp [differs, eq_comm]
  | malformed same reason => simp [same]
  | built same value => simp [same]

end

section
variable (args : List Tree)

theorem counts_namedArguments (operator : Operator) (names : List String) :
    Counts operator (.exactly names.length) args.length (namedArguments operator names args) := by
  by_cases same : args.length = names.length
  · rw [namedArguments, if_pos same]
    exact .built (Arity.accepts_exactly.2 same) _
  · rw [namedArguments, if_neg same]
    exact .refused (mt Arity.accepts_exactly.1 same)

theorem Slice.counts : Counts .slice (.exactly 3) args.length (Slice.build args) :=
  (counts_namedArguments args .slice ["start", "length", "input"]).map _

theorem LeftJoin.counts : Counts .leftJoin (.between 2 3) args.length (LeftJoin.build args) := by
  match args with
  | [] | [_] => exact .refused (by simp [Arity.accepts_between])
  | [_, _] => exact .built rfl _
  | [left, right, condition] =>
    rw [LeftJoin.build]
    split <;> exact .built rfl _
  | _ :: _ :: _ :: _ :: rest =>
    refine .refused fun same => ?_
    have bounds := Arity.accepts_between.1 same
    simp only [List.length_cons] at bounds
    omega

theorem Aggregate.accepts_iff {count : Nat} : (arity args).accepts count ↔
    2 ≤ count ∧ (count ≤ 3 ∨ isGroupConcat args ∧ count = 4) := by
  rw [arity, Arity.accepts_between]
  by_cases concat : isGroupConcat args
  · simp only [concat, if_true, true_and]
    omega
  · simp only [concat]
    simp

theorem Aggregate.counts :
    Counts .aggregate (Aggregate.arity args) args.length (Aggregate.build args) := by
  match args with
  | [] | [_] => exact .refused (by simp [accepts_iff])
  | [_, _] | [_, _, _] => exact .built (by simp [accepts_iff]) _
  | [symbol, expression, separator, name] =>
    by_cases concat : isGroupConcat [symbol, expression, separator, name]
    · rw [build, if_pos concat]
      exact .built (by simp [accepts_iff, concat]) _
    · rw [build, if_neg concat]
      exact .refused (by simp [accepts_iff, concat])
  | _ :: _ :: _ :: _ :: _ :: rest =>
    refine .refused fun same => ?_
    obtain ⟨_, most⟩ := (accepts_iff _).1 same
    simp only [List.length_cons] at most
    omega

theorem Table.counts : Counts .table (.atLeast 1) args.length (Table.build args) := by
  cases args with
  | nil => exact .refused (by simp [Arity.accepts_atLeast])
  | cons header rows =>
    have same : (Arity.atLeast 1).accepts (header :: rows).length := by
      simp [Arity.accepts_atLeast]
    rw [Table.build]
    cases contents header rows with
    | ok found => exact .built same _
    | error reason => exact .malformed same reason

/-- Every operator counts its arguments. -/
theorem counts_build (operator : Operator) :
    Counts operator ((form operator).arity args) args.length (build operator args) := by
  cases kind : form operator with
  | fields names =>
    simp only [build, kind]
    exact (counts_namedArguments args operator names).map _
  | gathered name =>
    simp only [build, kind]
    exact .built Arity.accepts_any _
  | application =>
    simp only [build, kind]
    exact .built Arity.accepts_any _
  | slice =>
    cases form_eq_slice_iff.1 kind
    exact Slice.counts args
  | leftJoin =>
    cases form_eq_leftJoin_iff.1 kind
    exact LeftJoin.counts args
  | aggregate =>
    cases form_eq_aggregate_iff.1 kind
    exact Aggregate.counts args
  | table =>
    cases form_eq_table_iff.1 kind
    exact Table.counts args

/-! ## Keys -/

theorem Aggregate.isGroupConcat_iff :
    isGroupConcat args ↔ args.head? = some (.str "group_concat") := by
  cases args with
  | nil => simp [isGroupConcat]
  | cons symbol rest => simp [isGroupConcat, Tree.str?_eq_some_iff]

theorem arityOf_key (operator : Operator) :
    arityOf operator.key args = (form operator).arity args := by
  have most : (if args.head? = some (.str "group_concat") then 4 else 3) =
      if Aggregate.isGroupConcat args then 4 else 3 := by
    simp only [Aggregate.isGroupConcat_iff]
  cases operator with
  | aggregate => exact congrArg (Arity.between 2) most
  | _ => rfl

section
variable {key : String}

theorem not_mem_of_unknown (unknown : Operator.ofKey? key = none) {keys : List String}
    (known : ∀ other ∈ keys, (Operator.ofKey? other).isSome) : key ∉ keys := by
  intro mem
  have found := known key mem
  rw [unknown] at found
  cases found

/-- A key that no operator has accepts any number of arguments. -/
theorem arityOf_unknown (unknown : Operator.ofKey? key = none) :
    arityOf key args = .atLeast 0 := by
  have apart : key ≠ "leftjoin" ∧ key ≠ "aggregate" ∧ key ≠ "table" := by
    have absent : key ∉ ["leftjoin", "aggregate", "table"] := not_mem_of_unknown unknown (by decide)
    simpa using absent
  rw [arityOf, if_neg (not_mem_of_unknown unknown (by decide)),
    if_neg (not_mem_of_unknown unknown (by decide)),
    if_neg (not_mem_of_unknown unknown (by decide)), if_neg apart.1, if_neg apart.2.1,
    if_neg apart.2.2]

theorem typeOf_key {operator : Operator} (own : form operator ≠ .application)
    (other : operator ≠ .table) : typeOf operator.key = operator.key := by
  rw [ne_eq, form_eq_application_iff, not_or] at own
  have known : operator.key ∈ Operator.all.map Operator.key :=
    List.mem_map_of_mem (Operator.mem_all operator)
  have isTable : operator.key ≠ "table" := fun same => other (key_inj.1 same)
  have isExpression : operator.key ≠ "expression" := fun same => own.1 (key_inj.1 same)
  have isValues : operator.key ≠ "values" := fun same => own.2 (key_inj.1 same)
  rw [typeOf, if_neg isTable, if_neg]
  rintro (applied | unknown)
  · rcases List.mem_pair.1 applied with same | same
    · exact isExpression same
    · exact isValues same
  · exact unknown known

theorem typeOf_application (kind : formOf key = .application) : typeOf key = "expression" := by
  have isTable : key ≠ "table" := by
    rintro rfl
    cases (formOf_key .table).symm.trans kind
  rw [typeOf, if_neg isTable, if_pos]
  rw [formOf] at kind
  cases known : Operator.ofKey? key with
  | none => exact .inr (not_mem_of_unknown known (by decide))
  | some operator =>
    obtain rfl := Operator.key_of_ofKey? known
    rw [known] at kind
    rcases form_eq_application_iff.1 kind with rfl | rfl <;> decide

/-- The record of an operator says its type. -/
theorem type_of_element {tree : Tree} (built : element key args = .ok tree) :
    ∃ fields, tree = .record fields ∧ fields.get? "type" = some (.str (typeOf key)) := by
  by_cases isTable : key = "table"
  · subst isTable
    rw [element_table, Table.build_eq_parts] at built
    obtain ⟨found, _, rfl⟩ := bimap_eq_ok_iff.1 built
    exact ⟨_, rfl, get?_node_type .values _⟩
  · rcases element_cases built with ⟨kind, rfl⟩ | ⟨same, _⟩ | ⟨operator, fields, rfl, own, rfl, _⟩
    · rw [typeOf_application kind]
      exact ⟨_, rfl, get?_node_type .expression _⟩
    · exact (isTable same).elim
    · rw [typeOf_key own fun same => isTable (congrArg Operator.key same)]
      exact ⟨_, rfl, get?_node_type operator fields⟩

theorem element_eq_arity_iff {operator : Operator} {expected : Arity} {found : Nat} :
    element key args = .error (.arity operator expected found) ↔ operator.key = key ∧
      ¬ (arityOf key args).accepts args.length ∧ expected = arityOf key args ∧
        found = args.length := by
  cases known : Operator.ofKey? key with
  | none =>
    rw [element, known]
    constructor
    · intro refused
      cases refused
    · rintro ⟨rfl, _⟩
      cases (Operator.ofKey?_key operator).symm.trans known
  | some other =>
    obtain rfl := Operator.key_of_ofKey? known
    rw [element, known, arityOf_key, key_inj]
    refine (counts_build args other).eq_arity_iff.trans ?_
    tauto

theorem exists_operator_of_refused (refused : ¬ (arityOf key args).accepts args.length) :
    ∃ operator : Operator, operator.key = key := by
  cases known : Operator.ofKey? key with
  | none =>
    rw [arityOf_unknown args known, Arity.accepts_atLeast] at refused
    exact (refused (Nat.zero_le _)).elim
  | some operator => exact ⟨operator, Operator.key_of_ofKey? known⟩

end

end

/-- **Arguments are counted.** Every key refuses the numbers of arguments that it does not accept,
and nothing else for its number. A record that is built is of the type of its key. -/
theorem element_counts_arguments (key : String) (args : List Tree) :
    ((∃ operator expected found, element key args = .error (.arity operator expected found)) ↔
      ¬ (arityOf key args).accepts args.length) ∧
    (∀ operator expected found, element key args = .error (.arity operator expected found) →
      operator.key = key ∧ expected = arityOf key args ∧ found = args.length) ∧
    ∀ tree, element key args = .ok tree →
      ∃ fields, tree = .record fields ∧ fields.get? "type" = some (.str (typeOf key)) := by
  simp only [element_eq_arity_iff]
  refine ⟨⟨?_, ?_⟩, ?_, fun tree => type_of_element args⟩
  · rintro ⟨_, _, _, _, refused, _⟩
    exact refused
  · intro refused
    obtain ⟨operator, same⟩ := exists_operator_of_refused args refused
    exact ⟨operator, _, _, same, refused, rfl, rfl⟩
  · rintro operator expected found ⟨same, _, bounds, count⟩
    exact ⟨same, bounds, count⟩

end Algebra

end QueryIso
