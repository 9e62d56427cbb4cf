import QueryIso.Proofs.Differences
import QueryIso.Proofs.Text.Apart

/-!
# Texts of paths

Names stand in the text of a path as they are, so a dot or an opening bracket within a name would
read as the start of another step. Where no name has one of them, every step is read back from its
text, also one with an empty name or one that looks like a position:

* `Step.readsBack_chars`: a step is read up to the start of the next one;
* `Tree.hasPlainNames_of_at?`: a path to a node of a tree has names of the tree only;
* `Path.text_identifies`: the text of a path identifies it, and with it the nodes that a difference
  is about.
-/

namespace QueryIso

/-- The name of a field has neither a dot nor an opening bracket. -/
def IsPlainName (name : String) : Prop :=
  '.' ∉ name.toList ∧ '[' ∉ name.toList

instance (name : String) : Decidable (IsPlainName name) :=
  inferInstanceAs (Decidable (_ ∧ _))

namespace Step

/-- The name in the step, if there is one, is plain. -/
def HasPlainName : Step → Prop
  | field name => IsPlainName name
  | index _ => True

/-- Whether a character starts the text of a step. -/
def isStart (c : Char) : Bool :=
  c = '.' ∨ c = '['

/-- Reads a step. -/
def ofChars? : List Char → Option (Step × List Char)
  | '.' :: cs => some (field (String.ofList (cs.takeWhile (!isStart ·))), cs.dropWhile (!isStart ·))
  | '[' :: cs =>
    some (index (Nat.ofDigitChars 10 (cs.takeWhile Char.isDigit) 0),
      (cs.dropWhile Char.isDigit).tail)
  | _ => none

/-- A step is followed by another one, or by nothing. -/
def Follows (rest : List Char) : Prop :=
  ∀ c ∈ rest.head?, isStart c

theorem follows_chars (step : Step) (rest : List Char) : Follows (step.chars ++ rest) := by
  cases step <;>
  · rintro _ ⟨⟩
    rfl

theorem not_isStart_of_mem {name : String} (plain : IsPlainName name) :
    ∀ c ∈ name.toList, (!isStart c) = true := by
  intro c mem
  have dot : c ≠ '.' := fun same => plain.1 (same ▸ mem)
  have bracket : c ≠ '[' := fun same => plain.2 (same ▸ mem)
  simp [isStart, dot, bracket]

/-- A step with a plain name is read up to the start of the next one. -/
theorem readsBack_chars {step : Step} (plain : step.HasPlainName) :
    Text.ReadsBack Follows ofChars? chars step := by
  intro rest follows
  cases step with
  | field name =>
    -- An empty name is the empty run before the next step.
    have stop : ∀ c ∈ rest.head?, (!isStart c) = false := fun c head => by simp [follows c head]
    obtain ⟨taken, left⟩ := Text.span_append (not_isStart_of_mem plain) stop
    rw [chars, List.cons_append, ofChars?, taken, left, String.ofList_toList]
  | index position =>
    have digits : ∀ c ∈ Nat.toDigits 10 position, c.isDigit := fun _ mem =>
      Nat.isDigit_of_mem_toDigits (by decide) (by decide) mem
    have stop : ∀ c ∈ (']' :: rest).head?, c.isDigit = false := by
      rintro _ ⟨⟩
      rfl
    obtain ⟨taken, left⟩ := Text.span_append digits stop
    rw [chars, Text.natural, List.cons_append, List.append_assoc, List.singleton_append, ofChars?,
      taken, left, Nat.ofDigitChars_ten_toDigits, List.tail_cons]

end Step

namespace Path

/-- The names in the path are plain. -/
def HasPlainNames (path : Path) : Prop :=
  ∀ step ∈ path.steps, step.HasPlainName

theorem hasPlainNames_under {step : Step} {path : Path} :
    (path.under step).HasPlainNames ↔ step.HasPlainName ∧ path.HasPlainNames :=
  List.forall_mem_cons

theorem eq_of_text_eq {p q : Path} (plain : p.HasPlainNames) (plain' : q.HasPlainNames)
    (same : p.text = q.text) : p = q := by
  have chars : p.steps.flatMap Step.chars ++ [] = q.steps.flatMap Step.chars ++ [] := by
    simpa using (List.cons.inj (String.ofList_inj.1 same)).2
  have apart := Text.tellsApart_flatMap (fun step mem => Step.readsBack_chars (plain step mem))
    (fun step mem => Step.readsBack_chars (plain' step mem))
    fun step rest _ => step.follows_chars rest
  obtain ⟨steps, _⟩ := apart [] [] ⟨nofun, rfl⟩ ⟨nofun, rfl⟩ chars
  exact congrArg mk steps

end Path

namespace Tree

/-- The names of all fields of the tree are plain. -/
def HasPlainNames (tree : Tree) : Prop :=
  ∀ path fields, tree.at? path = some (.record fields) → ∀ name ∈ fields.names, IsPlainName name

theorem hasPlainName_of_child? {tree child : Tree} {step : Step} (plain : tree.HasPlainNames)
    (here : tree.child? step = some child) : step.HasPlainName := by
  cases step with
  | index position => trivial
  | field name =>
    cases tree with
    | scalar _ | sequence _ => cases here
    | record fields => exact plain .root fields rfl name (Entries.mem_names_iff.2 ⟨child, here⟩)

theorem HasPlainNames.child {tree child : Tree} {step : Step} (plain : tree.HasPlainNames)
    (here : tree.child? step = some child) : child.HasPlainNames := by
  intro path fields below
  exact plain (path.under step) fields ((at?_under_of_child? here path).trans below)

theorem hasPlainNames_scalar (value : Scalar) : (scalar value).HasPlainNames := by
  intro path fields found
  cases exists_at?_scalar.1 ⟨path, found⟩

theorem hasPlainNames_record {fields : Dict Tree} (names : ∀ name ∈ fields.names, IsPlainName name)
    (values : ∀ value ∈ fields.values, value.HasPlainNames) : (record fields).HasPlainNames := by
  intro path others found
  rcases exists_at?_record.1 ⟨path, found⟩ with root | ⟨value, mem, path, below⟩
  · cases root
    exact names
  · exact values value mem path others below

/-- A path to a node of a tree has names of the tree only. -/
theorem hasPlainNames_of_at? {tree node : Tree} {path : Path} (plain : tree.HasPlainNames)
    (found : tree.at? path = some node) : path.HasPlainNames := by
  induction path using Path.induction generalizing tree with
  | root => exact List.forall_mem_nil _
  | under step path ih =>
    rw [at?_under] at found
    obtain ⟨child, here, below⟩ := Option.bind_eq_some_iff.1 found
    exact Path.hasPlainNames_under.2
      ⟨hasPlainName_of_child? plain here, ih (plain.child here) below⟩

/-- The path of a difference leads to a node in both trees. -/
theorem isSome_at?_of_mem_differences {expected actual : Tree} {path : Path}
    {kind : DifferenceKind} (mem : ⟨path, kind⟩ ∈ expected.differences actual) :
    (expected.at? path).isSome ∧ (actual.at? path).isSome := by
  induction path using Path.induction generalizing expected actual with
  | root => exact ⟨rfl, rfl⟩
  | under step path ih =>
    obtain ⟨child, other, here, there, below⟩ := mem_differences_under.1 mem
    rw [at?_under_of_child? here, at?_under_of_child? there]
    exact ih below

end Tree

/-- **The text of a path identifies it.** Two paths whose names have neither a dot nor an opening
bracket have the same text only if they are the same. So, in a tree with such names, the text shown
for a difference is that of one path to a node, the path of the difference. -/
theorem Path.text_identifies :
    (∀ p q : Path, p.HasPlainNames → q.HasPlainNames → p.text = q.text → p = q) ∧
      ∀ expected actual : Tree, ∀ difference ∈ expected.differences actual,
        ∀ tree ∈ [expected, actual], tree.HasPlainNames →
          ∀ path, (tree.at? path).isSome ∧ path.text = difference.path.text ↔
            path = difference.path := by
  refine ⟨fun p q => eq_of_text_eq, fun expected actual difference mem tree side plain path => ?_⟩
  obtain ⟨here, there⟩ := Tree.isSome_at?_of_mem_differences mem
  have found : (tree.at? difference.path).isSome := by
    rcases List.mem_pair.1 side with rfl | rfl
    · exact here
    · exact there
  have plainNames {path : Path} (found : (tree.at? path).isSome) : path.HasPlainNames := by
    obtain ⟨node, found⟩ := Option.isSome_iff_exists.1 found
    exact Tree.hasPlainNames_of_at? plain found
  constructor
  · rintro ⟨found', same⟩
    exact eq_of_text_eq (plainNames found') (plainNames found) same
  · rintro rfl
    exact ⟨found, rfl⟩

/-- A scalar under an empty name and one that looks like the end of a position. -/
def Tree.oddlyNamed (value : Scalar) : Tree :=
  .ofFields [("", .ofFields [("0]", .scalar value)])]

theorem Tree.hasPlainNames_oddlyNamed (value : Scalar) : (oddlyNamed value).HasPlainNames := by
  have plain : IsPlainName "0]" := by decide
  have empty : IsPlainName "" := by decide
  have inner : (ofFields [("0]", scalar value)]).HasPlainNames :=
    hasPlainNames_record (List.forall_mem_singleton.2 plain)
      (List.forall_mem_singleton.2 (hasPlainNames_scalar value))
  exact hasPlainNames_record (List.forall_mem_singleton.2 empty)
    (List.forall_mem_singleton.2 inner)

/-- The path to the scalar. -/
def Path.toOddlyNamed : Path :=
  ⟨[.field "", .field "0]"]⟩

theorem Path.text_identifies_oddlyNamed :
    toOddlyNamed.HasPlainNames ∧ toOddlyNamed.text = "$..0]" ∧
      (root.field "").field "0]" = toOddlyNamed ∧
      (Tree.oddlyNamed .null).HasPlainNames ∧
      ⟨toOddlyNamed, .scalar .null (.bool true)⟩ ∈
        (Tree.oddlyNamed .null).differences (.oddlyNamed (.bool true)) ∧
      ∀ path, ((Tree.oddlyNamed .null).at? path).isSome ∧ path.text = "$..0]" ↔
        path = toOddlyNamed := by
  have plain : toOddlyNamed.HasPlainNames := by
    intro step mem
    rcases List.mem_pair.1 mem with rfl | rfl
    · exact (by decide : IsPlainName "")
    · exact (by decide : IsPlainName "0]")
  have mem : (⟨toOddlyNamed, .scalar .null (.bool true)⟩ : Difference) ∈
      (Tree.oddlyNamed .null).differences (.oddlyNamed (.bool true)) := by decide
  have plainTree : (Tree.oddlyNamed .null).HasPlainNames := Tree.hasPlainNames_oddlyNamed .null
  refine ⟨plain, rfl, ?_, plainTree, mem, ?_⟩
  · exact text_identifies.1 ((root.field "").field "0]") toOddlyNamed plain plain rfl
  · exact text_identifies.2 _ _ _ mem _ List.mem_cons_self plainTree

end QueryIso
