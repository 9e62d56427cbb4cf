import QueryIso.Proofs.Names
import QueryIso.Proofs.Positions
import QueryIso.Proofs.Rigidity

/-!
# Trees in which order cannot matter

In a *narrow* tree no sequence has two elements. Its elements can be paired in one way only, so the
search for bindings and the differences, which compare elements in order, look at the same pairs of
nodes.

* `Tree.Reordered.eq_of_narrow`: a narrow tree equals every tree that it equals up to order;
* `Tree.Narrow.rigidSequences`: so none of its sequences is symmetric;
* `Tree.matchFreely_steps_le`: the search looks at each of its nodes at most once;
* `Tree.verdict_positional_of_narrow`: the search finds bindings exactly when there are no
  differences and the identifiers at equal paths determine each other, and they are the bindings.
-/

namespace QueryIso

namespace Tree

/-- Every sequence that occurs in the tree has at most one element. -/
def Narrow (tree : Tree) : Prop :=
  ∀ path items, tree.at? path = some (.sequence items) → items.length ≤ 1

section
variable {tree other : Tree} {items : List Tree} {fields : Dict Tree}

/-- Every node of a narrow tree is narrow. -/
theorem Narrow.node (narrow : tree.Narrow) {path : Path} (found : tree.at? path = some other) :
    other.Narrow := by
  intro below items here
  apply narrow ⟨path.steps ++ below.steps⟩ items
  rw [at?_append, found, Option.bind_some, here]

theorem narrow_scalar (value : Scalar) : (scalar value).Narrow :=
  forall_sequences_scalar value

theorem narrow_sequence_iff :
    (sequence items).Narrow ↔ items.length ≤ 1 ∧ ∀ item ∈ items, item.Narrow :=
  forall_sequences_sequence_iff

theorem narrow_record_iff : (record fields).Narrow ↔ ∀ value ∈ fields.values, value.Narrow :=
  forall_sequences_record_iff

theorem Narrow.rename (narrow : tree.Narrow) (image : String → String) :
    (tree.rename image).Narrow := by
  intro path items found
  rw [at?_rename] at found
  obtain ⟨node, here, same⟩ := Option.map_eq_some_iff.1 found
  have shapes : (node.rename image).shape = node.shape := shape_rename image node
  rw [same] at shapes
  cases node with
  | scalar _ | record _ => cases shapes
  | sequence sources =>
    rw [rename_sequence] at same
    cases same
    rw [List.length_map]
    exact narrow path sources here

/-! ## Pairings -/

theorem eq_of_forall₂ {as bs : List Tree} (pairs : List.Forall₂ Reordered as bs)
    (same : ∀ a ∈ as, ∀ b, a.Reordered b → a = b) : as = bs := by
  have equal : List.Forall₂ (· = ·) as bs := Reordered.forall₂_of_mem pairs same
  rwa [List.forall₂_eq_eq_eq] at equal

/-- A narrow tree equals every tree that it equals up to the order of elements. -/
theorem Reordered.eq_of_narrow (same : tree.Reordered other) (narrow : tree.Narrow) :
    tree = other := by
  induction tree generalizing other with
  | identifier text kind _ =>
    cases same with
    | scalar _ => rfl
  | plain value _ =>
    cases same with
    | scalar _ => rfl
  | sequence items ih =>
    cases same with
    | @sequence _ paired others pairs order =>
      obtain ⟨few, each⟩ := narrow_sequence_iff.1 narrow
      have equal : items = paired :=
        eq_of_forall₂ pairs fun item mem _ same => ih item mem same (each item mem)
      subst equal
      match items, few with
      | [], _ => rw [order.nil_eq]
      | [item], _ => rw [List.singleton_perm.1 order]
  | record fields ih =>
    cases same with
    | @record _ others names pairs =>
      have each := narrow_record_iff.1 narrow
      have equal : fields.values = others.values :=
        eq_of_forall₂ pairs fun value mem _ same => ih value mem same (each value mem)
      rw [Entries.eq_of_names_values names equal]

theorem Narrow.rename_eq {image : String → String} (narrow : tree.Narrow)
    (iso : Isomorphism image tree other) : tree.rename image = other :=
  iso.reordered.eq_of_narrow (narrow.rename image)

/-- A sequence of a narrow tree has no isomorphism with itself than to leave its identifiers as they
are. -/
theorem Narrow.rigidSequences (narrow : tree.Narrow) : tree.RigidSequences := by
  intro path items found image iso text mem
  exact fixed_of_rename_eq ((narrow.node found).rename_eq iso) (mem_identifiers_iff.1 mem)

end

/-! ## Steps -/

theorem depthOfItems_le_sizeOfItems {items : List Tree}
    (each : ∀ item ∈ items, item.depth < item.size) : depthOfItems items ≤ sizeOfItems items := by
  induction items with
  | nil => exact Nat.le_refl 0
  | cons item rest ih =>
    have here := each item List.mem_cons_self
    have later := ih fun other mem => each other (List.mem_cons_of_mem _ mem)
    rw [depthOfItems, sizeOfItems]
    omega

theorem depth_lt_size (tree : Tree) : tree.depth < tree.size := by
  induction tree with
  | identifier text kind _ => exact Nat.zero_lt_one
  | plain value _ => exact Nat.zero_lt_one
  | sequence items ih =>
    have children := depthOfItems_le_sizeOfItems ih
    rw [depth, size]
    omega
  | record fields ih =>
    have children := depthOfItems_le_sizeOfItems ih
    rw [depth, size, depthOfFields_eq, sizeOfFields_eq]
    omega

/-- The search for the tree takes at most one step for each of its nodes. -/
def Direct (tree : Tree) : Prop :=
  ∀ actual start, (tree.matchFreely actual start).steps ≤ tree.size

theorem steps_find?_singleton (item actual : Tree) (start : Bindings) :
    (Matching.find? matchFreely (fun _ _ => pure ()) [item] [actual] start).steps =
      (item.matchFreely actual start).steps := by
  change (Matching.extend matchFreely (fun _ _ => pure ()) [item] [(actual, 0)] start).steps = _
  rw [Matching.extend, Matching.tryEach]
  cases item.matchFreely actual start with
  | mk value steps => cases value <;> rfl

theorem direct_sequence {items : List Tree} (few : items.length ≤ 1)
    (each : ∀ item ∈ items, item.Direct) : (sequence items).Direct := by
  intro actual start
  cases actual with
  | scalar _ | record _ => exact Nat.le_add_right _ _
  | sequence others =>
    rw [matchFreely_sequence, Counted.steps_bind, Counted.steps_tick, size]
    apply Nat.add_le_add_left
    by_cases sizes : items.length = others.length
    · rcases Nat.le_one_iff_eq_zero_or_eq_one.1 few with none | one
      · rw [none] at sizes
        rw [List.length_eq_zero_iff.1 none, List.length_eq_zero_iff.1 sizes.symm]
        exact Nat.le_refl 0
      · obtain ⟨item, rfl⟩ := List.length_eq_one_iff.1 one
        obtain ⟨other, rfl⟩ := List.length_eq_one_iff.1 sizes.symm
        rw [steps_find?_singleton, sizeOfItems, sizeOfItems]
        exact each item List.mem_cons_self other start
    · rw [Matching.find?, if_neg sizes]
      exact Nat.zero_le _

theorem steps_matchFieldsFreely_le {bound : Option String} {fields : Entries Tree bound}
    (each : ∀ value ∈ fields.values, value.Direct) (actual : Dict Tree) (start : Bindings) :
    (matchFieldsFreely fields actual start).steps ≤ sizeOfFields fields := by
  induction fields generalizing start with
  | nil => exact Nat.le_refl 0
  | cons name above value rest ih =>
    rw [matchFieldsFreely, sizeOfFields]
    cases actual.get? name with
    | none => exact Nat.zero_le _
    | some other =>
      have here := each value List.mem_cons_self other start
      dsimp only
      rw [Counted.steps_bind]
      apply Nat.add_le_add here
      cases (value.matchFreely other start).value with
      | none => exact Nat.zero_le _
      | some reached => exact ih (fun other mem => each other (List.mem_cons_of_mem _ mem)) reached

/-- The search for a narrow tree looks at each of its nodes at most once. -/
theorem matchFreely_steps_le {tree : Tree} (narrow : tree.Narrow) : tree.Direct := by
  induction tree with
  | identifier text kind known =>
    intro actual start
    cases actual <;> exact Nat.le_refl _
  | plain value plain =>
    intro actual start
    cases actual <;> exact Nat.le_refl _
  | sequence items ih =>
    obtain ⟨few, each⟩ := narrow_sequence_iff.1 narrow
    exact direct_sequence few fun item mem => ih item mem (each item mem)
  | record fields ih =>
    intro actual start
    cases actual with
    | scalar _ | sequence _ => exact Nat.le_add_right _ _
    | record others =>
      rw [matchFreely, Counted.steps_bind, Counted.steps_tick, size]
      apply Nat.add_le_add_left
      split
      · have each := narrow_record_iff.1 narrow
        exact steps_matchFieldsFreely_le (fun value mem => ih value mem (each value mem)) _ start
      · exact Nat.zero_le _

/-! ## Verdicts -/

section
variable {expected actual : Tree}

/-- Bindings are found for a narrow tree exactly if some renaming makes it the actual one. -/
theorem Narrow.found_iff (narrow : expected.Narrow) : (expected.verdict? actual).isSome ↔
    ∃ image, IsRenaming image expected.Mentions ∧ expected.rename image = actual := by
  rw [Option.isSome_iff_exists]
  constructor
  · rintro ⟨bindings, found⟩
    have iso := isomorphism_of_verdict found
    exact ⟨bindings.image, ⟨iso.keeps, iso.separates⟩, narrow.rename_eq iso⟩
  · rintro ⟨image, renames, rfl⟩
    have renames' : IsRenaming image (· ∈ expected.identifiers.names) :=
      renames.mono fun _ => mem_identifiers_iff.1
    obtain ⟨bindings, found, _⟩ := verdict?_of_isomorphism narrow.rigidSequences
      ⟨renames'.kinds, renames'.injective, .refl (expected.rename image)⟩
    exact ⟨bindings, found⟩

/-- The bindings found for a narrow tree are the identifiers that meet. -/
theorem Narrow.mem_bindings_iff (narrow : expected.Narrow) {bindings : Bindings}
    (found : expected.verdict? actual = some bindings) (text target : String) :
    (text, target) ∈ bindings.toList ↔ expected.Meet actual text target := by
  obtain ⟨grows, linked⟩ := match?_sound expected actual .empty bindings Bindings.oneToOne_empty
    (reached_of_verdict found)
  have iso := linked.isomorphism grows.oneToOne
  rw [toList_eq_map_image, names_of_grows grows linked, ← narrow.rename_eq iso,
    meet_rename iso.keeps]
  simp [mem_identifiers_iff]

theorem Narrow.effort_le (narrow : expected.Narrow) (actual : Tree) :
    expected.effort actual ≤ expected.size := by
  unfold effort
  split
  · exact matchFreely_steps_le narrow actual .empty
  · exact Nat.zero_le _

/-- **Where order cannot matter, the search and the differences agree.** Bindings are found for a
tree of sequences of at most one element exactly if there are no differences and the identifiers at
equal paths determine each other; the table then holds these pairs of identifiers and no others.
Limits that are not smaller than the number of nodes of the tree make no difference to this. -/
theorem verdict_positional_of_narrow (narrow : expected.Narrow) (actual : Tree) :
    ((expected.bindings? actual).isSome ↔
      expected.differences actual = [] ∧ expected.MeetOneToOne actual) ∧
    (∀ bindings, expected.bindings? actual = some bindings →
      bindings.OneToOne ∧
        ∀ text target, (text, target) ∈ bindings.toList ↔ expected.Meet actual text target) ∧
    ∀ depthLimit stepLimit, expected.size ≤ depthLimit → expected.size ≤ stepLimit →
      ∀ bindings, expected.bindingsWithin ⟨some depthLimit, some stepLimit⟩ actual =
        .ok (some bindings) ↔ expected.bindings? actual = some bindings := by
  simp only [bindings?_eq]
  refine ⟨narrow.found_iff.trans exists_renaming_iff, fun bindings found => ⟨?_, ?_⟩, ?_⟩
  · obtain ⟨grows, _⟩ := match?_sound expected actual .empty bindings Bindings.oneToOne_empty
      (reached_of_verdict found)
    exact grows.oneToOne
  · exact narrow.mem_bindings_iff found
  · intro depthLimit stepLimit deep long bindings
    constructor
    · intro done
      exact (bindingsWithin_eq_ok.1 done).2.2.symm
    · intro found
      have same := narrow.rename_eq (isomorphism_of_verdict found)
      have shallow : actual.depth = expected.depth := by rw [← same, depth_rename]
      have levels := depth_lt_size expected
      have steps := narrow.effort_le actual
      rw [bindingsWithin_some, shallow, Nat.max_self, if_neg (by omega), if_neg (by omega), found]

end

/-- Three identifiers at different depths. -/
def distant (first second third : String) : Tree :=
  .ofFields [("a", .sequence [.ofFields [("inner", .str first)]]), ("b", .str second),
    ("c", .sequence [.str third])]

theorem narrow_distant (first second third : String) : (distant first second third).Narrow := by
  have inner : (ofFields [("inner", .str first)]).Narrow := by
    refine narrow_record_iff.2 fun value mem => ?_
    have leaf : value ∈ [str first] := mem
    rw [List.mem_singleton.1 leaf]
    exact narrow_scalar _
  have single (item : Tree) (narrow : item.Narrow) : (sequence [item]).Narrow :=
    narrow_sequence_iff.2 ⟨Nat.le_refl 1, fun _ mem => List.mem_singleton.1 mem ▸ narrow⟩
  refine narrow_record_iff.2 fun value mem => ?_
  obtain ⟨name, given⟩ := Dict.exists_of_mem_values mem
  simp only [List.mem_cons, Prod.mk.injEq, List.not_mem_nil, or_false] at given
  rcases given with ⟨_, rfl⟩ | ⟨_, rfl⟩ | ⟨_, rfl⟩
  · exact single _ inner
  · exact narrow_scalar _
  · exact single _ (narrow_scalar _)

/-- The last identifier stands for the first one, or wrongly for the second one. -/
theorem verdict_positional_of_narrow_distant :
    (distant "?x" "?y" "?x").Narrow ∧
      (distant "?x" "?y" "?x").MeetOneToOne (distant "?u" "?v" "?u") ∧
      (∀ text target, (text, target) ∈ [("?x", "?u"), ("?y", "?v")] ↔
        (distant "?x" "?y" "?x").Meet (distant "?u" "?v" "?u") text target) ∧
      (distant "?x" "?y" "?x").bindingsWithin ⟨some 20, some 20⟩ (distant "?u" "?v" "?u") =
        .ok (some ⟨.ofList [("?x", "?u"), ("?y", "?v")], .ofList [("?u", "?x"), ("?v", "?y")]⟩) ∧
      (distant "?x" "?y" "?x").differences (distant "?u" "?v" "?v") = [] ∧
      ¬ (distant "?x" "?y" "?x").MeetOneToOne (distant "?u" "?v" "?v") := by
  have narrow := narrow_distant "?x" "?y" "?x"
  obtain ⟨verdict, pairs, limits⟩ := verdict_positional_of_narrow narrow (distant "?u" "?v" "?u")
  obtain ⟨verdict', _⟩ := verdict_positional_of_narrow narrow (distant "?u" "?v" "?v")
  have found : (distant "?x" "?y" "?x").bindings? (distant "?u" "?v" "?u") =
      some ⟨.ofList [("?x", "?u"), ("?y", "?v")], .ofList [("?u", "?x"), ("?v", "?y")]⟩ := rfl
  have alike : (distant "?x" "?y" "?x").differences (distant "?u" "?v" "?v") = [] := rfl
  have missed : (distant "?x" "?y" "?x").bindings? (distant "?u" "?v" "?v") = none := rfl
  refine ⟨narrow, (verdict.1 (by rw [found]; rfl)).2, (pairs _ found).2,
    (limits 20 20 (by decide) (by decide) _).2 found, alike, fun oneToOne => ?_⟩
  have impossible := verdict'.2 ⟨alike, oneToOne⟩
  rw [missed] at impossible
  cases impossible

end Tree

end QueryIso
