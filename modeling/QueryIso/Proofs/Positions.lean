import QueryIso.Proofs.Differences

/-!
# Renamings read off positions

A tree and a copy of it with other names have the same paths, and an identifier of one stands where
its image stands in the other. So whether some renaming makes a tree another one can be told from
the differences between them and from the identifiers that meet at the same paths.

* `Tree.at?_rename`: renaming commutes with following a path;
* `Tree.meet_rename`: the identifiers of a tree meet their images in a renamed copy;
* `Tree.items_map_eq_iff`, `Tree.fields_map_eq_iff`: functions make two nodes the same if these do
  not differ and the functions agree on their children;
* `Tree.rename_eq_of_meet`: without differences, a function that agrees with the identifiers that
  meet makes the expected tree the actual one;
* `Tree.exists_renaming_iff`: so a renaming exists exactly if there are no differences and the
  identifiers meet one to one.
-/

namespace QueryIso

namespace Tree

/-- Two identifiers stand at the same path of the two trees. -/
def Meet (expected actual : Tree) (text target : String) : Prop :=
  (IdKind.of? text).isSome ∧ (IdKind.of? target).isSome ∧
    ∃ path, expected.at? path = some (.str text) ∧ actual.at? path = some (.str target)

/-- Identifiers that meet determine each other. -/
structure MeetOneToOne (expected actual : Tree) : Prop where
  functional : ∀ text target other,
    expected.Meet actual text target → expected.Meet actual text other → target = other
  injective : ∀ text other target,
    expected.Meet actual text target → expected.Meet actual other target → text = other

/-! ## Paths and renaming -/

theorem str_inj {text other : String} : str text = str other ↔ text = other := by
  simp [str]

section
variable {image : String → String} {tree : Tree}

theorem child?_rename (image : String → String) (tree : Tree) (step : Step) :
    (tree.rename image).child? step = (tree.child? step).map (rename image) := by
  induction tree with
  | identifier text kind known =>
    rw [rename_str known]
    cases step <;> rfl
  | plain value plain =>
    rw [rename_plain plain]
    cases step <;> rfl
  | sequence items _ =>
    rw [rename_sequence]
    cases step with
    | field name => rfl
    | index position => exact List.getElem?_map
  | record fields _ =>
    rw [rename_record]
    cases step with
    | field name => exact Entries.get?_map (rename image) fields name
    | index position => rfl

/-- Renaming commutes with following a path. -/
theorem at?_rename (image : String → String) (tree : Tree) (path : Path) :
    (tree.rename image).at? path = (tree.at? path).map (rename image) := by
  induction path using Path.induction generalizing tree with
  | root => rfl
  | under step path ih =>
    rw [at?_under, at?_under, child?_rename]
    cases tree.child? step with
    | none => rfl
    | some child => exact ih child

theorem mentions_iff_at? {text : String} : tree.Mentions text ↔
    (IdKind.of? text).isSome ∧ ∃ path, tree.at? path = some (.str text) := by
  constructor
  · intro mentioned
    obtain ⟨kind, known⟩ := mentioned.kind
    refine ⟨by rw [known, Option.isSome_some], ?_⟩
    induction tree with
    | identifier other _ known' =>
      rw [(mentions_str known').1 mentioned]
      exact ⟨.root, rfl⟩
    | plain value plain => exact (not_mentions_plain plain text mentioned).elim
    | sequence items ih =>
      obtain ⟨item, mem, mentioned⟩ := mentions_sequence.1 mentioned
      exact exists_at?_sequence.2 (.inr ⟨item, mem, ih item mem mentioned⟩)
    | record fields ih =>
      obtain ⟨value, mem, mentioned⟩ := mentions_record.1 mentioned
      exact exists_at?_record.2 (.inr ⟨value, mem, ih value mem mentioned⟩)
  · rintro ⟨known, path, found⟩
    obtain ⟨kind, known⟩ := Option.isSome_iff_exists.1 known
    exact mentions_of_at? found ((mentions_str known).2 rfl)

/-- A renaming that changes nothing in the tree leaves its identifiers as they are. -/
theorem fixed_of_rename_eq (same : tree.rename image = tree) {text : String}
    (mentioned : tree.Mentions text) : image text = text := by
  obtain ⟨kind, known⟩ := mentioned.kind
  obtain ⟨_, path, found⟩ := mentions_iff_at?.1 mentioned
  have moved : (tree.rename image).at? path = some (.str (image text)) := by
    rw [at?_rename, found, Option.map_some, rename_str known]
  rw [same, found, Option.some.injEq, str_inj] at moved
  exact moved.symm

/-- The identifiers of a tree meet their images in a renamed copy, and no others. -/
theorem meet_rename (keeps : tree.KeepsKinds image) {text target : String} :
    tree.Meet (tree.rename image) text target ↔ tree.Mentions text ∧ image text = target := by
  constructor
  · rintro ⟨known, _, path, here, there⟩
    obtain ⟨kind, known'⟩ := Option.isSome_iff_exists.1 known
    rw [at?_rename, here, Option.map_some, rename_str known'] at there
    cases there
    exact ⟨mentions_iff_at?.2 ⟨known, path, here⟩, rfl⟩
  · rintro ⟨mentioned, rfl⟩
    obtain ⟨known, path, here⟩ := mentions_iff_at?.1 mentioned
    obtain ⟨kind, known'⟩ := Option.isSome_iff_exists.1 known
    refine ⟨known, by rwa [keeps text mentioned], path, here, ?_⟩
    rw [at?_rename, here, Option.map_some, rename_str known']

/-- A node does not differ from its renamed copy. -/
theorem not_differs_rename (keeps : tree.KeepsKinds image) (kind : DifferenceKind) :
    ¬ tree.Differs (tree.rename image) kind := by
  induction tree with
  | identifier text found known =>
    rw [rename_str known]
    rintro (differ | ⟨_, apart⟩)
    · exact differ rfl
    · have known' : IdKind.of? (image text) = some found :=
        (keeps text ((mentions_str known).2 rfl)).trans known
      exact apart ⟨found, known, known'⟩
  | plain value plain =>
    rw [rename_plain plain]
    rintro (differ | ⟨differ, _⟩) <;> exact differ rfl
  | sequence items _ =>
    rw [rename_sequence]
    rintro (differ | _ | differ)
    · exact differ rfl
    · exact differ (List.length_map _).symm
  | record fields _ =>
    rw [rename_record]
    rintro (differ | _ | _ | ⟨has, lacks⟩ | ⟨has, lacks⟩)
    · exact differ rfl
    · exact lacks ((Entries.names_map (rename image) fields).symm ▸ has)
    · exact lacks (Entries.names_map (rename image) fields ▸ has)

theorem differences_rename (keeps : tree.KeepsKinds image) :
    tree.differences (tree.rename image) = [] := by
  rw [List.eq_nil_iff_forall_not_mem]
  rintro ⟨path, kind⟩
  induction path using Path.induction generalizing tree with
  | root => exact fun mem => not_differs_rename keeps kind (mem_differences_root.1 mem)
  | under step path ih =>
    intro mem
    obtain ⟨child, _, here, there, mem⟩ := mem_differences_under.1 mem
    rw [child?_rename, here, Option.map_some] at there
    cases there
    have found : tree.at? (Path.root.under step) = some child := at?_under_of_child? here .root
    exact ih (fun text mentioned => keeps text (mentions_of_at? found mentioned)) mem

end

/-! ## Trees without differences -/

section
variable {image : String → String} {expected actual : Tree}

theorem differences_eq_nil_iff : expected.differences actual = [] ↔
    (∀ kind, ¬ expected.Differs actual kind) ∧
      ∀ step child other, expected.child? step = some child → actual.child? step = some other →
        child.differences other = [] := by
  simp only [List.eq_nil_iff_forall_not_mem]
  constructor
  · intro alike
    refine ⟨fun kind differs => ?_, ?_⟩
    · exact alike ⟨.root, kind⟩ (mem_differences_root.2 differs)
    · rintro step child other here there ⟨below, kind⟩ mem
      exact alike ⟨below.under step, kind⟩
        (mem_differences_under.2 ⟨child, other, here, there, mem⟩)
  · rintro ⟨root, children⟩ ⟨path, kind⟩ mem
    rcases mem_differences_iff.1 mem with
      ⟨_, differs⟩ | ⟨step, below, child, other, _, here, there, mem⟩
    · exact root kind differs
    · exact children step child other here there _ mem

theorem shape_eq_of_not_differs (alike : ∀ kind, ¬ expected.Differs actual kind) :
    expected.shape = actual.shape := by
  by_contra differ
  exact alike _ (.shape differ)

/-- Scalars that do not differ are equal or identifiers of one kind. -/
theorem agrees_of_not_differs {value other : Scalar}
    (alike : ∀ kind, ¬ (scalar value).Differs (.scalar other) kind) :
    value = other ∨ ∃ kind, value.idKind? = some kind ∧ other.idKind? = some kind := by
  by_contra apart
  rw [not_or] at apart
  exact alike _ (.scalar apart.1 apart.2)

/-- What does not differ from an identifier is one of its kind. -/
theorem eq_str_of_not_differs {text : String} {kind : IdKind}
    (known : IdKind.of? text = some kind) (alike : ∀ kind, ¬ (str text).Differs actual kind) :
    ∃ target, actual = str target ∧ IdKind.of? target = some kind := by
  cases actual with
  | sequence _ | record _ => cases shape_eq_of_not_differs alike
  | scalar other =>
    rcases agrees_of_not_differs alike with rfl | ⟨found, known', known''⟩
    · exact ⟨text, rfl, known⟩
    · cases other with
      | null | bool _ | integer _ | float _ => cases known''
      | str target => exact ⟨target, rfl, known''.trans (known'.symm.trans known)⟩

theorem length_eq_of_not_differs {items others : List Tree}
    (alike : ∀ kind, ¬ (sequence items).Differs (.sequence others) kind) :
    items.length = others.length := by
  by_contra differ
  exact alike _ (.length differ)

theorem names_eq_of_not_differs {fields others : Dict Tree}
    (alike : ∀ kind, ¬ (record fields).Differs (.record others) kind) :
    fields.names = others.names := by
  rw [Entries.names_eq_iff]
  intro name
  constructor
  · intro has
    by_contra lacks
    exact alike _ (.missingField has lacks)
  · intro has
    by_contra lacks
    exact alike _ (.extraField has lacks)

section
variable {f g : Tree → Tree}

/-- Functions make two lists the same exactly if the sequences do not differ and the functions agree
on items at the same position. -/
theorem items_map_eq_iff {items others : List Tree} : items.map f = others.map g ↔
    (∀ kind, ¬ (sequence items).Differs (.sequence others) kind) ∧
      ∀ step child other, (sequence items).child? step = some child →
        (sequence others).child? step = some other → f child = g other := by
  constructor
  · intro same
    constructor
    · rintro kind (differ | _ | differ)
      · exact differ rfl
      · have lengths := congrArg List.length same
        rw [List.length_map, List.length_map] at lengths
        exact differ lengths
    · rintro (name | index) child other here there
      · cases here
      · have found : items[index]? = some child := here
        have found' : others[index]? = some other := there
        have values := congrArg (·[index]?) same
        simpa only [List.getElem?_map, found, found', Option.map_some, Option.some.injEq]
          using values
  · rintro ⟨root, children⟩
    apply List.ext_getElem
    · rw [List.length_map, List.length_map, length_eq_of_not_differs root]
    · intro index inItems inOthers
      rw [List.length_map] at inItems inOthers
      rw [List.getElem_map, List.getElem_map]
      exact children (.index index) _ _ (List.getElem?_eq_getElem inItems)
        (List.getElem?_eq_getElem inOthers)

/-- Functions make two dictionaries the same exactly if the records do not differ and the functions
agree on values of the same name. -/
theorem fields_map_eq_iff {fields others : Dict Tree} :
    Entries.map f fields = Entries.map g others ↔
      (∀ kind, ¬ (record fields).Differs (.record others) kind) ∧
        ∀ step child other, (record fields).child? step = some child →
          (record others).child? step = some other → f child = g other := by
  constructor
  · intro same
    have names : fields.names = others.names := by
      rw [← Entries.names_map f fields, same, Entries.names_map]
    constructor
    · rintro kind (differ | _ | _ | ⟨has, lacks⟩ | ⟨has, lacks⟩)
      · exact differ rfl
      · exact lacks (names ▸ has)
      · exact lacks (names ▸ has)
    · rintro (name | index) child other here there
      · have found : fields.get? name = some child := here
        have found' : others.get? name = some other := there
        have values := congrArg (Entries.get? · name) same
        simpa only [Entries.get?_map, found, found', Option.map_some, Option.some.injEq]
          using values
      · cases here
  · rintro ⟨root, children⟩
    have names := names_eq_of_not_differs root
    apply Dict.ext_get?
    intro name
    rw [Entries.get?_map, Entries.get?_map]
    by_cases has : name ∈ fields.names
    · obtain ⟨value, here⟩ := Entries.mem_names_iff.1 has
      obtain ⟨other, there⟩ := Entries.mem_names_iff.1 (names ▸ has)
      rw [here, there, Option.map_some, Option.map_some,
        children (.field name) value other here there]
    · rw [not_mem_names_iff.1 has, not_mem_names_iff.1 (names ▸ has)]
      rfl

end

theorem exists_child?_of_not_differs (alike : ∀ kind, ¬ expected.Differs actual kind) {step : Step}
    {child : Tree} (here : expected.child? step = some child) :
    ∃ other, actual.child? step = some other := by
  have shapes := shape_eq_of_not_differs alike
  cases expected with
  | scalar value => exact (exists_child?_scalar value step child here).elim
  | sequence items =>
    cases actual with
    | scalar _ | record _ => cases shapes
    | sequence others =>
      cases step with
      | field name => cases here
      | index position =>
        have sizes : items.length = others.length := length_eq_of_not_differs alike
        have inside : position < others.length := by
          rw [← sizes]
          exact (List.getElem?_eq_some_iff.1 here).1
        exact ⟨others[position], List.getElem?_eq_getElem inside⟩
  | record fields =>
    cases actual with
    | scalar _ | sequence _ => cases shapes
    | record others =>
      cases step with
      | index position => cases here
      | field name =>
        have has : name ∈ fields.names := Entries.mem_names_iff.2 ⟨child, here⟩
        exact Entries.mem_names_iff.1 (names_eq_of_not_differs alike ▸ has)

theorem Meet.child {step : Step} {child other : Tree} (here : expected.child? step = some child)
    (there : actual.child? step = some other) {text target : String}
    (met : child.Meet other text target) : expected.Meet actual text target := by
  obtain ⟨known, known', path, below, below'⟩ := met
  refine ⟨known, known', path.under step, ?_, ?_⟩
  · exact (at?_under_of_child? here path).trans below
  · exact (at?_under_of_child? there path).trans below'

/-- Without differences, a function that sends every identifier to those it meets makes the expected
tree the actual one. -/
theorem rename_eq_of_meet (alike : expected.differences actual = [])
    (agrees : ∀ text target, expected.Meet actual text target → image text = target) :
    expected.rename image = actual := by
  induction expected generalizing actual with
  | identifier text kind known =>
    obtain ⟨target, rfl, known'⟩ := eq_str_of_not_differs known (differences_eq_nil_iff.1 alike).1
    have met : (str text).Meet (str target) text target :=
      ⟨by rw [known]; rfl, by rw [known']; rfl, .root, rfl, rfl⟩
    rw [rename_str known, agrees text target met]
  | plain value plain =>
    have root := (differences_eq_nil_iff.1 alike).1
    cases actual with
    | sequence _ | record _ => cases shape_eq_of_not_differs root
    | scalar other =>
      rcases agrees_of_not_differs root with rfl | ⟨_, known, _⟩
      · exact rename_plain plain
      · cases known.symm.trans plain
  | sequence items ih =>
    obtain ⟨root, children⟩ := differences_eq_nil_iff.1 alike
    cases actual with
    | scalar _ | record _ => cases shape_eq_of_not_differs root
    | sequence others =>
      rw [rename_sequence, sequence.injEq, ← List.map_id others, items_map_eq_iff]
      refine ⟨root, fun step child other here there => ?_⟩
      exact ih child (exists_child?_sequence.1 ⟨step, here⟩) (children step child other here there)
        fun text target met => agrees text target (met.child here there)
  | record fields ih =>
    obtain ⟨root, children⟩ := differences_eq_nil_iff.1 alike
    cases actual with
    | scalar _ | sequence _ => cases shape_eq_of_not_differs root
    | record others =>
      have whole : Entries.map id others = others := Entries.map_eq_self fun _ _ => rfl
      rw [rename_record, record.injEq, ← whole, fields_map_eq_iff]
      refine ⟨root, fun step child other here there => ?_⟩
      exact ih child (exists_child?_record.1 ⟨step, here⟩) (children step child other here there)
        fun text target met => agrees text target (met.child here there)

/-- Without differences, the actual tree has all paths of the expected one. -/
theorem exists_at?_of_alike (alike : expected.differences actual = []) {path : Path} {node : Tree}
    (found : expected.at? path = some node) :
    ∃ other, actual.at? path = some other ∧ node.differences other = [] := by
  induction path using Path.induction generalizing expected actual with
  | root =>
    cases found
    exact ⟨actual, rfl, alike⟩
  | under step path ih =>
    rw [at?_under] at found
    obtain ⟨child, here, below⟩ := Option.bind_eq_some_iff.1 found
    obtain ⟨root, children⟩ := differences_eq_nil_iff.1 alike
    obtain ⟨other, there⟩ := exists_child?_of_not_differs root here
    obtain ⟨node', below', alike'⟩ := ih (children step child other here there) below
    exact ⟨node', by rw [at?_under, there, Option.bind_some, below'], alike'⟩

/-- Without differences, every identifier of the expected tree meets one of its kind. -/
theorem exists_meet (alike : expected.differences actual = []) {text : String}
    (mentioned : expected.Mentions text) :
    ∃ target, expected.Meet actual text target ∧ IdKind.of? target = IdKind.of? text := by
  obtain ⟨kind, known⟩ := mentioned.kind
  obtain ⟨some, path, here⟩ := mentions_iff_at?.1 mentioned
  obtain ⟨other, there, alike'⟩ := exists_at?_of_alike alike here
  obtain ⟨target, rfl, known'⟩ := eq_str_of_not_differs known (differences_eq_nil_iff.1 alike').1
  exact ⟨target, ⟨some, by rw [known']; rfl, path, here, there⟩, known'.trans known.symm⟩

/-- A tree is another one with other names exactly if there are no differences between them and the
identifiers that meet determine each other. -/
theorem exists_renaming_iff :
    (∃ image, IsRenaming image expected.Mentions ∧ expected.rename image = actual) ↔
      expected.differences actual = [] ∧ expected.MeetOneToOne actual := by
  constructor
  · rintro ⟨image, renames, rfl⟩
    refine ⟨differences_rename renames.kinds, ⟨?_, ?_⟩⟩
    · intro text target other met met'
      rw [← ((meet_rename renames.kinds).1 met).2, ((meet_rename renames.kinds).1 met').2]
    · intro text other target met met'
      obtain ⟨mem, here⟩ := (meet_rename renames.kinds).1 met
      obtain ⟨mem', there⟩ := (meet_rename renames.kinds).1 met'
      exact renames.injective text mem other mem' (here.trans there.symm)
  · rintro ⟨alike, oneToOne⟩
    classical
    let image (text : String) : String :=
      if met : ∃ target, expected.Meet actual text target then met.choose else text
    have agrees : ∀ text target, expected.Meet actual text target → image text = target := by
      intro text target met
      have some : ∃ target, expected.Meet actual text target := ⟨target, met⟩
      have chosen : image text = some.choose := dif_pos some
      rw [chosen]
      exact oneToOne.functional text _ _ some.choose_spec met
    refine ⟨image, ⟨?_, ?_⟩, rename_eq_of_meet alike agrees⟩
    · intro text mentioned
      obtain ⟨target, met, kinds⟩ := exists_meet alike mentioned
      rw [agrees text target met, kinds]
    · intro a memA b memB same
      obtain ⟨target, metA, _⟩ := exists_meet alike memA
      obtain ⟨target', metB, _⟩ := exists_meet alike memB
      rw [agrees a target metA, agrees b target' metB] at same
      exact oneToOne.injective a b target metA (same ▸ metB)

end

end Tree

end QueryIso
