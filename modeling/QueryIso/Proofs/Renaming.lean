import QueryIso.Proofs.Trees

/-!
# Identifiers of a tree and their renaming

* `Tree.mem_identifiers_iff`: the identifiers of a tree are those that its leaves mention;
* `Tree.occurrences_mapIdentifiers`, `Tree.mapIdentifiers_mapIdentifiers`: a function replaces every
  occurrence of an identifier by its image, and what is an identifier then is replaced by a second
  one;
* `Tree.mentions_rename`, `Tree.rename_rename`: where kinds are kept, every image is an identifier,
  and two renamings compose.
-/

namespace QueryIso

/-- The function renames these identifiers one to one, each to one of its kind. -/
structure IsRenaming (image : String → String) (among : String → Prop) : Prop where
  kinds : ∀ text, among text → IdKind.of? (image text) = IdKind.of? text
  injective : ∀ a, among a → ∀ b, among b → image a = image b → a = b

namespace IsRenaming

variable {image : String → String} {among some : String → Prop}

theorem mono (renames : IsRenaming image among) (inside : ∀ text, some text → among text) :
    IsRenaming image some where
  kinds text mem := renames.kinds text (inside text mem)
  injective a memA b memB := renames.injective a (inside a memA) b (inside b memB)

theorem eq_iff (renames : IsRenaming image among) {a b : String} (memA : among a)
    (memB : among b) : image a = image b ↔ a = b :=
  ⟨renames.injective a memA b memB, fun same => same ▸ rfl⟩

end IsRenaming

namespace Tree

/-- Some leaf of the tree is this identifier. -/
def Mentions (tree : Tree) (text : String) : Prop :=
  ∃ kind, (text, kind) ∈ tree.occurrences

theorem occurrencesInItems_eq (items : List Tree) :
    occurrencesInItems items = items.flatMap occurrences := by
  induction items with
  | nil => rfl
  | cons item rest ih => simp [occurrencesInItems, ih]

theorem occurrencesInFields_eq {bound : Option String} (fields : Entries Tree bound) :
    occurrencesInFields fields = fields.values.flatMap occurrences := by
  induction fields with
  | nil => rfl
  | cons name above value rest ih => simp [occurrencesInFields, ih]

theorem occurrences_str {text : String} {kind : IdKind} (known : IdKind.of? text = some kind) :
    (str text).occurrences = [(text, kind)] := by
  simp [str, occurrences, known]

theorem occurrences_eq_toList (text : String) :
    (str text).occurrences = ((IdKind.of? text).map (text, ·)).toList := by
  cases known : IdKind.of? text <;> simp [str, occurrences, known]

theorem occurrences_plain {value : Scalar} (plain : value.idKind? = none) :
    (scalar value).occurrences = [] := by
  cases value with
  | str text =>
    have none : IdKind.of? text = none := plain
    simp [occurrences, none]
  | null | bool _ | integer _ | float _ => rfl

theorem occurrences_sequence (items : List Tree) :
    (sequence items).occurrences = items.flatMap occurrences := by
  rw [occurrences, occurrencesInItems_eq]

theorem occurrences_record (fields : Dict Tree) :
    (record fields).occurrences = fields.values.flatMap occurrences := by
  rw [occurrences, occurrencesInFields_eq]

theorem mentions_str {text other : String} {kind : IdKind} (known : IdKind.of? text = some kind) :
    (str text).Mentions other ↔ other = text := by
  simp [Mentions, occurrences_str known]

theorem not_mentions_plain {value : Scalar} (plain : value.idKind? = none) (text : String) :
    ¬ (scalar value).Mentions text := by
  simp [Mentions, occurrences_plain plain]

theorem mentions_sequence {items : List Tree} {text : String} :
    (sequence items).Mentions text ↔ ∃ item ∈ items, item.Mentions text := by
  simp only [Mentions, occurrences_sequence, List.mem_flatMap]
  constructor
  · rintro ⟨kind, item, mem, occurs⟩
    exact ⟨item, mem, kind, occurs⟩
  · rintro ⟨item, mem, kind, occurs⟩
    exact ⟨kind, item, mem, occurs⟩

theorem mentions_record {fields : Dict Tree} {text : String} :
    (record fields).Mentions text ↔ ∃ value ∈ fields.values, value.Mentions text := by
  simp only [Mentions, occurrences_record, List.mem_flatMap]
  constructor
  · rintro ⟨kind, value, mem, occurs⟩
    exact ⟨value, mem, kind, occurs⟩
  · rintro ⟨value, mem, kind, occurs⟩
    exact ⟨kind, value, mem, occurs⟩

theorem kind_of_occurs {tree : Tree} {text : String} {kind : IdKind}
    (occurs : (text, kind) ∈ tree.occurrences) : IdKind.of? text = some kind := by
  induction tree with
  | identifier other found known =>
    rw [occurrences_str known, List.mem_singleton, Prod.mk.injEq] at occurs
    rw [occurs.1, occurs.2, known]
  | plain value plain => simp [occurrences_plain plain] at occurs
  | sequence items ih =>
    rw [occurrences_sequence, List.mem_flatMap] at occurs
    obtain ⟨item, mem, occurs⟩ := occurs
    exact ih item mem occurs
  | record fields ih =>
    rw [occurrences_record, List.mem_flatMap] at occurs
    obtain ⟨value, mem, occurs⟩ := occurs
    exact ih value mem occurs

theorem Mentions.kind {tree : Tree} {text : String} (mentions : tree.Mentions text) :
    ∃ kind, IdKind.of? text = some kind := by
  obtain ⟨kind, occurs⟩ := mentions
  exact ⟨kind, kind_of_occurs occurs⟩

theorem mem_identifiers_iff {tree : Tree} {text : String} :
    text ∈ tree.identifiers.names ↔ tree.Mentions text :=
  Dict.mem_names_ofList

theorem get?_identifiers {tree : Tree} {text : String} {kind : IdKind} :
    tree.identifiers.get? text = some kind ↔ tree.Mentions text ∧ IdKind.of? text = some kind := by
  have functional : ∀ name (a b : IdKind), (name, a) ∈ tree.occurrences →
      (name, b) ∈ tree.occurrences → a = b := by
    intro name a b occursA occursB
    exact Option.some.inj ((kind_of_occurs occursA).symm.trans (kind_of_occurs occursB))
  rw [identifiers, Dict.get?_ofList_eq_some_iff functional]
  constructor
  · intro occurs
    exact ⟨⟨kind, occurs⟩, kind_of_occurs occurs⟩
  · rintro ⟨⟨found, occurs⟩, known⟩
    have same : found = kind := Option.some.inj ((kind_of_occurs occurs).symm.trans known)
    exact same ▸ occurs

/-- Replaces every identifier by its image. -/
def rename (image : String → String) (tree : Tree) : Tree :=
  tree.mapIdentifiers fun _ text => image text

section
variable (f : IdKind → String → String)

theorem mapItemsM_eq (items : List Tree) :
    (mapItemsM (fun kind text => pure (f kind text)) items : Id (List Tree)).run =
      items.map (mapIdentifiers f) := by
  induction items with
  | nil => rfl
  | cons item rest ih =>
    rw [List.map_cons, ← ih]
    rfl

theorem mapFieldsM_eq {bound : Option String} (fields : Entries Tree bound) :
    (mapFieldsM (fun kind text => pure (f kind text)) fields : Id (Entries Tree bound)).run =
      fields.map (mapIdentifiers f) := by
  induction fields with
  | nil => rfl
  | cons name above value rest ih =>
    rw [Entries.map, ← ih]
    rfl

theorem mapIdentifiers_str {text : String} {kind : IdKind} (known : IdKind.of? text = some kind) :
    (str text).mapIdentifiers f = str (f kind text) := by
  simp [str, mapIdentifiers, mapIdentifiersM, known]

theorem mapIdentifiers_plain {value : Scalar} (plain : value.idKind? = none) :
    (scalar value).mapIdentifiers f = scalar value := by
  cases value with
  | str text =>
    have none : IdKind.of? text = none := plain
    simp [mapIdentifiers, mapIdentifiersM, none]
  | null | bool _ | integer _ | float _ => rfl

theorem mapIdentifiers_sequence (items : List Tree) :
    (sequence items).mapIdentifiers f = sequence (items.map (mapIdentifiers f)) :=
  congrArg sequence (mapItemsM_eq f items)

theorem mapIdentifiers_record (fields : Dict Tree) :
    (record fields).mapIdentifiers f = record (fields.map (mapIdentifiers f)) :=
  congrArg record (mapFieldsM_eq f fields)

theorem mapIdentifiers_congr {f g : IdKind → String → String} {tree : Tree}
    (agree : ∀ text kind, (text, kind) ∈ tree.occurrences → f kind text = g kind text) :
    tree.mapIdentifiers f = tree.mapIdentifiers g := by
  induction tree with
  | identifier text kind known =>
    have occurs : (text, kind) ∈ (str text).occurrences := by simp [occurrences_str known]
    rw [mapIdentifiers_str f known, mapIdentifiers_str g known, agree text kind occurs]
  | plain value plain => rw [mapIdentifiers_plain f plain, mapIdentifiers_plain g plain]
  | sequence items ih =>
    rw [mapIdentifiers_sequence, mapIdentifiers_sequence]
    congr 1
    apply List.map_congr_left
    intro item mem
    refine ih item mem fun text kind occurs => agree text kind ?_
    rw [occurrences_sequence]
    exact List.mem_flatMap.2 ⟨item, mem, occurs⟩
  | record fields ih =>
    rw [mapIdentifiers_record, mapIdentifiers_record]
    congr 1
    apply Entries.map_congr
    intro value mem
    refine ih value mem fun text kind occurs => agree text kind ?_
    rw [occurrences_record]
    exact List.mem_flatMap.2 ⟨value, mem, occurs⟩

/-- The identifiers that occur in a renamed tree are the images that are identifiers. -/
theorem occurrences_mapIdentifiers (tree : Tree) : (tree.mapIdentifiers f).occurrences =
    tree.occurrences.filterMap fun (text, kind) =>
      (IdKind.of? (f kind text)).map (f kind text, ·) := by
  induction tree with
  | identifier text kind known =>
    rw [mapIdentifiers_str f known, occurrences_str known, occurrences_eq_toList]
    cases new : IdKind.of? (f kind text) <;> simp [new]
  | plain value plain =>
    rw [mapIdentifiers_plain f plain, occurrences_plain plain, List.filterMap_nil]
  | sequence items ih =>
    rw [mapIdentifiers_sequence, occurrences_sequence, occurrences_sequence, List.flatMap_map,
      List.filterMap_flatMap]
    exact List.flatMap_congr ih
  | record fields ih =>
    rw [mapIdentifiers_record, occurrences_record, occurrences_record, Entries.values_map,
      List.flatMap_map, List.filterMap_flatMap]
    exact List.flatMap_congr ih

/-- The image of a text under a function of kinds and texts. What is no identifier stays. -/
def byKind (text : String) : String :=
  match IdKind.of? text with
  | some kind => f kind text
  | none => text

theorem byKind_of_known {text : String} {kind : IdKind} (known : IdKind.of? text = some kind) :
    byKind f text = f kind text := by
  rw [byKind, known]

theorem mapIdentifiers_eq_byKind (text : String) :
    (str text).mapIdentifiers f = str (byKind f text) := by
  cases known : IdKind.of? text with
  | none =>
    rw [byKind, known]
    exact mapIdentifiers_plain f known
  | some kind => rw [byKind_of_known f known, mapIdentifiers_str f known]

/-- Renaming twice is renaming once. -/
theorem mapIdentifiers_mapIdentifiers (g : IdKind → String → String) (tree : Tree) :
    (tree.mapIdentifiers f).mapIdentifiers g =
      tree.mapIdentifiers fun kind text => byKind g (f kind text) := by
  induction tree with
  | identifier text kind known =>
    rw [mapIdentifiers_str f known, mapIdentifiers_eq_byKind, mapIdentifiers_str _ known]
  | plain value plain => simp only [mapIdentifiers_plain _ plain]
  | sequence items ih =>
    simp only [mapIdentifiers_sequence, List.map_map]
    congr 1
    exact List.map_congr_left ih
  | record fields ih =>
    simp only [mapIdentifiers_record, Entries.map_map]
    congr 1
    exact Entries.map_congr ih

theorem shape_mapIdentifiers (tree : Tree) : (tree.mapIdentifiers f).shape = tree.shape := by
  induction tree with
  | identifier text kind known => rw [mapIdentifiers_str f known]; rfl
  | plain value plain => rw [mapIdentifiers_plain f plain]
  | sequence items _ => rw [mapIdentifiers_sequence]; rfl
  | record fields _ => rw [mapIdentifiers_record]; rfl

end

section
variable {image next : String → String}

theorem rename_str {text : String} {kind : IdKind} (known : IdKind.of? text = some kind) :
    (str text).rename image = str (image text) :=
  mapIdentifiers_str _ known

theorem rename_plain {value : Scalar} (plain : value.idKind? = none) :
    (scalar value).rename image = scalar value :=
  mapIdentifiers_plain _ plain

theorem rename_sequence (items : List Tree) :
    (sequence items).rename image = sequence (items.map (rename image)) :=
  mapIdentifiers_sequence _ items

theorem rename_record (fields : Dict Tree) :
    (record fields).rename image = record (fields.map (rename image)) :=
  mapIdentifiers_record _ fields

theorem shape_rename (image : String → String) (tree : Tree) :
    (tree.rename image).shape = tree.shape :=
  shape_mapIdentifiers _ tree

theorem items?_rename (image : String → String) (tree : Tree) :
    (tree.rename image).items? = tree.items?.map (List.map (rename image)) := by
  induction tree with
  | identifier text kind known =>
    rw [rename_str known]
    rfl
  | plain value plain =>
    rw [rename_plain plain]
    rfl
  | sequence items _ =>
    rw [rename_sequence]
    rfl
  | record fields _ =>
    rw [rename_record]
    rfl

theorem get?_rename (image : String → String) (tree : Tree) (name : String) :
    (tree.rename image).get? name = (tree.get? name).map (rename image) := by
  induction tree with
  | identifier text kind known =>
    rw [rename_str known]
    rfl
  | plain value plain =>
    rw [rename_plain plain]
    rfl
  | sequence items _ =>
    rw [rename_sequence]
    rfl
  | record fields _ =>
    rw [rename_record]
    exact Entries.get?_map _ fields name

/-- Replaces a text by its image if it is an identifier. -/
def renameText (image : String → String) (text : String) : String :=
  if (IdKind.of? text).isSome then image text else text

theorem str?_rename (image : String → String) (tree : Tree) :
    (tree.rename image).str? = tree.str?.map (renameText image) := by
  induction tree with
  | identifier text kind known =>
    have replaced : renameText image text = image text := by simp [renameText, known]
    rw [rename_str known]
    exact congrArg some replaced.symm
  | plain value plain =>
    rw [rename_plain plain]
    cases value with
    | str text =>
      have none : IdKind.of? text = none := plain
      have kept : renameText image text = text := by simp [renameText, none]
      exact congrArg some kept.symm
    | null | bool _ | integer _ | float _ => rfl
  | sequence items _ =>
    rw [rename_sequence]
    rfl
  | record fields _ =>
    rw [rename_record]
    rfl

theorem rename_congr {tree : Tree} (agree : ∀ text, tree.Mentions text → image text = next text) :
    tree.rename image = tree.rename next :=
  mapIdentifiers_congr fun text kind occurs => agree text ⟨kind, occurs⟩

/-- The identifiers of the tree are replaced by identifiers of the same kinds. -/
def KeepsKinds (tree : Tree) (image : String → String) : Prop :=
  ∀ text, tree.Mentions text → IdKind.of? (image text) = IdKind.of? text

/-- Renamed trees have the plain scalars of the tree and no others. -/
theorem rename_eq_scalar_iff {tree : Tree} (keeps : tree.KeepsKinds image) {value : Scalar}
    (plain : value.idKind? = none) : tree.rename image = scalar value ↔ tree = scalar value := by
  induction tree with
  | identifier text kind known =>
    have known' : IdKind.of? (image text) = some kind :=
      (keeps text ((mentions_str known).2 rfl)).trans known
    rw [rename_str known]
    constructor
    · rintro ⟨⟩
      exact nomatch plain.symm.trans known'
    · rintro ⟨⟩
      exact nomatch plain.symm.trans known
  | plain other plain' => rw [rename_plain plain']
  | sequence items _ =>
    rw [rename_sequence]
    exact ⟨nofun, nofun⟩
  | record fields _ =>
    rw [rename_record]
    exact ⟨nofun, nofun⟩

theorem kind_rename {tree : Tree} (keeps : tree.KeepsKinds image) :
    (tree.rename image).str?.bind IdKind.of? = tree.str?.bind IdKind.of? := by
  induction tree with
  | identifier text kind known =>
    rw [rename_str known]
    exact keeps text ((mentions_str known).2 rfl)
  | plain value plain => rw [rename_plain plain]
  | sequence items _ =>
    rw [rename_sequence]
    rfl
  | record fields _ =>
    rw [rename_record]
    rfl

theorem rename_rename {tree : Tree} (keeps : tree.KeepsKinds image) :
    (tree.rename image).rename next = tree.rename (next ∘ image) := by
  rw [rename, rename, mapIdentifiers_mapIdentifiers]
  apply mapIdentifiers_congr
  intro text kind occurs
  have known : IdKind.of? (image text) = some kind :=
    (keeps text ⟨kind, occurs⟩).trans (kind_of_occurs occurs)
  exact byKind_of_known _ known

theorem rename_eq_self {tree : Tree} (fixed : ∀ text, tree.Mentions text → image text = text) :
    tree.rename image = tree := by
  induction tree with
  | identifier text kind known => rw [rename_str known, fixed text ((mentions_str known).2 rfl)]
  | plain value plain => exact rename_plain plain
  | sequence items ih =>
    rw [rename_sequence]
    congr 1
    refine (List.map_congr_left fun item mem => ?_).trans (List.map_id items)
    exact ih item mem fun text mentions => fixed text (mentions_sequence.2 ⟨item, mem, mentions⟩)
  | record fields ih =>
    rw [rename_record]
    congr 1
    apply Entries.map_eq_self
    intro value mem
    exact ih value mem fun text mentions => fixed text (mentions_record.2 ⟨value, mem, mentions⟩)

theorem mentions_mapIdentifiers {f : IdKind → String → String} {tree : Tree} {text : String} :
    (tree.mapIdentifiers f).Mentions text ↔
      (IdKind.of? text).isSome ∧ ∃ source, tree.Mentions source ∧ byKind f source = text := by
  simp only [Mentions, occurrences_mapIdentifiers, List.mem_filterMap, Option.map_eq_some_iff]
  constructor
  · rintro ⟨kind, ⟨source, sourceKind⟩, occurs, _, known, same⟩
    cases same
    exact ⟨by rw [known, Option.isSome_some], source, ⟨sourceKind, occurs⟩,
      byKind_of_known f (kind_of_occurs occurs)⟩
  · rintro ⟨known, source, ⟨kind, occurs⟩, rfl⟩
    obtain ⟨found, known⟩ := Option.isSome_iff_exists.1 known
    rw [byKind_of_known f (kind_of_occurs occurs)] at known ⊢
    exact ⟨found, _, occurs, found, known, rfl⟩

theorem mentions_rename {tree : Tree} (keeps : tree.KeepsKinds image) {text : String} :
    (tree.rename image).Mentions text ↔ ∃ source, tree.Mentions source ∧ image source = text := by
  have images {source : String} (mentions : tree.Mentions source) :
      byKind (fun _ => image) source = image source := by
    obtain ⟨kind, known⟩ := mentions.kind
    exact byKind_of_known _ known
  rw [rename, mentions_mapIdentifiers]
  constructor
  · rintro ⟨_, source, mentions, same⟩
    exact ⟨source, mentions, (images mentions).symm.trans same⟩
  · rintro ⟨source, mentions, rfl⟩
    obtain ⟨kind, known⟩ := mentions.kind
    refine ⟨?_, source, mentions, images mentions⟩
    rw [keeps source mentions, known, Option.isSome_some]

end

end Tree

end QueryIso
