import QueryIso.Proofs.Json.Decoding
import QueryIso.Proofs.Json.Standard
import QueryIso.Proofs.Trees

/-!
# Writing a tree as JSON and reading it back

A tree is written by way of its data, and the reader of trees is shown the data of the text. By way
of any codec that does what is asked of it the reader gives back the tree, except that JSON has no
NaN and no infinity: null stands for them. The only other limit is the nesting of a text.

* `Json.exists_carries`: the document of a tree, and what is read from it;
* `Json.readable_of_tree?`: a tree that was read can be written without loss;
* `Tree.json_round_trip`: the text of a tree is read as the tree, and every tree that was read from
  some text is read again from its own.
-/

namespace QueryIso

/-- The scalar, with null in place of a NaN or an infinity. -/
def Scalar.orNull : Scalar → Scalar
  | .float value => if value.isFinite then .float value else .null
  | value => value

namespace Tree

mutual

/-- The number of nested sequences and records, also of empty ones. -/
def levels : Tree → Nat
  | .scalar _ => 0
  | .sequence items => levelsOfItems items + 1
  | .record fields => levelsOfFields fields + 1

/-- The greatest number of levels of an element. -/
def levelsOfItems : List Tree → Nat
  | [] => 0
  | item :: items => max item.levels (levelsOfItems items)

/-- The greatest number of levels of the value of a field. -/
def levelsOfFields {bound : Option String} : Entries Tree bound → Nat
  | .nil => 0
  | .cons _ _ value fields => max value.levels (levelsOfFields fields)

end

mutual

/-- The tree with another scalar in place of each. -/
def mapScalars (f : Scalar → Scalar) : Tree → Tree
  | .scalar value => .scalar (f value)
  | .sequence items => .sequence (mapScalarsOfItems f items)
  | .record fields => .record (mapScalarsOfFields f fields)

/-- The elements with other scalars. -/
def mapScalarsOfItems (f : Scalar → Scalar) : List Tree → List Tree
  | [] => []
  | item :: items => item.mapScalars f :: mapScalarsOfItems f items

/-- The fields with other scalars in their values. -/
def mapScalarsOfFields (f : Scalar → Scalar) {bound : Option String} :
    Entries Tree bound → Entries Tree bound
  | .nil => .nil
  | .cons name above value fields =>
    .cons name above (value.mapScalars f) (mapScalarsOfFields f fields)

end

theorem levelsOfItems_le_iff {items : List Tree} {depth : Nat} :
    levelsOfItems items ≤ depth ↔ ∀ item ∈ items, item.levels ≤ depth := by
  induction items with
  | nil => simp [levelsOfItems]
  | cons item items ih => simp only [levelsOfItems, Nat.max_le, ih, List.forall_mem_cons]

theorem levelsOfFields_eq {bound : Option String} (fields : Entries Tree bound) :
    levelsOfFields fields = levelsOfItems fields.values := by
  induction fields with
  | nil => rfl
  | cons name above value fields ih =>
    rw [levelsOfFields, ih, Entries.values_cons, levelsOfItems]

theorem levels_sequence_le_iff {items : List Tree} {depth : Nat} :
    (sequence items).levels ≤ depth + 1 ↔ ∀ item ∈ items, item.levels ≤ depth := by
  rw [levels, Nat.add_le_add_iff_right, levelsOfItems_le_iff]

theorem levels_record_le_iff {fields : Dict Tree} {depth : Nat} :
    (record fields).levels ≤ depth + 1 ↔ ∀ value ∈ fields.values, value.levels ≤ depth := by
  rw [levels, Nat.add_le_add_iff_right, levelsOfFields_eq, levelsOfItems_le_iff]

theorem mapScalars_sequence (f : Scalar → Scalar) (items : List Tree) :
    (sequence items).mapScalars f = sequence (items.map (mapScalars f)) := by
  have same : mapScalarsOfItems f items = items.map (mapScalars f) := by
    induction items with
    | nil => rfl
    | cons item items ih => rw [mapScalarsOfItems, ih, List.map_cons]
  rw [mapScalars, same]

theorem mapScalarsOfFields_eq (f : Scalar → Scalar) {bound : Option String}
    (fields : Entries Tree bound) : mapScalarsOfFields f fields = fields.map (mapScalars f) := by
  induction fields with
  | nil => rfl
  | cons name above value fields ih => rw [mapScalarsOfFields, ih, Entries.map]

theorem mapScalars_record (f : Scalar → Scalar) (fields : Dict Tree) :
    (record fields).mapScalars f = record (fields.map (mapScalars f)) := by
  rw [mapScalars, mapScalarsOfFields_eq]

theorem ofFields_map (f : Tree → Tree) (fields : Dict Tree) :
    ofFields (fields.toList.map fun field => (field.1, f field.2)) = record (fields.map f) := by
  rw [← Entries.toList_map, ofFields, Dict.ofList_toList]

/-! ## Data -/

theorem toDatum_sequence (items : List Tree) :
    (sequence items).toDatum = .seq (items.map toDatum) := by
  have same : itemsToData items = items.map toDatum := by
    induction items with
    | nil => rfl
    | cons item items ih => rw [itemsToData, ih, List.map_cons]
  rw [toDatum, same]

theorem toDatum_record (fields : Dict Tree) :
    (record fields).toDatum = .map ((fields.toList.map fun field => (field.1, field.2.toDatum)).map
      fun field => (.str field.1, field.2)) := by
  have same {bound : Option String} (fields : Entries Tree bound) :
      fieldsToData fields = fields.toList.map fun field => (.str field.1, field.2.toDatum) := by
    induction fields with
    | nil => rfl
    | cons name above value fields ih => rw [fieldsToData, ih, Entries.toList, List.map_cons]
  rw [toDatum, same, List.map_map]
  rfl

end Tree

namespace Json

open Datum (Protocol)

/-! ## Lists of documents -/

theorem mapM_eq_some_map {α β : Type} {f : α → Option β} {g : α → β} {items : List α}
    (each : ∀ item ∈ items, f item = some (g item)) : items.mapM f = some (items.map g) := by
  induction items with
  | nil => rfl
  | cons item items ih =>
    obtain ⟨first, rest⟩ := List.forall_mem_cons.1 each
    rw [List.mapM_cons, first, ih rest]
    rfl

theorem levelsOfItems_map {document : Tree → Document} {items : List Tree}
    (same : ∀ item ∈ items, (document item).levels = item.levels) :
    Document.levelsOfItems (items.map document) = Tree.levelsOfItems items := by
  induction items with
  | nil => rfl
  | cons item items ih =>
    obtain ⟨first, rest⟩ := List.forall_mem_cons.1 same
    rw [List.map_cons, Document.levelsOfItems, Tree.levelsOfItems, first, ih rest]

theorem exists_of_mapM_eq_some {α β : Type} {f : α → Option β} {items : List α} {values : List β}
    (read : items.mapM f = some values) :
    ∀ value ∈ values, ∃ item ∈ items, f item = some value := by
  induction items generalizing values with
  | nil =>
    cases read
    exact nofun
  | cons item items ih =>
    rw [List.mapM_cons] at read
    obtain ⟨first, here, read⟩ := Option.bind_eq_some_iff.1 read
    obtain ⟨rest, there, read⟩ := Option.bind_eq_some_iff.1 read
    cases read
    rw [List.forall_mem_cons]
    refine ⟨⟨item, List.mem_cons_self, here⟩, fun value mem => ?_⟩
    obtain ⟨item, mem, read⟩ := ih there value mem
    exact ⟨item, List.mem_cons_of_mem _ mem, read⟩

/-! ## What is written -/

section
variable {codec : Codec} {protocol : Protocol} (lawful : codec.Lawful)
include lawful

/-- The document carries the tree: it is written for the tree, is nested like it and is read as
it, with null in place of every NaN and every infinity. -/
structure Carries (codec : Codec) (protocol : Protocol) (document : Document) (tree : Tree) :
    Prop where
  written : codec.encode tree.toDatum = some document
  levels : document.levels = tree.levels
  read : codec.tree? protocol document = some (tree.mapScalars .orNull)

theorem exists_carries_scalar (value : Scalar) :
    ∃ document, Carries codec protocol document (.scalar value) := by
  cases value with
  | null => exact ⟨.null, lawful.encode_unit, rfl, tree?_null lawful⟩
  | bool value => exact ⟨.bool value, lawful.encode_bool value, rfl, tree?_bool lawful value⟩
  | integer value =>
    exact ⟨.number (.ofInt value.toInt), lawful.encode_signed value, rfl, tree?_ofInt lawful value⟩
  | float value =>
    by_cases finite : value.isFinite
    · obtain ⟨numeral, written, denotes⟩ := lawful.encode_finite value finite
      refine ⟨.number numeral, written, rfl, ?_⟩
      rw [tree?_of_denotes lawful denotes finite, Tree.mapScalars, Scalar.orNull, if_pos finite]
    · refine ⟨.null, lawful.encode_nonfinite value finite, rfl, ?_⟩
      rw [tree?_null lawful, Tree.mapScalars, Scalar.orNull, if_neg finite]
  | str text => exact ⟨.string text, lawful.encode_str text, rfl, tree?_string lawful text⟩

theorem carries_sequence {document : Tree → Document} {items : List Tree}
    (each : ∀ item ∈ items, Carries codec protocol (document item) item) :
    Carries codec protocol (.array (items.map document)) (.sequence items) where
  written := by
    have written : (items.map Tree.toDatum).mapM codec.encode = some (items.map document) := by
      rw [List.mapM_map]
      exact mapM_eq_some_map fun item mem => (each item mem).written
    rw [Tree.toDatum_sequence, lawful.encode_seq, written, Option.map_some]
  levels := by
    rw [Document.levels, Tree.levels, levelsOfItems_map fun item mem => (each item mem).levels]
  read := by
    have read : (items.map document).mapM (codec.tree? protocol) =
        some (items.map (Tree.mapScalars .orNull)) := by
      rw [List.mapM_map]
      exact mapM_eq_some_map fun item mem => (each item mem).read
    rw [tree?_array lawful, read, Tree.mapScalars_sequence, Option.map_some]

theorem carries_record (takes : TakesTexts protocol) {document : Tree → Document}
    {fields : Dict Tree}
    (each : ∀ value ∈ fields.values, Carries codec protocol (document value) value) :
    Carries codec protocol
      (.object (fields.toList.map fun field => (field.1, document field.2))) (.record fields) where
  written := by
    have written : (fields.toList.map fun field => (field.1, field.2.toDatum)).mapM
        (fun field => (codec.encode field.2).map (field.1, ·)) =
          some (fields.toList.map fun field => (field.1, document field.2)) := by
      rw [List.mapM_map]
      refine mapM_eq_some_map fun field mem => ?_
      rw [Function.comp_apply, (each field.2 (List.mem_map_of_mem mem)).written, Option.map_some]
    rw [Tree.toDatum_record, lawful.encode_map, written, Option.map_some]
  levels := by
    have levels := levelsOfItems_map fun value mem => (each value mem).levels
    rw [Document.levels, Tree.levels, Tree.levelsOfFields_eq, ← levels, Entries.values,
      Document.levelsOfMembers_eq, List.map_map, List.map_map]
    rfl
  read := by
    have read : (fields.toList.map fun field => (field.1, document field.2)).mapM
        (fun member => (codec.tree? protocol member.2).map (member.1, ·)) =
          some (fields.toList.map fun field => (field.1, field.2.mapScalars .orNull)) := by
      rw [List.mapM_map]
      refine mapM_eq_some_map fun field mem => ?_
      rw [Function.comp_apply, (each field.2 (List.mem_map_of_mem mem)).read, Option.map_some]
    rw [tree?_object lawful takes, read, Option.map_some, Tree.ofFields_map,
      Tree.mapScalars_record]

/-- Some document carries each tree. -/
theorem exists_carries (takes : TakesTexts protocol) (tree : Tree) :
    ∃ document, Carries codec protocol document tree := by
  induction tree with
  | identifier text => exact exists_carries_scalar lawful _
  | plain value => exact exists_carries_scalar lawful value
  | sequence items ih =>
    choose! document each using ih
    exact ⟨_, carries_sequence lawful each⟩
  | record fields ih =>
    choose! document each using ih
    exact ⟨_, carries_record lawful takes each⟩

/-! ## What is read -/

/-- No number is read as a NaN or an infinity. -/
theorem orNull_of_tree?_number {numeral : Numeral} {tree : Tree}
    (read : codec.tree? protocol (.number numeral) = some tree) :
    ∃ value : Scalar, tree = .scalar value ∧ value.orNull = value := by
  have finite {x : Binary64} (finite : x.isFinite) :
      (Scalar.float x).orNull = .float x := by
    rw [Scalar.orNull, if_pos finite]
  rcases decode_number lawful numeral with ⟨value, shown⟩ | ⟨value, shown⟩ | shown
  · rw [Codec.tree?, shown] at read
    cases read
    refine ⟨_, rfl, ?_⟩
    cases made : Scalar.ofUnsigned value with
    | float x => exact finite (isFinite_of_ofUnsigned made)
    | null | bool _ | integer _ | str _ => rfl
  · rw [Codec.tree?, shown] at read
    cases read
    exact ⟨_, rfl, rfl⟩
  · rw [Codec.tree?, shown] at read
    obtain ⟨datum, shown, read⟩ := Option.bind_eq_some_iff.1 read
    obtain ⟨x, nearest, rfl⟩ := Option.map_eq_some_iff.1 shown
    cases read
    exact ⟨_, rfl, finite (isFinite_of_nearest? nearest)⟩

/-- The tree can be written without loss, and its text opens at most so many brackets at once. -/
def Readable (depth : Nat) (tree : Tree) : Prop :=
  tree.levels ≤ depth ∧ tree.mapScalars .orNull = tree

omit lawful in
theorem readable_sequence {depth : Nat} {items : List Tree}
    (readable : ∀ item ∈ items, Readable depth item) : Readable (depth + 1) (.sequence items) := by
  refine ⟨Tree.levels_sequence_le_iff.2 fun item mem => (readable item mem).1, ?_⟩
  rw [Tree.mapScalars_sequence, List.map_congr_left fun item mem => (readable item mem).2,
    List.map_id']

omit lawful in
theorem readable_ofFields {depth : Nat} {fields : List (String × Tree)}
    (readable : ∀ field ∈ fields, Readable depth field.2) :
    Readable (depth + 1) (.ofFields fields) := by
  have readable (tree : Tree) (mem : tree ∈ (Dict.ofList fields).values) : Readable depth tree := by
    obtain ⟨name, get⟩ := Entries.mem_values_iff.1 mem
    exact readable _ (Dict.mem_of_get?_ofList get)
  refine ⟨Tree.levels_record_le_iff.2 fun tree mem => (readable tree mem).1, ?_⟩
  rw [Tree.ofFields, Tree.mapScalars_record,
    Entries.map_eq_self fun tree mem => (readable tree mem).2]

/-- What was read can be written without loss, and is not nested deeper than what it was read
from. -/
theorem readable_of_tree? (takes : TakesTexts protocol) {document : Document} {tree : Tree}
    {depth : Nat} (shallow : document.levels ≤ depth)
    (read : codec.tree? protocol document = some tree) : Readable depth tree := by
  induction document generalizing tree depth with
  | null =>
    cases (tree?_null lawful).symm.trans read
    exact ⟨Nat.zero_le depth, rfl⟩
  | bool value =>
    cases (tree?_bool lawful value).symm.trans read
    exact ⟨Nat.zero_le depth, rfl⟩
  | string text =>
    cases (tree?_string lawful text).symm.trans read
    exact ⟨Nat.zero_le depth, rfl⟩
  | number numeral =>
    obtain ⟨value, rfl, kept⟩ := orNull_of_tree?_number lawful read
    exact ⟨Nat.zero_le depth, congrArg Tree.scalar kept⟩
  | array items ih =>
    rw [tree?_array lawful] at read
    obtain ⟨trees, listed, rfl⟩ := Option.map_eq_some_iff.1 read
    cases depth with
    | zero => cases shallow
    | succ depth =>
      refine readable_sequence fun tree mem => ?_
      obtain ⟨item, given, read⟩ := exists_of_mapM_eq_some listed tree mem
      exact ih item given (Document.levels_array_le_iff.1 shallow item given) read
  | object members ih =>
    rw [tree?_object lawful takes] at read
    obtain ⟨fields, listed, rfl⟩ := Option.map_eq_some_iff.1 read
    cases depth with
    | zero => cases shallow
    | succ depth =>
      refine readable_ofFields fun field mem => ?_
      obtain ⟨member, given, read⟩ := exists_of_mapM_eq_some listed field mem
      obtain ⟨tree, read', rfl⟩ := Option.map_eq_some_iff.1 read
      exact ih member given (Document.levels_object_le_iff.1 shallow member given) read'

end

end Json

namespace Tree

open Json (Codec TakesTexts)

/-- **JSON round trip.** Either text of a tree of at most 127 levels is read as the tree, with null
in place of every NaN and every infinity and nothing else changed; the texts of other trees are
refused. A tree that was read from any text at all is read again from both of its own. -/
theorem json_round_trip {codec : Codec} {protocol : Datum.Protocol} (lawful : codec.Lawful)
    (takes : TakesTexts protocol) (tree : Tree) :
    ∃ compact pretty, codec.compactText tree = some compact ∧
      codec.prettyText tree = some pretty ∧
      (tree.levels ≤ 127 →
        codec.read (Datum.toTree protocol) compact = .ok (tree.mapScalars .orNull) ∧
        codec.read (Datum.toTree protocol) pretty = .ok (tree.mapScalars .orNull)) ∧
      (128 ≤ tree.levels →
        codec.read (Datum.toTree protocol) compact = .error .malformed ∧
        codec.read (Datum.toTree protocol) pretty = .error .malformed) ∧
      ∀ text, codec.read (Datum.toTree protocol) text = .ok tree →
        codec.read (Datum.toTree protocol) compact = .ok tree ∧
        codec.read (Datum.toTree protocol) pretty = .ok tree := by
  obtain ⟨document, carries⟩ := Json.exists_carries lawful takes tree
  have compact := lawful.parse_compact document
  have pretty := lawful.parse_pretty document
  rw [carries.levels] at compact pretty
  have again (shallow : tree.levels ≤ 127) :
      codec.read (Datum.toTree protocol) (codec.compact document) =
          .ok (tree.mapScalars .orNull) ∧
        codec.read (Datum.toTree protocol) (codec.pretty document) =
          .ok (tree.mapScalars .orNull) := by
    rw [if_pos shallow] at compact pretty
    exact ⟨Json.read_eq_ok_iff.2 ⟨document, compact, carries.read⟩,
      Json.read_eq_ok_iff.2 ⟨document, pretty, carries.read⟩⟩
  refine ⟨codec.compact document, codec.pretty document, ?_, ?_, again, fun deep => ?_,
    fun text read => ?_⟩
  · rw [Codec.compactText, carries.written, Option.map_some]
  · rw [Codec.prettyText, carries.written, Option.map_some]
  · rw [if_neg (Nat.not_le_of_gt deep)] at compact pretty
    exact ⟨Json.read_of_parse_eq_none compact, Json.read_of_parse_eq_none pretty⟩
  · obtain ⟨source, parsed, read⟩ := Json.read_eq_ok_iff.1 read
    obtain ⟨shallow, kept⟩ :=
      Json.readable_of_tree? lawful takes (lawful.levels_of_parse text source parsed) read
    have again := again shallow
    rw [kept] at again
    exact again

/-- A sequence within a sequence, and so on. -/
def wrapped : Nat → Tree
  | 0 => .scalar .null
  | levels + 1 => .sequence [wrapped levels]

theorem levels_wrapped (levels : Nat) : (wrapped levels).levels = levels := by
  induction levels with
  | zero => rfl
  | succ levels ih =>
    rw [wrapped, Tree.levels, levelsOfItems, levelsOfItems, ih, Nat.max_zero]

/-- The least integer beside a scalar, minus zero and one as floating point values, under names that
have to be escaped. -/
def unusual (first : Scalar) : Tree :=
  .ofFields [("\"\\", .sequence [.scalar first, .scalar (.float ⟨0x8000000000000000⟩),
    .scalar (.float ⟨0x3FF0000000000000⟩)]), ("\x01", .sequence []),
    ("n", .scalar (.integer (-9223372036854775808)))]

/-- A string, 2 to the power of 64 and minus zero. -/
def rounded : Tree :=
  .ofFields [("a", .sequence [.str "\xe9", .scalar (.float ⟨0x43F0000000000000⟩),
    .scalar (.float ⟨0x8000000000000000⟩)])]

/-- A text with blanks, a repeated name, an escape, an integer above the signed range and another
minus zero. -/
def roundedText : String :=
  " \x7b\"a\": 1,\t\"a\" : [\"\\u00e9\",18446744073709551615, -0]\x7d\n"

/-- A NaN among other values, a tree that is nested too deeply, and a tree that was read from a text
unlike its own. -/
theorem json_round_trip_unusual :
    Codec.standard.Lawful ∧ TakesTexts .standard ∧
      (unusual (.float ⟨0x7FF8000000000000⟩)).levels ≤ 127 ∧
      (∃ pretty, Codec.standard.prettyText (unusual (.float ⟨0x7FF8000000000000⟩)) = some pretty ∧
        Codec.standard.read (Datum.toTree .standard) pretty = .ok (unusual .null)) ∧
      128 ≤ (wrapped 128).levels ∧
      (∃ compact, Codec.standard.compactText (wrapped 128) = some compact ∧
        Codec.standard.read (Datum.toTree .standard) compact = .error .malformed) ∧
      Codec.standard.read (Datum.toTree .standard) roundedText = .ok rounded ∧
      ∃ compact, Codec.standard.compactText rounded = some compact ∧ compact ≠ roundedText ∧
        Codec.standard.read (Datum.toTree .standard) compact = .ok rounded := by
  have lawful := Codec.lawful_standard
  have takes : TakesTexts .standard := fun _ => rfl
  have shallow : (unusual (.float ⟨0x7FF8000000000000⟩)).levels ≤ 127 := by decide
  have replaced : (unusual (.float ⟨0x7FF8000000000000⟩)).mapScalars .orNull = unusual .null := by
    decide
  have deep : 128 ≤ (wrapped 128).levels := Nat.le_of_eq (levels_wrapped 128).symm
  have read : Codec.standard.read (Datum.toTree .standard) roundedText = .ok rounded := by
    decide +kernel
  have written : Codec.standard.compactText rounded =
      some "\x7b\"a\":[\"\xe9\",1.8446744073709552e+19,-0.0]\x7d" := by
    decide +kernel
  obtain ⟨_, pretty, _, isPretty, again, _⟩ :=
    json_round_trip lawful takes (unusual (.float ⟨0x7FF8000000000000⟩))
  obtain ⟨compact, _, isCompact, _, _, refused, _⟩ := json_round_trip lawful takes (wrapped 128)
  obtain ⟨own, _, isOwn, _, _, _, reread⟩ := json_round_trip lawful takes rounded
  have other : own ≠ roundedText := by
    cases isOwn.symm.trans written
    decide
  exact ⟨lawful, takes, shallow, ⟨pretty, isPretty, replaced ▸ (again shallow).2⟩, deep,
    ⟨compact, isCompact, (refused deep).1⟩, read, own, isOwn, other, (reread roundedText read).1⟩

end Tree

end QueryIso
