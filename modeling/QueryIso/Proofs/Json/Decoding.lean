import QueryIso.Json.Codec
import QueryIso.Proofs.Binary64.Decimals
import QueryIso.Proofs.Datum
import QueryIso.Proofs.Json.Documents

/-!
# What trees are read from documents

The reader of trees is shown the data of a document. By way of any codec that does what is asked of
it, an array is read as the sequence of what its items are read as, an object as the record of what
its members are read as, and a number by how it is written.

* `Json.tree?_array`, `Json.tree?_object`: what arrays and objects are read as;
* `Json.tree?_ofInt`, `Json.tree?_of_denotes`: what is read from the numbers that trees write;
* `Json.decode_number`: what the reader is shown for any number.
-/

namespace QueryIso

namespace Json

open Datum (Protocol)

/-- The reader of plain text takes texts. -/
def TakesTexts (protocol : Protocol) : Prop :=
  ∀ text, protocol.readText (.str text) = .ok text

/-- The tree that the reader of trees makes of a document. -/
def Codec.tree? (codec : Codec) (protocol : Protocol) (document : Document) : Option Tree :=
  (codec.decode document).bind fun datum => (datum.toTree protocol).toOption

variable {codec : Codec} {protocol : Protocol}

theorem read_eq_ok_iff {text : String} {tree : Tree} :
    codec.read (Datum.toTree protocol) text = .ok tree ↔
      ∃ document, codec.parse text = some document ∧ codec.tree? protocol document = some tree := by
  rw [← Option.bind_eq_some_iff]
  have same : (codec.parse text).bind (codec.tree? protocol) =
      ((codec.parse text).bind codec.decode).bind
        fun datum => (datum.toTree protocol).toOption := by
    rw [Option.bind_assoc]
    rfl
  rw [same, Codec.read]
  cases (codec.parse text).bind codec.decode with
  | none => exact ⟨nofun, nofun⟩
  | some datum =>
    cases read : datum.toTree protocol <;> simp [read, Except.toOption, Except.mapError]

theorem read_of_parse_eq_none {text : String} (refused : codec.parse text = none) :
    codec.read (Datum.toTree protocol) text = .error .malformed := by
  rw [Codec.read, refused]
  rfl

theorem mapM_tree?_items (items : List Document) :
    items.mapM (codec.tree? protocol) =
      (items.mapM codec.decode).bind fun data => (Datum.toItems protocol data).toOption := by
  induction items with
  | nil => rfl
  | cons item items ih =>
    rw [List.mapM_cons, List.mapM_cons, ih, Codec.tree?]
    cases codec.decode item with
    | none => rfl
    | some datum =>
      cases items.mapM codec.decode with
      | none => cases read : datum.toTree protocol <;> simp [read, Except.toOption]
      | some data =>
        simp only [Option.bind_eq_bind, Option.bind_some, Option.pure_def, Datum.toItems]
        cases datum.toTree protocol with
        | error message => rfl
        | ok tree => cases Datum.toItems protocol data <;> rfl

theorem mapM_tree?_members (takes : TakesTexts protocol) (members : List (String × Document)) :
    (members.mapM fun member => (codec.tree? protocol member.2).map (member.1, ·)) =
      (members.mapM fun member => (codec.decode member.2).map (Datum.str member.1, ·)).bind
        fun entries => (Datum.toFields protocol entries).toOption := by
  induction members with
  | nil => rfl
  | cons member members ih =>
    rw [List.mapM_cons, List.mapM_cons, ih, Codec.tree?]
    cases codec.decode member.2 with
    | none => rfl
    | some datum =>
      cases members.mapM fun member => (codec.decode member.2).map (Datum.str member.1, ·) with
      | none => cases read : datum.toTree protocol <;> simp [read, Except.toOption]
      | some entries =>
        simp only [Option.bind_eq_bind, Option.bind_some, Option.pure_def, Option.map_some,
          Datum.toFields, takes member.1]
        cases datum.toTree protocol with
        | error message => rfl
        | ok tree => cases Datum.toFields protocol entries <;> rfl

section
variable (lawful : codec.Lawful)
include lawful

theorem tree?_null : codec.tree? protocol .null = some (.scalar .null) := by
  rw [Codec.tree?, lawful.decode_null]
  rfl

theorem tree?_bool (value : Bool) :
    codec.tree? protocol (.bool value) = some (.scalar (.bool value)) := by
  rw [Codec.tree?, lawful.decode_bool]
  rfl

theorem tree?_string (text : String) : codec.tree? protocol (.string text) = some (.str text) := by
  rw [Codec.tree?, lawful.decode_string]
  rfl

theorem tree?_array (items : List Document) :
    codec.tree? protocol (.array items) = (items.mapM (codec.tree? protocol)).map .sequence := by
  rw [Codec.tree?, lawful.decode_array, mapM_tree?_items]
  cases items.mapM codec.decode with
  | none => rfl
  | some data =>
    simp only [Option.map_some, Option.bind_some, Datum.toTree]
    cases Datum.toItems protocol data <;> rfl

theorem tree?_object (takes : TakesTexts protocol) (members : List (String × Document)) :
    codec.tree? protocol (.object members) =
      (members.mapM fun member => (codec.tree? protocol member.2).map (member.1, ·)).map
        .ofFields := by
  rw [Codec.tree?, lawful.decode_object, mapM_tree?_members takes]
  cases members.mapM fun member => (codec.decode member.2).map (Datum.str member.1, ·) with
  | none => rfl
  | some entries =>
    simp only [Option.map_some, Option.bind_some, Datum.toTree]
    cases Datum.toFields protocol entries <;> rfl

end

/-! ## Numbers -/

theorem toNat_toUInt64 {value : Int64} (nonnegative : 0 ≤ value.toInt) :
    (value.toUInt64.toNat : Int) = value.toInt := by
  have toInt : value.toInt = value.toBitVec.toInt := rfl
  have toNat : value.toUInt64.toNat = value.toBitVec.toNat := rfl
  have bound := value.toBitVec.isLt
  rw [toInt, BitVec.toInt_eq_toNat_cond] at nonnegative ⊢
  split at nonnegative <;> omega

theorem ofUnsigned_toUInt64 {value : Int64} (nonnegative : 0 ≤ value.toInt) :
    Scalar.ofUnsigned value.toUInt64 = .integer value := by
  have small : value.toUInt64 < 0x8000000000000000 := by
    rw [UInt64.lt_iff_toNat_lt]
    exact Int.ofNat_lt.1 (toNat_toUInt64 nonnegative ▸ value.toInt_lt)
  simp [Scalar.ofUnsigned, small]

theorem isFinite_of_ofUnsigned {n : UInt64} {x : Binary64}
    (read : Scalar.ofUnsigned n = .float x) : x.isFinite := by
  unfold Scalar.ofUnsigned at read
  split at read
  · cases read
  · cases read
    exact Binary64.isFinite_ofNat n.toNat_lt

theorem isFinite_of_nearest? {numeral : Numeral} {x : Binary64}
    (read : numeral.nearest? = some x) : x.isFinite := by
  unfold Numeral.nearest? at read
  split at read
  · cases read
    exact Binary64.isFinite_ofMagnitude _ ‹_›
  · cases read

section
variable (lawful : codec.Lawful)
include lawful

/-- An integer is read as that integer. -/
theorem tree?_ofInt (value : Int64) :
    codec.tree? protocol (.number (.ofInt value.toInt)) = some (.scalar (.integer value)) := by
  have integer := Numeral.integer?_ofInt value.toInt
  rcases Int.lt_or_le value.toInt 0 with below | above
  · rw [Codec.tree?, lawful.decode_signed _ value integer below]
    rfl
  · rw [← toNat_toUInt64 above] at integer ⊢
    rw [Codec.tree?, lawful.decode_unsigned _ _ integer, ← ofUnsigned_toUInt64 above]
    rfl

/-- A floating point value is read as that value, with its sign and all its bits. -/
theorem tree?_of_denotes {numeral : Numeral} {value : Binary64} (denotes : numeral.Denotes value)
    (finite : value.isFinite) :
    codec.tree? protocol (.number numeral) = some (.scalar (.float value)) := by
  have outside : ∀ integer, numeral.integer? = some integer →
      integer < -0x8000000000000000 ∨ 0x10000000000000000 ≤ integer := by
    rw [Numeral.integer?_of_isMarked denotes.marked]
    exact nofun
  have below : numeral.size.nearest < Binary64.infinity := by
    rw [denotes.size]
    exact of_decide_eq_true finite
  rw [Codec.tree?, lawful.decode_rounded numeral outside, Numeral.nearest?, if_pos below,
    denotes.size, denotes.sign, Binary64.ofMagnitude_magnitude]
  rfl

/-- A number is shown as an integer, or rounded to a floating point value. -/
theorem decode_number (numeral : Numeral) :
    (∃ value, codec.decode (.number numeral) = some (.unsigned value)) ∨
      (∃ value, codec.decode (.number numeral) = some (.signed value)) ∨
      codec.decode (.number numeral) = numeral.nearest?.map .float := by
  by_cases outside : ∀ value, numeral.integer? = some value →
      value < -0x8000000000000000 ∨ 0x10000000000000000 ≤ value
  · exact .inr (.inr (lawful.decode_rounded numeral outside))
  · push Not at outside
    obtain ⟨value, integer, least, most⟩ := outside
    rcases Int.lt_or_le value 0 with below | above
    · have same : (Int64.ofInt value).toInt = value :=
        Int64.toInt_ofInt_of_le (by omega) (by omega)
      exact .inr (.inl ⟨_, lawful.decode_signed numeral (.ofInt value)
        (integer.trans (congrArg some same.symm)) (same.trans_lt below)⟩)
    · have bound : value.toNat < UInt64.size := by
        change value.toNat < 2 ^ 64
        omega
      have same : ((UInt64.ofNat value.toNat).toNat : Int) = value := by
        rw [UInt64.toNat_ofNat_of_lt' bound]
        omega
      exact .inl ⟨_, lawful.decode_unsigned numeral _ (integer.trans (congrArg some same.symm))⟩

end

end Json

end QueryIso
