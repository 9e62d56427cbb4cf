import QueryIso.Json.Standard
import QueryIso.Proofs.Json.Texts

/-!
# A codec that does what is asked of it

`Json.Codec.lawful_standard`: the codec writes each type of data so that it is told from the others,
rounds as it should, and reads back the documents that it writes.
-/

namespace QueryIso

namespace Json

namespace Numeral

theorem exists_ofFloat? {value : Binary64} (finite : value.isFinite) :
    ∃ numeral, ofFloat? value = some numeral ∧ numeral.Denotes value := by
  have ends : Ends [] := nofun
  obtain ⟨numeral, reads, denotes⟩ := number_chars .json finite ends
  rw [List.append_nil] at reads
  refine ⟨numeral, ?_, denotes⟩
  rw [ofFloat?, reads, Option.map_some]

theorem toDatum?_unsigned {numeral : Numeral} {value : UInt64}
    (integer : numeral.integer? = some ↑value.toNat) :
    numeral.toDatum? = some (.unsigned value) := by
  have bound := value.toNat_lt
  have within : 0 ≤ (value.toNat : Int) ∧ (value.toNat : Int) < 0x10000000000000000 := by omega
  rw [toDatum?, integer]
  dsimp only
  rw [if_pos within, Int.toNat_natCast, UInt64.ofNat_toNat]

theorem toDatum?_signed {numeral : Numeral} {value : Int64}
    (integer : numeral.integer? = some value.toInt) (below : value.toInt < 0) :
    numeral.toDatum? = some (.signed value) := by
  have within : -0x8000000000000000 ≤ value.toInt ∧ value.toInt < 0 := ⟨value.le_toInt, below⟩
  rw [toDatum?, integer]
  dsimp only
  rw [if_neg (by omega), if_pos within, Int64.ofInt_toInt]

theorem toDatum?_rounded {numeral : Numeral}
    (outside : ∀ value, numeral.integer? = some value →
      value < -0x8000000000000000 ∨ 0x10000000000000000 ≤ value) :
    numeral.toDatum? = numeral.nearest?.map .float := by
  have rounded : Binary64.ofDecimal? numeral.negative numeral.size = numeral.nearest? := by
    rw [Binary64.ofDecimal?_eq, nearest?]
  rw [toDatum?, rounded]
  cases integer : numeral.integer? with
  | none => rfl
  | some value =>
    have := outside value integer
    dsimp only
    rw [if_neg (by omega), if_neg (by omega)]

end Numeral

namespace Document

theorem ofDatum?_seq (items : List Datum) :
    ofDatum? (.seq items) = (items.mapM ofDatum?).map .array := by
  have listed : ofItems? items = items.mapM ofDatum? := by
    induction items with
    | nil => rfl
    | cons item items ih => rw [ofItems?, ih, List.mapM_cons]
  rw [ofDatum?, listed]

theorem ofDatum?_map (fields : List (String × Datum)) :
    ofDatum? (.map (fields.map fun field => (.str field.1, field.2))) =
      (fields.mapM fun field => (ofDatum? field.2).map (field.1, ·)).map .object := by
  have listed : ofEntries? (fields.map fun field => (.str field.1, field.2)) =
      fields.mapM fun field => (ofDatum? field.2).map (field.1, ·) := by
    induction fields with
    | nil => rfl
    | cons field fields ih =>
      rw [List.map_cons, ofEntries?, ih, List.mapM_cons]
      cases ofDatum? field.2 <;> rfl
  rw [ofDatum?, listed]

theorem toDatum?_array (items : List Document) :
    toDatum? (.array items) = (items.mapM toDatum?).map .seq := by
  have listed : itemsToData? items = items.mapM toDatum? := by
    induction items with
    | nil => rfl
    | cons item items ih => rw [itemsToData?, ih, List.mapM_cons]
  rw [toDatum?, listed]

theorem toDatum?_object (members : List (String × Document)) :
    toDatum? (.object members) =
      (members.mapM fun member => (toDatum? member.2).map (.str member.1, ·)).map .map := by
  have listed : membersToData? members =
      members.mapM fun member => (toDatum? member.2).map (.str member.1, ·) := by
    induction members with
    | nil => rfl
    | cons member members ih =>
      rw [membersToData?, ih, List.mapM_cons]
      cases toDatum? member.2 <;> rfl
  rw [toDatum?, listed]

end Document

/-- The codec does what is asked of it. -/
theorem Codec.lawful_standard : standard.Lawful where
  encode_unit := rfl
  encode_bool := fun _ => rfl
  encode_signed := fun _ => rfl
  encode_finite := by
    intro value finite
    obtain ⟨numeral, written, denotes⟩ := Numeral.exists_ofFloat? finite
    refine ⟨numeral, ?_, denotes⟩
    change Document.ofDatum? (.float value) = _
    rw [Document.ofDatum?, if_pos finite, written, Option.map_some]
  encode_nonfinite := by
    intro value infinite
    exact if_neg infinite
  encode_str := fun _ => rfl
  encode_seq := Document.ofDatum?_seq
  encode_map := Document.ofDatum?_map
  parse_compact := parse_textIn Spacing.onlyBlanks_compact
  parse_pretty := parse_textIn Spacing.onlyBlanks_pretty
  levels_of_parse := fun _ _ => levels_le_of_parse
  decode_null := rfl
  decode_bool := fun _ => rfl
  decode_unsigned := fun _ _ => Numeral.toDatum?_unsigned
  decode_signed := fun _ _ => Numeral.toDatum?_signed
  decode_rounded := fun _ => Numeral.toDatum?_rounded
  decode_string := fun _ => rfl
  decode_array := Document.toDatum?_array
  decode_object := Document.toDatum?_object

end Json

end QueryIso
