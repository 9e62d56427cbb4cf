import QueryIso.Datum
import QueryIso.Json.Document

/-!
# Writing and reading JSON

A `Codec` writes data as JSON texts and reads them back. It knows nothing of trees: a tree is
written by way of its data, and read by the reader of trees, which is shown the data of the text.
`Codec.Lawful` lists what is asked of a codec.
-/

namespace QueryIso

namespace Json

/-- A writer and a reader of JSON. -/
structure Codec where
  /-- The document that is written for a datum. -/
  encode : Datum → Option Document
  /-- The text of a document, on one line. -/
  compact : Document → String
  /-- The text of a document, indented. -/
  pretty : Document → String
  /-- The document of a text. -/
  parse : String → Option Document
  /-- The datum that a reader is shown for a document. -/
  decode : Document → Option Datum

/-- Why a text was not read. -/
inductive ReadError
  | malformed
  /-- The reader refused the data of the text with this message. -/
  | refused (message : String)
  deriving DecidableEq

namespace Codec

/-- The text of a tree, on one line. -/
def compactText (codec : Codec) (tree : Tree) : Option String :=
  (codec.encode tree.toDatum).map codec.compact

/-- The text of a tree, indented. -/
def prettyText (codec : Codec) (tree : Tree) : Option String :=
  (codec.encode tree.toDatum).map codec.pretty

/-- Hands the data of a text to a reader. -/
def read {α : Type} (codec : Codec) (reader : Datum → Except String α) (text : String) :
    Except ReadError α :=
  match (codec.parse text).bind codec.decode with
  | some datum => (reader datum).mapError .refused
  | none => .error .malformed

/-- What is asked of a codec. Each type of data has documents of its own, floating point values are
written so that they do not look like integers and with digits that are nearest to them, and read
as the value nearest to their digits. The texts of a document say what the document says, and no
text is read that opens more than 127 arrays and objects at once. -/
structure Lawful (codec : Codec) : Prop where
  encode_unit : codec.encode .unit = some .null
  encode_bool (value : Bool) : codec.encode (.bool value) = some (.bool value)
  encode_signed (value : Int64) :
    codec.encode (.signed value) = some (.number (.ofInt value.toInt))
  encode_finite (value : Binary64) : value.isFinite →
    ∃ numeral : Numeral, codec.encode (.float value) = some (.number numeral) ∧
      numeral.Denotes value
  encode_nonfinite (value : Binary64) : ¬ value.isFinite →
    codec.encode (.float value) = some .null
  encode_str (text : String) : codec.encode (.str text) = some (.string text)
  encode_seq (items : List Datum) :
    codec.encode (.seq items) = (items.mapM codec.encode).map .array
  encode_map (fields : List (String × Datum)) :
    codec.encode (.map (fields.map fun field => (.str field.1, field.2))) =
      (fields.mapM fun field => (codec.encode field.2).map (field.1, ·)).map .object
  parse_compact (document : Document) :
    codec.parse (codec.compact document) = if document.levels ≤ 127 then some document else none
  parse_pretty (document : Document) :
    codec.parse (codec.pretty document) = if document.levels ≤ 127 then some document else none
  levels_of_parse (text : String) (document : Document) :
    codec.parse text = some document → document.levels ≤ 127
  decode_null : codec.decode .null = some .unit
  decode_bool (value : Bool) : codec.decode (.bool value) = some (.bool value)
  decode_unsigned (numeral : Numeral) (value : UInt64) : numeral.integer? = some ↑value.toNat →
    codec.decode (.number numeral) = some (.unsigned value)
  decode_signed (numeral : Numeral) (value : Int64) : numeral.integer? = some value.toInt →
    value.toInt < 0 → codec.decode (.number numeral) = some (.signed value)
  decode_rounded (numeral : Numeral) :
    (∀ value, numeral.integer? = some value →
      value < -0x8000000000000000 ∨ 0x10000000000000000 ≤ value) →
      codec.decode (.number numeral) = numeral.nearest?.map .float
  decode_string (text : String) : codec.decode (.string text) = some (.str text)
  decode_array (items : List Document) :
    codec.decode (.array items) = (items.mapM codec.decode).map .seq
  decode_object (members : List (String × Document)) :
    codec.decode (.object members) =
      (members.mapM fun member => (codec.decode member.2).map (.str member.1, ·)).map .map

end Codec

end Json

end QueryIso
