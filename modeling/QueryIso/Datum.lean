import QueryIso.Tree

/-!
# Self-describing data

A `Datum` is a piece of data that says of which type it is, as a format hands it over. It is read as
a tree or as a scalar. A reader is a `Visitor`: it has an answer for each type that it takes and
refuses all others, and the first refused datum from left to right, the name of a field before its
value, is the error. What readers share with every other reader of such data is a `Protocol`.

A tree is handed over as data too, each scalar by its own type.
-/

namespace QueryIso

/-- A piece of data with its type. -/
inductive Datum
  /-- The value of a type with a single one. -/
  | unit
  /-- An optional value that is missing. -/
  | absent
  /-- An optional value that is there. -/
  | present (datum : Datum)
  /-- A value within a type of its own. -/
  | wrapped (datum : Datum)
  | bool (value : Bool)
  /-- An integer of a signed type with up to 64 bits. -/
  | signed (value : Int64)
  /-- An integer of an unsigned type with up to 64 bits. -/
  | unsigned (value : UInt64)
  /-- An integer of a signed type with 128 bits. -/
  | wideSigned (value : Int)
  /-- An integer of an unsigned type with 128 bits. -/
  | wideUnsigned (value : Nat)
  | float (value : Binary64)
  /-- A text of one character. -/
  | char (text : String)
  /-- A text that is lent to the reader. -/
  | str (text : String)
  /-- A text that is given to the reader. -/
  | string (text : String)
  /-- Bytes that are the text in UTF-8. -/
  | bytes (text : String)
  /-- Bytes that are no text in UTF-8. -/
  | rawBytes
  | seq (items : List Datum)
  | map (entries : List (Datum × Datum))

namespace Datum

/-! ## Readers -/

/-- What all readers of data share. -/
structure Protocol where
  /-- The message on a datum of a type that a reader does not take, and on what it takes. -/
  invalidType : Datum → String → String
  /-- Reads plain text, such as the name of a field. -/
  readText : Datum → Except String String

/-- The answers of a reader for the types that hold no further data. -/
structure Visitor (α : Type) where
  /-- What the reader takes, within a message. -/
  expecting : String
  unit : Except String α
  absent : Except String α
  bool : Bool → Except String α
  signed : Int64 → Except String α
  unsigned : UInt64 → Except String α
  float : Binary64 → Except String α
  str : String → Except String α
  string : String → Except String α

/-- Hands a datum to a reader. A character is handed over as a text that is lent; a type for which
the reader has no answer is refused. -/
def visit {α : Type} (protocol : Protocol) (visitor : Visitor α) : Datum → Except String α
  | .unit => visitor.unit
  | .absent => visitor.absent
  | .bool value => visitor.bool value
  | .signed value => visitor.signed value
  | .unsigned value => visitor.unsigned value
  | .float value => visitor.float value
  | .char text | .str text => visitor.str text
  | .string text => visitor.string text
  | datum => .error (protocol.invalidType datum visitor.expecting)

/-- The reader of scalars. -/
def scalarVisitor : Visitor Scalar where
  expecting := "null, a boolean, a number or a string"
  unit := .ok .null
  absent := .ok .null
  bool := fun value => .ok (.bool value)
  signed := fun value => .ok (.integer value)
  unsigned := fun value => .ok (.ofUnsigned value)
  float := fun value => .ok (.float value)
  str := fun text => .ok (.str text)
  string := fun text => .ok (.str text)

/-- The reader of trees leaves scalars to the reader of scalars, type by type. -/
def treeVisitor : Visitor Tree where
  expecting := "a scalar, a sequence or a record"
  unit := scalarVisitor.unit.map .scalar
  absent := scalarVisitor.absent.map .scalar
  bool := fun value => (scalarVisitor.bool value).map .scalar
  signed := fun value => (scalarVisitor.signed value).map .scalar
  unsigned := fun value => (scalarVisitor.unsigned value).map .scalar
  float := fun value => (scalarVisitor.float value).map .scalar
  str := fun text => (scalarVisitor.str text).map .scalar
  string := fun text => (scalarVisitor.string text).map .scalar

/-- Reads a scalar. Sequences and maps are refused whatever they hold. -/
def toScalar (protocol : Protocol) : Datum → Except String Scalar
  | .present datum => datum.toScalar protocol
  | datum => datum.visit protocol scalarVisitor

mutual

/-- Reads a tree. -/
def toTree (protocol : Protocol) : Datum → Except String Tree
  | .present datum => datum.toTree protocol
  | .seq items => return .sequence (← toItems protocol items)
  | .map entries => return .ofFields (← toFields protocol entries)
  | datum => datum.visit protocol treeVisitor

/-- Reads elements from left to right. -/
def toItems (protocol : Protocol) : List Datum → Except String (List Tree)
  | [] => return []
  | datum :: rest => return (← datum.toTree protocol) :: (← toItems protocol rest)

/-- Reads fields from left to right, each name before its value. -/
def toFields (protocol : Protocol) : List (Datum × Datum) → Except String (List (String × Tree))
  | [] => return []
  | (name, value) :: rest =>
    return (← protocol.readText name, ← value.toTree protocol) :: (← toFields protocol rest)

end

end Datum

/-! ## Trees as data -/

/-- The datum of a scalar. -/
def Scalar.toDatum : Scalar → Datum
  | null => .unit
  | bool value => .bool value
  | integer value => .signed value
  | float value => .float value
  | str text => .str text

namespace Tree

mutual

/-- The datum of a tree. Fields are handed over in the order of their names. -/
def toDatum : Tree → Datum
  | .scalar value => value.toDatum
  | .sequence items => .seq (itemsToData items)
  | .record fields => .map (fieldsToData fields)

/-- The data of elements. -/
def itemsToData : List Tree → List Datum
  | [] => []
  | item :: items => item.toDatum :: itemsToData items

/-- The names and the data of fields. -/
def fieldsToData {bound : Option String} : Entries Tree bound → List (Datum × Datum)
  | .nil => []
  | .cons name _ value fields => (.str name, value.toDatum) :: fieldsToData fields

end

end Tree

end QueryIso
