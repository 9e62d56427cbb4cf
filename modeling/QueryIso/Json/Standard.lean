import QueryIso.Binary64.Layout
import QueryIso.Datum.Messages
import QueryIso.Json.Codec
import QueryIso.Json.Reader
import QueryIso.Json.Writer

/-!
# A codec

`Codec.standard` writes what trees hand over and reads all JSON. Floating point values always have
a point or an exponent, so that they do not read as integers; what is not a number is `null`.

An integer within the unsigned or signed 64-bit range, according to its sign, is read as an integer,
except that minus zero is a floating point value; every other number is read as the nearest floating
point value, and refused where that would be infinite.
-/

namespace QueryIso

/-- Zero and absolute values from one hundred-thousandth up to 10 to the power of 16 are plain, and
of two equally near shortest numbers the even one is written. -/
def Binary64.Layout.json : Binary64.Layout where
  plain := fun point => -4 ≤ point ∧ point ≤ 16
  signedExponent := true
  tie := .even

namespace Json

/-- The number that is written for a finite floating point value. -/
def Numeral.ofFloat? (value : Binary64) : Option Numeral :=
  (number (value.chars .json)).map (·.1)

/-- What a reader is shown for a number. -/
def Numeral.toDatum? (numeral : Numeral) : Option Datum :=
  let rounded := (Binary64.ofDecimal? numeral.negative numeral.size).map .float
  match numeral.integer? with
  | none => rounded
  | some value =>
    if 0 ≤ value ∧ value < 0x10000000000000000 then some (.unsigned (.ofNat value.toNat))
    else if -0x8000000000000000 ≤ value ∧ value < 0 then some (.signed (.ofInt value))
    else rounded

namespace Document

mutual

/-- The document of data as trees hand them over. There is none for other data. -/
def ofDatum? : Datum → Option Document
  | .unit => some .null
  | .bool value => some (.bool value)
  | .signed value => some (.number (.ofInt value.toInt))
  | .float value =>
    if value.isFinite then (Numeral.ofFloat? value).map .number else some .null
  | .str text => some (.string text)
  | .seq items => (ofItems? items).map .array
  | .map entries => (ofEntries? entries).map .object
  | _ => none

/-- The documents of elements. -/
def ofItems? : List Datum → Option (List Document)
  | [] => some []
  | item :: items => do return (← ofDatum? item) :: (← ofItems? items)

/-- The names and the documents of entries. -/
def ofEntries? : List (Datum × Datum) → Option (List (String × Document))
  | [] => some []
  | (.str name, value) :: entries => do return (name, ← ofDatum? value) :: (← ofEntries? entries)
  | _ :: _ => none

end

mutual

/-- What a reader is shown for a document. -/
def toDatum? : Document → Option Datum
  | .null => some .unit
  | .bool value => some (.bool value)
  | .number numeral => numeral.toDatum?
  | .string text => some (.str text)
  | .array items => (itemsToData? items).map .seq
  | .object members => (membersToData? members).map .map

/-- What a reader is shown for elements. -/
def itemsToData? : List Document → Option (List Datum)
  | [] => some []
  | item :: items => do return (← item.toDatum?) :: (← itemsToData? items)

/-- What a reader is shown for members. -/
def membersToData? : List (String × Document) → Option (List (Datum × Datum))
  | [] => some []
  | (name, value) :: members => do
    return (.str name, ← value.toDatum?) :: (← membersToData? members)

end

end Document

/-- The codec. -/
def Codec.standard : Codec where
  encode := Document.ofDatum?
  compact := Document.textIn .compact
  pretty := Document.textIn .pretty
  parse := Document.parse
  decode := Document.toDatum?

end Json

/-- Reads the scalar of a JSON text. A text that starts like an array or an object is refused as
such, whatever follows. -/
def Scalar.ofJson (text : String) : Except Json.ReadError Scalar :=
  match Json.skipBlanks text.toList with
  | '[' :: _ => ((Datum.seq []).toScalar .standard).mapError .refused
  | '{' :: _ => ((Datum.map []).toScalar .standard).mapError .refused
  | _ => Json.Codec.standard.read (Datum.toScalar .standard) text

end QueryIso
