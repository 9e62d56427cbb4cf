import QueryIso.Binary64.Layout
import QueryIso.Datum
import QueryIso.Text.Integer
import QueryIso.Text.Quoted

/-!
# Messages on refused data

A protocol of readers, with the words of its messages. A message names the type of the refused
datum, with the value where that is short, and what was expected instead.
-/

namespace QueryIso

/-- No floating point value in the message of a refusal has an exponent. -/
def Binary64.Layout.positional : Binary64.Layout where
  plain := fun _ => true
  signedExponent := false
  tie := .upper

namespace Datum

/-- The type of a datum within a message. -/
def typeText : Datum → String
  | .unit => "unit value"
  | .absent | .present _ => "Option value"
  | .wrapped _ => "newtype struct"
  | .bool value => if value then "boolean `true`" else "boolean `false`"
  | .signed value => "integer `" ++ String.ofList (Text.integer value.toInt) ++ "`"
  | .unsigned value => "integer `" ++ String.ofList (Text.natural value.toNat) ++ "`"
  | .wideSigned value => "integer `" ++ String.ofList (Text.integer value) ++ "` as i128"
  | .wideUnsigned value => "integer `" ++ String.ofList (Text.natural value) ++ "` as u128"
  | .float value => "floating point `" ++ value.text .positional ++ "`"
  | .char text | .str text | .string text => "string " ++ String.ofList (Text.quoted text)
  | .bytes _ | .rawBytes => "byte array"
  | .seq _ => "sequence"
  | .map _ => "map"

namespace Protocol

/-- The message on a datum of a type that a reader does not take. -/
def typeMessage (datum : Datum) (expecting : String) : String :=
  "invalid type: " ++ datum.typeText ++ ", expected " ++ expecting

/-- Reads text in any form. Bytes are text as long as they are UTF-8, so that only their value is
wrong otherwise. -/
def textOf : Datum → Except String String
  | .char text | .str text | .string text | .bytes text => .ok text
  | .rawBytes => .error "invalid value: byte array, expected a string"
  | datum => .error (typeMessage datum "a string")

/-- The protocol with these messages. -/
def standard : Protocol where
  invalidType := typeMessage
  readText := textOf

end Protocol

end Datum

end QueryIso
