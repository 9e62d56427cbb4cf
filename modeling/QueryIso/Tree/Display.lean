import QueryIso.Binary64.Layout
import QueryIso.Text.Integer
import QueryIso.Text.Quoted
import QueryIso.Tree

/-!
# Trees in messages

The text of a tree within a message stands on one line: `[a, b]`, `{"name": value}`, strings quoted
so that every character can be seen, floating point values always with a point or an exponent.

The writer takes the characters that follow the tree, so that no text is copied on the way up.
-/

namespace QueryIso

/-- Zero and absolute values from one ten-thousandth up to 10 to the power of 16 are plain, and of
two equally near shortest numbers the greater is shown. -/
def Binary64.Layout.display : Binary64.Layout where
  plain := fun point => -3 ≤ point ∧ point ≤ 16
  signedExponent := false
  tie := .upper

/-- The text of a scalar within a message. -/
def Scalar.displayChars : Scalar → List Char
  | .null => "null".toList
  | .bool value => (if value then "true" else "false").toList
  | .integer value => Text.integer value.toInt
  | .float value => value.chars .display
  | .str text => Text.quoted text

/-- The text of a scalar within a message. -/
def Scalar.display (value : Scalar) : String :=
  String.ofList value.displayChars

namespace Tree

mutual

/-- Writes a tree in front of other characters. -/
def write : Tree → List Char → List Char
  | .scalar value, rest => value.displayChars ++ rest
  | .sequence items, rest => '[' :: writeItems [] items (']' :: rest)
  | .record fields, rest => '{' :: writeFields [] fields ('}' :: rest)

/-- Writes elements, the first after `lead`, the others after a comma. -/
def writeItems (lead : List Char) : List Tree → List Char → List Char
  | [], rest => rest
  | item :: items, rest => lead ++ item.write (writeItems [',', ' '] items rest)

/-- Writes fields, the first after `lead`, the others after a comma. -/
def writeFields (lead : List Char) {bound : Option String} :
    Entries Tree bound → List Char → List Char
  | .nil, rest => rest
  | .cons name _ value fields, rest =>
    lead ++ (Text.quoted name ++
      (':' :: ' ' :: value.write (writeFields [',', ' '] fields rest)))

end

/-- The text of a tree within a message. -/
def display (tree : Tree) : String :=
  String.ofList (tree.write [])

end Tree

end QueryIso
