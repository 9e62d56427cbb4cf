import QueryIso.Json.Document

/-!
# Texts of JSON documents

A document as a JSON text, on one line or indented by two spaces a level. As with trees in messages,
the writer takes the characters that follow the value.
-/

namespace QueryIso

namespace Json

/-- A character as it is written between quotes: quotes, backslashes and controls are escaped. -/
def escape (c : Char) : List Char :=
  match c with
  | '"' => ['\\', '"']
  | '\\' => ['\\', '\\']
  | '\x08' => ['\\', 'b']
  | '\x0c' => ['\\', 'f']
  | '\n' => ['\\', 'n']
  | '\r' => ['\\', 'r']
  | '\t' => ['\\', 't']
  | _ =>
    if c.toNat < 0x20 then
      ['\\', 'u', '0', '0', Nat.digitChar (c.toNat / 16), Nat.digitChar (c.toNat % 16)]
    else [c]

/-- A string between quotes. -/
def quoted (text : String) : List Char :=
  '"' :: (text.toList.flatMap escape ++ ['"'])

namespace Numeral

/-- The point and the digits after it. -/
def fractionChars (numeral : Numeral) : List Char :=
  if numeral.fraction.val = [] then [] else '.' :: numeral.fraction.val

/-- The exponent, always with a sign. -/
def exponentChars (numeral : Numeral) : List Char :=
  match numeral.exponent with
  | some exponent => 'e' :: (if exponent < 0 then '-' else '+') :: Nat.toDigits 10 exponent.natAbs
  | none => []

/-- A number. -/
def chars (numeral : Numeral) : List Char :=
  (if numeral.negative then ['-'] else []) ++
    (Nat.toDigits 10 numeral.whole ++ (numeral.fractionChars ++ numeral.exponentChars))

end Numeral

/-- The blanks of a text. -/
structure Spacing where
  /-- What stands between a name and its value, after the colon. -/
  colon : List Char
  /-- What stands before a child, and before the bracket that closes its parent, at a level of
  nesting. -/
  gap : Nat → List Char

namespace Spacing

/-- No blanks at all. -/
def compact : Spacing where
  colon := []
  gap := fun _ => []

/-- A line for each child, indented by two spaces a level. -/
def pretty : Spacing where
  colon := [' ']
  gap := fun level => '\n' :: List.replicate (2 * level) ' '

end Spacing

namespace Document

mutual

/-- Writes a document at a level of nesting in front of other characters. -/
def write (spacing : Spacing) (level : Nat) : Document → List Char → List Char
  | .null, rest => "null".toList ++ rest
  | .bool value, rest => (if value then "true" else "false").toList ++ rest
  | .number numeral, rest => numeral.chars ++ rest
  | .string text, rest => quoted text ++ rest
  | .array items, rest =>
    '[' :: writeItems spacing (level + 1) [] items
      (if items.isEmpty then ']' :: rest else spacing.gap level ++ ']' :: rest)
  | .object members, rest =>
    '{' :: writeMembers spacing (level + 1) [] members
      (if members.isEmpty then '}' :: rest else spacing.gap level ++ '}' :: rest)

/-- Writes elements, the first after `lead`, the others after a comma. -/
def writeItems (spacing : Spacing) (level : Nat) (lead : List Char) :
    List Document → List Char → List Char
  | [], rest => rest
  | item :: items, rest =>
    lead ++ (spacing.gap level ++
      item.write spacing level (writeItems spacing level [','] items rest))

/-- Writes members, the first after `lead`, the others after a comma. -/
def writeMembers (spacing : Spacing) (level : Nat) (lead : List Char) :
    List (String × Document) → List Char → List Char
  | [], rest => rest
  | (name, value) :: members, rest =>
    lead ++ (spacing.gap level ++ (quoted name ++ (':' :: spacing.colon ++
      value.write spacing level (writeMembers spacing level [','] members rest))))

end

/-- The text of a document. -/
def textIn (spacing : Spacing) (document : Document) : String :=
  String.ofList (document.write spacing 0 [])

end Document

end Json

end QueryIso
