import QueryIso.Binary64.Decimal

/-!
# JSON documents

A `Document` is what a JSON text says, whatever blanks it has and however its strings are escaped.
A number is kept digit by digit, since its type shows in how it is written: one with a point or an
exponent is a floating point value, one without is an integer.
-/

namespace QueryIso

namespace Json

/-- Decimal digits, maybe none. -/
def Digits : Type :=
  { text : List Char // ∀ c ∈ text, c.isDigit }

/-- No digits. -/
def Digits.empty : Digits :=
  ⟨[], fun _ mem => absurd mem List.not_mem_nil⟩

/-- A number as it is written. -/
structure Numeral where
  negative : Bool
  /-- The number before the point. -/
  whole : Nat
  /-- The digits after the point. A point has digits after it. -/
  fraction : Digits
  exponent : Option Int

namespace Numeral

/-- Whether the number is written with a point or an exponent. -/
def isMarked (numeral : Numeral) : Bool :=
  numeral.fraction.val ≠ [] ∨ numeral.exponent ≠ none

/-- The absolute value of the number. -/
def size (numeral : Numeral) : Decimal where
  coefficient := Nat.ofDigitChars 10 numeral.fraction.val numeral.whole
  exponent := numeral.exponent.getD 0 - numeral.fraction.val.length

/-- An integer as it is written. -/
def ofInt (value : Int) : Numeral where
  negative := value < 0
  whole := value.natAbs
  fraction := .empty
  exponent := none

/-- The integer that is written so. Minus zero is no integer. -/
def integer? (numeral : Numeral) : Option Int :=
  if numeral.isMarked ∨ numeral.negative ∧ numeral.whole = 0 then none
  else some (if numeral.negative then -numeral.whole else numeral.whole)

/-- The floating point value nearest to the number, unless the number is too large. -/
def nearest? (numeral : Numeral) : Option Binary64 :=
  if numeral.size.nearest < Binary64.infinity then
    some (.ofMagnitude numeral.negative numeral.size.nearest)
  else none

/-- The number is written as a floating point value, with digits to which this one is nearest. -/
structure Denotes (numeral : Numeral) (value : Binary64) : Prop where
  marked : numeral.isMarked
  sign : numeral.negative = value.negative
  size : numeral.size.nearest = value.magnitude

end Numeral

/-- A JSON document. -/
inductive Document
  | null
  | bool (value : Bool)
  | number (numeral : Numeral)
  | string (text : String)
  | array (items : List Document)
  /-- Names may be repeated. -/
  | object (members : List (String × Document))
  deriving Inhabited

namespace Document

mutual

/-- The number of nested arrays and objects, also of empty ones. -/
def levels : Document → Nat
  | .array items => levelsOfItems items + 1
  | .object members => levelsOfMembers members + 1
  | .null | .bool _ | .number _ | .string _ => 0

/-- The greatest number of levels of an element. -/
def levelsOfItems : List Document → Nat
  | [] => 0
  | item :: items => max item.levels (levelsOfItems items)

/-- The greatest number of levels of the value of a member. -/
def levelsOfMembers : List (String × Document) → Nat
  | [] => 0
  | (_, value) :: members => max value.levels (levelsOfMembers members)

end

end Document

end Json

end QueryIso
