import QueryIso.Binary64

/-!
# Decimal numbers and floating point values

`Binary64.ofDecimal?` reads a decimal number as the nearest floating point value.
`Binary64.shortest` goes back: it tries one digit, then two, and so on up to seventeen, and of the
two neighbours of the value on the grid with so many digits it takes one that reads back. The first
grid that has one gives the fewest digits; of two on the same grid the nearer is taken.
-/

namespace QueryIso

/-- The number `coefficient` times ten to the power of `exponent`. -/
structure Decimal where
  coefficient : Nat
  exponent : Int
  deriving DecidableEq

namespace Decimal

/-- The number of decimal digits of a natural number, one for zero. -/
def width (n : Nat) : Nat :=
  (Nat.toDigits 10 n).length

/-- Ten to the power of an exponent, and one for negative exponents. -/
def powerOfTen (exponent : Int) : Nat :=
  Nat.pow 10 exponent.toNat

/-- The number as a quotient. -/
def ratio (d : Decimal) : Nat × Nat :=
  (d.coefficient * powerOfTen d.exponent, powerOfTen (-d.exponent))

/-- The magnitude nearest to the number. -/
def nearest (d : Decimal) : Nat :=
  let (num, den) := d.ratio
  Binary64.nearest num den

end Decimal

/-- Which of two equally near neighbours stands for a value. -/
inductive Tie
  | upper
  | even
  deriving DecidableEq

namespace Binary64

/-- The value nearest to a decimal number, unless that number is too large for the format. Numbers
far outside the range are settled by the number of their digits alone. -/
def ofDecimal? (negative : Bool) (d : Decimal) : Option Binary64 :=
  let top := d.exponent + Decimal.width d.coefficient
  if d.coefficient = 0 ∨ top < -400 then some (ofMagnitude negative 0)
  else if 400 < top then none
  else
    let magnitude := d.nearest
    if magnitude < infinity then some (ofMagnitude negative magnitude) else none

/-- The number of digits before the decimal point of a positive quotient; not positive when zeros
follow the point: the quotient is below ten to this power and not below the power before. -/
def point (num den : Nat) : Int :=
  if den ≤ num then Decimal.width (num / den)
  else 1 - Decimal.width ((den - 1) / num)

/-- A neighbour of a positive magnitude among the multiples of ten to the power of `exponent` that
reads back to it, if there is one; of two the nearer. -/
def onGrid? (tie : Tie) (magnitude : Nat) (exponent : Int) : Option Decimal :=
  let num := units magnitude * Decimal.powerOfTen (-exponent)
  let den := 1 <<< 1074 * Decimal.powerOfTen exponent
  let lower : Decimal := ⟨num / den, exponent⟩
  let upper : Decimal := ⟨num / den + 1, exponent⟩
  let twice := 2 * (num % den)
  if lower.nearest = magnitude then
    if upper.nearest = magnitude then
      if twice < den then some lower
      else if den < twice then some upper
      else match tie with
        | .upper => some upper
        | .even => some (if lower.coefficient % 2 = 0 then lower else upper)
    else some lower
  else if upper.nearest = magnitude then some upper
  else none

/-- The exact value of a magnitude: every power of one half has finitely many digits. -/
def exactly (magnitude : Nat) : Decimal :=
  ⟨units magnitude * Nat.pow 5 1074, -1074⟩

/-- The decimal number with the fewest digits that reads back to a positive magnitude. -/
def shortest (tie : Tie) (magnitude : Nat) : Decimal :=
  let point := point (units magnitude) (1 <<< 1074)
  let found := (List.range' 1 17).findSome? fun digits : Nat =>
    onGrid? tie magnitude (point - digits)
  found.getD (exactly magnitude)

end Binary64

end QueryIso
