import QueryIso.Binary64.Decimal

/-!
# Texts of floating point values

A value is written with the fewest digits that read back to it. A `Layout` says how they are set:
plainly, with at least one digit on either side of the point (`1.0`, `0.0001`), or with the point
after the first digit and an exponent (`1e16`, `1.5e-5`).
-/

namespace QueryIso

namespace Binary64

/-- The decisions that two texts of one value can differ in. -/
structure Layout where
  /-- Whether a number with so many digits before the point is written plainly. -/
  plain : Int → Bool
  /-- Whether a positive exponent has a sign. -/
  signedExponent : Bool
  /-- Which of two equally near shortest numbers is written. -/
  tie : Tie

/-- The digits with the decimal point after the first `point` of them. -/
def plainChars (digits : List Char) (point : Int) : List Char :=
  if point ≤ 0 then '0' :: '.' :: (List.replicate (-point).toNat '0' ++ digits)
  else
    let whole := digits.take point.toNat
    let fraction := digits.drop point.toNat
    whole ++ List.replicate (point.toNat - whole.length) '0' ++
      '.' :: (if fraction = [] then ['0'] else fraction)

/-- The digits with the decimal point after the first, and the exponent that this needs. -/
def scientificChars (layout : Layout) (digits : List Char) (point : Int) : List Char :=
  let exponent := point - 1
  let sign := if exponent < 0 then ['-'] else if layout.signedExponent then ['+'] else []
  let fraction := digits.drop 1
  digits.take 1 ++ (if fraction = [] then [] else '.' :: fraction) ++
    'e' :: (sign ++ Nat.toDigits 10 exponent.natAbs)

/-- The text of a decimal number other than zero. -/
def decimalChars (layout : Layout) (d : Decimal) : List Char :=
  let all := Nat.toDigits 10 d.coefficient
  let digits := (all.reverse.dropWhile (· = '0')).reverse
  let point := d.exponent + all.length
  if layout.plain point then plainChars digits point else scientificChars layout digits point

/-- The text of a value. -/
def chars (layout : Layout) (x : Binary64) : List Char :=
  if x.isNaN then ['N', 'a', 'N']
  else
    (if x.negative then ['-'] else []) ++
      if ¬x.isFinite then ['i', 'n', 'f']
      else if x.magnitude = 0 then ['0', '.', '0']
      else decimalChars layout (shortest layout.tie x.magnitude)

/-- The text of a value. -/
def text (layout : Layout) (x : Binary64) : String :=
  String.ofList (x.chars layout)

end Binary64

end QueryIso
