/-!
# 64-bit floating point values

A value of the binary interchange format, kept as its bits: two values are equal exactly when all
their bits are, so a NaN equals itself and the two zeros differ.

Magnitudes, the bits below the sign, are numbered in the order of the values they stand for.
`Binary64.units` gives the value of a magnitude as a multiple of the smallest one, 2 to the power
of -1074, and `Binary64.nearest` is the way back from a quotient, with ties to the even magnitude.
-/

namespace QueryIso

/-- A floating point value. -/
structure Binary64 where
  /-- The sign, the exponent and the fraction, from the most significant bit on. -/
  bits : UInt64
  deriving DecidableEq

namespace Binary64

/-- The bit of the sign. -/
def signBit : Nat :=
  0x8000000000000000

/-- The number of fractions, which is the number of magnitudes with one exponent. -/
def fractions : Nat :=
  0x10000000000000

/-- The magnitude of the infinities; the finite ones are below, those of the NaNs above. -/
def infinity : Nat :=
  0x7FF0000000000000

/-- Whether the sign bit is set. Zeros and NaNs have a sign too. -/
def negative (x : Binary64) : Bool :=
  signBit ≤ x.bits.toNat

/-- The bits below the sign. -/
def magnitude (x : Binary64) : Nat :=
  x.bits.toNat % signBit

/-- Whether the value is a number. -/
def isFinite (x : Binary64) : Bool :=
  x.magnitude < infinity

/-- Whether the value is a NaN. -/
def isNaN (x : Binary64) : Bool :=
  infinity < x.magnitude

/-- The value with a sign and a magnitude. -/
def ofMagnitude (negative : Bool) (magnitude : Nat) : Binary64 :=
  ⟨(if negative then signBit + magnitude else magnitude).toUInt64⟩

/-- A finite magnitude as a multiple of the smallest one. Each step of the exponent doubles the
distance to the next magnitude, except the first, which starts the normal ones. -/
def units (magnitude : Nat) : Nat :=
  let doublings := magnitude / fractions - 1
  (magnitude - doublings * fractions) <<< doublings

/-- The natural number nearest to a quotient, the even one of two. -/
def roundHalfEven (num den : Nat) : Nat :=
  let floor := num / den
  let twice := 2 * (num % den)
  if twice < den ∨ twice = den ∧ floor % 2 = 0 then floor else floor + 1

/-- The magnitude nearest to a quotient, the even one of two. It reaches `infinity` from halfway
between the greatest finite value and the next power of two on. -/
def nearest (num den : Nat) : Nat :=
  let scaled := num <<< 1074
  let doublings := (scaled / den).log2 - 52
  doublings * fractions + roundHalfEven scaled (den <<< doublings)

/-- The value nearest to a natural number. -/
def ofNat (n : Nat) : Binary64 :=
  ofMagnitude false (nearest n 1)

end Binary64

end QueryIso
