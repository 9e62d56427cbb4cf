import Mathlib.Tactic.Ring
import QueryIso.Binary64

/-!
# Rounding to a magnitude

`Binary64.nearest` depends on the quotient alone, gives back the magnitude whose value it is
applied to, and is finite exactly as long as the quotient is not too large:

* `nearest_congr`: equal quotients have the same nearest magnitude;
* `nearest_units`: the magnitude nearest to the value of a magnitude is that magnitude;
* `nearest_eq_zero`, `infinity_le_nearest`, `nearest_lt_infinity`: very small and very large
  quotients, and the integers of 64 bits;
* `ofMagnitude_magnitude`, `magnitude_ofMagnitude`: a value is its sign and its magnitude.
-/

namespace QueryIso

namespace Binary64

/-! ## The nearest natural number -/

theorem roundHalfEven_mul {factor : Nat} (positive : 0 < factor) (num den : Nat) :
    roundHalfEven (factor * num) (factor * den) = roundHalfEven num den := by
  have twice : 2 * (factor * (num % den)) = factor * (2 * (num % den)) := by ring
  simp only [roundHalfEven, Nat.mul_div_mul_left _ _ positive, Nat.mul_mod_mul_left, twice,
    Nat.mul_lt_mul_left positive, Nat.mul_right_inj (Nat.ne_of_gt positive)]

theorem roundHalfEven_exact {den : Nat} (positive : 0 < den) (n : Nat) :
    roundHalfEven (n * den) den = n := by
  simp [roundHalfEven, Nat.mul_div_cancel n positive, Nat.mul_mod_left, positive]

theorem roundHalfEven_le (num den : Nat) : roundHalfEven num den ≤ num / den + 1 := by
  simp only [roundHalfEven]
  split <;> omega

/-! ## Powers of two -/

theorem shiftLeft_pos {n : Nat} (positive : 0 < n) (k : Nat) : 0 < n <<< k := by
  rw [Nat.shiftLeft_eq]
  exact Nat.mul_pos positive (Nat.two_pow_pos k)

theorem shiftLeft_div_shiftLeft (n k : Nat) : n <<< k / 1 <<< k = n := by
  rw [Nat.shiftLeft_eq, Nat.shiftLeft_eq, Nat.one_mul, Nat.mul_div_cancel _ (Nat.two_pow_pos k)]

theorem shiftLeft_shiftLeft (n k l : Nat) : n <<< k <<< l = n * 1 <<< l <<< k := by
  simp only [Nat.shiftLeft_eq]
  ring

theorem log2_shiftLeft {n : Nat} (positive : 0 < n) (k : Nat) : (n <<< k).log2 = n.log2 + k := by
  rw [Nat.log2_eq_iff (Nat.ne_of_gt (shiftLeft_pos positive k)), Nat.shiftLeft_eq]
  constructor
  · rw [Nat.pow_add]
    exact Nat.mul_le_mul_right _ (Nat.log2_self_le (Nat.ne_of_gt positive))
  · rw [Nat.add_right_comm, Nat.pow_add]
    exact Nat.mul_lt_mul_of_pos_right Nat.lt_log2_self (Nat.two_pow_pos k)

/-! ## The nearest magnitude -/

theorem nearest_mul {factor : Nat} (positive : 0 < factor) (num den : Nat) :
    nearest (factor * num) (factor * den) = nearest num den := by
  simp only [nearest, Nat.shiftLeft_eq, Nat.mul_assoc, Nat.mul_div_mul_left _ _ positive,
    roundHalfEven_mul positive]

/-- Equal quotients have the same nearest magnitude. -/
theorem nearest_congr {num den num' den' : Nat} (positive : 0 < den) (positive' : 0 < den')
    (same : num * den' = num' * den) : nearest num den = nearest num' den' := by
  calc nearest num den
      = nearest (den' * num) (den' * den) := (nearest_mul positive' num den).symm
    _ = nearest (den * num') (den * den') := by
        rw [Nat.mul_comm den' num, same, Nat.mul_comm num', Nat.mul_comm den']
    _ = nearest num' den' := nearest_mul positive num' den'

@[simp] theorem nearest_zero (den : Nat) : nearest 0 den = 0 := by
  simp [nearest, roundHalfEven, eq_comm]

/-- A value has as many doublings as its magnitude. -/
theorem log2_units (magnitude : Nat) :
    (units magnitude).log2 - 52 = magnitude / fractions - 1 := by
  have split := Nat.div_add_mod magnitude fractions
  have below := Nat.mod_lt magnitude (show 0 < fractions by decide)
  have fractions_eq : fractions = 2 ^ 52 := rfl
  simp only [units]
  -- The subnormal magnitudes and those with the first exponent are not doubled at all.
  obtain few | many : magnitude / fractions ≤ 1 ∨ 2 ≤ magnitude / fractions := by omega
  · have none : magnitude / fractions - 1 = 0 := by omega
    have small : magnitude < 2 ^ 53 := by
      have := Nat.mul_le_mul_left fractions few
      omega
    rw [none, Nat.zero_mul, Nat.sub_zero, Nat.shiftLeft_zero, Nat.sub_eq_zero_iff_le]
    rcases Nat.eq_zero_or_pos magnitude with rfl | positive
    · decide
    · exact Nat.lt_succ_iff.1 ((Nat.log2_lt (Nat.ne_of_gt positive)).2 small)
  · obtain ⟨doublings, count⟩ := Nat.exists_eq_add_of_le' many
    have rest : magnitude - (magnitude / fractions - 1) * fractions =
        fractions + magnitude % fractions := by
      rw [count, Nat.mul_add] at split
      rw [count, show doublings + 2 - 1 = doublings + 1 from rfl, Nat.succ_mul, Nat.mul_comm]
      omega
    have log : (fractions + magnitude % fractions).log2 = 52 := by
      rw [Nat.log2_eq_iff (by omega)]
      omega
    rw [rest, log2_shiftLeft (by omega), log]
    omega

/-- The magnitude nearest to the value of a magnitude is that magnitude. -/
theorem nearest_units (magnitude : Nat) : nearest (units magnitude) (1 <<< 1074) = magnitude := by
  have den : 0 < 1 <<< 1074 <<< (magnitude / fractions - 1) :=
    shiftLeft_pos (shiftLeft_pos Nat.one_pos 1074) _
  have below : (magnitude / fractions - 1) * fractions ≤ magnitude :=
    (Nat.mul_le_mul_right _ (Nat.sub_le _ _)).trans (Nat.div_mul_le_self _ _)
  rw [nearest, shiftLeft_div_shiftLeft, log2_units, units]
  simp only [shiftLeft_shiftLeft _ (magnitude / fractions - 1), roundHalfEven_exact den]
  omega

theorem nearest_eq_zero {num den : Nat} (small : 2 * num <<< 1074 < den) : nearest num den = 0 := by
  have below : num <<< 1074 < den := by omega
  simp [nearest, roundHalfEven, Nat.div_eq_of_lt below, Nat.mod_eq_of_lt below, small]

theorem le_log2_div {num den k : Nat} (positive : 0 < den) (large : den <<< k ≤ num) (l : Nat) :
    k + l ≤ (num <<< l / den).log2 := by
  have quotient : 1 <<< (k + l) ≤ num <<< l / den := by
    rw [Nat.le_div_iff_mul_le positive]
    calc 1 <<< (k + l) * den = den <<< k <<< l := by
          simp only [Nat.shiftLeft_eq]
          ring
      _ ≤ num <<< l := by
          rw [Nat.shiftLeft_eq _ l, Nat.shiftLeft_eq _ l]
          exact Nat.mul_le_mul_right _ large
  have nonzero : num <<< l / den ≠ 0 :=
    Nat.ne_of_gt ((shiftLeft_pos Nat.one_pos _).trans_le quotient)
  rwa [Nat.le_log2 nonzero, ← Nat.one_shiftLeft]

theorem infinity_le_nearest {num den : Nat} (positive : 0 < den) (large : den <<< 1025 ≤ num) :
    infinity ≤ nearest num den := by
  have log := le_log2_div positive large 1074
  calc infinity = 2047 * fractions := rfl
    _ ≤ ((num <<< 1074 / den).log2 - 52) * fractions := Nat.mul_le_mul_right _ (by omega)
    _ ≤ nearest num den := Nat.le_add_right _ _

/-- What is left after the doublings has 53 bits. -/
theorem roundHalfEven_shiftLeft_le (n l : Nat) :
    roundHalfEven (n <<< (52 + l)) (1 <<< (n.log2 + l)) ≤ 2 * fractions := by
  refine (roundHalfEven_le _ _).trans (Nat.succ_le_of_lt ?_)
  rw [Nat.div_lt_iff_lt_mul (shiftLeft_pos Nat.one_pos _), Nat.shiftLeft_eq, Nat.one_shiftLeft]
  calc n * 2 ^ (52 + l) < 2 ^ (n.log2 + 1) * 2 ^ (52 + l) :=
        Nat.mul_lt_mul_of_pos_right Nat.lt_log2_self (Nat.two_pow_pos _)
    _ = 2 * 2 ^ 52 * 2 ^ (n.log2 + l) := by ring

theorem nearest_lt_infinity {n : Nat} (bound : n < 2 ^ 64) : nearest n 1 < infinity := by
  rcases Nat.eq_zero_or_pos n with rfl | positive
  · rw [nearest_zero]
    decide
  have log : n.log2 < 64 := (Nat.log2_lt (Nat.ne_of_gt positive)).2 bound
  have doublings : (n <<< 1074).log2 - 52 = n.log2 + 1022 := by
    rw [log2_shiftLeft positive]
    omega
  rw [nearest, Nat.div_one, doublings]
  calc (n.log2 + 1022) * fractions + roundHalfEven (n <<< 1074) (1 <<< (n.log2 + 1022))
      ≤ 1085 * fractions + 2 * fractions :=
        Nat.add_le_add (Nat.mul_le_mul_right _ (by omega)) (roundHalfEven_shiftLeft_le n 1022)
    _ < infinity := by decide

/-! ## Sign and magnitude -/

theorem magnitude_lt (x : Binary64) : x.magnitude < signBit :=
  Nat.mod_lt _ (by decide)

theorem toNat_ofMagnitude (negative : Bool) {magnitude : Nat} (bound : magnitude < signBit) :
    (ofMagnitude negative magnitude).bits.toNat =
      if negative then signBit + magnitude else magnitude := by
  have signBit_eq : signBit = 2 ^ 63 := rfl
  simp only [ofMagnitude, Nat.toUInt64_eq, UInt64.toNat_ofNat']
  split <;> exact Nat.mod_eq_of_lt (by omega)

/-- A value is its sign and its magnitude. -/
theorem ofMagnitude_magnitude (x : Binary64) : ofMagnitude x.negative x.magnitude = x := by
  have bound := x.bits.toNat_lt
  have signBit_eq : signBit = 2 ^ 63 := rfl
  have same : (ofMagnitude x.negative x.magnitude).bits.toNat = x.bits.toNat := by
    rw [toNat_ofMagnitude _ x.magnitude_lt]
    simp only [magnitude, negative, decide_eq_true_eq, signBit_eq]
    split <;> omega
  cases x
  exact congrArg mk (UInt64.toNat_inj.1 same)

theorem magnitude_ofMagnitude (negative : Bool) {magnitude : Nat} (bound : magnitude < signBit) :
    (ofMagnitude negative magnitude).magnitude = magnitude := by
  rw [Binary64.magnitude, toNat_ofMagnitude _ bound]
  cases negative
  · exact Nat.mod_eq_of_lt bound
  · exact (Nat.add_mod_left _ _).trans (Nat.mod_eq_of_lt bound)

end Binary64

end QueryIso
