import QueryIso.Binary64.Decimal
import QueryIso.Proofs.Binary64.Rounding

/-!
# Decimal numbers that stand for a value

A decimal number stands for the magnitude nearest to it, however its coefficient and its exponent
share the powers of ten:

* `Decimal.nearest_shift`: moving a power of ten between the two changes nothing;
* `ofDecimal?_eq`: reading a number rounds it, so that the early answers for very long and very
  short numbers are right;
* `nearest_shortest`: the shortest number stands for the magnitude it was found for.
-/

namespace QueryIso

namespace Decimal

theorem powerOfTen_pos (exponent : Int) : 0 < powerOfTen exponent :=
  Nat.pow_pos (by decide)

/-- Powers of ten move between the coefficient and the exponent. -/
theorem nearest_shift (coefficient k : Nat) (exponent : Int) :
    (⟨coefficient * 10 ^ k, exponent⟩ : Decimal).nearest =
      (⟨coefficient, exponent + k⟩ : Decimal).nearest := by
  apply Binary64.nearest_congr (powerOfTen_pos _) (powerOfTen_pos _)
  have exponents : k + exponent.toNat + (-(exponent + k)).toNat =
      (exponent + k).toNat + (-exponent).toNat := by omega
  calc coefficient * 10 ^ k * 10 ^ exponent.toNat * 10 ^ (-(exponent + k)).toNat
      = coefficient * 10 ^ (k + exponent.toNat + (-(exponent + k)).toNat) := by ring
    _ = coefficient * 10 ^ (exponent + k).toNat * 10 ^ (-exponent).toNat := by
        rw [exponents]
        ring

/-- A power of one half has as many digits after the point. -/
theorem nearest_five (n k : Nat) :
    (⟨n * Nat.pow 5 k, -k⟩ : Decimal).nearest = Binary64.nearest n (1 <<< k) := by
  apply Binary64.nearest_congr (powerOfTen_pos _) (Binary64.shiftLeft_pos Nat.one_pos k)
  have digits : (-(-k : Int)).toNat = k := by omega
  have whole : (-k : Int).toNat = 0 := by omega
  simp only [powerOfTen, digits, whole, Nat.one_shiftLeft]
  calc n * 5 ^ k * 10 ^ 0 * 2 ^ k = n * (5 * 2) ^ k := by
        rw [Nat.mul_pow]
        ring

@[simp] theorem nearest_zero (exponent : Int) : (⟨0, exponent⟩ : Decimal).nearest = 0 := by
  simp [nearest, ratio]

theorem coefficient_pos {d : Decimal} (positive : 0 < d.nearest) : 0 < d.coefficient := by
  obtain ⟨coefficient, exponent⟩ := d
  apply Nat.pos_of_ne_zero
  rintro rfl
  simp at positive

/-! ## Numbers out of range -/

theorem width_pos (n : Nat) : 0 < width n :=
  List.length_pos_iff.2 Nat.toDigits_ne_nil

theorem lt_pow_width (n : Nat) : n < 10 ^ width n :=
  (Nat.length_toDigits_le_iff (by decide) (width_pos n)).1 (Nat.le_refl _)

theorem pow_width_le {n : Nat} (positive : 0 < n) : 10 ^ (width n - 1) ≤ n := by
  by_contra! below
  rcases Nat.eq_zero_or_pos (width n - 1) with one | many
  · rw [one] at below
    omega
  · have := (Nat.length_toDigits_le_iff (by decide) many).2 below
    have := width_pos n
    unfold width at *
    omega

theorem shiftLeft_le (n : Nat) {k l : Nat} (few : k ≤ 3 * l) : n <<< k ≤ n * 10 ^ l := by
  rw [Nat.shiftLeft_eq]
  apply Nat.mul_le_mul_left
  calc 2 ^ k ≤ 2 ^ (3 * l) := Nat.pow_le_pow_right (by decide) few
    _ = 8 ^ l := Nat.pow_mul 2 3 l
    _ ≤ 10 ^ l := Nat.pow_le_pow_left (by decide) l

theorem nearest_eq_zero {d : Decimal} (small : d.exponent + width d.coefficient < -400) :
    d.nearest = 0 := by
  obtain ⟨coefficient, exponent⟩ := d
  simp only at small
  apply Binary64.nearest_eq_zero
  have whole : exponent.toNat = 0 := by omega
  have digits : width coefficient + 401 ≤ (-exponent).toNat := by omega
  calc 2 * (coefficient * 10 ^ exponent.toNat) <<< 1074 = 2 * coefficient <<< 1074 := by
        rw [whole, Nat.pow_zero, Nat.mul_one]
    _ = coefficient <<< 1075 := (Nat.shiftLeft_succ coefficient 1074).symm
    _ ≤ coefficient * 10 ^ 401 := shiftLeft_le _ (by decide)
    _ < 10 ^ width coefficient * 10 ^ 401 :=
        Nat.mul_lt_mul_of_pos_right (lt_pow_width _) (pow_pos (by decide) 401)
    _ = 10 ^ (width coefficient + 401) := (pow_add 10 _ 401).symm
    _ ≤ 10 ^ (-exponent).toNat := Nat.pow_le_pow_right (by decide) digits

theorem infinity_le_nearest {d : Decimal} (positive : 0 < d.coefficient)
    (large : 400 < d.exponent + width d.coefficient) : Binary64.infinity ≤ d.nearest := by
  obtain ⟨coefficient, exponent⟩ := d
  simp only at positive large
  apply Binary64.infinity_le_nearest (powerOfTen_pos _)
  have digits : (-exponent).toNat + 400 ≤ width coefficient - 1 + exponent.toNat := by omega
  calc 10 ^ (-exponent).toNat <<< 1025 ≤ 10 ^ (-exponent).toNat * 10 ^ 400 :=
        shiftLeft_le _ (by decide)
    _ = 10 ^ ((-exponent).toNat + 400) := (pow_add 10 _ 400).symm
    _ ≤ 10 ^ (width coefficient - 1 + exponent.toNat) := Nat.pow_le_pow_right (by decide) digits
    _ = 10 ^ (width coefficient - 1) * 10 ^ exponent.toNat := pow_add 10 _ _
    _ ≤ coefficient * 10 ^ exponent.toNat := Nat.mul_le_mul_right _ (pow_width_le positive)

end Decimal

namespace Binary64

/-- Reading a decimal number rounds it, unless that would be infinite. -/
theorem ofDecimal?_eq (negative : Bool) (d : Decimal) :
    ofDecimal? negative d =
      if d.nearest < infinity then some (ofMagnitude negative d.nearest) else none := by
  unfold ofDecimal?
  dsimp only
  split
  · rename_i small
    have zero : d.nearest = 0 := by
      rcases small with zero | small
      · obtain ⟨coefficient, exponent⟩ := d
        cases zero
        exact Decimal.nearest_zero exponent
      · exact Decimal.nearest_eq_zero small
    rw [zero, if_pos (by decide)]
  · rename_i notSmall
    have positive : 0 < d.coefficient := Nat.pos_of_ne_zero fun zero => notSmall (.inl zero)
    split
    · rename_i large
      rw [if_neg (Nat.not_lt.2 (Decimal.infinity_le_nearest positive large))]
    · rfl

theorem isFinite_ofMagnitude (negative : Bool) {magnitude : Nat} (finite : magnitude < infinity) :
    (ofMagnitude negative magnitude).isFinite := by
  rw [isFinite, magnitude_ofMagnitude _ (finite.trans (by decide))]
  exact decide_eq_true finite

theorem isFinite_ofNat {n : Nat} (bound : n < 2 ^ 64) : (ofNat n).isFinite :=
  isFinite_ofMagnitude _ (nearest_lt_infinity bound)

/-! ## The shortest number -/

theorem nearest_of_onGrid? {tie : Tie} {magnitude : Nat} {exponent : Int} {d : Decimal}
    (found : onGrid? tie magnitude exponent = some d) : d.nearest = magnitude := by
  simp only [onGrid?] at found
  -- Which number is nearest to which does not matter, only that the test was made.
  generalize Decimal.nearest = nearest at found ⊢
  generalize 1 <<< 1074 * _ = den at found
  cases tie <;> split_ifs at found <;> cases found <;> assumption

theorem nearest_exactly (magnitude : Nat) : (exactly magnitude).nearest = magnitude := by
  have exponent : (-1074 : Int) = -(1074 : Nat) := rfl
  simp only [exactly, exponent, Decimal.nearest_five, nearest_units]

/-- The shortest number stands for the magnitude it was found for. -/
theorem nearest_shortest (tie : Tie) (magnitude : Nat) :
    (shortest tie magnitude).nearest = magnitude := by
  simp only [shortest]
  cases found : (List.range' 1 17).findSome? fun digits : Nat =>
      onGrid? tie magnitude (point (units magnitude) (1 <<< 1074) - digits) with
  | none => exact nearest_exactly magnitude
  | some d =>
    obtain ⟨_, _, candidate⟩ := List.exists_of_findSome?_eq_some found
    exact nearest_of_onGrid? candidate

end Binary64

end QueryIso
