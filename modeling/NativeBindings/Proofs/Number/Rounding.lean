import NativeBindings.Proofs.Number.DigitLoop

/-!
# Nearest multiples

The operations on decimals keep the normal form. Reading an integer and moving the point are exact;
rounding keeps the sign and takes the nearest multiple of the place value at which it cuts.

## Main definitions

- `IsNearestMultiple` — the multiple of a unit that is nearest to a number, the larger of two
- `Decimal.Denotes` — a normal form of a number
- `Decimal.IsRounding` — a normal form of the nearest multiple, with the same sign

## Main statements

- `isNearestMultiple_floor` — the nearest multiple as a whole number of units
- `Decimal.IsNormal.exact_or_nearest` — what the operations on decimals in normal form give
-/

namespace NativeBindings

/-- `y` is the multiple of `unit` that is nearest to `x`, the larger one of two. -/
structure IsNearestMultiple (unit x y : ℚ) : Prop where
  isMultiple : ∃ m : ℤ, y = m * unit
  isNearest : ∀ m : ℤ, |x - y| ≤ |x - m * unit|
  isLarger : ∀ m : ℤ, |x - m * unit| = |x - y| → m * unit ≤ y

/-- Rounding down half a unit above a number leads to its nearest multiple. -/
theorem isNearestMultiple_floor {unit x : ℚ} (hunit : 0 < unit) (hx : 0 ≤ x) :
    IsNearestMultiple unit x (⌊x / unit + 1 / 2⌋₊ * unit) := by
  have hhalf : 0 ≤ x / unit + 1 / 2 := by positivity
  have hlow : (⌊x / unit + 1 / 2⌋₊ : ℚ) * unit ≤ x + unit / 2 := by
    have := mul_le_mul_of_nonneg_right (Nat.floor_le hhalf) hunit.le
    rwa [add_mul, div_mul_cancel₀ _ hunit.ne', one_div_mul_eq_div] at this
  have hhigh : x + unit / 2 < (⌊x / unit + 1 / 2⌋₊ + 1) * unit := by
    have := mul_lt_mul_of_pos_right (Nat.lt_floor_add_one (x / unit + 1 / 2)) hunit
    rwa [add_mul (x / unit), div_mul_cancel₀ _ hunit.ne', one_div_mul_eq_div] at this
  generalize ⌊x / unit + 1 / 2⌋₊ = k at hlow hhigh ⊢
  rw [add_mul, one_mul] at hhigh
  have hnear : |x - k * unit| ≤ unit / 2 := abs_le.2 ⟨by linarith, by linarith⟩
  have hbelow (m : ℤ) (hm : m < k) : unit / 2 ≤ |x - m * unit| := by
    have hcast : (m : ℚ) + 1 ≤ k := by exact_mod_cast hm
    have hmul := mul_le_mul_of_nonneg_right hcast hunit.le
    exact le_trans (by linarith) (le_abs_self _)
  have habove (m : ℤ) (hm : (k : ℤ) < m) : unit / 2 < |x - m * unit| := by
    have hcast : (k : ℚ) + 1 ≤ m := by exact_mod_cast hm
    have hmul := mul_le_mul_of_nonneg_right hcast hunit.le
    exact lt_of_lt_of_le (by linarith) (neg_le_abs _)
  refine ⟨⟨k, by rw [Int.cast_natCast]⟩, fun m => ?_, fun m hm => ?_⟩
  · rcases lt_trichotomy m k with h | rfl | h
    · exact hnear.trans (hbelow m h)
    · rw [Int.cast_natCast]
    · exact hnear.trans (habove m h).le
  · have hle : m ≤ k := by
      by_contra hlt
      have := habove m (not_le.1 hlt)
      linarith
    exact mul_le_mul_of_nonneg_right (by exact_mod_cast hle) hunit.le

namespace Decimal

variable {d : Decimal}

/-- A normal form of `x`. -/
structure Denotes (d : Decimal) (x : ℚ) : Prop where
  isNormal : d.IsNormal
  toRat_eq : d.toRat = x

/-- A normal form of the multiple of `unit` that is nearest to the absolute value of `d`, with the
sign of `d`. -/
structure IsRounding (d : Decimal) (unit : ℚ) (r : Decimal) : Prop where
  isNormal : r.IsNormal
  negative_eq : r.negative = d.negative
  isNearestMultiple : IsNearestMultiple unit |d.toRat| |r.toRat|

theorem denotes_ofInt (v : ℤ) : (ofInt v).Denotes v := ⟨isNormal_ofInt v, toRat_ofInt v⟩

theorem IsNormal.denotes_shift (h : d.IsNormal) (k : ℤ) : (d.shift k).Denotes (d.toRat * 10 ^ k) :=
  ⟨h.shift k, toRat_shift d k⟩

/-- Rounding at a digit takes the nearest multiple of its place value, also where the cut lies in
front of the first digit or behind the last one. -/
theorem IsNormal.isRounding_roundDigits (h : d.IsNormal) (keep : ℤ) :
    d.IsRounding (10 ^ (d.point - keep)) (d.roundDigits keep) where
  isNormal := isNormal_roundDigits h _
  negative_eq := negative_roundDigits _ _
  isNearestMultiple := by
    rw [abs_toRat, abs_toRat, magnitude_roundDigits h.digit_lt]
    exact isNearestMultiple_floor (by positivity) d.magnitude_nonneg

theorem IsNormal.isRounding_roundFraction (h : d.IsNormal) (places : ℕ) :
    d.IsRounding (10 ^ (-places : ℤ)) (d.roundFraction places) := by
  have hunit : d.point - (d.point + places) = -(places : ℤ) := by ring
  rw [← hunit]
  exact h.isRounding_roundDigits _

/-- Integers are read and points are moved exactly, and rounding takes the nearest multiple of the
last place that is kept. -/
theorem IsNormal.exact_or_nearest (h : d.IsNormal) :
    (∀ v : ℤ, (ofInt v).Denotes v) ∧
    (∀ k : ℤ, (d.shift k).Denotes (d.toRat * 10 ^ k)) ∧
    (∀ places : ℕ, d.IsRounding (10 ^ (-places : ℤ)) (d.roundFraction places)) ∧
    (∀ keep : ℕ, 1 ≤ keep → d.IsRounding (10 ^ (d.point - keep)) (d.roundSignificant keep)) :=
  ⟨denotes_ofInt, h.denotes_shift, h.isRounding_roundFraction,
    fun keep _ => h.isRounding_roundDigits keep⟩

/-- A carry runs through all digits of -9.996 into a new one, and the half of -0.5 goes away from
zero. -/
theorem exact_or_nearest_carry :
    let d : Decimal := ⟨true, [9, 9, 9, 6], 1⟩
    let half : Decimal := ⟨true, [5], 0⟩
    d.IsNormal ∧ half.IsNormal ∧
    d.IsRounding (10 ^ (-(2 : ℕ) : ℤ)) ⟨true, [1], 2⟩ ∧
    d.IsRounding (10 ^ (d.point - (3 : ℕ))) ⟨true, [1], 2⟩ ∧
    half.IsRounding (10 ^ (-(0 : ℕ) : ℤ)) ⟨true, [1], 1⟩ := by
  intro d half
  have hd : d.IsNormal := ⟨by decide, by decide, by decide, by decide⟩
  have hhalf : half.IsNormal := ⟨by decide, by decide, by decide, by decide⟩
  have hfraction : d.roundFraction 2 = ⟨true, [1], 2⟩ := by decide +kernel
  have hsignificant : d.roundSignificant 3 = ⟨true, [1], 2⟩ := by decide +kernel
  have hone : half.roundFraction 0 = ⟨true, [1], 1⟩ := by decide +kernel
  obtain ⟨-, -, hplaces, hkeep⟩ := IsNormal.exact_or_nearest hd
  obtain ⟨-, -, hnone, -⟩ := IsNormal.exact_or_nearest hhalf
  refine ⟨hd, hhalf, ?_, ?_, ?_⟩
  · rw [← hfraction]
    exact hplaces 2
  · rw [← hsignificant]
    exact hkeep 3 (by decide)
  · rw [← hone]
    exact hnone 0

end Decimal
end NativeBindings
