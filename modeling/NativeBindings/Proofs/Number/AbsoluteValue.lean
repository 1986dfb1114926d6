import NativeBindings.Proofs.Number.ExactExpansion

/-!
# Absolute values

The sign of a decimal is carried along by every operation and decides about nothing but itself: a
decimal without its sign is shifted and rounded like the decimal. The sign of a number is that of
its expansion, where a binary fraction may have a zero with a sign.

## Main definitions

- `Decimal.abs`, `Number.abs` — absolute values
- `Number.isNegativeZero` — the zero that has a sign

## Main statements

- `Decimal.abs_roundDigits` — a decimal is rounded without regard to its sign
- `Number.negative_exact_iff` — the numbers that are written with a sign
-/

namespace NativeBindings

namespace Decimal

variable {d : Decimal}

/-- A decimal without its sign. -/
def abs (d : Decimal) : Decimal := { d with negative := false }

@[simp] theorem isZero_abs (d : Decimal) : d.abs.isZero = d.isZero := rfl

theorem abs_shift (d : Decimal) (k : ℤ) : (d.shift k).abs = d.abs.shift k := by
  unfold shift
  rw [isZero_abs]
  split <;> rfl

theorem abs_carry (d : Decimal) (index : ℕ) : (d.carry index).abs = d.abs.carry index := by
  induction index generalizing d with
  | zero => rfl
  | succ index ih =>
    have hdigit : d.abs.digitAt index = d.digitAt index := rfl
    rw [carry, carry, hdigit]
    split
    · exact ih _
    · rfl

/-- A decimal is rounded without regard to its sign. -/
theorem abs_roundDigits (d : Decimal) (keep : ℤ) :
    (d.roundDigits keep).abs = d.abs.roundDigits keep := by
  have hdigit : d.abs.digitAt keep = d.digitAt keep := rfl
  have htrim (d : Decimal) : d.trim.abs = d.abs.trim := rfl
  unfold roundDigits
  by_cases hkept : d.digits.length ≤ keep
  · rw [if_pos hkept, if_pos (show d.abs.digits.length ≤ keep from hkept)]
  · rw [if_neg hkept, if_neg (show ¬ d.abs.digits.length ≤ keep from hkept), hdigit]
    split
    · rfl
    · dsimp only
      rw [htrim]
      split
      · rw [abs_carry]
        rfl
      · rfl

theorem abs_roundSignificant (d : Decimal) (p : ℕ) :
    (d.roundSignificant p).abs = d.abs.roundSignificant p := abs_roundDigits d p

theorem abs_roundFraction (d : Decimal) (places : ℕ) :
    (d.roundFraction places).abs = d.abs.roundFraction places := abs_roundDigits d _

end Decimal

namespace Number

/-- A number without its sign. -/
def abs : Number → Number
  | integer v width => integer |v| width
  | binary _ m q => binary false m q

/-- The zero that has a sign. -/
def isNegativeZero : Number → Bool
  | integer _ _ => false
  | binary negative m _ => negative && decide (m = 0)

theorem toRat_of_isNegativeZero {n : Number} (h : n.isNegativeZero = true) : n.toRat = 0 := by
  cases n with
  | integer v width => cases h
  | binary negative m q =>
    have hm : m = 0 := by simp_all [isNegativeZero]
    simp [toRat, hm]

theorem exact_abs (n : Number) : n.abs.exact = n.exact.abs := by
  cases n with
  | integer v width =>
    have hsign : decide (|v| < 0) = false := decide_eq_false (abs_nonneg v).not_gt
    simp only [abs, exact, Decimal.ofInt, hsign, Int.natAbs_abs]
    rfl
  | binary negative m q =>
    rw [abs, exact, exact, Binary64.exactDecimal_eq, Binary64.exactDecimal_eq]
    rfl

theorem isZero_exact_iff {n : Number} : n.exact.isZero = true ↔ n.toRat = 0 := by
  rw [Decimal.isZero_iff]
  constructor
  · intro hnil
    by_contra hne
    exact digits_exact_ne_nil hne hnil
  · intro hzero
    cases n with
    | integer v width =>
      apply (Decimal.isNormal_ofInt v).toRat_eq_zero_iff.1
      rw [Decimal.toRat_ofInt]
      exact hzero
    | binary negative m q =>
      have hnil : (Binary64.dyadicDecimal m q).digits = [] := by
        apply (Binary64.isNormal_dyadicDecimal m q).toRat_eq_zero_iff.1
        rw [Binary64.toRat_dyadicDecimal]
        exact (mul_eq_zero.1 hzero).resolve_left (by cases negative <;> decide)
      rw [exact, Binary64.exactDecimal_eq, Decimal.nearestAt, if_pos (by rw [hnil]; decide)]
      exact hnil

/-- The expansion of a number has a sign below zero and at the zero that has a sign. -/
theorem negative_exact_iff {n : Number} :
    n.exact.negative = true ↔ n.toRat < 0 ∨ n.isNegativeZero = true := by
  cases n with
  | integer v width => simp [exact, Decimal.ofInt, toRat, isNegativeZero]
  | binary negative m q =>
    have hnegative : (exact (binary negative m q)).negative = negative := rfl
    have hpos : 0 ≤ (m : ℚ) * 2 ^ q := by positivity
    have hpower : (0 : ℚ) < 2 ^ q := by positivity
    rw [hnegative]
    cases negative with
    | false => simp [toRat, isNegativeZero, hpos]
    | true =>
      by_cases hm : m = 0
      · simp [isNegativeZero, hm]
      · have hpositive : 0 < (m : ℚ) * 2 ^ q := by positivity
        simp [toRat, hpositive]

end Number
end NativeBindings
