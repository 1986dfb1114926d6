import Mathlib.Algebra.Order.Field.Power
import Mathlib.Algebra.Order.Floor.Semifield
import Mathlib.Data.Int.Log
import Mathlib.Data.Rat.Floor
import Mathlib.Data.Sign.Basic
import Mathlib.Tactic.FieldSimp
import Mathlib.Tactic.Linarith
import Mathlib.Tactic.Positivity
import NativeBindings.Number.Scaled
import NativeBindings.Proofs.Number.Numeral

/-!
# Values of decimals

A decimal stands for a rational number, and a normal form is determined by its number and its sign.
Dividing the digits read as one number and rounding the quotient takes the nearest multiple of a
power of ten.

## Main definitions

- `roundedTo` — the multiple of a unit that is nearest to a number
- `roundedSignificant` — a number to a given count of significant digits
- `Decimal.toRat` — the number that a decimal stands for

## Main statements

- `Decimal.IsNormal.log_magnitude` — the exponent of a decimal is that of its value
- `Decimal.IsNormal.eq_of_magnitude_eq` — a normal form is determined by its value
- `Decimal.magnitude_nearestAt` — a rounded quotient of the digits is the nearest multiple
-/

namespace NativeBindings

/-- The multiple of `unit` that is nearest to `x`; of two the one farther from zero. -/
def roundedTo (unit x : ℚ) : ℚ := SignType.sign x * (⌊|x| / unit + 1 / 2⌋₊ * unit)

/-- `x` to `p` significant digits, a half going away from zero. -/
def roundedSignificant (p : ℕ) (x : ℚ) : ℚ := roundedTo (10 ^ (Int.log 10 |x| + 1 - p)) x

/-- The leading digit of a number is never rounded away. -/
theorem roundedSignificant_ne_zero {p : ℕ} (hp : 0 < p) {x : ℚ} (hx : x ≠ 0) :
    roundedSignificant p x ≠ 0 := by
  have hten : (10 : ℚ) ≠ 0 := by norm_num
  have hpos : 0 < |x| := abs_pos.2 hx
  have hunit : (10 : ℚ) ^ (Int.log 10 |x| + 1 - p) ≤ |x| := by
    calc (10 : ℚ) ^ (Int.log 10 |x| + 1 - p) ≤ 10 ^ Int.log 10 |x| :=
          zpow_le_zpow_right₀ (by norm_num) (by omega)
      _ ≤ |x| := by exact_mod_cast Int.zpow_log_le_self (b := 10) (by decide) hpos
  have hfloor : 1 ≤ ⌊|x| / 10 ^ (Int.log 10 |x| + 1 - p) + 1 / 2⌋₊ := by
    apply Nat.le_floor
    rw [Nat.cast_one]
    have := (one_le_div (by positivity)).2 hunit
    linarith
  rw [roundedSignificant, roundedTo]
  refine mul_ne_zero ?_ (mul_ne_zero (by exact_mod_cast (by omega)) (by positivity))
  rcases lt_or_gt_of_ne hx with h | h
  · rw [sign_neg h]
    norm_num
  · rw [sign_pos h]
    norm_num

theorem roundedQuotient_awayFromZero_eq (n d : ℕ) :
    roundedQuotient .awayFromZero n d = n / d + if 2 * (n % d) < d then 0 else 1 := by
  unfold roundedQuotient
  dsimp only
  split
  · rfl
  · split <;> rfl

/-- Half a unit more than the quotient lies between the rounded quotient and the next number. -/
theorem roundedQuotient_awayFromZero_bounds (n : ℕ) {d : ℕ} (hd : 0 < d) :
    2 * (roundedQuotient .awayFromZero n d * d) ≤ 2 * n + d ∧
      2 * n + d < 2 * ((roundedQuotient .awayFromZero n d + 1) * d) := by
  have hn := Nat.div_add_mod' n d
  have hr := Nat.mod_lt n hd
  have hs : (n / d + 1) * d = n / d * d + d := Nat.succ_mul _ _
  have hss : (n / d + 1 + 1) * d = n / d * d + d + d := by rw [Nat.succ_mul, hs]
  rw [roundedQuotient_awayFromZero_eq]
  split
  · rw [add_zero, hs]
    omega
  · rw [hss, hs]
    omega

theorem div_le_roundedQuotient (tie : Tie) (n d : ℕ) : n / d ≤ roundedQuotient tie n d := by
  unfold roundedQuotient
  dsimp only
  split
  · exact le_rfl
  · split
    · omega
    · cases tie <;> dsimp only <;> omega

theorem roundedQuotient_le (tie : Tie) {n d m : ℕ} (hd : 0 < d) (h : n < m * d) :
    roundedQuotient tie n d ≤ m := by
  have hquotient : n / d < m := (Nat.div_lt_iff_lt_mul hd).2 h
  unfold roundedQuotient
  dsimp only
  split
  · exact hquotient.le
  · split
    · exact hquotient
    · cases tie with
      | awayFromZero => exact hquotient
      | toEven =>
        dsimp only
        omega

theorem floor_div_add_half (n : ℕ) {d : ℕ} (hd : 0 < d) :
    ⌊(n : ℚ) / d + 1 / 2⌋₊ = roundedQuotient .awayFromZero n d := by
  have hdq : (0 : ℚ) < d := by exact_mod_cast hd
  obtain ⟨hle, hlt⟩ := roundedQuotient_awayFromZero_bounds n hd
  have hsum : (n : ℚ) / d + 1 / 2 = (2 * n + d) / (2 * d) := by field_simp
  rw [Nat.floor_eq_iff (by positivity), hsum, le_div_iff₀ (by positivity),
    div_lt_iff₀ (by positivity)]
  constructor
  · have : (2 * (roundedQuotient .awayFromZero n d * d) : ℚ) ≤ 2 * n + d := by exact_mod_cast hle
    linarith
  · have : (2 * n + d : ℚ) < 2 * ((roundedQuotient .awayFromZero n d + 1) * d) := by
      exact_mod_cast hlt
    linarith

namespace Decimal

variable {d : Decimal} {n : ℕ} {e : ℤ} {s : Bool}

/-- The absolute value of the number that a decimal stands for. -/
def magnitude (d : Decimal) : ℚ := d.coefficient * 10 ^ d.scale

/-- The number that a decimal stands for. -/
def toRat (d : Decimal) : ℚ := if d.negative then -d.magnitude else d.magnitude

theorem magnitude_nonneg (d : Decimal) : 0 ≤ d.magnitude := by
  unfold magnitude
  positivity

theorem abs_toRat (d : Decimal) : |d.toRat| = d.magnitude := by
  unfold toRat
  split
  · rw [abs_neg, abs_of_nonneg d.magnitude_nonneg]
  · exact abs_of_nonneg d.magnitude_nonneg

/-! ## Normal forms -/

theorem stripZeros_spec (n : ℕ) (e : ℤ) :
    (n : ℚ) * 10 ^ e = (stripZeros n e).1 * 10 ^ (stripZeros n e).2 ∧
      e ≤ (stripZeros n e).2 ∧ (stripZeros n e).1 ≤ n ∧
        (n ≠ 0 → (stripZeros n e).1 % 10 ≠ 0) := by
  induction n using Nat.strongRecOn generalizing e with
  | _ n ih =>
    rw [stripZeros]
    split
    next h => exact ⟨rfl, le_rfl, le_rfl, fun hn => h.resolve_left hn⟩
    next h =>
      rw [not_or, not_not] at h
      obtain ⟨hn, hmod⟩ := h
      obtain ⟨hvalue, hscale, hle, hlast⟩ := ih (n / 10) (by omega) (e + 1)
      refine ⟨?_, by omega, by omega, fun _ => hlast (by omega)⟩
      rw [← hvalue, zpow_add₀ (by norm_num), zpow_one]
      have hten : (n : ℚ) = (n / 10 : ℕ) * 10 := by
        have : n = n / 10 * 10 := by omega
        exact_mod_cast this
      rw [hten]
      ring

theorem stripZeros_pow (k : ℕ) (e : ℤ) : (stripZeros (10 ^ k) e).1 = 1 := by
  induction k generalizing e with
  | zero => rw [stripZeros, dif_pos (by decide)]; rfl
  | succ k ih =>
    have hten : 10 ^ (k + 1) = 10 ^ k * 10 := Nat.pow_succ ..
    have hpos : 0 < 10 ^ k := by positivity
    rw [stripZeros, dif_neg (by omega), hten, Nat.mul_div_cancel _ (by decide)]
    exact ih (e + 1)

theorem ofScaled_zero (s : Bool) (e : ℤ) : ofScaled s 0 e = zero s := rfl

theorem ofScaled_of_ne_zero (s : Bool) (hn : n ≠ 0) (e : ℤ) :
    ofScaled s n e = ⟨s, Numeral.digits 10 (stripZeros n e).1,
      (Numeral.digits 10 (stripZeros n e).1).length + (stripZeros n e).2⟩ := by
  rw [ofScaled, if_neg hn]

theorem isNormal_ofScaled (s : Bool) (n : ℕ) (e : ℤ) : (ofScaled s n e).IsNormal := by
  by_cases hn : n = 0
  · rw [hn, ofScaled_zero]
    exact isNormal_zero s
  · obtain ⟨-, -, -, hmod⟩ := stripZeros_spec n e
    have hlast := hmod hn
    have hpos : (stripZeros n e).1 ≠ 0 := by
      intro h
      rw [h] at hlast
      exact hlast rfl
    rw [ofScaled_of_ne_zero s hn]
    refine ⟨fun x => Numeral.lt_of_mem_digits, Numeral.head?_digits (by decide) _, ?_, ?_⟩
    · dsimp only
      rw [Numeral.digits, dif_neg (by omega), List.getLast?_append, List.getLast?_singleton]
      simpa using hlast
    · intro h
      exact absurd h (Numeral.digits_ne_nil (by decide) hpos)

theorem magnitude_zero (s : Bool) : (zero s).magnitude = 0 := by
  simp [magnitude, zero, coefficient, Numeral.value]

theorem magnitude_ofScaled (s : Bool) (n : ℕ) (e : ℤ) : (ofScaled s n e).magnitude = n * 10 ^ e := by
  by_cases hn : n = 0
  · rw [hn, ofScaled_zero, magnitude_zero]
    simp
  · rw [ofScaled_of_ne_zero s hn, (stripZeros_spec n e).1, magnitude, coefficient, scale]
    dsimp only
    rw [Numeral.value_digits (by decide), add_sub_cancel_left]

theorem le_scale_ofScaled (s : Bool) (hn : n ≠ 0) (e : ℤ) : e ≤ (ofScaled s n e).scale := by
  rw [ofScaled_of_ne_zero s hn, scale]
  dsimp only
  have := (stripZeros_spec n e).2.1
  omega

theorem min_le_scale_ofScaled (s : Bool) (n : ℕ) (e : ℤ) : min e 0 ≤ (ofScaled s n e).scale := by
  by_cases hn : n = 0
  · rw [hn, ofScaled_zero]
    exact min_le_right _ _
  · exact (min_le_left _ _).trans (le_scale_ofScaled s hn e)

/-! ## Exponents -/

theorem digitAt_lt (h : ∀ x ∈ d.digits, x < 10) (i : ℤ) : d.digitAt i < 10 := by
  unfold digitAt
  split
  · decide
  · cases hi : d.digits[i.toNat]? with
    | none => decide
    | some x => exact h x (List.mem_of_getElem? hi)

theorem coefficient_lt (h : ∀ x ∈ d.digits, x < 10) : d.coefficient < 10 ^ d.digits.length :=
  Numeral.value_lt (by decide) h

/-- The first digit stands right behind the point. -/
theorem IsNormal.magnitude_bounds (h : d.IsNormal) (hd : d.digits ≠ []) :
    10 ^ (d.point - 1) ≤ d.magnitude ∧ d.magnitude < 10 ^ d.point := by
  have hlength := List.length_pos_iff.2 hd
  have hle : (10 : ℚ) ^ ((d.digits.length - 1 : ℕ) : ℤ) ≤ d.coefficient := by
    rw [zpow_natCast]
    have hpow : 10 ^ (d.digits.length - 1) ≤ d.coefficient := Numeral.pow_le_value h.head_ne_zero hd
    exact_mod_cast hpow
  have hlt : (d.coefficient : ℚ) < 10 ^ (d.digits.length : ℤ) := by
    rw [zpow_natCast]
    exact_mod_cast coefficient_lt h.digit_lt
  have hscale : (0 : ℚ) < 10 ^ d.scale := by positivity
  unfold magnitude
  constructor
  · calc (10 : ℚ) ^ (d.point - 1) = 10 ^ ((d.digits.length - 1 : ℕ) : ℤ) * 10 ^ d.scale := by
          rw [← zpow_add₀ (by norm_num), scale]
          congr 1
          omega
      _ ≤ d.coefficient * 10 ^ d.scale := mul_le_mul_of_nonneg_right hle hscale.le
  · calc d.coefficient * 10 ^ d.scale < (10 : ℚ) ^ (d.digits.length : ℤ) * 10 ^ d.scale :=
          mul_lt_mul_of_pos_right hlt hscale
      _ = 10 ^ d.point := by
          rw [← zpow_add₀ (by norm_num), scale]
          congr 1
          omega

theorem IsNormal.magnitude_pos (h : d.IsNormal) (hd : d.digits ≠ []) : 0 < d.magnitude :=
  lt_of_lt_of_le (by positivity) (h.magnitude_bounds hd).1

theorem isZero_iff : d.isZero = true ↔ d.digits = [] := List.isEmpty_iff

theorem magnitude_of_digits_eq_nil (h : d.digits = []) : d.magnitude = 0 := by
  simp [magnitude, coefficient, h, Numeral.value]

theorem IsNormal.toRat_eq_zero_iff (h : d.IsNormal) : d.toRat = 0 ↔ d.digits = [] := by
  rw [← abs_eq_zero, abs_toRat]
  constructor
  · intro hzero
    by_contra hd
    exact (h.magnitude_pos hd).ne' hzero
  · exact magnitude_of_digits_eq_nil

/-- The sign is written for numbers below zero only. -/
theorem IsNormal.toRat_lt_zero_iff (h : d.IsNormal) :
    d.toRat < 0 ↔ (d.negative && !d.isZero) = true := by
  rw [Bool.and_eq_true, Bool.not_eq_true', ← Bool.not_eq_true, isZero_iff]
  by_cases hd : d.digits = []
  · simp [hd, h.toRat_eq_zero_iff.2 hd]
  · have hpos := h.magnitude_pos hd
    unfold toRat
    split
    next hnegative => simp [hnegative, hd, hpos]
    next hnegative => simp [hnegative, hpos.le]

theorem IsNormal.log_magnitude (h : d.IsNormal) : Int.log 10 d.magnitude = d.exponent := by
  unfold exponent
  by_cases hd : d.digits = []
  · rw [if_pos (isZero_iff.2 hd), magnitude_of_digits_eq_nil hd, Int.log_zero_right]
  · rw [if_neg (mt isZero_iff.1 hd)]
    obtain ⟨hle, hlt⟩ := h.magnitude_bounds hd
    have hpos := h.magnitude_pos hd
    have hlow := (Int.zpow_le_iff_le_log (b := 10) (by decide) hpos).1 (by exact_mod_cast hle)
    have hhigh := (Int.lt_zpow_iff_log_lt (b := 10) (by decide) hpos).1 (by exact_mod_cast hlt)
    omega

/-- The last digit of a normal form is that of its coefficient. -/
theorem IsNormal.coefficient_mod_ten_ne_zero (h : d.IsNormal) (hd : d.digits ≠ []) :
    d.coefficient % 10 ≠ 0 := by
  obtain ⟨ds, x, hds⟩ := d.digits.eq_nil_or_concat'.resolve_left hd
  have hmem : x ∈ d.digits := by simp [hds]
  have hlast : x ≠ 0 := by
    intro hx
    exact h.last_ne_zero (by simp [hds, hx])
  have hlt := h.digit_lt x hmem
  rw [coefficient, hds, Numeral.value_append_singleton]
  omega

/-- A coefficient that does not end in zero needs the larger scale. -/
theorem scale_le_of_magnitude_eq {d' : Decimal} (hmod : d'.coefficient % 10 ≠ 0)
    (hmagnitude : d.magnitude = d'.magnitude) : d.scale ≤ d'.scale := by
  by_contra hlt
  obtain ⟨k, hk⟩ := Int.eq_ofNat_of_zero_le (show 0 ≤ d.scale - d'.scale - 1 by omega)
  have hscale : d.scale = (k + 1 : ℕ) + d'.scale := by
    push_cast
    omega
  have hpower : (0 : ℚ) < 10 ^ d'.scale := by positivity
  rw [magnitude, magnitude, hscale, zpow_add₀ (by norm_num), ← mul_assoc, zpow_natCast] at hmagnitude
  have hcoefficient : d.coefficient * 10 ^ (k + 1) = d'.coefficient := by
    exact_mod_cast mul_right_cancel₀ hpower.ne' hmagnitude
  rw [← hcoefficient, pow_succ, ← mul_assoc, Nat.mul_mod_left] at hmod
  exact hmod rfl

/-- A normal form is determined by its sign and its absolute value. -/
theorem IsNormal.eq_of_magnitude_eq {d' : Decimal} (h : d.IsNormal) (h' : d'.IsNormal)
    (hnegative : d.negative = d'.negative) (hmagnitude : d.magnitude = d'.magnitude) : d = d' := by
  have hnil : d.digits = [] ↔ d'.digits = [] := by
    rw [← h.toRat_eq_zero_iff, ← h'.toRat_eq_zero_iff, ← abs_eq_zero, abs_toRat, hmagnitude,
      ← abs_toRat, abs_eq_zero]
  by_cases hd : d.digits = []
  · have hd' := hnil.1 hd
    have hpoint := h.point_of_zero hd
    have hpoint' := h'.point_of_zero hd'
    cases d
    cases d'
    simp_all
  · have hd' := mt hnil.2 hd
    have hscale : d.scale = d'.scale :=
      le_antisymm (scale_le_of_magnitude_eq (h'.coefficient_mod_ten_ne_zero hd') hmagnitude)
        (scale_le_of_magnitude_eq (h.coefficient_mod_ten_ne_zero hd) hmagnitude.symm)
    have hpoint : d.point = d'.point := by
      have hexponent := h.log_magnitude
      rw [hmagnitude, h'.log_magnitude, exponent, exponent, if_neg (mt isZero_iff.1 hd),
        if_neg (mt isZero_iff.1 hd')] at hexponent
      omega
    have hlength : d.digits.length = d'.digits.length := by
      rw [scale, scale] at hscale
      omega
    have hcoefficient : d.coefficient = d'.coefficient := by
      have hpower : (0 : ℚ) < 10 ^ d'.scale := by positivity
      rw [magnitude, magnitude, hscale] at hmagnitude
      exact_mod_cast mul_right_cancel₀ hpower.ne' hmagnitude
    have hdigits := Numeral.eq_of_value_eq (by decide) hlength h.digit_lt h'.digit_lt hcoefficient
    cases d
    cases d'
    simp_all

/-! ## Rounding -/

/-- A value whose digits are all kept is a multiple of the unit already. -/
theorem magnitude_div_of_kept {keep : ℤ} {k : ℕ} (hk : keep - d.digits.length = k) :
    d.magnitude / 10 ^ (d.point - keep) = (d.coefficient * 10 ^ k : ℕ) := by
  have hscale : d.scale = k + (d.point - keep) := by
    rw [scale]
    omega
  rw [magnitude, hscale, zpow_add₀ (by norm_num), zpow_natCast, div_eq_iff (by positivity)]
  push_cast
  ring

theorem magnitude_div_of_dropped {keep : ℤ} {k : ℕ} (hk : d.digits.length - keep = k) :
    d.magnitude / 10 ^ (d.point - keep) = (d.coefficient : ℚ) / (10 ^ k : ℕ) := by
  have hscale : d.point - keep = d.scale + k := by
    rw [scale]
    omega
  rw [magnitude, hscale, zpow_add₀ (by norm_num), zpow_natCast]
  push_cast
  field_simp

/-- Nothing remains of a value whose first digit stands behind the place next to the kept ones. -/
theorem floor_coefficient_div (h : ∀ x ∈ d.digits, x < 10) {k : ℕ} (hk : d.digits.length < k) :
    ⌊(d.coefficient : ℚ) / (10 ^ k : ℕ) + 1 / 2⌋₊ = 0 := by
  have hcoefficient := coefficient_lt h
  have hpow : 10 ^ (d.digits.length + 1) ≤ 10 ^ k := Nat.pow_le_pow_right (by decide) hk
  have hsmall : 2 * d.coefficient < 10 ^ k := by
    rw [Nat.pow_succ] at hpow
    omega
  have hhalf : (d.coefficient : ℚ) / (10 ^ k : ℕ) < 1 / 2 := by
    have : (2 * d.coefficient : ℚ) < (10 ^ k : ℕ) := by exact_mod_cast hsmall
    rw [div_lt_iff₀ (by positivity)]
    linarith
  rw [Nat.floor_eq_zero]
  linarith

/-- The rounded quotient of the digits is the nearest multiple of the place value at the cut. -/
theorem magnitude_nearestAt (h : ∀ x ∈ d.digits, x < 10) (keep : ℤ) :
    (d.nearestAt .awayFromZero keep).magnitude =
      ⌊d.magnitude / 10 ^ (d.point - keep) + 1 / 2⌋₊ * 10 ^ (d.point - keep) := by
  unfold nearestAt
  split
  next hle =>
    obtain ⟨k, hk⟩ := Int.eq_ofNat_of_zero_le (sub_nonneg.2 hle)
    have hmultiple := magnitude_div_of_kept hk
    have hfloor : ⌊((d.coefficient * 10 ^ k : ℕ) : ℚ) + 1 / 2⌋₊ = d.coefficient * 10 ^ k := by
      rw [add_comm, Nat.floor_add_natCast (by norm_num)]
      norm_num
    rw [hmultiple, hfloor, ← hmultiple, div_mul_cancel₀ _ (by positivity)]
  next hlt =>
    rw [not_le] at hlt
    split
    next hneg =>
      obtain ⟨k, hk⟩ := Int.eq_ofNat_of_zero_le (sub_nonneg.2 hlt.le)
      rw [magnitude_zero, magnitude_div_of_dropped hk, floor_coefficient_div h (by omega),
        Nat.cast_zero, zero_mul]
    next hkeep =>
      have hdropped : d.digits.length - keep = (d.digits.length - keep.toNat : ℕ) := by omega
      rw [magnitude_div_of_dropped hdropped, floor_div_add_half _ (by positivity)]
      exact magnitude_ofScaled _ _ _

/-- A carry into a new digit leaves a power of ten, which has one digit only. -/
theorem length_digits_ofScaled_le {keep : ℕ} (s : Bool) (e : ℤ) (hn : n ≤ 10 ^ keep)
    (hkeep : 0 < keep) : (ofScaled s n e).digits.length ≤ keep := by
  by_cases hzero : n = 0
  · rw [hzero, ofScaled_zero]
    exact Nat.zero_le _
  · rw [ofScaled_of_ne_zero s hzero]
    dsimp only
    rw [Numeral.length_digits_le_iff (by decide)]
    rcases Nat.lt_or_eq_of_le hn with hlt | heq
    · exact lt_of_le_of_lt (stripZeros_spec n e).2.2.1 hlt
    · rw [heq, stripZeros_pow]
      exact Nat.one_lt_pow hkeep.ne' (by decide)

theorem length_digits_nearestAt_le (h : ∀ x ∈ d.digits, x < 10) (tie : Tie) {keep : ℕ}
    (hkeep : 0 < keep) : (d.nearestAt tie keep).digits.length ≤ keep := by
  unfold nearestAt
  split
  next hle => omega
  next hlt =>
    rw [if_neg (by omega)]
    apply length_digits_ofScaled_le _ _ _ hkeep
    apply roundedQuotient_le tie (Nat.pow_pos (by decide))
    have hlength : d.digits.length = keep + (d.digits.length - (keep : ℤ).toNat) := by omega
    have hcoefficient := coefficient_lt h
    rw [hlength, pow_add] at hcoefficient
    exact hcoefficient

theorem isNormal_nearestAt (h : d.IsNormal) (tie : Tie) (keep : ℤ) :
    (d.nearestAt tie keep).IsNormal := by
  unfold nearestAt
  split
  · exact h
  · split
    · exact isNormal_zero _
    · exact isNormal_ofScaled _ _ _

theorem IsNormal.sign_toRat (h : d.IsNormal) (hd : d.digits ≠ []) :
    (SignType.sign d.toRat : ℚ) = if d.negative then -1 else 1 := by
  have hpos := h.magnitude_pos hd
  unfold toRat
  split
  · rw [sign_neg (by linarith)]
    rfl
  · rw [sign_pos hpos]
    rfl

/-! ## Moving the point -/

theorem IsNormal.shift (h : d.IsNormal) (k : ℤ) : (d.shift k).IsNormal := by
  unfold Decimal.shift
  split
  · exact h
  next hd => exact ⟨h.1, h.2, h.3, fun hnil => absurd (isZero_iff.2 hnil) hd⟩

theorem toRat_shift (d : Decimal) (k : ℤ) : (d.shift k).toRat = d.toRat * 10 ^ k := by
  have hmagnitude : (d.shift k).magnitude = d.magnitude * 10 ^ k := by
    unfold shift
    split
    next hd =>
      rw [magnitude_of_digits_eq_nil (isZero_iff.1 hd)]
      simp
    next =>
      rw [magnitude, magnitude, mul_assoc, ← zpow_add₀ (by norm_num)]
      simp only [coefficient, scale]
      congr 2
      ring
  have hnegative : (d.shift k).negative = d.negative := by
    unfold shift
    split <;> rfl
  rw [toRat, toRat, hmagnitude, hnegative]
  split <;> ring

@[simp] theorem digits_shift (d : Decimal) (k : ℤ) : (d.shift k).digits = d.digits := by
  unfold shift
  split <;> rfl

theorem point_shift (hd : d.digits ≠ []) (k : ℤ) : (d.shift k).point = d.point + k := by
  rw [shift, if_neg (mt isZero_iff.1 hd)]

theorem shift_zero (d : Decimal) : d.shift 0 = d := by
  unfold shift
  split
  · rfl
  · rw [add_zero]

theorem length_digits_shift_le (h : d.digits.length ≤ d.point) {k : ℤ} (hk : 0 ≤ k) :
    (d.shift k).digits.length ≤ (d.shift k).point := by
  unfold shift
  split
  · exact h
  · dsimp only
    omega

end Decimal
end NativeBindings
