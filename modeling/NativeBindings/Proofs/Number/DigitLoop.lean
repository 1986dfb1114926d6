import Mathlib.Data.List.TakeWhile
import NativeBindings.Proofs.Number.Decimal

/-!
# Rounding digit by digit

Trimming the zeros of a decimal leads to the normal form of its value. Rounding cuts the digits and
adds one in the last place if the first digit behind the cut is at least five; the carry runs through
nines and may put a new digit in front. With digits below ten that is the rounded quotient of the
digits read as one number, so it takes the nearest multiple of the place value.

## Main statements

- `Decimal.trim_eq_ofScaled` — trimmed digits are the normal form of their value
- `Decimal.coefficient_carry`, `Decimal.scale_carry` — a carry adds one in its place
- `Decimal.roundDigits_eq_nearestAt` — rounding at a digit is the rounded quotient
- `Decimal.toRat_ofInt` — decimals of integers are exact
- `Decimal.IsNormal.toRat_roundDigits`, `Decimal.IsNormal.toRat_roundSignificant` — rounding a
  decimal rounds its value
-/

namespace NativeBindings

theorem takeWhile_zero_eq_replicate (ds : List ℕ) :
    ds.takeWhile (· = 0) = List.replicate (ds.takeWhile (· = 0)).length 0 := by
  rw [List.eq_replicate_iff]
  refine ⟨rfl, fun x hx => ?_⟩
  have hzero := List.mem_takeWhile_imp hx
  exact of_decide_eq_true hzero

theorem drop_length_takeWhile_zero (ds : List ℕ) :
    ds.drop (ds.takeWhile (· = 0)).length = ds.dropWhile (· = 0) := by
  have hsplit := List.takeWhile_append_dropWhile (p := (· = 0)) (l := ds)
  calc ds.drop (ds.takeWhile (· = 0)).length
      = (ds.takeWhile (· = 0) ++ ds.dropWhile (· = 0)).drop (ds.takeWhile (· = 0)).length := by
        rw [hsplit]
    _ = ds.dropWhile (· = 0) := List.drop_left

theorem head?_dropWhile_zero (ds : List ℕ) : (ds.dropWhile (· = 0)).head? ≠ some 0 := by
  intro h
  have hnot := List.head?_dropWhile_not (fun x : ℕ => decide (x = 0)) ds
  rw [h] at hnot
  exact absurd hnot (by decide)

/-- A row is its digits without the zeros at its start, behind these zeros. -/
theorem exists_dropWhile_zero (ds : List ℕ) :
    ds = List.replicate (ds.takeWhile (· = 0)).length 0 ++ ds.dropWhile (· = 0) := by
  rw [← takeWhile_zero_eq_replicate, List.takeWhile_append_dropWhile]

/-- A row is its digits without the zeros at its end, in front of these zeros. -/
theorem exists_reverse_dropWhile_zero (ds : List ℕ) :
    ∃ j, ds = (ds.reverse.dropWhile (· = 0)).reverse ++ List.replicate j 0 := by
  have hsplit := congrArg List.reverse (exists_dropWhile_zero ds.reverse)
  rw [List.reverse_append, List.reverse_reverse, List.reverse_replicate] at hsplit
  exact ⟨_, hsplit⟩

namespace Decimal

variable {d : Decimal} {index : ℕ}

/-! ## Trimming -/

theorem digits_trim (d : Decimal) :
    d.trim.digits = ((d.digits.dropWhile (· = 0)).reverse.dropWhile (· = 0)).reverse := by
  rw [trim, drop_length_takeWhile_zero]

/-- Trimming takes zeros off both ends, and the point moves with those in front. -/
theorem exists_digits_eq_trim (d : Decimal) :
    ∃ i j : ℕ, d.digits = List.replicate i 0 ++ d.trim.digits ++ List.replicate j 0 ∧
      (d.trim.digits ≠ [] → d.trim.point = d.point - i) := by
  obtain ⟨j, hj⟩ := exists_reverse_dropWhile_zero (d.digits.dropWhile (· = 0))
  refine ⟨(d.digits.takeWhile (· = 0)).length, j, ?_, fun hne => ?_⟩
  · rw [digits_trim, List.append_assoc, ← hj, ← exists_dropWhile_zero]
  · exact if_neg (mt List.isEmpty_iff.1 hne)

/-- Zeros at either end do not count; those in front only move the point. -/
theorem magnitude_pad (s s' : Bool) (ds : List ℕ) (i j : ℕ) (point : ℤ) :
    magnitude ⟨s, List.replicate i 0 ++ ds ++ List.replicate j 0, point⟩ =
      magnitude ⟨s', ds, point - i⟩ := by
  have hscale : point - i - ds.length = point - (i + ds.length + j : ℕ) + j := by
    push_cast
    ring
  simp only [magnitude, coefficient, scale, List.length_append, List.length_replicate,
    Numeral.value_pad]
  rw [hscale, zpow_add₀ (by norm_num), zpow_natCast]
  push_cast
  ring

theorem magnitude_trim (d : Decimal) : d.trim.magnitude = d.magnitude := by
  obtain ⟨i, j, hdigits, hpoint⟩ := exists_digits_eq_trim d
  have hpad : d.magnitude = magnitude ⟨d.negative, d.trim.digits, d.point - i⟩ := by
    rw [← magnitude_pad d.negative _ _ i j, ← hdigits]
  rw [hpad]
  by_cases hnil : d.trim.digits = []
  · rw [magnitude_of_digits_eq_nil hnil, magnitude_of_digits_eq_nil]
    exact hnil
  · rw [← hpoint hnil]
    rfl

theorem isNormal_trim (h : ∀ x ∈ d.digits, x < 10) : d.trim.IsNormal := by
  obtain ⟨i, j, hdigits, -⟩ := exists_digits_eq_trim d
  refine ⟨fun x hx => h x (by rw [hdigits]; simp [hx]), ?_, ?_, fun hnil => ?_⟩
  · -- What is left after the end is cut starts as before.
    obtain ⟨k, hk⟩ := exists_reverse_dropWhile_zero (d.digits.dropWhile (· = 0))
    rw [← digits_trim] at hk
    intro hhead
    apply head?_dropWhile_zero d.digits
    rw [hk, List.head?_append, hhead]
    rfl
  · rw [digits_trim, List.getLast?_reverse]
    exact head?_dropWhile_zero _
  · exact if_pos (List.isEmpty_iff.2 hnil)

/-- Trimmed digits are the normal form of their value. -/
theorem trim_eq_ofScaled (h : ∀ x ∈ d.digits, x < 10) :
    d.trim = ofScaled d.negative d.coefficient d.scale :=
  (isNormal_trim h).eq_of_magnitude_eq (isNormal_ofScaled _ _ _) (by simp)
    (by rw [magnitude_trim, magnitude_ofScaled, magnitude])

/-! ## Integers -/

theorem ofInt_eq_ofScaled (v : ℤ) : ofInt v = ofScaled (v < 0) v.natAbs 0 := by
  have hlt : ∀ x ∈ (Numeral.decimal v.natAbs).map Numeral.digitValue, x < 10 := by
    intro x hx
    obtain ⟨c, hc, rfl⟩ := List.mem_map.1 hx
    exact Numeral.digitValue_lt (Numeral.isDigit_decimal _ c hc)
  have hread : Numeral.value 10 ((Numeral.decimal v.natAbs).map Numeral.digitValue) = v.natAbs :=
    Numeral.read_decimal _
  rw [ofInt, trim_eq_ofScaled hlt, coefficient, scale, hread, sub_self]

theorem isNormal_ofInt (v : ℤ) : (ofInt v).IsNormal := by
  rw [ofInt_eq_ofScaled]
  exact isNormal_ofScaled _ _ _

@[simp] theorem negative_ofInt (v : ℤ) : (ofInt v).negative = decide (v < 0) := rfl

theorem toRat_ofInt (v : ℤ) : (ofInt v).toRat = v := by
  have hmag : (ofInt v).magnitude = |(v : ℚ)| := by
    rw [ofInt_eq_ofScaled, magnitude_ofScaled, zpow_zero, mul_one, Nat.cast_natAbs, Int.cast_abs]
  rw [toRat, hmag, negative_ofInt]
  by_cases hv : v < 0
  · have : (v : ℚ) < 0 := by exact_mod_cast hv
    simp [hv, abs_of_neg this]
  · have : (0 : ℚ) ≤ v := by exact_mod_cast not_lt.1 hv
    simp [hv, abs_of_nonneg this]

theorem length_digits_ofInt_le (v : ℤ) : (ofInt v).digits.length ≤ (ofInt v).point := by
  have hscale := min_le_scale_ofScaled (decide (v < 0)) v.natAbs 0
  rw [← ofInt_eq_ofScaled, min_self, scale] at hscale
  omega

/-! ## Carries -/

theorem digitAt_natCast (h : index < d.digits.length) : d.digitAt index = d.digits[index] := by
  rw [digitAt, if_neg (by omega), Int.toNat_natCast, List.getElem?_eq_getElem h, Option.getD_some]

/-- A carry adds one in the place before the index. -/
theorem coefficient_carry (h : index ≤ d.digits.length) :
    (d.carry index).coefficient = d.coefficient + 10 ^ (d.digits.length - index) := by
  induction index generalizing d with
  | zero =>
    rw [carry, coefficient, coefficient, Numeral.value_cons, one_mul, Nat.sub_zero, add_comm]
  | succ index ih =>
    have hset : ∀ x, Numeral.value 10 (d.digits.set index x) +
        d.digits[index] * 10 ^ (d.digits.length - (index + 1)) =
          Numeral.value 10 d.digits + x * 10 ^ (d.digits.length - (index + 1)) :=
      Numeral.value_set h
    rw [carry, digitAt_natCast h]
    split
    next hnine =>
      -- Nine are taken off in this place, and the place before it is worth ten.
      have hplace : d.digits.length - index = d.digits.length - (index + 1) + 1 := by omega
      have hzero := hset 0
      rw [hnine, zero_mul, add_zero] at hzero
      rw [ih (by rw [List.length_set]; omega), coefficient, coefficient]
      dsimp only
      rw [List.length_set, hplace, pow_succ]
      omega
    next =>
      have hone := hset (d.digits[index] + 1)
      rw [add_mul, one_mul] at hone
      rw [coefficient, coefficient]
      dsimp only
      omega

theorem scale_carry (d : Decimal) (index : ℕ) : (d.carry index).scale = d.scale := by
  induction index generalizing d with
  | zero =>
    rw [carry, scale, scale, List.length_cons]
    push_cast
    ring
  | succ index ih =>
    unfold carry
    split
    · rw [ih, scale, scale, List.length_set]
    · rw [scale, scale, List.length_set]

theorem digit_lt_carry (h : ∀ x ∈ d.digits, x < 10) : ∀ x ∈ (d.carry index).digits, x < 10 := by
  induction index generalizing d with
  | zero => exact List.forall_mem_cons.2 ⟨by decide, h⟩
  | succ index ih =>
    unfold carry
    split
    · apply ih
      intro x hx
      rcases List.mem_or_eq_of_mem_set hx with hx | rfl
      · exact h x hx
      · decide
    next hnine =>
      intro x hx
      rcases List.mem_or_eq_of_mem_set hx with hx | rfl
      · exact h x hx
      · have := digitAt_lt h index
        omega

/-! ## Rounding -/

/-- The first digit behind a cut decides how the quotient at the cut is rounded. -/
theorem roundedQuotient_of_digitAt (h : ∀ x ∈ d.digits, x < 10) (hindex : index < d.digits.length) :
    roundedQuotient .awayFromZero d.coefficient (10 ^ (d.digits.length - index)) =
      Numeral.value 10 (d.digits.take index) + if 5 ≤ d.digitAt index then 1 else 0 := by
  have hdrop := List.drop_eq_getElem_cons hindex
  have hrest : Numeral.value 10 (d.digits.drop (index + 1)) <
      10 ^ (d.digits.length - (index + 1)) := by
    rw [← List.length_drop]
    exact Numeral.value_lt (by decide) fun x hx => h x (List.mem_of_mem_drop hx)
  have hcoefficient : d.coefficient =
      Numeral.value 10 (d.digits.drop index) +
        10 ^ (d.digits.length - index) * Numeral.value 10 (d.digits.take index) := by
    rw [coefficient, add_comm, mul_comm, ← List.length_drop, ← Numeral.value_append,
      List.take_append_drop]
  have hplace : 10 ^ (d.digits.length - index) = 10 ^ (d.digits.length - (index + 1)) * 10 := by
    rw [← pow_succ]
    congr 1
    omega
  rw [hdrop, Numeral.value_cons, List.length_drop] at hcoefficient
  have hdigit := h _ (List.getElem_mem hindex)
  rw [digitAt_natCast hindex, hcoefficient, hplace]
  generalize 10 ^ (d.digits.length - (index + 1)) = unit at *
  generalize d.digits[index] = x at *
  generalize Numeral.value 10 (d.digits.drop (index + 1)) = rest at *
  have hmul : x * unit ≤ 9 * unit := Nat.mul_le_mul_right _ (by omega)
  rw [roundedQuotient_awayFromZero_eq, Nat.add_mul_div_left _ _ (by omega), Nat.add_mul_mod_self_left,
    Nat.div_eq_of_lt (by omega), Nat.mod_eq_of_lt (by omega), zero_add]
  congr 1
  by_cases hfive : 5 ≤ x
  · have := Nat.mul_le_mul_right unit hfive
    rw [if_pos hfive, if_neg (by omega)]
  · have := Nat.mul_le_mul_right unit (show x ≤ 4 by omega)
    rw [if_neg hfive, if_pos (by omega)]

/-- Rounding at a digit is rounding the quotient of all digits by the place value at the cut. -/
theorem roundDigits_eq_nearestAt (h : ∀ x ∈ d.digits, x < 10) (keep : ℤ) :
    d.roundDigits keep = d.nearestAt .awayFromZero keep := by
  unfold roundDigits nearestAt
  by_cases hkept : d.digits.length ≤ keep
  · rw [if_pos hkept, if_pos hkept]
  · by_cases hneg : keep < 0
    · rw [if_neg hkept, if_neg hkept, if_pos hneg, if_pos hneg]
      rfl
    · obtain ⟨k, rfl⟩ := Int.eq_ofNat_of_zero_le (not_lt.1 hneg)
      let kept : Decimal := { d with digits := d.digits.take k }
      have hk : k < d.digits.length := by omega
      have hlength : kept.digits.length = k := by
        rw [List.length_take]
        omega
      have hlt : ∀ x ∈ kept.digits, x < 10 := fun x hx => h x (List.mem_of_mem_take hx)
      have hscale : kept.scale = d.point - k := by rw [scale, hlength]
      rw [if_neg hkept, if_neg hkept, if_neg hneg, if_neg hneg]
      dsimp only [Int.toNat_natCast]
      rw [Nat.pow_eq, roundedQuotient_of_digitAt h hk]
      split
      · have hcarry := coefficient_carry hlength.ge
        rw [hlength, Nat.sub_self, pow_zero] at hcarry
        rw [trim_eq_ofScaled (digit_lt_carry hlt), hcarry, scale_carry, negative_carry, hscale]
        rfl
      · rw [trim_eq_ofScaled hlt, hscale]
        rfl

/-- Rounding at a digit takes the nearest multiple of its place value. -/
theorem magnitude_roundDigits (h : ∀ x ∈ d.digits, x < 10) (keep : ℤ) :
    (d.roundDigits keep).magnitude =
      ⌊d.magnitude / 10 ^ (d.point - keep) + 1 / 2⌋₊ * 10 ^ (d.point - keep) := by
  rw [roundDigits_eq_nearestAt h, magnitude_nearestAt h]

theorem isNormal_roundDigits (h : d.IsNormal) (keep : ℤ) : (d.roundDigits keep).IsNormal := by
  rw [roundDigits_eq_nearestAt h.digit_lt]
  exact isNormal_nearestAt h _ _

theorem length_digits_roundDigits_le (h : ∀ x ∈ d.digits, x < 10) {keep : ℕ} (hkeep : 0 < keep) :
    (d.roundDigits keep).digits.length ≤ keep := by
  rw [roundDigits_eq_nearestAt h]
  exact length_digits_nearestAt_le h _ hkeep

theorem IsNormal.toRat_roundDigits (h : d.IsNormal) (keep : ℤ) :
    (d.roundDigits keep).toRat = roundedTo (10 ^ (d.point - keep)) d.toRat := by
  rw [roundedTo, abs_toRat, ← magnitude_roundDigits h.digit_lt, toRat, negative_roundDigits]
  by_cases hd : d.digits = []
  · have hzero : (d.roundDigits keep).magnitude = 0 := by
      rw [magnitude_roundDigits h.digit_lt, magnitude_of_digits_eq_nil hd]
      norm_num
    simp [hzero]
  · rw [h.sign_toRat hd]
    split <;> ring

theorem IsNormal.toRat_roundSignificant (h : d.IsNormal) (p : ℕ) :
    (d.roundSignificant p).toRat = roundedSignificant p d.toRat := by
  rw [roundSignificant, h.toRat_roundDigits, roundedSignificant, abs_toRat, h.log_magnitude]
  by_cases hd : d.digits = []
  · rw [h.toRat_eq_zero_iff.2 hd]
    simp [roundedTo]
  · rw [exponent, if_neg (mt isZero_iff.1 hd)]
    congr 2
    ring

theorem IsNormal.toRat_roundFraction (h : d.IsNormal) (places : ℕ) :
    (d.roundFraction places).toRat = roundedTo (10 ^ (-places : ℤ)) d.toRat := by
  have hunit : d.point - (d.point + places) = -(places : ℤ) := by ring
  rw [← hunit]
  exact h.toRat_roundDigits _

/-- No digit stands behind the places that are kept. -/
theorem neg_le_scale_roundFraction (h : ∀ x ∈ d.digits, x < 10) (places : ℕ) :
    -(places : ℤ) ≤ (d.roundFraction places).scale := by
  rw [roundFraction, roundDigits_eq_nearestAt h]
  unfold nearestAt
  split
  · rw [scale]
    omega
  · split
    · simp [zero, scale]
    · exact le_trans (by omega) (min_le_scale_ofScaled _ _ _)

theorem roundFraction_eq_self {places : ℕ} (h : d.digits.length ≤ d.point + places) :
    d.roundFraction places = d := by
  rw [roundFraction, roundDigits, if_pos h]

/-- A whole number has no digits to round away behind the point. -/
theorem roundFraction_of_length_le (h : d.digits.length ≤ d.point) (places : ℕ) :
    d.roundFraction places = d :=
  roundFraction_eq_self (by omega)

/-- Zero stays zero, whatever it is rounded to. -/
theorem digits_roundDigits_of_eq_nil (h : d.digits = []) (keep : ℤ) :
    (d.roundDigits keep).digits = [] := by
  unfold roundDigits
  split
  · exact h
  · rw [if_pos]
    · rfl
    · rw [h, List.length_nil] at *
      omega

end Decimal
end NativeBindings
