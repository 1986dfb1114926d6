import NativeBindings.Proofs.Number.Decimal

/-!
# Written digits of decimals

Places before the first digit of a decimal and behind its last one are written as zeros. A row of
places that holds all digits therefore reads as the coefficient with zeros behind it, and the
digits around the point read as the value, scaled by the number of places behind the point.

## Main statements

- `Decimal.IsNormal.integerText_of_scale_nonneg` — whole numbers are written with their digits
- `Decimal.read_digitText` — what a row of places reads as
- `Decimal.read_fixed`, `Decimal.read_mantissa` — what fixed and scientific digits read as
-/

namespace NativeBindings
namespace Decimal

variable {d : Decimal} {start : ℤ} {count places : ℕ}

theorem digitText_append (d : Decimal) (start : ℤ) (i j : ℕ) :
    d.digitText start i ++ d.digitText (start + i) j = d.digitText start (i + j) := by
  unfold digitText
  rw [List.range_add, List.map_append, List.map_map]
  congr 1
  apply List.map_congr_left
  intro k _
  rw [Function.comp_apply, Nat.cast_add, add_assoc]

theorem length_digitText (d : Decimal) (start : ℤ) (count : ℕ) :
    (d.digitText start count).length = count := by
  simp [digitText]

theorem isDigit_digitText (h : ∀ x ∈ d.digits, x < 10) (start : ℤ) (count : ℕ) :
    ∀ c ∈ d.digitText start count, Numeral.isDigit c = true := by
  simp only [digitText, List.forall_mem_map]
  intro i _
  exact Numeral.isDigit_glyph false _ (digitAt_lt h _)

/-- A row of places that holds all digits, with zeros around them. -/
theorem map_digitAt_range (hstart : start ≤ 0) (hcount : d.digits.length ≤ start + count) :
    (List.range count).map (fun i : ℕ => d.digitAt (start + i)) =
      List.replicate (-start).toNat 0 ++ d.digits ++
        List.replicate (start + count - d.digits.length).toNat 0 := by
  apply List.ext_getElem?
  intro i
  rw [List.getElem?_map, List.append_assoc]
  by_cases hi : i < count
  · -- A place in front of the digits, among them or behind them.
    rw [List.getElem?_range hi, Option.map_some, digitAt]
    by_cases hfront : i < (-start).toNat
    · rw [if_pos (by omega), List.getElem?_append_left (by simpa using hfront),
        List.getElem?_replicate_of_lt hfront]
    · rw [if_neg (by omega), List.getElem?_append_right (by simpa using hfront),
        List.length_replicate]
      have hindex : (start + i).toNat = i - (-start).toNat := by omega
      rw [hindex]
      by_cases hdigit : i - (-start).toNat < d.digits.length
      · rw [List.getElem?_append_left hdigit, List.getElem?_eq_getElem hdigit, Option.getD_some]
      · rw [List.getElem?_append_right (by omega), List.getElem?_eq_none (by omega),
          List.getElem?_replicate_of_lt (by omega), Option.getD_none]
  · rw [List.getElem?_eq_none (by simpa using hi), List.getElem?_eq_none]
    · rfl
    · simp only [List.length_append, List.length_replicate]
      omega

theorem read_digitText (h : ∀ x ∈ d.digits, x < 10) (hstart : start ≤ 0)
    (hcount : d.digits.length ≤ start + count) :
    Numeral.read (d.digitText start count) =
      d.coefficient * 10 ^ (start + count - d.digits.length).toNat := by
  have hdigits : d.digitText start count =
      ((List.range count).map fun i : ℕ => d.digitAt (start + i)).map (Numeral.glyph false) := by
    rw [digitText, List.map_map]
    rfl
  rw [hdigits, Numeral.read_map_glyph, map_digitAt_range hstart hcount, Numeral.value_pad]
  · rfl
  · simp only [List.forall_mem_map]
    exact fun i _ => digitAt_lt h _

/-- The places from the first digit on, as many as there are digits or more. -/
theorem digitText_zero (d : Decimal) {count : ℕ} (hcount : d.digits.length ≤ count) :
    d.digitText 0 count =
      (d.digits ++ List.replicate (count - d.digits.length) 0).map (Numeral.glyph false) := by
  have hplaces := map_digitAt_range (le_refl 0) (show (d.digits.length : ℤ) ≤ 0 + count by omega)
  have hlength : ((0 : ℤ) + count - d.digits.length).toNat = count - d.digits.length := by omega
  rw [neg_zero, Int.toNat_zero, List.replicate_zero, List.nil_append, hlength] at hplaces
  rw [← hplaces, digitText, List.map_map]
  rfl

/-- The places before the point of a whole number are its digits, and zero has none. -/
theorem IsNormal.integerText_of_scale_nonneg (h : d.IsNormal) (hscale : 0 ≤ d.scale) :
    (if 0 < d.point then d.integerText else []) =
      (Numeral.digits 10 ⌊d.magnitude⌋₊).map (Numeral.glyph false) := by
  rw [scale] at hscale
  by_cases hd : d.digits = []
  · have hpoint := h.point_of_zero hd
    rw [magnitude_of_digits_eq_nil hd, Nat.floor_zero, Numeral.digits, dif_pos (by simp),
      if_neg (by omega), List.map_nil]
  · have hlength := List.length_pos_iff.2 hd
    obtain ⟨k, hk⟩ := Int.eq_ofNat_of_zero_le (show 0 ≤ d.point by omega)
    let whole := d.digits ++ List.replicate (k - d.digits.length) 0
    have hvalue : d.magnitude = (Numeral.value 10 whole : ℕ) := by
      have hexponent : d.scale = (k - d.digits.length : ℕ) := by
        rw [scale]
        omega
      have hpad := Numeral.value_pad 10 0 (k - d.digits.length) d.digits
      rw [List.replicate_zero, List.nil_append] at hpad
      rw [magnitude, hexponent, zpow_natCast, hpad, coefficient]
      push_cast
      rfl
    have hlt : ∀ x ∈ whole, x < 10 :=
      Numeral.lt_of_mem_append_zeros h.digit_lt (by decide) _
    have hhead : whole.head? ≠ some 0 := by
      rw [List.head?_append_of_ne_nil _ hd]
      exact h.head_ne_zero
    rw [if_pos (by omega), integerText, if_neg (by omega), hk, Int.toNat_natCast,
      digitText_zero d (by omega), hvalue, Nat.floor_natCast,
      Numeral.digits_value (by decide) hlt hhead]

theorem integerText_ne_nil (d : Decimal) : d.integerText ≠ [] := by
  unfold integerText
  split
  next => simp
  next h =>
    apply List.ne_nil_of_length_pos
    rw [length_digitText]
    omega

theorem isDigit_integerText (h : ∀ x ∈ d.digits, x < 10) :
    ∀ c ∈ d.integerText, Numeral.isDigit c = true := by
  unfold integerText
  split
  · exact List.forall_mem_singleton.2 (by decide)
  · exact isDigit_digitText h _ _

/-- The digits around the point read as the value without its point. -/
theorem read_fixed (h : ∀ x ∈ d.digits, x < 10) (hplaces : -(places : ℤ) ≤ d.scale) :
    (Numeral.read (d.integerText ++ d.fractionText places) : ℚ) = d.magnitude * 10 ^ places := by
  have hread : Numeral.read (d.integerText ++ d.fractionText places) =
      d.coefficient * 10 ^ (d.scale + places).toNat := by
    rw [scale] at hplaces ⊢
    unfold integerText fractionText
    split
    next hpoint =>
      have hzero : ∀ s, Numeral.read ('0' :: s) = Numeral.read s := fun s => by
        simp [Numeral.read, Numeral.value, Numeral.digitValue]
      rw [List.singleton_append, hzero, read_digitText h hpoint (by omega)]
      congr 2
      omega
    next hpoint =>
      have happend := digitText_append d 0 d.point.toNat places
      rw [zero_add, Int.toNat_of_nonneg (by omega)] at happend
      rw [happend, read_digitText h le_rfl (by push_cast; omega)]
      congr 2
      omega
  have hpower : (10 : ℚ) ^ (d.scale + places).toNat = 10 ^ d.scale * 10 ^ places := by
    rw [← zpow_natCast, Int.toNat_of_nonneg (by omega), zpow_add₀ (by norm_num), zpow_natCast]
  rw [hread, magnitude]
  push_cast
  rw [hpower]
  ring

theorem leadText_append_mantissaText (d : Decimal) (places : ℕ) :
    d.leadText ++ d.mantissaText places = d.digitText 0 (1 + places) :=
  digitText_append d 0 1 places

/-- The digits behind the leading one read as the value without its point and exponent. -/
theorem read_mantissa (h : ∀ x ∈ d.digits, x < 10) (hplaces : d.digits.length ≤ places + 1) :
    (Numeral.read (d.leadText ++ d.mantissaText places) : ℚ) =
      d.magnitude * 10 ^ (places + 1 - d.point) := by
  rw [leadText_append_mantissaText, read_digitText h le_rfl (by push_cast; omega), magnitude, scale]
  push_cast
  rw [← zpow_natCast, Int.toNat_of_nonneg (by omega), mul_assoc, ← zpow_add₀ (by norm_num)]
  congr 2
  ring

end Decimal
end NativeBindings
