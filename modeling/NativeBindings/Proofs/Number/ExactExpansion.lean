import NativeBindings.Format.Number
import NativeBindings.Proofs.Number.DigitLoop
import NativeBindings.Proofs.Number.DigitText

/-!
# Expansions of numbers

An integer and a binary fraction have a finite decimal expansion. The expansion of a binary fraction
is cut at a number of significant digits, which never leaves zero of another number, and is read off
its exponential notation, which loses no digit.

## Main definitions

- `Number.toRat` — the number that is written

## Main statements

- `Decimal.IsNormal.ofExponential_exponentialText` — exponential notation is read back
- `Binary64.toRat_dyadicDecimal` — the expansion of a binary fraction is exact
- `Number.digits_exact_ne_nil` — the expansion that is written is zero only for zero
-/

namespace NativeBindings

namespace Decimal

variable {d : Decimal}

/-- The leading digit is never rounded away. -/
theorem IsNormal.digits_nearestAt_ne_nil (h : d.IsNormal) (hd : d.digits ≠ []) (tie : Tie)
    {keep : ℤ} (hkeep : 0 < keep) : (d.nearestAt tie keep).digits ≠ [] := by
  unfold nearestAt
  split
  · exact hd
  next hlength =>
    rw [if_neg (by omega)]
    let dropped := d.digits.length - keep.toNat
    have hcoefficient : 10 ^ dropped ≤ d.coefficient :=
      calc 10 ^ dropped ≤ 10 ^ (d.digits.length - 1) :=
            Nat.pow_le_pow_right (by decide) (by omega)
        _ ≤ d.coefficient := Numeral.pow_le_value h.head_ne_zero hd
    have hpos : 0 < roundedQuotient tie d.coefficient (10 ^ dropped) :=
      lt_of_lt_of_le (Nat.div_pos hcoefficient (by positivity)) (div_le_roundedQuotient tie _ _)
    intro hnil
    have hmagnitude := magnitude_of_digits_eq_nil hnil
    rw [magnitude_ofScaled] at hmagnitude
    have hne : (roundedQuotient tie d.coefficient (10 ^ dropped) : ℚ) ≠ 0 := by
      exact_mod_cast hpos.ne'
    exact mul_ne_zero hne (by positivity) hmagnitude

theorem IsNormal.digits_roundDigits_ne_nil (h : d.IsNormal) (hd : d.digits ≠ []) {keep : ℤ}
    (hkeep : 0 < keep) : (d.roundDigits keep).digits ≠ [] := by
  rw [roundDigits_eq_nearestAt h.digit_lt]
  exact h.digits_nearestAt_ne_nil hd _ hkeep

/-! ## Exponential notation -/

theorem IsNormal.withSign (h : d.IsNormal) (s : Bool) : IsNormal { d with negative := s } :=
  ⟨h.digit_lt, h.head_ne_zero, h.last_ne_zero, h.point_of_zero⟩

theorem readDigits_decimal (n : ℕ) : readDigits (Numeral.decimal n) = n := by
  have hdigits := List.all_eq_true.2 (Numeral.isDigit_decimal n)
  rw [readDigits, hdigits, List.isEmpty_eq_false_iff.2 (Numeral.decimal_ne_nil n),
    Numeral.read_decimal]
  rfl

theorem readExponent_of_isDigit {s : List Char} (h : ∀ c ∈ s, Numeral.isDigit c = true) :
    readExponent s = readDigits s := by
  cases s with
  | nil => rfl
  | cons c s =>
    have hc := h c List.mem_cons_self
    unfold readExponent
    split
    next heq =>
      rw [(List.cons.inj heq).1] at hc
      cases hc
    next heq =>
      rw [(List.cons.inj heq).1] at hc
      cases hc
    next => rfl

theorem readExponent_text (e : ℤ) :
    readExponent (if e < 0 then '-' :: Numeral.decimal e.natAbs else Numeral.decimal e.natAbs) =
      e := by
  split
  · rw [readExponent, readDigits_decimal]
    omega
  · rw [readExponent_of_isDigit (Numeral.isDigit_decimal _), readDigits_decimal]
    omega

theorem ofExponential_append {mantissa : List Char} (h : 'e' ∉ mantissa) (s : Bool) (e : List Char) :
    ofExponential s (mantissa ++ 'e' :: e) =
      trim ⟨s, (mantissa.filter Numeral.isDigit).map Numeral.digitValue, readExponent e + 1⟩ := by
  have hall : ∀ c ∈ mantissa, decide (c ≠ 'e') = true := by
    intro c hc
    rw [decide_eq_true_iff]
    rintro rfl
    exact h hc
  rw [ofExponential, List.takeWhile_append_of_pos hall, List.dropWhile_append_of_pos hall,
    List.takeWhile_cons_of_neg (by simp), List.dropWhile_cons_of_neg (by simp), List.append_nil]

/-- Zeros behind the digits of a normal form are trimmed away. -/
theorem IsNormal.trim_append_zeros (h : d.IsNormal) (s : Bool) (j : ℕ) :
    trim ⟨s, d.digits ++ List.replicate j 0, d.exponent + 1⟩ = { d with negative := s } := by
  let padded : Decimal := ⟨s, d.digits ++ List.replicate j 0, d.exponent + 1⟩
  have hlt : ∀ x ∈ padded.digits, x < 10 :=
    Numeral.lt_of_mem_append_zeros h.digit_lt (by decide) j
  have hmagnitude : padded.magnitude = d.magnitude := by
    have hpad : padded.magnitude = magnitude ⟨d.negative, d.digits, d.exponent + 1 - (0 : ℕ)⟩ :=
      magnitude_pad s d.negative d.digits 0 j (d.exponent + 1)
    rw [hpad]
    by_cases hd : d.digits = []
    · rw [magnitude_of_digits_eq_nil hd, magnitude_of_digits_eq_nil]
      exact hd
    · rw [exponent, if_neg (mt isZero_iff.1 hd), sub_add_cancel, Nat.cast_zero, sub_zero]
  exact (isNormal_trim hlt).eq_of_magnitude_eq (h.withSign s) rfl
    ((magnitude_trim padded).trans hmagnitude)

/-- Exponential notation that holds all digits is read back. -/
theorem IsNormal.ofExponential_exponentialText (h : d.IsNormal) {places : ℕ}
    (hplaces : d.digits.length ≤ places + 1) (s : Bool) :
    ofExponential s (d.exponentialText places) = { d with negative := s } := by
  let mantissa := if (d.mantissaText places).isEmpty then d.leadText
    else d.leadText ++ '.' :: d.mantissaText places
  have hlead : ∀ c ∈ d.leadText, Numeral.isDigit c = true := isDigit_digitText h.digit_lt 0 1
  have hfraction : ∀ c ∈ d.mantissaText places, Numeral.isDigit c = true :=
    isDigit_digitText h.digit_lt 1 places
  have hexponent : 'e' ∉ mantissa := by
    have hnot : Numeral.isDigit 'e' = false := by decide
    dsimp only [mantissa]
    grind
  have hdigits : mantissa.filter Numeral.isDigit = d.digitText 0 (1 + places) := by
    rw [← leadText_append_mantissaText]
    dsimp only [mantissa]
    split
    next hnil => rw [List.isEmpty_iff.1 hnil, List.append_nil, List.filter_eq_self.2 hlead]
    next =>
      rw [List.filter_append, List.filter_cons_of_neg (by decide), List.filter_eq_self.2 hlead,
        List.filter_eq_self.2 hfraction]
  have htext : ofExponential s (d.exponentialText places) =
      trim ⟨s, d.digits ++ List.replicate (1 + places - d.digits.length) 0, d.exponent + 1⟩ := by
    refine (ofExponential_append hexponent s _).trans ?_
    rw [hdigits, readExponent_text, digitText_zero d (by omega), Numeral.map_digitValue_glyph]
    exact Numeral.lt_of_mem_append_zeros h.digit_lt (by decide) _
  rw [htext, h.trim_append_zeros]

end Decimal

theorem Binary64.isNormal_dyadicDecimal (m : ℕ) (q : ℤ) : (dyadicDecimal m q).IsNormal := by
  unfold dyadicDecimal
  split <;> exact Decimal.isNormal_ofScaled _ _ _

/-- The expansion of a binary fraction is exact. -/
theorem Binary64.toRat_dyadicDecimal (m : ℕ) (q : ℤ) : (dyadicDecimal m q).toRat = m * 2 ^ q := by
  have hmagnitude : (dyadicDecimal m q).magnitude = m * 2 ^ q := by
    unfold dyadicDecimal
    split
    next hq =>
      obtain ⟨k, rfl⟩ := Int.eq_ofNat_of_zero_le hq
      rw [Decimal.magnitude_ofScaled]
      simp
    next hq =>
      obtain ⟨k, hk⟩ := Int.eq_ofNat_of_zero_le (show 0 ≤ -q by omega)
      obtain rfl : q = -k := by omega
      have hfive : ((m * Nat.pow 5 k : ℕ) : ℚ) = m * 5 ^ k := by
        rw [Nat.cast_mul, Nat.pow_eq, Nat.cast_pow, Nat.cast_ofNat]
      have hten : (10 : ℚ) ^ k = 5 ^ k * 2 ^ k := by
        rw [← mul_pow]
        norm_num
      rw [Decimal.magnitude_ofScaled, neg_neg, Int.toNat_natCast, zpow_neg, zpow_neg,
        zpow_natCast, zpow_natCast, hfive, hten]
      field_simp
  have hnegative : (dyadicDecimal m q).negative = false := by
    unfold dyadicDecimal
    split <;> exact Decimal.negative_ofScaled _ _ _
  rw [Decimal.toRat, hnegative, hmagnitude]
  rfl

/-- The expansion of a binary fraction keeps the digits that its magnitude is displayed with. -/
theorem Binary64.exactDecimal_eq (negative : Bool) (m : ℕ) (q : ℤ) :
    exactDecimal negative m q =
      { (dyadicDecimal m q).nearestAt .toEven exactDigits with negative := negative } := by
  have hnormal := isNormal_dyadicDecimal m q
  exact (Decimal.isNormal_nearestAt hnormal _ _).ofExponential_exponentialText
    (Decimal.length_digits_nearestAt_le hnormal.digit_lt _ (by decide)) negative

namespace Number

/-- The number that is written. -/
def toRat : Number → ℚ
  | integer v _ => v
  | binary negative m q => (if negative then -1 else 1) * (m * 2 ^ q)

theorem isNormal_exact (n : Number) : n.exact.IsNormal := by
  cases n with
  | integer v width => exact Decimal.isNormal_ofInt v
  | binary negative m q =>
    rw [exact, Binary64.exactDecimal_eq]
    exact (Decimal.isNormal_nearestAt (Binary64.isNormal_dyadicDecimal m q) _ _).withSign _

/-- The expansion that is written is zero only for zero. -/
theorem digits_exact_ne_nil {n : Number} (h : n.toRat ≠ 0) : n.exact.digits ≠ [] := by
  cases n with
  | integer v width =>
    have hv : (Decimal.ofInt v).toRat ≠ 0 := by rwa [Decimal.toRat_ofInt]
    exact mt (Decimal.isNormal_ofInt v).toRat_eq_zero_iff.2 hv
  | binary negative m q =>
    have hnormal := Binary64.isNormal_dyadicDecimal m q
    have hne : (Binary64.dyadicDecimal m q).toRat ≠ 0 := by
      rw [Binary64.toRat_dyadicDecimal]
      exact right_ne_zero_of_mul h
    rw [exact, Binary64.exactDecimal_eq]
    exact hnormal.digits_nearestAt_ne_nil (mt hnormal.toRat_eq_zero_iff.2 hne) _ (by decide)

end Number
end NativeBindings
