import NativeBindings.Format.Standard
import NativeBindings.Proofs.Number.DigitText
import NativeBindings.Proofs.Number.Written

/-!
# The parts of written decimals

Fixed and scientific notation write a decimal as a number whose parts are known, and reading the
parts back gives the value of the decimal. Grouped digits stand in groups of three.

## Main definitions

- `inThrees` — digits in groups of three, counted from the end
- `Decimal.fixedParts`, `Decimal.scientificParts` — the parts that the two notations write

## Main statements

- `Decimal.signed_fixedDigits`, `Decimal.signed_scientific` — the notations write these parts
- `Decimal.value_fixedParts`, `Decimal.value_scientificParts` — the parts denote the decimal
-/

namespace NativeBindings

/-! ## Groups of three -/

/-- Digits in groups of three, counted from the end. -/
def inThrees : List Char → List (List Char)
  | [] => []
  | c :: cs =>
    match inThrees cs with
    | [] => [[c]]
    | g :: gs => if cs.length % 3 = 0 then [c] :: g :: gs else (c :: g) :: gs

/-- The first group has one to three digits and the others have three. -/
def AreThrees (groups : List (List Char)) : Prop :=
  ∃ first others, groups = first :: others ∧ 1 ≤ first.length ∧ first.length ≤ 3 ∧
    ∀ g ∈ others, g.length = 3

theorem flatten_inThrees (s : List Char) : (inThrees s).flatten = s := by
  induction s with
  | nil => rfl
  | cons c cs ih =>
    rw [inThrees]
    split
    next h =>
      rw [h] at ih
      rw [← ih]
      rfl
    next g gs h =>
      rw [h] at ih
      split <;> rw [← ih] <;> simp

theorem length_flatten_mod {others : List (List Char)} (h : ∀ g ∈ others, g.length = 3) :
    others.flatten.length % 3 = 0 := by
  induction others with
  | nil => rfl
  | cons g gs ih =>
    rw [List.forall_mem_cons] at h
    rw [List.flatten_cons, List.length_append, h.1]
    have := ih h.2
    omega

theorem areThrees_inThrees {s : List Char} (hs : s ≠ []) : AreThrees (inThrees s) := by
  induction s with
  | nil => exact absurd rfl hs
  | cons c cs ih =>
    rw [inThrees]
    split
    next => exact ⟨[c], [], rfl, le_rfl, by simp, by simp⟩
    next g gs h =>
      have hcs : cs ≠ [] := by
        rintro rfl
        simp [inThrees] at h
      obtain ⟨first, others, hgroups, hpos, hle, hthree⟩ := ih hcs
      obtain ⟨rfl, rfl⟩ := List.cons.inj (h.symm.trans hgroups)
      have hlength : cs.length = g.length + gs.flatten.length := by
        rw [← flatten_inThrees cs, h, List.flatten_cons, List.length_append]
      -- A new group starts exactly when all groups are full.
      have hmod := length_flatten_mod hthree
      split
      · refine ⟨[c], g :: gs, rfl, le_rfl, by simp, List.forall_mem_cons.2 ⟨?_, hthree⟩⟩
        omega
      · refine ⟨c :: g, gs, rfl, by simp, ?_, hthree⟩
        rw [List.length_cons]
        omega

theorem grouped_eq_joinSegments (s : List Char) :
    NumberSymbols.invariant.grouped s = joinSegments ',' (inThrees s) := by
  induction s with
  | nil => rfl
  | cons c cs ih =>
    rw [NumberSymbols.grouped, ih, inThrees]
    by_cases hcs : cs = []
    · subst hcs
      rfl
    · have hne := areThrees_inThrees hcs
      obtain ⟨g, gs, hgroups, -⟩ := hne
      rw [hgroups]
      dsimp only
      split
      next h =>
        rw [if_pos h.2]
        rfl
      next h =>
        rw [if_neg fun hmod => h ⟨hcs, hmod⟩]
        cases gs <;> rfl

namespace Decimal

variable {d : Decimal} {places : ℕ} {inGroups : Bool} {minDigits : ℕ} {symbol : Char}

/-- The sign of a decimal, as a factor of its value. -/
theorem toRat_eq_mul (d : Decimal) : d.toRat = (if d.negative then -1 else 1) * d.magnitude := by
  unfold toRat
  split <;> ring

/-! ## Fixed notation -/

/-- The parts of a decimal in fixed notation. -/
def fixedParts (d : Decimal) (places : ℕ) (inGroups : Bool) : Written where
  negative := d.negative
  groups := if inGroups then inThrees d.integerText else [d.integerText]
  fraction := d.fractionText places
  exponent := none

theorem flatten_fixedParts (d : Decimal) (places : ℕ) (inGroups : Bool) :
    (d.fixedParts places inGroups).groups.flatten = d.integerText := by
  unfold fixedParts
  cases inGroups
  · simp
  · simpa using flatten_inThrees d.integerText

theorem isProper_fixedParts (h : ∀ x ∈ d.digits, x < 10) (places : ℕ) (inGroups : Bool) :
    (d.fixedParts places inGroups).IsProper where
  groups_ne_nil := by
    obtain ⟨first, others, hgroups, -⟩ := areThrees_inThrees d.integerText_ne_nil
    cases inGroups <;> simp [fixedParts, hgroups]
  group_ne_nil := by
    obtain ⟨first, others, hgroups, hpos, -, hthree⟩ := areThrees_inThrees d.integerText_ne_nil
    cases inGroups
    · simpa [fixedParts] using d.integerText_ne_nil
    · simp only [fixedParts, if_true, hgroups, List.forall_mem_cons]
      refine ⟨List.ne_nil_of_length_pos hpos, fun g hg => List.ne_nil_of_length_pos ?_⟩
      rw [hthree g hg]
      decide
  isDigit_group := by
    intro g hg c hc
    have hmem := List.mem_flatten.2 ⟨g, hg, hc⟩
    rw [flatten_fixedParts] at hmem
    exact isDigit_integerText h c hmem
  isDigit_fraction := isDigit_digitText h _ _
  exponent := by simp [fixedParts]

theorem fixedDigits_eq_unsignedText (d : Decimal) (places : ℕ) (inGroups : Bool) (symbol : Char) :
    NumberSymbols.invariant.fixedDigits d places inGroups =
      (d.fixedParts places inGroups).unsignedText symbol := by
  have hinteger : (if inGroups then NumberSymbols.invariant.grouped d.integerText
      else d.integerText) = joinSegments ',' (d.fixedParts places inGroups).groups := by
    cases inGroups
    · rfl
    · exact grouped_eq_joinSegments _
  rw [NumberSymbols.fixedDigits, hinteger]
  unfold NumberSymbols.withFraction Written.unsignedText Written.fractionText
  cases hfraction : d.fractionText places with
  | nil => simp [fixedParts, Written.exponentText, hfraction]
  | cons c cs => simp [fixedParts, Written.exponentText, hfraction, NumberSymbols.invariant]

theorem signed_fixedDigits (d : Decimal) (places : ℕ) (inGroups : Bool) (symbol : Char) :
    NumberSymbols.invariant.signed d.negative
        (NumberSymbols.invariant.fixedDigits d places inGroups) =
      (d.fixedParts places inGroups).text symbol := by
  rw [fixedDigits_eq_unsignedText d places inGroups symbol]
  rfl

/-- The parts of a decimal without digits behind its places denote it. -/
theorem value_fixedParts (h : ∀ x ∈ d.digits, x < 10) (hplaces : -(places : ℤ) ≤ d.scale)
    (inGroups : Bool) : (d.fixedParts places inGroups).value = d.toRat := by
  have hlength : (d.fixedParts places inGroups).fraction.length = places := length_digitText _ _ _
  rw [Written.value, flatten_fixedParts, hlength, toRat_eq_mul]
  show (if d.negative then (-1 : ℚ) else 1) *
    (Numeral.read (d.integerText ++ d.fractionText places) * 10 ^ ((0 : ℤ) - places)) = _
  rw [read_fixed h hplaces, zero_sub, zpow_neg, zpow_natCast, mul_assoc d.magnitude,
    mul_inv_cancel₀ (by positivity), mul_one]

/-! ## Scientific notation -/

/-- The parts of a decimal in scientific notation. -/
def scientificParts (d : Decimal) (places minDigits : ℕ) : Written where
  negative := d.negative
  groups := [d.leadText]
  fraction := d.mantissaText places
  exponent := some (d.exponent < 0, Numeral.padZeros minDigits (Numeral.decimal d.exponent.natAbs))

theorem isProper_scientificParts (h : ∀ x ∈ d.digits, x < 10) (places minDigits : ℕ) :
    (d.scientificParts places minDigits).IsProper where
  groups_ne_nil := by simp [scientificParts]
  group_ne_nil := by
    simp only [scientificParts, List.forall_mem_singleton]
    apply List.ne_nil_of_length_pos
    rw [leadText, length_digitText]
    decide
  isDigit_group := by
    simp only [scientificParts, List.forall_mem_singleton]
    exact isDigit_digitText h _ _
  isDigit_fraction := isDigit_digitText h _ _
  exponent := by
    intro negative ds hds
    simp only [scientificParts, Option.some.injEq, Prod.mk.injEq] at hds
    rw [← hds.2]
    exact ⟨Numeral.padZeros_ne_nil (Numeral.decimal_ne_nil _),
      Numeral.isDigit_padZeros (Numeral.isDigit_decimal _)⟩

theorem signed_scientific (d : Decimal) (places minDigits : ℕ) (symbol : Char) :
    NumberSymbols.invariant.signed d.negative
        (NumberSymbols.invariant.withFraction d.leadText (d.mantissaText places) ++
          Standard.exponentText symbol d.exponent minDigits) =
      (d.scientificParts places minDigits).text symbol := by
  have hbody : NumberSymbols.invariant.withFraction d.leadText (d.mantissaText places) ++
      Standard.exponentText symbol d.exponent minDigits =
        (d.scientificParts places minDigits).unsignedText symbol := by
    unfold NumberSymbols.withFraction Written.unsignedText Written.fractionText
    cases hfraction : d.mantissaText places with
    | nil => simp [scientificParts, joinSegments, Written.exponentText, Standard.exponentText,
        hfraction]
    | cons c cs =>
      simp [scientificParts, joinSegments, Written.exponentText, Standard.exponentText,
        hfraction, NumberSymbols.invariant]
  rw [hbody]
  rfl

theorem power_scientificParts (d : Decimal) (places minDigits : ℕ) :
    Written.power (d.scientificParts places minDigits).exponent = d.exponent :=
  Written.power_padZeros d.exponent minDigits

theorem value_scientificParts (h : ∀ x ∈ d.digits, x < 10) (hplaces : d.digits.length ≤ places + 1)
    (minDigits : ℕ) : (d.scientificParts places minDigits).value = d.toRat := by
  have hlength : (d.scientificParts places minDigits).fraction.length = places :=
    length_digitText _ _ _
  rw [Written.value, power_scientificParts, hlength, toRat_eq_mul]
  show (if d.negative then (-1 : ℚ) else 1) *
    (Numeral.read ([d.leadText].flatten ++ d.mantissaText places) * 10 ^ (d.exponent - places)) = _
  rw [List.flatten_singleton, read_mantissa h hplaces]
  by_cases hd : d.digits = []
  · rw [magnitude_of_digits_eq_nil hd]
    ring
  · have hpower : (places : ℤ) + 1 - d.point + (d.exponent - places) = 0 := by
      rw [exponent, if_neg (mt isZero_iff.1 hd)]
      ring
    rw [mul_assoc d.magnitude, ← zpow_add₀ (by norm_num), hpower, zpow_zero, mul_one]

/-- Only zero has a leading zero. -/
theorem IsNormal.exists_leadText (h : d.IsNormal) :
    ∃ c, d.leadText = [c] ∧ (c = '0' → d.digits = []) := by
  refine ⟨Numeral.glyph false (d.digitAt 0), rfl, fun hzero => ?_⟩
  cases hd : d.digits with
  | nil => rfl
  | cons x xs =>
    have hlead : d.digitAt 0 = x := by simp [digitAt, hd]
    have hx : x < 10 := h.digit_lt x (by simp [hd])
    have hvalue := Numeral.digitValue_glyph false x hx
    rw [← hlead, hzero, hlead] at hvalue
    exact absurd (by rw [hd, ← hvalue]; rfl) h.head_ne_zero

end Decimal
end NativeBindings
