import Mathlib.Data.List.DropRight
import NativeBindings.Format.Pattern
import NativeBindings.Proofs.Format.WrittenDecimal
import NativeBindings.Proofs.Number.LooseNotation

/-!
# Digits in the places of a pattern

The digits that fill the places of a pattern denote the number that is written, and every integer
digit is printed at exactly one integer place, so none is lost or looked up outside the digits.

## Main definitions

- `Pattern.Layout.lookups` — the positions of the digits that are printed at an integer place
- `Pattern.integerAt?` — the digits of an integer place where each lookup is checked

## Main statements

- `Pattern.Layout.flatMap_lookups` — the places look up every digit once and in order
- `Pattern.integerAt?_eq_some` — no lookup is outside the digits
- `Pattern.flatMap_integerAt` — the places print all integer digits
- `Pattern.Layout.exists_readLoose?_fill` — the digits that fill the places read as the number
-/

namespace NativeBindings

theorem filter_eq_nil_of_forall {keep : Char → Bool} {s : List Char} (h : ∀ c ∈ s, keep c = false) :
    s.filter keep = [] :=
  List.filter_eq_nil_iff.2 fun c hc => Bool.eq_false_iff.1 (h c hc)

/-- Only separators are left out of grouped digits. -/
theorem NumberSymbols.filter_grouped {sym : NumberSymbols} {keep : Char → Bool} {s : List Char}
    (hseparator : ∀ c ∈ sym.groupSeparator, keep c = false) (hs : ∀ c ∈ s, keep c = true) :
    (sym.grouped s).filter keep = s := by
  induction s with
  | nil => rfl
  | cons c cs ih =>
    rw [List.forall_mem_cons] at hs
    rw [grouped]
    split
    · rw [List.filter_cons_of_pos hs.1, List.filter_append, filter_eq_nil_of_forall hseparator,
        ih hs.2, List.nil_append]
    · rw [List.filter_cons_of_pos hs.1, ih hs.2]

namespace Pattern

variable {l : Layout} {sym : NumberSymbols} {d : Decimal} {integer : List Char}

/-! ## Lookups -/

/-- The positions of the digits that are printed at the integer place of the given index, where
`count` digits are not grouped. -/
def Layout.lookups (l : Layout) (count index : ℕ) : List ℕ :=
  let extra : ℤ := count - l.integerPlaces
  if index = 0 ∧ 0 < extra then List.range (extra.toNat + 1)
  else if 0 ≤ index + extra then [(index + extra).toNat]
  else []

/-- The first places look up the digits up to their last place, counted from the end. -/
theorem Layout.flatMap_lookups_range (l : Layout) (count k : ℕ) :
    (List.range (k + 1)).flatMap (l.lookups count) =
      List.range (k + 1 + count - l.integerPlaces : ℤ).toNat := by
  induction k with
  | zero =>
    rw [List.range_one, List.flatMap_singleton, lookups]
    split
    · congr 1
      omega
    · split
      next hzero =>
        have hextra : ((0 : ℕ) + ((count : ℤ) - l.integerPlaces)).toNat = 0 := by omega
        have hone : ((0 : ℕ) + 1 + (count : ℤ) - l.integerPlaces).toNat = 1 := by omega
        rw [hextra, hone]
        rfl
      next =>
        have hnone : ((0 : ℕ) + 1 + (count : ℤ) - l.integerPlaces).toNat = 0 := by omega
        rw [hnone]
        rfl
  | succ k ih =>
    rw [List.range_succ, List.flatMap_append, ih, List.flatMap_singleton, lookups,
      if_neg (by omega)]
    split
    next hle =>
      have hnext : ((k + 1 : ℕ) + 1 + (count : ℤ) - l.integerPlaces).toNat =
          (k + 1 + (count : ℤ) - l.integerPlaces).toNat + 1 := by omega
      have hposition : ((k + 1 : ℕ) + ((count : ℤ) - l.integerPlaces)).toNat =
          (k + 1 + (count : ℤ) - l.integerPlaces).toNat := by omega
      rw [hnext, hposition, List.range_succ]
    next hlt =>
      have hnone : (k + 1 + (count : ℤ) - l.integerPlaces).toNat = 0 := by omega
      have hnone' : ((k + 1 : ℕ) + 1 + (count : ℤ) - l.integerPlaces).toNat = 0 := by omega
      rw [hnone, hnone', List.append_nil]

/-- The places look up every digit once and in order. -/
theorem Layout.flatMap_lookups (h : 0 < l.integerPlaces) (count : ℕ) :
    (List.range l.integerPlaces).flatMap (l.lookups count) = List.range count := by
  obtain ⟨k, hk⟩ := Nat.exists_eq_add_of_lt h
  have hcount : (k + 1 + count - l.integerPlaces : ℤ).toNat = count := by omega
  have hrange := l.flatMap_lookups_range count k
  rw [hcount] at hrange
  rwa [hk, Nat.zero_add]

theorem Layout.lt_of_mem_lookups {count index position : ℕ} (hindex : index < l.integerPlaces)
    (h : position ∈ l.lookups count index) : position < count := by
  have hmem : position ∈ (List.range l.integerPlaces).flatMap (l.lookups count) :=
    List.mem_flatMap.2 ⟨index, List.mem_range.2 hindex, h⟩
  rw [flatMap_lookups (by omega)] at hmem
  exact List.mem_range.1 hmem

theorem filterMap_getElem?_range (s : List Char) (n : ℕ) :
    (List.range n).filterMap (s[·]?) = s.take n := by
  induction n with
  | zero => rfl
  | succ n ih =>
    rw [List.range_succ, List.filterMap_append, ih, List.take_add_one]
    congr 1

theorem integerAt_eq_filterMap (hgrouping : l.grouping = false) (sym : NumberSymbols)
    (integer : List Char) (index : ℕ) :
    integerAt sym l integer index = (l.lookups integer.length index).filterMap (integer[·]?) := by
  rw [integerAt, hgrouping, if_neg Bool.false_ne_true, Layout.lookups]
  dsimp only
  split
  · exact (filterMap_getElem?_range _ _).symm
  · split
    next =>
      cases h : integer[((index : ℤ) + (integer.length - l.integerPlaces)).toNat]? <;> simp [h]
    next => rfl

/-- The digits printed at the integer place of the given index; none if one of them is looked up
outside the digits. -/
def integerAt? (sym : NumberSymbols) (l : Layout) (integer : List Char) (index : ℕ) :
    Option (List Char) :=
  if l.grouping then some (if index = 0 then sym.grouped integer else [])
  else (l.lookups integer.length index).mapM (integer[·]?)

theorem mapM_getElem? {s : List Char} {positions : List ℕ} (h : ∀ i ∈ positions, i < s.length) :
    positions.mapM (s[·]?) = some (positions.filterMap (s[·]?)) := by
  induction positions with
  | nil => rfl
  | cons i positions ih =>
    rw [List.forall_mem_cons] at h
    simp [List.getElem?_eq_getElem h.1, ih h.2]

/-- No lookup is outside the digits. -/
theorem integerAt?_eq_some {index : ℕ} (hindex : index < l.integerPlaces) (sym : NumberSymbols)
    (integer : List Char) :
    integerAt? sym l integer index = some (integerAt sym l integer index) := by
  unfold integerAt?
  split
  next hgrouping => rw [integerAt, if_pos hgrouping]
  next hgrouping =>
    rw [integerAt_eq_filterMap (Bool.eq_false_iff.2 hgrouping),
      mapM_getElem? fun i hi => Layout.lt_of_mem_lookups hindex hi]

/-- The integer places print all integer digits. -/
theorem flatMap_integerAt (h : 0 < l.integerPlaces) (sym : NumberSymbols) (integer : List Char) :
    (List.range l.integerPlaces).flatMap (integerAt sym l integer) =
      if l.grouping then sym.grouped integer else integer := by
  cases hgrouping : l.grouping with
  | false =>
    have hplaces : integerAt sym l integer =
        fun index => (l.lookups integer.length index).filterMap (integer[·]?) :=
      funext (integerAt_eq_filterMap hgrouping sym integer)
    rw [hplaces, ← List.filterMap_flatMap, Layout.flatMap_lookups h, filterMap_getElem?_range,
      List.take_length]
    exact (if_neg Bool.false_ne_true).symm
  | true =>
    obtain ⟨k, hk⟩ := Nat.exists_eq_add_of_lt h
    have hfirst : integerAt sym l integer 0 = sym.grouped integer := by simp [integerAt, hgrouping]
    have hothers (index : ℕ) : integerAt sym l integer (index + 1) = [] := by
      simp [integerAt, hgrouping]
    rw [hk, Nat.zero_add, List.range_succ_eq_map, List.flatMap_cons, hfirst, List.flatMap_map]
    simp [hothers]

/-! ## Digits that fill the places -/

namespace Layout

theorem fraction_fill (l : Layout) (d : Decimal) (exponent : ℤ) :
    (l.fill d exponent).fraction = (d.fractionText l.maxFraction).take l.minFraction ++
      ((d.fractionText l.maxFraction).drop l.minFraction).rdropWhile (· = '0') := rfl

/-- Only zeros are left out of the fraction. -/
theorem exists_fractionText_eq (l : Layout) (d : Decimal) (exponent : ℤ) :
    ∃ k, d.fractionText l.maxFraction =
      (l.fill d exponent).fraction ++ List.replicate k '0' := by
  let tail := (d.fractionText l.maxFraction).drop l.minFraction
  have hzeros (c : Char) (hc : c ∈ tail.rtakeWhile (· = '0')) : c = '0' := by
    simpa using List.mem_rtakeWhile_imp hc
  refine ⟨(tail.rtakeWhile (· = '0')).length, ?_⟩
  rw [fraction_fill, List.append_assoc, ← List.eq_replicate_of_mem hzeros,
    List.rdropWhile_append_rtakeWhile, List.take_append_drop]

theorem length_fraction_fill_le (l : Layout) (d : Decimal) (exponent : ℤ) :
    (l.fill d exponent).fraction.length ≤ l.maxFraction := by
  obtain ⟨k, hk⟩ := l.exists_fractionText_eq d exponent
  have hlength := congrArg List.length hk
  rw [Decimal.fractionText, Decimal.length_digitText, List.length_append] at hlength
  omega

theorem minFraction_le_length (h : l.minFraction ≤ l.maxFraction) (d : Decimal) (exponent : ℤ) :
    l.minFraction ≤ (l.fill d exponent).fraction.length := by
  rw [fraction_fill, List.length_append, List.length_take, Decimal.fractionText,
    Decimal.length_digitText]
  omega

/-- A fraction that is longer than it has to be does not end in a zero. -/
theorem getLast?_fraction_fill (exponent : ℤ)
    (h : l.minFraction < (l.fill d exponent).fraction.length) :
    (l.fill d exponent).fraction.getLast? ≠ some '0' := by
  rw [fraction_fill] at h ⊢
  have hne : ((d.fractionText l.maxFraction).drop l.minFraction).rdropWhile (· = '0') ≠ [] := by
    intro hnil
    rw [hnil, List.append_nil, List.length_take] at h
    omega
  rw [List.getLast?_append_of_ne_nil _ hne, List.getLast?_eq_some_getLast hne]
  intro hlast
  have hnot := List.rdropWhile_last_not (p := (· = '0')) _ hne
  exact hnot (decide_eq_true (Option.some.inj hlast))

/-- Zero has no digits for places that need not be filled. -/
theorem fill_of_digits_eq_nil (hd : d.digits = []) (hpoint : d.point = 0)
    (hinteger : l.minInteger = 0) (hfraction : l.minFraction = 0) (exponent : ℤ) :
    l.fill d exponent = ⟨[], [], exponent⟩ := by
  have hdigit (i : ℤ) : d.digitAt i = 0 := by simp [Decimal.digitAt, hd]
  have hzeros : (d.fractionText l.maxFraction).rdropWhile (· = '0') = [] := by
    rw [List.rdropWhile_eq_nil_iff]
    simp [Decimal.fractionText, Decimal.digitText, hdigit, Numeral.glyph]
  have hfill : (l.fill d exponent).fraction = [] := by
    rw [fraction_fill, hfraction, List.take_zero, List.drop_zero, hzeros]
    rfl
  rw [fill] at hfill ⊢
  rw [Filling.mk.injEq]
  refine ⟨?_, hfill, rfl⟩
  rw [hinteger, hpoint, if_neg (lt_irrefl 0)]
  rfl

theorem integer_fill (l : Layout) (d : Decimal) (exponent : ℤ) :
    (l.fill d exponent).integer =
      Numeral.padZeros l.minInteger (if 0 < d.point then d.integerText else []) := rfl

theorem minInteger_le_length (l : Layout) (d : Decimal) (exponent : ℤ) :
    l.minInteger ≤ (l.fill d exponent).integer.length := by
  rw [integer_fill, Numeral.length_padZeros]
  exact Nat.le_max_left _ _

theorem isDigit_integer_fill (h : ∀ x ∈ d.digits, x < 10) (l : Layout) (exponent : ℤ) :
    ∀ c ∈ (l.fill d exponent).integer, Numeral.isDigit c = true := by
  rw [integer_fill]
  apply Numeral.isDigit_padZeros
  split
  · exact Decimal.isDigit_integerText h
  · exact fun c hc => absurd hc List.not_mem_nil

theorem isDigit_fraction_fill (h : ∀ x ∈ d.digits, x < 10) (l : Layout) (exponent : ℤ) :
    ∀ c ∈ (l.fill d exponent).fraction, Numeral.isDigit c = true := by
  obtain ⟨k, hk⟩ := l.exists_fractionText_eq d exponent
  intro c hc
  apply Decimal.isDigit_digitText h d.point l.maxFraction
  have hmem := List.mem_append_left (List.replicate k '0') hc
  rwa [← hk] at hmem

theorem minus_notMem_fill (h : ∀ x ∈ d.digits, x < 10) (l : Layout) (exponent : ℤ) :
    '-' ∉ (l.fill d exponent).integer ++
      Written.fractionText (l.fill d exponent).fraction := by
  rw [List.mem_append, not_or]
  refine ⟨fun hmem => absurd (isDigit_integer_fill h l exponent _ hmem) (by decide), ?_⟩
  unfold Written.fractionText
  split
  · exact List.not_mem_nil
  · rw [List.mem_cons, not_or]
    exact ⟨by decide, fun hmem => absurd (isDigit_fraction_fill h l exponent _ hmem) (by decide)⟩

/-- The integer digits that fill the places do not change what is read with those behind them. -/
theorem read_integer_fill_append (l : Layout) (d : Decimal) (exponent : ℤ) (s : List Char) :
    Numeral.read ((l.fill d exponent).integer ++ s) = Numeral.read (d.integerText ++ s) := by
  have hpad (digits : List Char) : Numeral.padZeros l.minInteger digits ++ s =
      List.replicate (l.minInteger - digits.length) '0' ++ (digits ++ s) := by
    rw [Numeral.padZeros, List.append_assoc]
  have hzeros (k : ℕ) (digits : List Char) :
      Numeral.read (List.replicate k '0' ++ digits) = Numeral.read digits := by
    have hvalue := Numeral.value_pad 10 k 0 (digits.map Numeral.digitValue)
    simpa [Numeral.read, Numeral.digitValue] using hvalue
  rw [integer_fill, hpad, hzeros]
  split
  next => rfl
  next hpoint =>
    rw [Decimal.integerText, if_pos (by omega), List.nil_append]
    exact (hzeros 1 s).symm

/-- The digits that fill the places read as the number without its point. -/
theorem read_fill (h : ∀ x ∈ d.digits, x < 10) (hplaces : -(l.maxFraction : ℤ) ≤ d.scale)
    (exponent : ℤ) :
    (Numeral.read ((l.fill d exponent).integer ++ (l.fill d exponent).fraction) : ℚ) =
      d.magnitude * 10 ^ (l.fill d exponent).fraction.length := by
  obtain ⟨k, hk⟩ := l.exists_fractionText_eq d exponent
  have hlength := congrArg List.length hk
  rw [Decimal.fractionText, Decimal.length_digitText, List.length_append, List.length_replicate]
    at hlength
  have hread := Decimal.read_fixed h hplaces
  rw [hk, ← List.append_assoc, Numeral.read_append_zeros, hlength, pow_add] at hread
  push_cast at hread
  rw [← mul_assoc, mul_left_inj' (by positivity)] at hread
  rw [read_integer_fill_append, hread]

/-- The digits that fill the places denote the number, with the sign and the exponent that are
written with them. -/
theorem value_fill (h : ∀ x ∈ d.digits, x < 10) (hplaces : -(l.maxFraction : ℤ) ≤ d.scale)
    (exponent : ℤ) (power : Option (Bool × List Char)) :
    Written.value ⟨d.negative && !d.isZero, [(l.fill d exponent).integer],
      (l.fill d exponent).fraction, power⟩ = d.toRat * 10 ^ Written.power power := by
  have hsign : (if d.negative && !d.isZero then (-1 : ℚ) else 1) * d.magnitude = d.toRat := by
    rw [Decimal.toRat_eq_mul]
    cases hzero : d.isZero with
    | false => simp
    | true => simp [Decimal.magnitude_of_digits_eq_nil (Decimal.isZero_iff.1 hzero)]
  rw [Written.value, List.flatten_singleton, read_fill h hplaces, zpow_sub₀ (by norm_num),
    zpow_natCast, ← hsign]
  field_simp

/-- The digits that fill the places are read back from the text that they are written in, with its
sign and with an exponent behind them. -/
theorem exists_readLoose?_fill (h : ∀ x ∈ d.digits, x < 10)
    (hplaces : -(l.maxFraction : ℤ) ≤ d.scale) {exponent : ℤ}
    (hsome : (l.fill d exponent).integer ≠ [] ∨ (l.fill d exponent).fraction ≠ [])
    {tail : List Char} {power : Option (Bool × List Char)}
    (hstop : StopsAt Written.isInteger tail) (hpoint : ∀ s, tail ≠ '.' :: s)
    (hpower : Written.looseExponent? tail = some power) :
    ∃ w, Written.readLoose? (NumberSymbols.invariant.signed (d.negative && !d.isZero)
        ((l.fill d exponent).integer ++
          (Written.fractionText (l.fill d exponent).fraction ++ tail))) = some w ∧
      w.value = d.toRat * 10 ^ Written.power power ∧
      w.groups.flatten = (l.fill d exponent).integer ∧
      w.fraction = (l.fill d exponent).fraction ∧ w.exponent = power :=
  ⟨_, Written.readLoose?_signed (isDigit_integer_fill h l exponent)
    (isDigit_fraction_fill h l exponent) hsome hstop hpoint hpower _,
    value_fill h hplaces exponent power, List.flatten_singleton, rfl, rfl⟩

end Layout
end Pattern
end NativeBindings
