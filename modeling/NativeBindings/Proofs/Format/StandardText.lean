import NativeBindings.Proofs.Format.Specifier
import NativeBindings.Proofs.Format.WrittenDecimal
import NativeBindings.Proofs.Number.DigitLoop

/-!
# Standard formats of integers

The text of an integer in a standard format reads back as the integer, or as the integer rounded
to the significant digits that the format keeps, and has the notation of the format.

## Main definitions

- `Written.IsFixed`, `Written.IsGrouped`, `Written.IsScientific` — notations of written numbers
- `Standard.Denotes` — what the text of an integer in a standard format reads as

## Main statements

- `denotes_text` — standard formats write what they denote
-/

namespace NativeBindings

namespace Written

/-- Digits without separators, exactly `places` of them behind the point, and no exponent. -/
structure IsFixed (w : Written) (places : ℕ) : Prop where
  length_groups : w.groups.length = 1
  length_fraction : w.fraction.length = places
  exponent_eq : w.exponent = none

/-- Fixed notation with a separator at every third integer digit, counted from the point. -/
structure IsGrouped (w : Written) (places : ℕ) : Prop where
  areThrees : AreThrees w.groups
  length_fraction : w.fraction.length = places
  exponent_eq : w.exponent = none

/-- One digit, then exactly `places` digits, and an exponent of at least three. -/
structure IsScientific (w : Written) (places : ℕ) : Prop where
  exists_lead : ∃ c, w.groups = [[c]]
  length_fraction : w.fraction.length = places
  exists_exponent : ∃ negative ds, w.exponent = some (negative, ds) ∧ 3 ≤ ds.length

end Written

namespace Standard

open Written

/-- `w` is `v` to `p` significant digits, in fixed notation for exponents between -5 and `p`. -/
structure IsGeneral (w : Written) (v : ℤ) (p : ℕ) : Prop where
  value_eq : w.value = roundedSignificant p v
  length_groups : w.groups.length = 1
  exponent_eq_none_iff : w.exponent = none ↔
    -5 < Int.log 10 |roundedSignificant p v| ∧ Int.log 10 |roundedSignificant p v| < p

/-- What the text of the integer `v` in a standard format reads as. -/
def Denotes (v : ℤ) (precision : Option ℕ) (out : List Char) : Style → Prop
  | .decimal => ∃ w, read? out = some w ∧ w.value = v ∧ w.IsFixed 0 ∧
      precision.getD 0 ≤ w.groups.flatten.length
  | .fixed => ∃ w, read? out = some w ∧ w.value = v ∧ w.IsFixed (precision.getD 2)
  | .grouped => ∃ w, read? out = some w ∧ w.value = v ∧ w.IsGrouped (precision.getD 2) ∧
      ∀ width, text .invariant (.integer v width) 'F' precision = .ok (out.filter (· ≠ ','))
  | .percent => ∃ w, readPercentage? out = some w ∧ w.value = v * 100 ∧
      w.IsGrouped (precision.getD 2)
  | .currency => (v < 0 ↔ out.head? = some '(') ∧ ∃ w, readAmount? out = some w ∧ w.value = v ∧
      w.IsGrouped (precision.getD 2)
  | .scientific => ∃ w, read? out = some w ∧
      w.value = roundedSignificant (precision.getD 6 + 1) v ∧ w.IsScientific (precision.getD 6) ∧
      (w.groups = [['0']] → v = 0)
  | .general => ∃ w, read? out = some w ∧
      if precision.getD 0 = 0 then w.value = v ∧ w.IsFixed 0 else IsGeneral w v (precision.getD 0)
  | .hexadecimal | .binary | .roundTrip => False

variable {v : ℤ} {precision : Option ℕ} {width places : ℕ} {symbol : Char}

/-! ## All digits of an integer -/

/-- The parts of an integer that is written with at least `minDigits` digits. -/
def integerParts (v : ℤ) (minDigits : ℕ) : Written where
  negative := v < 0
  groups := [Numeral.padZeros minDigits (Numeral.decimal v.natAbs)]
  fraction := []
  exponent := none

theorem isProper_integerParts (v : ℤ) (minDigits : ℕ) : (integerParts v minDigits).IsProper where
  groups_ne_nil := by simp [integerParts]
  group_ne_nil := by
    simp only [integerParts, List.forall_mem_singleton]
    exact Numeral.padZeros_ne_nil (Numeral.decimal_ne_nil _)
  isDigit_group := by
    simp only [integerParts, List.forall_mem_singleton]
    exact Numeral.isDigit_padZeros (Numeral.isDigit_decimal _)
  isDigit_fraction := by simp [integerParts]
  exponent := by simp [integerParts]

theorem read?_integerParts (v : ℤ) (minDigits : ℕ) :
    read? (NumberSymbols.invariant.signed (v < 0)
      (Numeral.padZeros minDigits (Numeral.decimal v.natAbs))) = some (integerParts v minDigits) := by
  rw [← read?_text (.inl rfl) (isProper_integerParts v minDigits)]
  simp [NumberSymbols.signed, NumberSymbols.invariant, Written.text, unsignedText, integerParts,
    joinSegments, fractionText, Written.exponentText]

theorem value_integerParts (v : ℤ) (minDigits : ℕ) : (integerParts v minDigits).value = v := by
  have habs : ((v.natAbs : ℕ) : ℚ) = |(v : ℚ)| := by rw [Nat.cast_natAbs, Int.cast_abs]
  simp only [value, integerParts, List.flatten_singleton, List.append_nil, Numeral.read_padZeros,
    Numeral.read_decimal, power, habs, decide_eq_true_eq]
  by_cases hv : v < 0
  · have : (v : ℚ) < 0 := by exact_mod_cast hv
    simp [hv, abs_of_neg this]
  · have : (0 : ℚ) ≤ v := by exact_mod_cast not_lt.1 hv
    simp [hv, abs_of_nonneg this]

theorem isFixed_integerParts (v : ℤ) (minDigits : ℕ) : (integerParts v minDigits).IsFixed 0 :=
  ⟨rfl, rfl, rfl⟩

/-! ## Fixed notation -/

theorem read?_fixedParts {d : Decimal} (h : d.IsNormal) (places : ℕ) (inGroups : Bool) :
    read? (NumberSymbols.invariant.signed d.negative
      (NumberSymbols.invariant.fixedDigits d places inGroups)) =
        some (d.fixedParts places inGroups) := by
  rw [d.signed_fixedDigits places inGroups 'E']
  exact read?_text (.inl rfl) (d.isProper_fixedParts h.digit_lt places inGroups)

theorem isFixed_fixedParts (d : Decimal) (places : ℕ) : (d.fixedParts places false).IsFixed places :=
  ⟨rfl, d.length_digitText _ _, rfl⟩

theorem isGrouped_fixedParts (d : Decimal) (places : ℕ) :
    (d.fixedParts places true).IsGrouped places :=
  ⟨areThrees_inThrees d.integerText_ne_nil, d.length_digitText _ _, rfl⟩

/-- Without its separators a grouped number is the plain one. -/
theorem filter_text_fixedParts {d : Decimal} (h : d.IsNormal) (places : ℕ) :
    ((d.fixedParts places true).text symbol).filter (· ≠ ',') =
      (d.fixedParts places false).text symbol := by
  rw [filter_text (d.isProper_fixedParts h.digit_lt places true) rfl, Decimal.flatten_fixedParts]
  rfl

theorem fixedText_ofInt (v : ℤ) (width places : ℕ) (inGroups : Bool) :
    fixedText .invariant (.integer v width) places inGroups =
      NumberSymbols.invariant.signed (Decimal.ofInt v).negative
        (NumberSymbols.invariant.fixedDigits (.ofInt v) places inGroups) := by
  rw [fixedText, Number.exact, Decimal.roundFraction_of_length_le (Decimal.length_digits_ofInt_le v)]

theorem value_fixedParts_ofInt (v : ℤ) (places : ℕ) (inGroups : Bool) :
    ((Decimal.ofInt v).fixedParts places inGroups).value = v := by
  have hscale := Decimal.length_digits_ofInt_le v
  rw [Decimal.value_fixedParts (Decimal.isNormal_ofInt v).digit_lt, Decimal.toRat_ofInt]
  rw [Decimal.scale]
  omega

theorem denotes_fixed (v : ℤ) (width places : ℕ) :
    ∃ w, read? (fixedText .invariant (.integer v width) places false) = some w ∧ w.value = v ∧
      w.IsFixed places := by
  rw [fixedText_ofInt]
  exact ⟨_, read?_fixedParts (Decimal.isNormal_ofInt v) places false,
    value_fixedParts_ofInt v places false, isFixed_fixedParts _ _⟩

theorem denotes_grouped (v : ℤ) (width places : ℕ) :
    ∃ w, read? (fixedText .invariant (.integer v width) places true) = some w ∧ w.value = v ∧
      w.IsGrouped places := by
  rw [fixedText_ofInt]
  exact ⟨_, read?_fixedParts (Decimal.isNormal_ofInt v) places true,
    value_fixedParts_ofInt v places true, isGrouped_fixedParts _ _⟩

theorem filter_fixedText (v : ℤ) (width width' places : ℕ) :
    (fixedText .invariant (.integer v width) places true).filter (· ≠ ',') =
      fixedText .invariant (.integer v width') places false := by
  rw [fixedText_ofInt, fixedText_ofInt, Decimal.signed_fixedDigits _ _ _ 'E',
    Decimal.signed_fixedDigits _ _ _ 'E', filter_text_fixedParts (Decimal.isNormal_ofInt v)]

/-! ## Hundredths and amounts -/

theorem denotes_percent (v : ℤ) (width places : ℕ) :
    ∃ w, readPercentage? (percentText .invariant (.integer v width) places) = some w ∧
      w.value = v * 100 ∧ w.IsGrouped places := by
  have hnormal := (Decimal.isNormal_ofInt v).shift 2
  have hwhole := Decimal.length_digits_shift_le (Decimal.length_digits_ofInt_le v)
    (k := 2) (by decide)
  have htext : percentText .invariant (.integer v width) places =
      NumberSymbols.invariant.signed ((Decimal.ofInt v).shift 2).negative
        (NumberSymbols.invariant.fixedDigits ((Decimal.ofInt v).shift 2) places true) ++
          [' ', '%'] := by
    rw [percentText, Number.exact, Decimal.roundFraction_of_length_le hwhole]
    unfold NumberSymbols.signed
    split <;> simp [NumberSymbols.invariant]
  rw [htext, readPercentage?_append]
  refine ⟨_, read?_fixedParts hnormal places true, ?_, isGrouped_fixedParts _ _⟩
  rw [Decimal.value_fixedParts hnormal.digit_lt, Decimal.toRat_shift, Decimal.toRat_ofInt]
  · norm_num
  · rw [Decimal.scale]
    omega

theorem denotes_currency (v : ℤ) (width places : ℕ) :
    (v < 0 ↔ (currencyText .invariant (.integer v width) places).head? = some '(') ∧
      ∃ w, readAmount? (currencyText .invariant (.integer v width) places) = some w ∧
        w.value = v ∧ w.IsGrouped places := by
  have hnormal := Decimal.isNormal_ofInt v
  -- The sign is written by parentheses only, so the digits are read without one.
  have hread : read? (NumberSymbols.invariant.fixedDigits (.ofInt v) places true) =
      some { (Decimal.ofInt v).fixedParts places true with negative := false } := by
    rw [Decimal.fixedDigits_eq_unsignedText _ _ _ 'E']
    exact read?_unsignedText (.inl rfl) (Decimal.isProper_fixedParts hnormal.digit_lt places true)
  have hvalue := value_fixedParts_ofInt v places true
  have hgrouped := isGrouped_fixedParts (Decimal.ofInt v) places
  rw [currencyText, Number.exact,
    Decimal.roundFraction_of_length_le (Decimal.length_digits_ofInt_le v), Decimal.negative_ofInt]
  by_cases hv : v < 0
  · refine ⟨by simp [hv], (Decimal.ofInt v).fixedParts places true, ?_, hvalue, hgrouped⟩
    rw [if_pos (by simpa using hv)]
    refine (readAmount?_parentheses
      (NumberSymbols.invariant.fixedDigits (.ofInt v) places true)).trans ?_
    rw [hread, Option.map_some]
    simp [Decimal.fixedParts, hv]
  · refine ⟨by simp [hv, NumberSymbols.invariant], (Decimal.ofInt v).fixedParts places true, ?_,
      hvalue, hgrouped⟩
    rw [if_neg (by simpa using hv)]
    refine (readAmount?_currency
      (NumberSymbols.invariant.fixedDigits (.ofInt v) places true)).trans ?_
    rw [hread]
    simp [Decimal.fixedParts, hv]

/-! ## Scientific notation -/

theorem denotes_scientific (v : ℤ) (places : ℕ) (hsymbol : symbol = 'E' ∨ symbol = 'e') :
    ∃ w, read? (scientific .invariant (.ofInt v) places symbol) = some w ∧
      w.value = roundedSignificant (places + 1) v ∧ w.IsScientific places ∧
      (w.groups = [['0']] → v = 0) := by
  have hnormal : ((Decimal.ofInt v).roundSignificant (places + 1)).IsNormal :=
    Decimal.isNormal_roundDigits (Decimal.isNormal_ofInt v) _
  have hlength : ((Decimal.ofInt v).roundSignificant (places + 1)).digits.length ≤ places + 1 :=
    Decimal.length_digits_roundDigits_le (Decimal.isNormal_ofInt v).digit_lt (Nat.succ_pos _)
  have hvalue := (Decimal.isNormal_ofInt v).toRat_roundSignificant (places + 1)
  rw [Decimal.toRat_ofInt] at hvalue
  unfold scientific
  dsimp only
  generalize (Decimal.ofInt v).roundSignificant (places + 1) = d at hnormal hlength hvalue
  rw [d.signed_scientific places 3 symbol]
  have hparts := Decimal.value_scientificParts hnormal.digit_lt hlength 3
  obtain ⟨c, hc, hzero⟩ := hnormal.exists_leadText
  refine ⟨_, read?_text hsymbol (d.isProper_scientificParts hnormal.digit_lt places 3),
    hparts.trans hvalue, ⟨⟨c, congrArg (fun s => [s]) hc⟩, d.length_digitText _ _, _, _, rfl, ?_⟩,
    fun hlead => ?_⟩
  · rw [Numeral.length_padZeros]
    exact Nat.le_max_left _ _
  · -- Rounding never leaves zero of another number.
    have hc0 : c = '0' := by simpa [Decimal.scientificParts, hc] using hlead
    by_contra hv
    rw [hnormal.toRat_eq_zero_iff.2 (hzero hc0)] at hvalue
    exact roundedSignificant_ne_zero (Nat.succ_pos places) (by exact_mod_cast hv) hvalue.symm

theorem denotes_general (v : ℤ) {p : ℕ} (hsymbol : symbol = 'E' ∨ symbol = 'e') :
    ∃ w, read? (general .invariant ((Decimal.ofInt v).roundSignificant p) p symbol) = some w ∧
      IsGeneral w v p := by
  have hnormal : ((Decimal.ofInt v).roundSignificant p).IsNormal :=
    Decimal.isNormal_roundDigits (Decimal.isNormal_ofInt v) _
  have hvalue := (Decimal.isNormal_ofInt v).toRat_roundSignificant p
  have hexponent := hnormal.log_magnitude
  rw [← Decimal.abs_toRat, hvalue, Decimal.toRat_ofInt] at hexponent
  rw [Decimal.toRat_ofInt] at hvalue
  generalize (Decimal.ofInt v).roundSignificant p = d at hnormal hvalue hexponent
  unfold general
  dsimp only
  -- The decimal was rounded before its exponent is compared with the precision.
  split
  next hfar =>
    rw [Decimal.mantissaTail, d.signed_scientific _ 2 symbol]
    refine ⟨_, read?_text hsymbol (d.isProper_scientificParts hnormal.digit_lt _ 2), ?_, rfl, ?_⟩
    · rw [Decimal.value_scientificParts hnormal.digit_lt (by omega), hvalue]
    · rw [hexponent]
      simp only [Decimal.scientificParts, reduceCtorEq, false_iff]
      omega
  next hnear =>
    have hscale : -((d.digits.length - d.point).toNat : ℤ) ≤ d.scale := by
      rw [Decimal.scale]
      omega
    refine ⟨_, read?_fixedParts hnormal (d.digits.length - d.point).toNat false, ?_, rfl, ?_⟩
    · rw [Decimal.value_fixedParts hnormal.digit_lt hscale, hvalue]
    · rw [hexponent]
      simp only [Decimal.fixedParts, true_iff]
      omega

/-! ## All styles -/

/-- Every style of integers but hexadecimal and binary writes what it denotes. -/
theorem exists_denotes (v : ℤ) (width : ℕ) {letter : Char} {style : Style}
    (hletter : Style.ofLetter? letter = some style)
    (hstyle : style ∉ [.hexadecimal, .binary, .roundTrip]) (precision : Option ℕ) :
    ∃ out, Standard.text .invariant (.integer v width) letter precision = .ok out ∧
      Denotes v precision out style := by
  have hsymbol : (if letter.isUpper then 'E' else 'e') = 'E' ∨
      (if letter.isUpper then 'E' else 'e') = 'e' := by
    split
    · exact .inl rfl
    · exact .inr rfl
  unfold Standard.text
  rw [hletter]
  cases style with
  | decimal =>
    refine ⟨_, rfl, _, read?_integerParts v _, value_integerParts v _, isFixed_integerParts v _, ?_⟩
    rw [integerParts, List.flatten_singleton, Numeral.length_padZeros]
    exact Nat.le_max_left _ _
  | fixed => exact ⟨_, rfl, denotes_fixed v width _⟩
  | grouped =>
    obtain ⟨w, hread, hvalue, hgrouped⟩ := denotes_grouped v width (precision.getD 2)
    refine ⟨_, rfl, w, hread, hvalue, hgrouped, fun width' => ?_⟩
    rw [filter_fixedText v width width' (precision.getD 2)]
    rfl
  | percent => exact ⟨_, rfl, denotes_percent v width _⟩
  | currency => exact ⟨_, rfl, denotes_currency v width _⟩
  | scientific => exact ⟨_, rfl, denotes_scientific v _ hsymbol⟩
  | general =>
    refine ⟨_, rfl, ?_⟩
    unfold generalText
    split
    next hzero =>
      have hpad : Numeral.decimal v.natAbs = Numeral.padZeros 0 (Numeral.decimal v.natAbs) := by
        simp [Numeral.padZeros]
      refine ⟨integerParts v 0, ?_, ?_⟩
      · dsimp only
        rw [hpad]
        exact read?_integerParts v 0
      · rw [if_pos hzero]
        exact ⟨value_integerParts v 0, isFixed_integerParts v 0⟩
    next hpos =>
      obtain ⟨w, hread, hgeneral⟩ := denotes_general v (p := precision.getD 0) hsymbol
      refine ⟨w, hread, ?_⟩
      rw [if_neg hpos]
      exact hgeneral
  | hexadecimal | binary | roundTrip => simp at hstyle

end Standard

/-- The integer that an argument is. -/
def FormatArgument.integer? : FormatArgument → Option ℤ
  | .int v => some v.toInt
  | .uint v => some v.toNat
  | .null | .bool _ | .float _ | .char _ | .string _ => none

theorem FormatArgument.exists_text_eq {arg : FormatArgument} {v : ℤ} (h : arg.integer? = some v)
    (sym : NumberSymbols) (spec : List Char) :
    ∃ width, arg.text sym spec = (Number.integer v width).text sym spec := by
  cases arg with
  | int x | uint x =>
    simp only [integer?, Option.some.injEq] at h
    subst h
    exact ⟨_, rfl⟩
  | null | bool b | float x | char c | string s => simp [integer?] at h

/-- Standard formats of integers write what they denote, at every precision up to 999. -/
theorem denotes_text {arg : FormatArgument} {v : ℤ} (harg : arg.integer? = some v)
    {letter : Char} {digits : List Char} (hspec : Specifier.IsStandard letter digits)
    (hprecision : Numeral.read digits ≤ 999) {style : Standard.Style}
    (hletter : Standard.Style.ofLetter? letter = some style)
    (hstyle : style ∉ [.hexadecimal, .binary, .roundTrip]) (culture : Culture) :
    ∃ out, arg.text culture.symbols (letter :: digits) = .ok out ∧
      Standard.Denotes v (if digits = [] then none else some (Numeral.read digits)) out style := by
  obtain ⟨width, htext⟩ := FormatArgument.exists_text_eq harg culture.symbols (letter :: digits)
  obtain ⟨out, hout, hdenotes⟩ := Standard.exists_denotes v width hletter hstyle
    (if digits = [] then none else some (Numeral.read digits))
  have hsymbols : culture.symbols = .invariant := by cases culture <;> rfl
  refine ⟨out, ?_, hdenotes⟩
  rw [htext, Number.text_of_isStandard hspec, if_pos hprecision, hsymbols]
  exact hout

/-- A carry makes the exponent of a rounded integer as large as its precision. -/
theorem denotes_text_carry :
    FormatArgument.integer? (.int (-99951)) = some (-99951) ∧
      Specifier.IsStandard 'g' ['3'] ∧ Numeral.read ['3'] ≤ 999 ∧
      Standard.Style.ofLetter? 'g' = some .general ∧
      ∃ out, (FormatArgument.int (-99951)).text Culture.invariant.symbols ['g', '3'] = .ok out ∧
        Standard.Denotes (-99951) (some 3) out .general := by
  have harg : FormatArgument.integer? (.int (-99951)) = some (-99951) := by decide
  have hspec : Specifier.IsStandard 'g' ['3'] :=
    ⟨by decide, by decide, List.forall_mem_singleton.2 (by decide)⟩
  have hprecision : Numeral.read ['3'] ≤ 999 := by decide
  exact ⟨harg, hspec, hprecision, rfl,
    denotes_text harg hspec hprecision rfl (by decide) .invariant⟩

example : (FormatArgument.int (-99951)).text .invariant ['g', '3'] = .ok "-1e+05".toList := by
  decide +kernel

end NativeBindings
