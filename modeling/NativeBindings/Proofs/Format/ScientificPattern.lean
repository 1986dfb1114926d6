import NativeBindings.Proofs.Format.PatternTokens
import NativeBindings.Proofs.Format.Specifier
import NativeBindings.Proofs.Number.ExactExpansion
import NativeBindings.Proofs.Number.LooseNotation

/-!
# Scientific patterns

A scientific pattern has integer places, fraction places behind a point, and an exponent. A number
that is written through it has a digit at every integer place, its first digit is not zero, and it
reads as the number to as many significant digits as there are places.

## Main definitions

- `Pattern.Scientific` — the parts of a scientific pattern

## Main statements

- `Pattern.Scientific.layout_of_chars` — the layout of a scientific pattern
- `Pattern.Scientific.exists_text_read` — numbers keep their value in scientific patterns
-/

namespace NativeBindings
namespace Pattern

/-- The parts of a scientific pattern, which has at least one digit place. -/
structure Scientific where
  /-- The integer places. -/
  integer : List Char
  /-- The fraction places; none without a point. -/
  fraction : Option (List Char)
  symbol : Char
  sign : List Char
  /-- The number of zeros behind the sign of the exponent. -/
  zeros : ℕ
  isPlace_integer : ∀ c ∈ integer, isPlace c = true
  isPlace_fraction : ∀ cs ∈ fraction, ∀ c ∈ cs, isPlace c = true
  symbol_eq : symbol = 'E' ∨ symbol = 'e'
  sign_eq : sign = ['+'] ∨ sign = ['-'] ∨ sign = []
  zeros_pos : 0 < zeros
  places_pos : 0 < integer.length + (fraction.getD []).length

namespace Scientific

variable (p : Scientific)

/-- The fraction places, without the point. -/
def fractionPlaces : List Char := p.fraction.getD []

/-- The point and the fraction places behind it. -/
def fractionChars : List Char :=
  match p.fraction with
  | none => []
  | some cs => '.' :: cs

/-- The pattern. -/
def chars : List Char :=
  p.integer ++ (p.fractionChars ++ p.symbol :: (p.sign ++ List.replicate p.zeros '0'))

/-! ## Layout -/

/-- The exponent as a token. -/
def exponentToken : Token := .exponent p.symbol (decide (p.sign = ['+'])) p.zeros

/-- The point and the fraction places as tokens. -/
def fractionTokens : List Token :=
  match p.fraction with
  | none => []
  | some cs => .point :: cs.map .ofMark

theorem tokens_chars :
    tokens false p.chars =
      p.integer.map .ofMark ++ (p.fractionTokens ++ [p.exponentToken]) := by
  have hinteger : ∀ c ∈ p.integer, isMark c = true :=
    fun c hc => isMark_of_isPlace (p.isPlace_integer c hc)
  rw [chars, tokens_append_of_isMark hinteger, fractionChars, fractionTokens]
  congr 1
  cases hfraction : p.fraction with
  | none => exact tokens_exponent p.symbol_eq p.sign_eq p.zeros_pos false
  | some cs =>
    have hmarks : ∀ c ∈ cs, isMark c = true :=
      fun c hc => isMark_of_isPlace (p.isPlace_fraction cs hfraction c hc)
    rw [List.cons_append, tokens_point, if_neg Bool.false_ne_true, tokens_append_of_isMark hmarks,
      tokens_exponent p.symbol_eq p.sign_eq p.zeros_pos]
    rfl

variable {cs : List Char} {t : Token}

theorem exists_of_mem_map (h : ∀ c ∈ cs, isPlace c = true) (ht : t ∈ cs.map .ofMark) :
    ∃ isZero, t = .digit isZero := by
  obtain ⟨c, hc, rfl⟩ := List.mem_map.1 ht
  rcases isPlace_iff.1 (h c hc) with rfl | rfl
  · exact ⟨true, rfl⟩
  · exact ⟨false, rfl⟩

theorem places_of_isPlace (h : ∀ c ∈ cs, isPlace c = true) :
    places (cs.map .ofMark) = cs.map fun c => decide (c = '0') := by
  rw [places_map_ofMark, List.filter_eq_self.2 h]

theorem places_fractionTokens :
    places p.fractionTokens = p.fractionPlaces.map fun c => decide (c = '0') := by
  unfold fractionTokens fractionPlaces
  cases hfraction : p.fraction with
  | none => rfl
  | some cs =>
    exact (places_cons_of_isDigit_eq_false rfl).trans
      (places_of_isPlace (p.isPlace_fraction cs hfraction))

theorem mem_fractionTokens (ht : t ∈ p.fractionTokens) :
    t = .point ∨ ∃ isZero, t = .digit isZero := by
  unfold fractionTokens at ht
  cases hfraction : p.fraction with
  | none =>
    rw [hfraction] at ht
    exact absurd ht List.not_mem_nil
  | some cs =>
    rw [hfraction] at ht
    exact (List.mem_cons.1 ht).imp_right (exists_of_mem_map (p.isPlace_fraction cs hfraction))

theorem count_tokens_chars (hpoint : t ≠ .point) (hdigit : ∀ isZero, t ≠ .digit isZero)
    (hexponent : t ≠ p.exponentToken) : (tokens false p.chars).count t = 0 := by
  rw [tokens_chars, List.count_eq_zero, List.mem_append, List.mem_append, List.mem_singleton]
  rintro (ht | ht | ht)
  · obtain ⟨isZero, ht⟩ := exists_of_mem_map p.isPlace_integer ht
    exact hdigit isZero ht
  · rcases p.mem_fractionTokens ht with ht | ⟨isZero, ht⟩
    · exact hpoint ht
    · exact hdigit isZero ht
  · exact hexponent ht

/-- Without a point the exponent stands at the end of the integer part. -/
theorem exists_tokens_eq_append :
    ∃ a b, tokens false p.chars = a ++ b ∧ (∀ t ∈ a, t = p.exponentToken ∨ ∃ z, t = .digit z) ∧
      (∀ t ∈ b.head?, t = .point) ∧ places a = (p.integer.map fun c => decide (c = '0')) ∧
      places b = p.fractionPlaces.map fun c => decide (c = '0') := by
  have hexponent : places [p.exponentToken] = [] := rfl
  have hinteger : ∀ t ∈ p.integer.map Token.ofMark, ∃ isZero, t = .digit isZero :=
    fun t => exists_of_mem_map p.isPlace_integer
  cases hfraction : p.fraction with
  | none =>
    have htokens : p.fractionTokens = [] := by rw [fractionTokens, hfraction]
    refine ⟨p.integer.map .ofMark ++ [p.exponentToken], [], ?_, ?_, by simp, ?_, ?_⟩
    · rw [tokens_chars, htokens, List.append_nil, List.nil_append]
    · intro t ht
      rcases List.mem_append.1 ht with ht | ht
      · exact .inr (hinteger t ht)
      · exact .inl (List.mem_singleton.1 ht)
    · rw [places_append, hexponent, List.append_nil, places_of_isPlace p.isPlace_integer]
    · rw [fractionPlaces, hfraction]
      rfl
  | some cs =>
    have hhead : p.fractionTokens.head? = some .point := by rw [fractionTokens, hfraction]; rfl
    refine ⟨p.integer.map .ofMark, p.fractionTokens ++ [p.exponentToken], p.tokens_chars,
      fun t ht => .inr (hinteger t ht), ?_, places_of_isPlace p.isPlace_integer, ?_⟩
    · intro t ht
      rw [List.head?_append, hhead, Option.some_or] at ht
      exact (Option.mem_some_iff.1 ht).symm
    · rw [places_append, hexponent, List.append_nil, places_fractionTokens]

/-- A scientific pattern neither groups nor scales. -/
theorem layout_of_chars :
    Layout.of (tokens false p.chars) =
      { integerPlaces := p.integer.length
        minInteger := (p.integer.dropWhile (· ≠ '0')).length
        minFraction := (p.fractionPlaces.rdropWhile (· ≠ '0')).length
        maxFraction := p.fractionPlaces.length
        grouping := false
        scale := 0 } := by
  have hpercent : (tokens false p.chars).count .percent = 0 :=
    p.count_tokens_chars (by simp) (by simp) (by simp [exponentToken])
  have hperMille : (tokens false p.chars).count .perMille = 0 :=
    p.count_tokens_chars (by simp) (by simp) (by simp [exponentToken])
  obtain ⟨a, b, htokens, hmem, hhead, hinteger, hfraction⟩ := p.exists_tokens_eq_append
  have hpoint : .point ∉ a := fun ht => by simpa [exponentToken] using hmem .point ht
  have hgroup : .group ∉ a := fun ht => by simpa [exponentToken] using hmem .group ht
  rw [htokens] at hpercent hperMille ⊢
  rw [Layout.of_append hpoint hhead, hinteger, hfraction, length_dropWhile_map,
    length_reverse_dropWhile_map, List.length_map, List.length_map, hpercent, hperMille,
    thousands_of_notMem hgroup, hasInnerGroup_of_notMem hgroup]
  rfl

theorem maxFraction_of_chars :
    (Layout.of (tokens false p.chars)).maxFraction = p.fractionPlaces.length := by
  rw [layout_of_chars]

/-! ## Mantissa -/

variable {value d : Decimal}

/-- The number of digit places. -/
def precision : ℕ := p.integer.length + p.fractionPlaces.length

/-- The exponent that is printed for a value. -/
def power (value : Decimal) : ℤ := (value.roundSignificant p.precision).point - p.integer.length

/-- The mantissa that is printed for a value. -/
def mantissa (value : Decimal) : Decimal :=
  (value.roundSignificant p.precision).shift (-p.power value)

theorem isNormal_mantissa (h : value.IsNormal) : (p.mantissa value).IsNormal :=
  (Decimal.isNormal_roundDigits h _).shift _

theorem digits_mantissa_ne_nil (h : value.IsNormal) (hd : value.digits ≠ []) :
    (p.mantissa value).digits ≠ [] := by
  rw [mantissa, Decimal.digits_shift]
  exact h.digits_roundDigits_ne_nil hd (Int.natCast_pos.2 p.places_pos)

theorem length_digits_mantissa_le (h : value.IsNormal) :
    (p.mantissa value).digits.length ≤ p.precision := by
  rw [mantissa, Decimal.digits_shift]
  exact Decimal.length_digits_roundDigits_le h.digit_lt p.places_pos

/-- The mantissa has as many integer digits as there are integer places. -/
theorem point_mantissa (h : value.IsNormal) (hd : value.digits ≠ []) :
    (p.mantissa value).point = p.integer.length := by
  have hne := p.digits_mantissa_ne_nil h hd
  rw [mantissa, Decimal.digits_shift] at hne
  rw [mantissa, Decimal.point_shift hne, power]
  ring

/-- No digit of the mantissa stands behind the fraction places. -/
theorem neg_le_scale_mantissa (h : value.IsNormal) (hd : value.digits ≠ []) :
    -((Layout.of (tokens false p.chars)).maxFraction : ℤ) ≤ (p.mantissa value).scale := by
  have hlength := p.length_digits_mantissa_le h
  rw [precision] at hlength
  rw [maxFraction_of_chars, Decimal.scale, p.point_mantissa h hd]
  omega

/-- Rounding to the fraction places changes nothing in the mantissa. -/
theorem roundFraction_mantissa (h : value.IsNormal) (hd : value.digits ≠ []) :
    (p.mantissa value).roundFraction p.fractionPlaces.length = p.mantissa value := by
  apply Decimal.roundFraction_eq_self
  rw [p.point_mantissa h hd]
  exact_mod_cast p.length_digits_mantissa_le h

theorem normalized_chars (hd : value.digits ≠ []) :
    normalized (.of (tokens false p.chars)) ((tokens false p.chars).any Token.isExponent)
      (value.shift (Layout.of (tokens false p.chars)).scale) =
        (p.mantissa value, p.power value) := by
  have hany : (tokens false p.chars).any Token.isExponent = true := by
    rw [tokens_chars, List.any_append, List.any_append]
    simp [exponentToken, Token.isExponent]
  have hprecision : max (p.integer.length + p.fractionPlaces.length) 1 = p.precision :=
    max_eq_left p.places_pos
  have hzero : value.isZero = false := Bool.eq_false_iff.2 (mt Decimal.isZero_iff.1 hd)
  rw [hany, layout_of_chars, Decimal.shift_zero, normalized, hzero, if_pos ⟨rfl, rfl⟩]
  dsimp only
  rw [hprecision]
  rfl

theorem sectionText_chars (h : value.IsNormal) (hd : value.digits ≠ []) (sym : NumberSymbols) :
    sectionText sym p.chars true value =
      sym.signed ((p.mantissa value).negative && !(p.mantissa value).isZero)
        (integerText sym (.of (tokens false p.chars))
          ((Layout.of (tokens false p.chars)).fill (p.mantissa value) (p.power value)) 0
          (tokens false p.chars)) := by
  have htext := sectionText_of_normalized (p.normalized_chars hd) sym true
  rw [maxFraction_of_chars, p.roundFraction_mantissa h hd] at htext
  exact htext

/-! ## Digits -/

/-- The integer places show the digits in front of the point. -/
theorem integer_fill (hpoint : d.point = p.integer.length) (exponent : ℤ) :
    ((Layout.of (tokens false p.chars)).fill d exponent).integer =
      d.digitText 0 p.integer.length := by
  have hmin : (p.integer.dropWhile (· ≠ '0')).length ≤ p.integer.length :=
    (List.dropWhile_sublist _).length_le
  have hdigits : (if 0 < d.point then d.integerText else []) = d.digitText 0 p.integer.length := by
    split
    next hpos => rw [Decimal.integerText, if_neg (not_le.2 hpos), hpoint, Int.toNat_natCast]
    next hnone =>
      have hzero : p.integer.length = 0 := by omega
      rw [hzero]
      rfl
  rw [Layout.integer_fill, hdigits, layout_of_chars, Numeral.padZeros, Decimal.length_digitText,
    Nat.sub_eq_zero_of_le hmin]
  rfl

/-- The leading digit is printed at the first place. -/
theorem exists_head?_fill (h : d.IsNormal) (hd : d.digits ≠ [])
    (hpoint : d.point = p.integer.length) (exponent : ℤ) :
    ∃ c, (((Layout.of (tokens false p.chars)).fill d exponent).integer ++
      ((Layout.of (tokens false p.chars)).fill d exponent).fraction).head? = some c ∧
        c ≠ '0' := by
  obtain ⟨c, hlead, hzero⟩ := h.exists_leadText
  obtain ⟨k, hk⟩ := (Layout.of (tokens false p.chars)).exists_fractionText_eq d exponent
  have hall : ((Layout.of (tokens false p.chars)).fill d exponent).integer ++
      ((Layout.of (tokens false p.chars)).fill d exponent).fraction ++ List.replicate k '0' =
        d.digitText 0 p.precision := by
    have happend := d.digitText_append 0 p.integer.length p.fractionPlaces.length
    rw [zero_add, ← hpoint] at happend
    rw [List.append_assoc, ← hk, maxFraction_of_chars, p.integer_fill hpoint, Decimal.fractionText]
    exact happend
  have hfirst : (d.digitText 0 p.precision).head? = some c := by
    obtain ⟨m, hm⟩ := Nat.exists_eq_add_of_lt p.places_pos
    have hprecision : p.precision = 1 + m := by
      rw [precision, fractionPlaces]
      omega
    rw [hprecision, ← Decimal.leadText_append_mantissaText, hlead]
    rfl
  have hne : c ≠ '0' := mt hzero hd
  refine ⟨c, ?_, hne⟩
  rw [← hall, List.head?_append] at hfirst
  cases hhead : (((Layout.of (tokens false p.chars)).fill d exponent).integer ++
      ((Layout.of (tokens false p.chars)).fill d exponent).fraction).head? with
  | some x => rwa [hhead, Option.some_or] at hfirst
  | none =>
    -- All places would show zeros, the first one too.
    rw [hhead, Option.none_or] at hfirst
    exact absurd (List.eq_of_mem_replicate (List.mem_of_mem_head? hfirst)) hne

/-! ## Text -/

theorem text_chars (n : Number) (sym : NumberSymbols) :
    n.text sym p.chars = .ok (Pattern.text sym n p.chars) := by
  obtain ⟨c, cs, hchars, hc⟩ : ∃ c cs, p.chars = c :: cs ∧ Specifier.isLetter c = false := by
    unfold chars
    cases hinteger : p.integer with
    | cons c cs =>
      have hplace := p.isPlace_integer c (hinteger ▸ List.mem_cons_self)
      exact ⟨c, _, rfl, by rcases isPlace_iff.1 hplace with rfl | rfl <;> decide⟩
    | nil =>
      cases hfraction : p.fraction with
      | none =>
        have hpos := p.places_pos
        rw [hinteger, hfraction] at hpos
        exact absurd hpos (lt_irrefl 0)
      | some cs =>
        rw [fractionChars, hfraction]
        exact ⟨'.', _, rfl, by decide⟩
  rw [hchars]
  exact Number.text_of_not_isLetter hc

theorem semicolon_notMem_chars : ';' ∉ p.chars := by
  have hplaces {cs : List Char} (h : ∀ c ∈ cs, isPlace c = true) : ';' ∉ cs :=
    fun hmem => absurd (h ';' hmem) (by decide)
  have hfraction : ';' ∉ p.fractionChars := by
    unfold fractionChars
    cases hcs : p.fraction with
    | none => exact List.not_mem_nil
    | some cs =>
      rw [List.mem_cons, not_or]
      exact ⟨by decide, hplaces (p.isPlace_fraction cs hcs)⟩
  have hsymbol : ';' ≠ p.symbol := by
    rcases p.symbol_eq with h | h <;> rw [h] <;> decide
  have hsign : ';' ∉ p.sign := by
    rcases p.sign_eq with h | h | h <;> rw [h] <;> decide
  simp [chars, hplaces p.isPlace_integer, hfraction, hsymbol, hsign]

theorem integerText_chars (h : ∀ x ∈ d.digits, x < 10) (hpoint : d.point = p.integer.length)
    (exponent : ℤ) :
    let f := (Layout.of (tokens false p.chars)).fill d exponent
    integerText .invariant (.of (tokens false p.chars)) f 0 (tokens false p.chars) =
      f.integer ++ (Written.fractionText f.fraction ++
        exponentText .invariant exponent p.symbol (decide (p.sign = ['+'])) p.zeros) := by
  intro f
  have hsilent {cs : List Char} (hcs : ∀ c ∈ cs, isPlace c = true) :
      ∀ t ∈ cs.map Token.ofMark, t.IsSilent .invariant fun _ => true := by
    intro t ht
    obtain ⟨isZero, rfl⟩ := exists_of_mem_map hcs ht
    trivial
  have hb : p.fractionTokens = [] ∨ ∃ ts, p.fractionTokens = .point :: ts ∧
      ∀ t ∈ ts, t.IsSilent .invariant fun _ => true := by
    unfold fractionTokens
    cases hcs : p.fraction with
    | none => exact .inl rfl
    | some cs => exact .inr ⟨_, rfl, hsilent (p.isPlace_fraction cs hcs)⟩
  have hfits : f.Fits (.of (tokens false p.chars)) (p.integer.map .ofMark) p.fractionTokens := by
    refine ⟨?_, fun hzero => ?_, Layout.isDigit_integer_fill h _ _,
      Layout.isDigit_fraction_fill h _ _, ?_⟩
    · rw [places_of_isPlace p.isPlace_integer, List.length_map, layout_of_chars]
    · rw [layout_of_chars] at hzero
      have hlength : p.integer.length = 0 := hzero
      rw [p.integer_fill hpoint, hlength]
      rfl
    · rw [places_fractionTokens, List.length_map, ← maxFraction_of_chars]
      exact Layout.length_fraction_fill_le _ d exponent
  have hexponent (k : ℕ) :
      integerText .invariant (.of (tokens false p.chars)) f k [p.exponentToken] =
          exponentText .invariant exponent p.symbol (decide (p.sign = ['+'])) p.zeros ∧
        fractionText .invariant f k [p.exponentToken] =
          exponentText .invariant exponent p.symbol (decide (p.sign = ['+'])) p.zeros :=
    ⟨List.append_nil _, List.append_nil _⟩
  have hgrouping : (Layout.of (tokens false p.chars)).grouping = true → true = false := by
    rw [layout_of_chars]
    exact Bool.false_ne_true.elim
  have hrow := filter_integerText_row hfits (fun _ _ => rfl) rfl hgrouping
    (hsilent p.isPlace_integer) hb hexponent
  rwa [List.filter_true, List.filter_true, ← tokens_chars] at hrow

/-- The exponent is read back, whether its sign is written or not. -/
theorem looseExponent?_exponentText (exponent : ℤ) (alwaysSign : Bool) :
    Written.looseExponent?
        (exponentText .invariant exponent p.symbol alwaysSign p.zeros) =
      some (some (decide (exponent < 0),
        Numeral.padZeros p.zeros (Numeral.decimal exponent.natAbs))) := by
  apply Written.looseExponent?_cons p.symbol_eq
  · by_cases hneg : exponent < 0
    · exact .inl ⟨if_pos hneg, decide_eq_true hneg⟩
    · rw [if_neg hneg, decide_eq_false hneg]
      cases alwaysSign with
      | true => exact .inr ⟨.inl rfl, rfl⟩
      | false => exact .inr ⟨.inr rfl, rfl⟩
  · exact Numeral.padZeros_ne_nil (Numeral.decimal_ne_nil _)
  · exact Numeral.isDigit_padZeros (Numeral.isDigit_decimal _)

/-- The mantissa times its power of ten is the value to the precision of the pattern. -/
theorem toRat_mantissa (h : value.IsNormal) :
    (p.mantissa value).toRat * 10 ^ p.power value = roundedSignificant p.precision value.toRat := by
  rw [mantissa, Decimal.toRat_shift, mul_assoc, ← zpow_add₀ (by norm_num), neg_add_cancel,
    zpow_zero, mul_one, h.toRat_roundSignificant]

end Scientific
end Pattern
end NativeBindings
