import NativeBindings.Proofs.Format.PatternTokens
import NativeBindings.Proofs.Format.SectionChoice

/-!
# Patterns without digit places

A section without digit places and exponents has nowhere to put the digits of a number. It writes
its literals and its signs of hundredths and thousandths as they stand, behind the sign of the
number if the first section is the one that is chosen. Only at a point are there digits, those of the
number rounded to a whole one.

## Main definitions

- `Pattern.IsLiteral` — rows of tokens that stand for no digit of a number
- `Pattern.Token.written` — what a token of such a row writes
- `Pattern.WritesLiterals` — a text has of its number the sign and the digits at a point

## Main statements

- `Pattern.integerText_of_isLiteral` — a row without digit places writes its tokens one by one
- `Pattern.writesLiterals_text` — what is written of a number
-/

namespace NativeBindings
namespace Pattern

/-- No token is a digit place or an exponent, and no literal has a digit of its own. -/
structure IsLiteral (ts : List Token) : Prop where
  isDigit_eq_false : ∀ t ∈ ts, t.isDigit = false
  isExponent_eq_false : ∀ t ∈ ts, t.isExponent = false
  no_digit : ∀ chars, .literal chars ∈ ts → ∀ c ∈ chars, Numeral.isDigit c = false

theorem isLiteral_iff {ts : List Token} :
    IsLiteral ts ↔ ts.all (fun t => !t.isDigit && !t.isExponent &&
      match t with
      | .literal chars => chars.all (!Numeral.isDigit ·)
      | _ => true) = true := by
  simp only [List.all_eq_true, Bool.and_eq_true, Bool.not_eq_true']
  constructor
  · intro h t ht
    refine ⟨⟨h.isDigit_eq_false t ht, h.isExponent_eq_false t ht⟩, ?_⟩
    cases t with
    | literal chars => simpa using h.no_digit chars ht
    | _ => rfl
  · intro h
    refine ⟨fun t ht => (h t ht).1.1, fun t ht => (h t ht).1.2, fun chars hchars => ?_⟩
    simpa using (h _ hchars).2

instance (ts : List Token) : Decidable (IsLiteral ts) := decidable_of_iff _ isLiteral_iff.symm

/-- What a token writes that stands for no digit, with the given text at a point. -/
def Token.written (sym : NumberSymbols) (atPoint : List Char) : Token → List Char
  | .point => atPoint
  | .percent => sym.percent
  | .perMille => sym.perMille
  | .literal chars => chars
  | .digit _ | .group | .exponent .. => []

/-- The power of ten that the signs of hundredths and thousandths in a row multiply by. -/
def signScale (ts : List Token) : ℤ := 2 * (ts.count .percent : ℤ) + 3 * (ts.count .perMille : ℤ)

/-- The digits of a whole number, none for zero. -/
def wholeDigits (x : ℚ) : List Char := (Numeral.digits 10 ⌊|x|⌋₊).map (Numeral.glyph false)

/-- A text is made of the tokens of a row, with the sign of the whole number `x` in front if it is to
be written. At a point stand the digits of `x`, and there are none elsewhere. -/
structure WritesLiterals (sym : NumberSymbols) (ts : List Token) (withSign : Bool) (x : ℚ)
    (out : List Char) : Prop where
  eq_signed : out = sym.signed (withSign && decide (x < 0))
    (ts.flatMap (Token.written sym (wholeDigits x)))
  no_digit : .point ∉ ts → ∀ c ∈ out, Numeral.isDigit c = false

variable {sym : NumberSymbols} {l : Layout} {f : Filling} {t : Token} {ts : List Token}
  {digits : List Char}

namespace IsLiteral

theorem tail (h : IsLiteral (t :: ts)) : IsLiteral ts where
  isDigit_eq_false := fun u hu => h.isDigit_eq_false u (List.mem_cons_of_mem t hu)
  isExponent_eq_false := fun u hu => h.isExponent_eq_false u (List.mem_cons_of_mem t hu)
  no_digit := fun chars hchars => h.no_digit chars (List.mem_cons_of_mem t hchars)

theorem places_eq_nil (h : ∀ t ∈ ts, t.isDigit = false) : places ts = [] := by
  rw [places, List.filterMap_eq_nil_iff]
  intro t ht
  have hdigit := h t ht
  cases t with
  | digit => cases hdigit
  | _ => rfl

/-- Without digit places only the signs count. -/
theorem layout_eq (h : IsLiteral ts) :
    Layout.of ts = ⟨0, 0, 0, 0, false, signScale ts⟩ := by
  have hinteger : places (ts.takeWhile (· ≠ .point)) = [] :=
    places_eq_nil fun t ht => h.isDigit_eq_false t (List.takeWhile_subset _ ht)
  have hfraction : places (ts.dropWhile (· ≠ .point)) = [] :=
    places_eq_nil fun t ht => h.isDigit_eq_false t ((List.dropWhile_sublist _).subset ht)
  have hfromFirst : (ts.takeWhile (· ≠ .point)).dropWhile (!·.isDigit) = [] := by
    rw [List.dropWhile_eq_nil_iff]
    intro t ht
    rw [h.isDigit_eq_false t (List.takeWhile_subset _ ht)]
    rfl
  simp only [Layout.of, hinteger, hfraction, hfromFirst]
  simp [signScale]

theorem any_isExponent (h : IsLiteral ts) : ts.any Token.isExponent = false := by
  rw [List.any_eq_false]
  intro t ht
  rw [h.isExponent_eq_false t ht]
  exact Bool.false_ne_true

end IsLiteral

/-! ## Printing -/

/-- Of several points only the first counts. -/
theorem count_point_tokens (seen : Bool) (cs : List Char) :
    (tokens seen cs).count .point ≤ if seen then 0 else 1 := by
  fun_induction tokens seen cs <;> grind

theorem fractionText_of_isLiteral (h : IsLiteral ts) (hpoint : .point ∉ ts) (index : ℕ) :
    fractionText sym f index ts = ts.flatMap (Token.written sym digits) := by
  induction ts generalizing index with
  | nil => rfl
  | cons t ts ih =>
    rw [List.mem_cons, not_or] at hpoint
    have htail := ih h.tail hpoint.2
    have hdigit := h.isDigit_eq_false t List.mem_cons_self
    have hexponent := h.isExponent_eq_false t List.mem_cons_self
    rw [List.flatMap_cons]
    cases t with
    | digit => cases hdigit
    | exponent => cases hexponent
    | point => exact absurd rfl hpoint.1
    | group => exact htail index
    | percent => exact congrArg (sym.percent ++ ·) (htail index)
    | perMille => exact congrArg (sym.perMille ++ ·) (htail index)
    | literal chars => exact congrArg (chars ++ ·) (htail index)

/-- A row without digit places writes its tokens one by one. -/
theorem integerText_of_isLiteral (h : IsLiteral ts) (hpoint : ts.count .point ≤ 1)
    (hplaces : l.integerPlaces = 0) (hfraction : f.fraction = []) (index : ℕ) :
    integerText sym l f index ts = ts.flatMap (Token.written sym f.integer) := by
  induction ts generalizing index with
  | nil => rfl
  | cons t ts ih =>
    have htail := ih h.tail (le_trans (List.count_le_count_cons ..) hpoint)
    have hdigit := h.isDigit_eq_false t List.mem_cons_self
    have hexponent := h.isExponent_eq_false t List.mem_cons_self
    rw [List.flatMap_cons]
    cases t with
    | digit => cases hdigit
    | exponent => cases hexponent
    | point =>
      -- no other point is left
      have hnone : .point ∉ ts := by
        rw [List.count_cons_self] at hpoint
        exact List.count_eq_zero.1 (by omega)
      rw [integerText, if_pos hplaces, if_pos (List.isEmpty_iff.2 hfraction), List.append_nil,
        fractionText_of_isLiteral h.tail hnone]
      rfl
    | group => exact htail index
    | percent => exact congrArg (sym.percent ++ ·) (htail index)
    | perMille => exact congrArg (sym.perMille ++ ·) (htail index)
    | literal chars => exact congrArg (chars ++ ·) (htail index)

/-- The tokens of a row have digits at a point only. -/
theorem isDigit_written_eq_false (h : IsLiteral ts) (hpoint : .point ∉ ts)
    (hpercent : ∀ c ∈ sym.percent, Numeral.isDigit c = false)
    (hperMille : ∀ c ∈ sym.perMille, Numeral.isDigit c = false) :
    ∀ c ∈ ts.flatMap (Token.written sym digits), Numeral.isDigit c = false := by
  intro c hc
  obtain ⟨t, ht, hmem⟩ := List.mem_flatMap.1 hc
  cases t with
  | point => exact absurd ht hpoint
  | percent => exact hpercent c hmem
  | perMille => exact hperMille c hmem
  | literal chars => exact h.no_digit chars ht c hmem
  | digit | group | exponent => cases hmem

theorem isDigit_signed_eq_false {body : List Char} {negative : Bool}
    (hsign : ∀ c ∈ sym.negativeSign, Numeral.isDigit c = false)
    (hbody : ∀ c ∈ body, Numeral.isDigit c = false) :
    ∀ c ∈ sym.signed negative body, Numeral.isDigit c = false := by
  cases negative with
  | false => exact hbody
  | true => exact List.forall_mem_append.2 ⟨hsign, hbody⟩

/-! ## Texts of numbers -/

theorem fill_zero (scale : ℤ) (d : Decimal) :
    Layout.fill ⟨0, 0, 0, 0, false, scale⟩ d 0 =
      ⟨if 0 < d.point then d.integerText else [], [], 0⟩ := by
  simp [Layout.fill, Numeral.padZeros, Decimal.fractionText, Decimal.digitText]

/-- A value is rounded to a whole number, and of that the sign and the digits at a point are written. -/
theorem sectionText_of_isLiteral {chars : List Char} (h : IsLiteral (tokens false chars))
    {value : Decimal} (hvalue : value.IsNormal) (withSign : Bool) :
    WritesLiterals .invariant (tokens false chars) withSign
      (roundedTo 1 (value.toRat * 10 ^ signScale (tokens false chars)))
      (sectionText .invariant chars withSign value) := by
  let scale := signScale (tokens false chars)
  let d := (value.shift scale).roundFraction 0
  have hnormal : d.IsNormal := Decimal.isNormal_roundDigits (hvalue.shift scale) _
  have hrounded : d.toRat = roundedTo 1 (value.toRat * 10 ^ scale) := by
    have hround := (hvalue.shift scale).toRat_roundFraction 0
    rwa [Decimal.toRat_shift, Nat.cast_zero, neg_zero, zpow_zero] at hround
  have hnegative : (d.negative && !d.isZero) = decide (d.toRat < 0) := by
    rw [Bool.eq_iff_iff, decide_eq_true_iff, hnormal.toRat_lt_zero_iff]
  have hdigits : (if 0 < d.point then d.integerText else []) =
      wholeDigits (roundedTo 1 (value.toRat * 10 ^ scale)) := by
    have hscale : 0 ≤ d.scale :=
      Decimal.neg_le_scale_roundFraction (hvalue.shift scale).digit_lt 0
    rw [hnormal.integerText_of_scale_nonneg hscale, wholeDigits, ← hrounded, Decimal.abs_toRat]
  have hnormalized : normalized (.of (tokens false chars))
      ((tokens false chars).any Token.isExponent)
      (value.shift (Layout.of (tokens false chars)).scale) = (value.shift scale, 0) := by
    rw [h.any_isExponent, h.layout_eq]
    rfl
  have htext := sectionText_of_normalized hnormalized .invariant withSign
  rw [h.layout_eq] at htext
  dsimp only at htext
  rw [fill_zero, integerText_of_isLiteral h (count_point_tokens false chars) rfl rfl, hdigits,
    Bool.and_assoc, hnegative, hrounded] at htext
  refine ⟨htext, fun hpoint => ?_⟩
  have hsymbol {symbol : Char} (h : Numeral.isDigit symbol = false) :
      ∀ c ∈ [symbol], Numeral.isDigit c = false :=
    List.forall_mem_singleton.2 h
  rw [htext]
  exact isDigit_signed_eq_false (hsymbol rfl)
    (isDigit_written_eq_false h hpoint (hsymbol rfl) (hsymbol rfl))

/-- The tokens of the section that a value chooses. -/
def chosenTokens (pattern : List Char) (value : Decimal) : List Token :=
  tokens false ((chosen? pattern value).getD (sections pattern).1)

end Pattern
end NativeBindings
