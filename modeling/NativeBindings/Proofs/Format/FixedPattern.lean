import NativeBindings.Proofs.Format.PatternTokens
import NativeBindings.Proofs.Format.Specifier
import NativeBindings.Proofs.Number.ExactExpansion
import NativeBindings.Proofs.Number.LooseNotation

/-!
# Fixed patterns

A fixed pattern has digit places, separators, signs of hundredths and thousandths and points, and no
exponent. A number that is written through it reads as the number, scaled as the signs and the
separators behind the last integer place ask for and rounded to the fraction places. Only zero may
be written without any digit, where no place has to be filled.

## Main definitions

- `Pattern.IsFixed` — fixed patterns
- `Pattern.scale` — the power of ten that a fixed pattern scales by
- `Pattern.Writes` — a text is a number in the places of a pattern

## Main statements

- `Pattern.layout_of_isFixed` — the layout of a fixed pattern
- `Pattern.IsFixed.exists_text_writes` — numbers are written through fixed patterns without loss
-/

namespace NativeBindings
namespace Pattern

/-- The integer part of a pattern, in front of its first point. -/
def integerPart (pattern : List Char) : List Char := pattern.takeWhile (· ≠ '.')

/-- The rest of a pattern, from its first point on. -/
def fractionPart (pattern : List Char) : List Char := pattern.dropWhile (· ≠ '.')

/-- Digit places, separators, signs and points only, and at least one integer place. -/
structure IsFixed (pattern : List Char) : Prop where
  point_or_isMark : ∀ c ∈ pattern, c = '.' ∨ isMark c = true
  exists_isPlace : ∃ c ∈ integerPart pattern, isPlace c = true

theorem isFixed_iff {pattern : List Char} :
    IsFixed pattern ↔ pattern.all (fun c => c = '.' || isMark c) = true ∧
      (integerPart pattern).any isPlace = true := by
  simp only [List.all_eq_true, List.any_eq_true, Bool.or_eq_true, decide_eq_true_eq]
  exact ⟨fun h => ⟨h.1, h.2⟩, fun h => ⟨h.1, h.2⟩⟩

instance (pattern : List Char) : Decidable (IsFixed pattern) := decidable_of_iff _ isFixed_iff.symm

/-- The digit places in front of the first point. -/
def integerPlaces (pattern : List Char) : List Char := (integerPart pattern).filter isPlace

/-- The digit places behind the first point. -/
def fractionPlaces (pattern : List Char) : List Char := (fractionPart pattern).filter isPlace

/-- The number of integer places from the first `0` on. -/
def minInteger (pattern : List Char) : ℕ := ((integerPlaces pattern).dropWhile (· ≠ '0')).length

/-- The number of fraction places up to the last `0`. -/
def minFraction (pattern : List Char) : ℕ := ((fractionPlaces pattern).rdropWhile (· ≠ '0')).length

/-- The power of ten that a pattern scales by: signs multiply by 100 and 1000, and each separator
directly behind the last integer place divides by 1000. -/
def scale (pattern : List Char) : ℤ :=
  2 * (pattern.count '%' : ℤ) + 3 * (pattern.count '\u2030' : ℤ) -
    3 * ((((integerPart pattern).rtakeWhile (!isPlace ·)).takeWhile (· = ',')).length : ℤ)

/-- The character separates no groups and is no sign of hundredths or thousandths. -/
def isPlain (sym : NumberSymbols) (c : Char) : Bool :=
  !(sym.groupSeparator ++ sym.percent ++ sym.perMille).contains c

/-- A text without separators of groups and without signs of hundredths and thousandths. -/
def plain (sym : NumberSymbols) (out : List Char) : List Char := out.filter (isPlain sym)

/-- `out` is `x` in the places of a pattern: all places that have to be filled are, and no further
zero stands at the end. Zero has no digits where no place has to be filled. -/
structure Writes (sym : NumberSymbols) (pattern : List Char) (x : ℚ) (out : List Char) : Prop where
  minus_mem_iff : '-' ∈ out ↔ x < 0
  plain_eq_nil : x = 0 → '0' ∉ pattern → plain sym out = []
  exists_read : x ≠ 0 ∨ '0' ∈ pattern → ∃ w, Written.readLoose? (plain sym out) = some w ∧
    w.value = x ∧ w.exponent = none ∧ minInteger pattern ≤ w.groups.flatten.length ∧
    minFraction pattern ≤ w.fraction.length ∧
    (minFraction pattern < w.fraction.length → w.fraction.getLast? ≠ some '0')

variable {pattern cs : List Char}

/-! ## Layout -/

theorem ofMark_eq_percent_iff {c : Char} : Token.ofMark c = .percent ↔ c = '%' := by
  unfold Token.ofMark
  split_ifs <;> simp_all

theorem ofMark_eq_group_iff {c : Char} : Token.ofMark c = .group ↔ c = ',' := by
  unfold Token.ofMark
  split_ifs <;> simp_all

theorem ofMark_eq_perMille_iff {c : Char} (h : isMark c = true) :
    Token.ofMark c = .perMille ↔ c = '\u2030' := by
  rcases isMark_iff.1 h with rfl | rfl | rfl | rfl | rfl <;> decide

theorem ofMark_ne_point (c : Char) : Token.ofMark c ≠ .point := by
  unfold Token.ofMark
  split_ifs <;> simp

theorem isExponent_ofMark (c : Char) : (Token.ofMark c).isExponent = false := by
  unfold Token.ofMark
  split_ifs <;> rfl

theorem count_map_ofMark {t : Token} {c : Char} (h : ∀ x ∈ cs, Token.ofMark x = t ↔ x = c) :
    (cs.map .ofMark).count t = cs.count c := by
  rw [List.count, List.countP_map, List.count]
  apply List.countP_congr
  intro x hx
  simpa using h x hx

theorem filter_filter_ne_point {p : Char → Bool} (hp : p '.' = false) (cs : List Char) :
    (cs.filter (· ≠ '.')).filter p = cs.filter p := by
  rw [List.filter_filter]
  apply List.filter_congr
  intro c _
  by_cases hc : c = '.'
  · rw [hc, hp]
    rfl
  · simp [hc]

theorem fractionPart_eq (pattern : List Char) :
    fractionPart pattern = [] ∨ ∃ rest, fractionPart pattern = '.' :: rest := by
  cases hpart : fractionPart pattern with
  | nil => exact .inl rfl
  | cons c rest =>
    have hhead := List.head?_dropWhile_not (· ≠ '.') pattern
    rw [show pattern.dropWhile (· ≠ '.') = c :: rest from hpart] at hhead
    obtain rfl : c = '.' := by simpa using hhead
    exact .inr ⟨rest, rfl⟩

theorem isMark_of_mem_integerPart (h : ∀ c ∈ pattern, c = '.' ∨ isMark c = true) :
    ∀ c ∈ integerPart pattern, isMark c = true := by
  intro c hc
  have hne : c ≠ '.' := by simpa using List.mem_takeWhile_imp hc
  exact (h c (List.takeWhile_subset _ hc)).resolve_left hne

theorem tokens_eq_append (h : ∀ c ∈ pattern, c = '.' ∨ isMark c = true) :
    tokens false pattern =
      (integerPart pattern).map .ofMark ++ tokens false (fractionPart pattern) := by
  conv_lhs => rw [← List.takeWhile_append_dropWhile (p := (· ≠ '.')) (l := pattern)]
  exact tokens_append_of_isMark (isMark_of_mem_integerPart h) false _

/-- Of the points only the first one is a token, and the marks behind it are counted as they are. -/
theorem tokens_fractionPart (h : ∀ c ∈ pattern, c = '.' ∨ isMark c = true) :
    (tokens false (fractionPart pattern) = [] ∨
      ∃ cs : List Char, tokens false (fractionPart pattern) = .point :: cs.map .ofMark) ∧
    places (tokens false (fractionPart pattern)) =
      (fractionPlaces pattern).map (fun c => decide (c = '0')) ∧
    (tokens false (fractionPart pattern)).count .percent = (fractionPart pattern).count '%' ∧
    (tokens false (fractionPart pattern)).count .perMille =
      (fractionPart pattern).count '\u2030' := by
  unfold fractionPlaces
  rcases fractionPart_eq pattern with hpart | ⟨rest, hpart⟩
  · rw [hpart]
    simp [tokens, places]
  · have hrest : ∀ c ∈ rest, c = '.' ∨ isMark c = true := by
      intro c hc
      apply h c
      have hmem : c ∈ fractionPart pattern := hpart ▸ List.mem_cons_of_mem _ hc
      exact (List.dropWhile_sublist _).subset hmem
    have hmarks : ∀ c ∈ rest.filter (· ≠ '.'), isMark c = true := by
      intro c hc
      rw [List.mem_filter, decide_eq_true_eq] at hc
      exact (hrest c hc.1).resolve_left hc.2
    rw [hpart, tokens_point, if_neg Bool.false_ne_true, tokens_true hrest]
    refine ⟨.inr ⟨_, rfl⟩, ?_, ?_, ?_⟩
    · rw [places_cons_of_isDigit_eq_false rfl, places_map_ofMark,
        filter_filter_ne_point (by decide), List.filter_cons_of_neg (by decide)]
    · rw [List.count_cons_of_ne (by decide), count_map_ofMark fun c _ => ofMark_eq_percent_iff,
        List.count_filter (by decide), List.count_cons_of_ne (by decide)]
    · rw [List.count_cons_of_ne (by decide),
        count_map_ofMark fun c hc => ofMark_eq_perMille_iff (hmarks c hc),
        List.count_filter (by decide), List.count_cons_of_ne (by decide)]

theorem thousands_map_ofMark (h : ∃ c ∈ cs, isPlace c = true) :
    thousands (cs.map .ofMark) =
      ((cs.rtakeWhile (!isPlace ·)).takeWhile (· = ',')).length := by
  have hdigit : (fun t : Token => !t.isDigit) ∘ Token.ofMark = fun c => !isPlace c :=
    funext fun c => congrArg _ (isDigit_ofMark c)
  have hgroup : (fun t : Token => decide (t = .group)) ∘ Token.ofMark = fun c => decide (c = ',') :=
    funext fun c => decide_eq_decide.2 ofMark_eq_group_iff
  have hplaces : (places (cs.map .ofMark)).isEmpty = false := by
    obtain ⟨c, hc, hplace⟩ := h
    rw [places_map_ofMark, List.isEmpty_map, List.isEmpty_eq_false_iff]
    exact List.ne_nil_of_mem (List.mem_filter.2 ⟨hc, hplace⟩)
  rw [thousands, hplaces, if_neg Bool.false_ne_true, List.rtakeWhile, ← List.map_reverse,
    List.takeWhile_map, hdigit, ← List.map_reverse, List.takeWhile_map, hgroup, List.length_map,
    List.rtakeWhile]

/-- The layout of a fixed pattern. -/
theorem layout_of_isFixed (h : IsFixed pattern) :
    Layout.of (tokens false pattern) =
      { integerPlaces := (integerPlaces pattern).length
        minInteger := minInteger pattern
        minFraction := minFraction pattern
        maxFraction := (fractionPlaces pattern).length
        grouping := hasInnerGroup ((integerPart pattern).map .ofMark)
        scale := scale pattern } := by
  obtain ⟨hpoint, hplaces, hpercent, hperMille⟩ := tokens_fractionPart h.point_or_isMark
  have hinteger := isMark_of_mem_integerPart h.point_or_isMark
  have hnotMem : .point ∉ (integerPart pattern).map Token.ofMark := by
    intro hmem
    obtain ⟨c, -, hc⟩ := List.mem_map.1 hmem
    exact ofMark_ne_point c hc
  have hhead : ∀ t ∈ (tokens false (fractionPart pattern)).head?, t = .point := by
    rcases hpoint with hb | ⟨cs, hb⟩ <;> rw [hb] <;> simp
  have hcount (c : Char) : pattern.count c =
      (integerPart pattern).count c + (fractionPart pattern).count c := by
    rw [← List.count_append, integerPart, fractionPart, List.takeWhile_append_dropWhile]
  rw [tokens_eq_append h.point_or_isMark, Layout.of_append hnotMem hhead, hplaces,
    places_map_ofMark, thousands_map_ofMark h.exists_isPlace, List.count_append, hpercent,
    count_map_ofMark fun c _ => ofMark_eq_percent_iff, ← hcount, List.count_append, hperMille,
    count_map_ofMark fun c hc => ofMark_eq_perMille_iff (hinteger c hc), ← hcount,
    length_dropWhile_map, length_reverse_dropWhile_map, List.length_map, List.length_map]
  rfl

theorem minInteger_of_isFixed (h : IsFixed pattern) :
    (Layout.of (tokens false pattern)).minInteger = minInteger pattern := by
  rw [layout_of_isFixed h]

theorem minFraction_of_isFixed (h : IsFixed pattern) :
    (Layout.of (tokens false pattern)).minFraction = minFraction pattern := by
  rw [layout_of_isFixed h]

theorem maxFraction_of_isFixed (h : IsFixed pattern) :
    (Layout.of (tokens false pattern)).maxFraction = (fractionPlaces pattern).length := by
  rw [layout_of_isFixed h]

theorem minFraction_le (pattern : List Char) :
    minFraction pattern ≤ (fractionPlaces pattern).length :=
  (List.rdropWhile_prefix _ _).length_le

/-- A zero of a pattern is a place that has to be filled. -/
theorem zero_mem_iff : '0' ∈ pattern ↔ 0 < minInteger pattern ∨ 0 < minFraction pattern := by
  have hinteger : 0 < minInteger pattern ↔ '0' ∈ integerPart pattern := by
    rw [minInteger, List.length_pos_iff, ne_eq, List.dropWhile_eq_nil_iff]
    simp [integerPlaces, isPlace]
  have hfraction : 0 < minFraction pattern ↔ '0' ∈ fractionPart pattern := by
    rw [minFraction, List.length_pos_iff, ne_eq, List.rdropWhile_eq_nil_iff]
    simp [fractionPlaces, isPlace]
  rw [hinteger, hfraction, ← List.mem_append, integerPart, fractionPart,
    List.takeWhile_append_dropWhile]

/-! ## Text -/

theorem any_isExponent (h : ∀ c ∈ pattern, c = '.' ∨ isMark c = true) :
    (tokens false pattern).any Token.isExponent = false := by
  have hmarks (cs : List Char) : (cs.map Token.ofMark).any Token.isExponent = false := by
    rw [List.any_eq_false]
    simp [isExponent_ofMark]
  rw [tokens_eq_append h, List.any_append, hmarks, Bool.false_or]
  rcases (tokens_fractionPart h).1 with hb | ⟨cs, hb⟩
  · rw [hb]
    rfl
  · rw [hb, List.any_cons, hmarks]
    rfl

/-- Without an exponent the value is scaled and rounded to the fraction places. -/
theorem sectionText_of_isFixed (h : IsFixed pattern) (sym : NumberSymbols) (value : Decimal) :
    let d := (value.shift (scale pattern)).roundFraction (fractionPlaces pattern).length
    sectionText sym pattern true value = sym.signed (d.negative && !d.isZero)
      (integerText sym (.of (tokens false pattern))
        ((Layout.of (tokens false pattern)).fill d 0) 0 (tokens false pattern)) := by
  have hnormalized : normalized (.of (tokens false pattern))
      ((tokens false pattern).any Token.isExponent)
      (value.shift (Layout.of (tokens false pattern)).scale) =
        (value.shift (scale pattern), 0) := by
    rw [any_isExponent h.point_or_isMark, layout_of_isFixed h]
    rfl
  rw [← maxFraction_of_isFixed h]
  exact sectionText_of_normalized hnormalized sym true

theorem isPlain_of_isDigit {c : Char} (h : Numeral.isDigit c = true) :
    isPlain .invariant c = true := by
  have hnone : [',', '%', '\u2030'].all (!Numeral.isDigit ·) = true := by decide
  rw [isPlain, Bool.not_eq_true', ← Bool.not_eq_true, List.contains_iff_mem]
  intro hmem
  have hdigit := List.all_eq_true.1 hnone c hmem
  rw [h] at hdigit
  exact Bool.false_ne_true hdigit

theorem isSilent_ofMark (c : Char) : (Token.ofMark c).IsSilent .invariant (isPlain .invariant) := by
  unfold Token.ofMark
  split_ifs <;> simp [Token.IsSilent, isPlain, NumberSymbols.invariant]

variable {d : Decimal}

/-- Apart from separators and signs of hundredths a section prints the digits that fill it. -/
theorem plain_integerText (h : IsFixed pattern) (hd : ∀ x ∈ d.digits, x < 10) :
    let f := (Layout.of (tokens false pattern)).fill d 0
    plain .invariant (integerText .invariant (.of (tokens false pattern)) f 0
      (tokens false pattern)) = f.integer ++ Written.fractionText f.fraction := by
  intro f
  obtain ⟨hpoint, hplaces, -, -⟩ := tokens_fractionPart h.point_or_isMark
  have hsilent (cs : List Char) :
      ∀ t ∈ cs.map Token.ofMark, t.IsSilent .invariant (isPlain .invariant) :=
    List.forall_mem_map.2 fun c _ => isSilent_ofMark c
  have hb : tokens false (fractionPart pattern) = [] ∨
      ∃ ts, tokens false (fractionPart pattern) = .point :: ts ∧
        ∀ t ∈ ts, t.IsSilent .invariant (isPlain .invariant) :=
    hpoint.imp_right fun ⟨cs, hcs⟩ => ⟨_, hcs, hsilent cs⟩
  have hsome : (Layout.of (tokens false pattern)).integerPlaces ≠ 0 := by
    obtain ⟨c, hc, hplace⟩ := h.exists_isPlace
    rw [layout_of_isFixed h]
    exact (List.length_pos_of_mem (List.mem_filter.2 ⟨hc, hplace⟩)).ne'
  have hfits : f.Fits (.of (tokens false pattern)) ((integerPart pattern).map .ofMark)
      (tokens false (fractionPart pattern)) := by
    refine ⟨?_, fun hnone => absurd hnone hsome, Layout.isDigit_integer_fill hd _ _,
      Layout.isDigit_fraction_fill hd _ _, ?_⟩
    · rw [layout_of_isFixed h, places_map_ofMark, List.length_map]
      rfl
    · rw [hplaces, List.length_map, ← maxFraction_of_isFixed h]
      exact Layout.length_fraction_fill_le _ d 0
  have hrest (k : ℕ) : integerText .invariant (.of (tokens false pattern)) f k [] = [] ∧
      fractionText .invariant f k [] = [] := ⟨rfl, rfl⟩
  have hrow := filter_integerText_row hfits (fun c => isPlain_of_isDigit) (by decide)
    (fun _ => by decide) (hsilent (integerPart pattern)) hb hrest
  rw [List.append_nil, ← tokens_eq_append h.point_or_isMark, List.filter_nil, List.append_nil]
    at hrow
  exact hrow

theorem plain_signed (negative : Bool) (body : List Char) :
    plain .invariant (NumberSymbols.invariant.signed negative body) =
      NumberSymbols.invariant.signed negative (plain .invariant body) := by
  cases negative with
  | false => rfl
  | true => exact List.filter_cons_of_pos (by decide)

theorem minInteger_le_length_fill (h : IsFixed pattern) (d : Decimal) :
    minInteger pattern ≤ ((Layout.of (tokens false pattern)).fill d 0).integer.length := by
  rw [← minInteger_of_isFixed h]
  exact Layout.minInteger_le_length _ d 0

theorem minFraction_le_length_fill (h : IsFixed pattern) (d : Decimal) :
    minFraction pattern ≤ ((Layout.of (tokens false pattern)).fill d 0).fraction.length := by
  have hle := minFraction_le pattern
  rw [← minFraction_of_isFixed h, ← maxFraction_of_isFixed h] at hle
  rw [← minFraction_of_isFixed h]
  exact Layout.minFraction_le_length hle d 0

/-- Only zero has no digits, and only if no place has to be filled. -/
theorem fill_ne_nil (h : IsFixed pattern) (hnormal : d.IsNormal)
    (hscale : -((fractionPlaces pattern).length : ℤ) ≤ d.scale)
    (hsome : d.toRat ≠ 0 ∨ '0' ∈ pattern) :
    ((Layout.of (tokens false pattern)).fill d 0).integer ≠ [] ∨
      ((Layout.of (tokens false pattern)).fill d 0).fraction ≠ [] := by
  by_contra hnone
  rw [not_or, not_not, not_not] at hnone
  rcases hsome with hne | hplace
  · rw [← maxFraction_of_isFixed h] at hscale
    have hvalue := Layout.value_fill hnormal.digit_lt hscale 0 none
    rw [hnone.1, hnone.2] at hvalue
    have hzero : d.toRat = 0 := by
      simpa [Written.value, Written.power, Numeral.read, Numeral.value] using hvalue.symm
    exact hne hzero
  · have hinteger := minInteger_le_length_fill h d
    have hfraction := minFraction_le_length_fill h d
    rw [hnone.1, List.length_nil] at hinteger
    rw [hnone.2, List.length_nil] at hfraction
    rcases zero_mem_iff.1 hplace with hpos | hpos <;> omega

/-- The digits that fill a pattern are written with the sign in front. -/
theorem writes_fill (h : IsFixed pattern) (hnormal : d.IsNormal)
    (hscale : -((fractionPlaces pattern).length : ℤ) ≤ d.scale) :
    Writes .invariant pattern d.toRat (NumberSymbols.invariant.signed (d.negative && !d.isZero)
      (integerText .invariant (.of (tokens false pattern))
        ((Layout.of (tokens false pattern)).fill d 0) 0 (tokens false pattern))) := by
  have hplain := plain_signed (d.negative && !d.isZero) (integerText .invariant
    (.of (tokens false pattern)) ((Layout.of (tokens false pattern)).fill d 0) 0
    (tokens false pattern))
  rw [plain_integerText h hnormal.digit_lt] at hplain
  refine ⟨?_, fun hzero hplace => ?_, fun hsome => ?_⟩
  · -- The sign is kept, and behind it are only digits and a point.
    have hkept (out : List Char) : '-' ∈ out ↔ '-' ∈ plain .invariant out := by
      rw [plain, List.mem_filter]
      exact (and_iff_left (by decide)).symm
    rw [hkept, hplain, hnormal.toRat_lt_zero_iff]
    cases d.negative && !d.isZero with
    | false => exact iff_of_false (Layout.minus_notMem_fill hnormal.digit_lt _ 0) Bool.false_ne_true
    | true => exact iff_of_true List.mem_cons_self rfl
  · have hdigits := hnormal.toRat_eq_zero_iff.1 hzero
    have hnone := not_or.1 (mt zero_mem_iff.2 hplace)
    rw [← minInteger_of_isFixed h, ← minFraction_of_isFixed h] at hnone
    rw [hplain, Layout.fill_of_digits_eq_nil hdigits (hnormal.point_of_zero hdigits)
      (Nat.eq_zero_of_not_pos hnone.1) (Nat.eq_zero_of_not_pos hnone.2),
      Decimal.isZero_iff.2 hdigits, Bool.not_true, Bool.and_false]
    rfl
  · have hstop : StopsAt Written.isInteger [] := fun c hc => absurd hc (Option.not_mem_none c)
    obtain ⟨w, hread, hvalue, hgroups, hfraction, hexponent⟩ :=
      Layout.exists_readLoose?_fill hnormal.digit_lt (maxFraction_of_isFixed h ▸ hscale)
        (fill_ne_nil h hnormal hscale hsome) hstop (fun s hs => List.cons_ne_nil _ _ hs.symm) rfl
    rw [List.append_nil, ← hplain] at hread
    rw [Written.power, zpow_zero, mul_one] at hvalue
    refine ⟨w, hread, hvalue, hexponent, ?_, ?_, fun hlong => ?_⟩
    · rw [hgroups]
      exact minInteger_le_length_fill h d
    · rw [hfraction]
      exact minFraction_le_length_fill h d
    · rw [hfraction, ← minFraction_of_isFixed h] at hlong
      rw [hfraction]
      exact Layout.getLast?_fraction_fill 0 hlong

end Pattern
end NativeBindings
