import NativeBindings.Proofs.Format.StandardText
import NativeBindings.Proofs.Number.HexDigit

/-!
# Hexadecimal and binary numbers

The hexadecimal and the binary format write the two's complement of an integer: one below zero
counts from `2 ^ 32` if it is at least `-2 ^ 31`, and from `2 ^ 64` otherwise, so it has no sign. In
front of the digits stand only the zeros that a precision asks for.

## Main definitions

- `Number.complement` — the two's complement of an integer, as a sum
- `Numeral.IsWritten` — the digits of a number in a base, filled up to a width
- `Standard.bases` — the letters of the two formats and their bases

## Main statements

- `Number.twosComplement_narrow`, `Number.twosComplement_wide` — what cutting an integer to a signed
  type leaves of it
- `Numeral.isWritten_padZeros` — a number with zeros in front is written up to that width
- `Standard.text_of_mem_bases` — the two formats differ in their base alone
- `FormatArgument.isWritten_complement` — what the formats write for integers
-/

namespace NativeBindings

/-! ## Digits of a base -/

namespace Numeral

/-- The text consists of digits of a base, whose letters have the chosen case, and reads as a
number. It has at least the given width and at least one digit; a zero in front is there for one of
both. -/
structure IsWritten (base : ℕ) (upper : Bool) (width : ℕ) (t : List Char) (n : ℕ) : Prop where
  exists_digits : ∃ ds, t.mapM Toml.hexDigit? = some ds ∧ (∀ d ∈ ds, d < base) ∧ value base ds = n
  isUpper_eq : ∀ c ∈ t, c.isAlpha = true → c.isUpper = upper
  le_length : max width 1 ≤ t.length
  length_of_zero : t.head? = some '0' → t.length = max width 1

variable {base n : ℕ} {upper : Bool}

theorem isUpper_glyph (upper : Bool) :
    ∀ d < 16, (glyph upper d).isAlpha = true → (glyph upper d).isUpper = upper := by
  cases upper <;> decide

theorem glyph_ne_zero (upper : Bool) : ∀ d < 16, d ≠ 0 → glyph upper d ≠ '0' := by
  cases upper <;> decide

theorem text_ne_nil (hbase : 1 < base) (upper : Bool) (n : ℕ) : text base upper n ≠ [] := by
  unfold text
  split
  next => exact List.cons_ne_nil _ _
  next hn => exact mt List.map_eq_nil_iff.1 (digits_ne_nil hbase hn)

/-- A number other than zero starts with another digit. -/
theorem head?_text_ne (hbase : 1 < base) (hle : base ≤ 16) (upper : Bool) (hn : n ≠ 0) :
    (text base upper n).head? ≠ some '0' := by
  rw [text, if_neg hn, List.head?_map]
  intro h
  obtain ⟨d, hd, hglyph⟩ := Option.map_eq_some_iff.1 h
  have hlt : d < base := lt_of_mem_digits (List.mem_of_mem_head? hd)
  have hzero : d ≠ 0 := fun hd0 => head?_digits hbase n (hd0 ▸ hd)
  exact glyph_ne_zero upper d (Nat.lt_of_lt_of_le hlt hle) hzero hglyph

theorem isUpper_text (hle : base ≤ 16) (upper : Bool) (n : ℕ) :
    ∀ c ∈ text base upper n, c.isAlpha = true → c.isUpper = upper := by
  unfold text
  split
  next => exact List.forall_mem_singleton.2 fun h => absurd h (by decide)
  next =>
    refine List.forall_mem_map.2 fun d hd => isUpper_glyph upper d ?_
    exact Nat.lt_of_lt_of_le (lt_of_mem_digits hd) hle

/-- Digits of the decimal or a smaller base have no case. -/
theorem text_eq_text_of_le_ten (hten : base ≤ 10) (upper upper' : Bool) (n : ℕ) :
    text base upper n = text base upper' n := by
  unfold text
  split
  next => rfl
  next =>
    refine List.map_congr_left fun d hd => ?_
    have hlt : d < 10 := Nat.lt_of_lt_of_le (lt_of_mem_digits hd) hten
    rw [glyph, glyph, if_pos hlt, if_pos hlt]

theorem isWritten_padZeros (hbase : 1 < base) (hle : base ≤ 16) (upper : Bool) (width n : ℕ) :
    IsWritten base upper width (padZeros width (text base upper n)) n := by
  have hpos : 1 ≤ (text base upper n).length :=
    List.length_pos_iff.2 (text_ne_nil hbase upper n)
  refine ⟨Toml.mapM_hexDigit?_padZeros hbase hle upper width n, ?_, ?_, ?_⟩
  · intro c hc
    rcases List.mem_append.1 hc with hc | hc
    · rw [List.eq_of_mem_replicate hc]
      exact fun h => absurd h (by decide)
    · exact isUpper_text hle upper n c hc
  · rw [length_padZeros]
    omega
  · rw [length_padZeros]
    intro hhead
    by_cases hn : n = 0
    · rw [hn]
      rfl
    · -- Digits of their own do not start with a zero, so the width asks for more than these.
      have hlt : (text base upper n).length < width := by
        by_contra hge
        rw [padZeros, Nat.sub_eq_zero_of_le (Nat.le_of_not_lt hge), List.replicate_zero,
          List.nil_append] at hhead
        exact head?_text_ne hbase hle upper hn hhead
      omega

end Numeral

/-! ## Two's complement -/

namespace Number

/-- The two's complement of an integer, in 32 bits if these hold it. -/
def complement (v : ℤ) : ℤ :=
  if 0 ≤ v then v else if -2 ^ 31 ≤ v then v + 2 ^ 32 else v + 2 ^ 64

theorem complement_of_nonneg {v : ℤ} (hv : 0 ≤ v) : complement v = v := if_pos hv

theorem twosComplement_of_nonneg {v : ℤ} (hv : 0 ≤ v) (bits : ℕ) :
    (twosComplement v bits : ℤ) = v := by
  rw [twosComplement, if_pos hv, Int.toNat_of_nonneg hv]

/-- A number below zero that a register of `w` bits holds is cut to its distance from `2 ^ w`. -/
theorem toNat_ofInt_of_neg {v : ℤ} {w : ℕ} (hv : v < 0) (hle : -2 ^ w ≤ v) :
    ((BitVec.ofInt w v).toNat : ℤ) = v + 2 ^ w := by
  have hpow : ((2 ^ w : ℕ) : ℤ) = 2 ^ w := Nat.cast_pow 2 w
  rw [BitVec.toNat_ofInt, Int.toNat_of_nonneg (Int.emod_nonneg _ (by positivity)), hpow,
    ← Int.add_emod_right, Int.emod_eq_of_lt (by omega) (by omega)]

theorem twosComplement_narrow {v : ℤ} (hv : v < 0) (hle : -2 ^ 31 ≤ v) :
    (twosComplement v 32 : ℤ) = v + 2 ^ 32 := by
  rw [twosComplement, if_neg (not_le.2 hv), if_pos rfl]
  exact toNat_ofInt_of_neg hv (by omega)

theorem twosComplement_wide {v : ℤ} (hv : v < 0) (hle : -2 ^ 63 ≤ v) :
    (twosComplement v 64 : ℤ) = v + 2 ^ 64 := by
  rw [twosComplement, if_neg (not_le.2 hv), if_neg (by decide)]
  exact toNat_ofInt_of_neg hv (by omega)

/-- A signed number has as many bits as it needs. -/
theorem exists_ofInt64 (v : Int64) :
    ∃ bits, ofInt64 v = .integer v.toInt bits ∧
      (twosComplement v.toInt bits : ℤ) = complement v.toInt := by
  refine ⟨_, rfl, ?_⟩
  have hmin : -2 ^ 63 ≤ v.toInt := v.minValue_le_toInt
  rcases le_or_gt 0 v.toInt with hv | hv
  · rw [twosComplement_of_nonneg hv, complement_of_nonneg hv]
  rw [complement, if_neg (not_le.2 hv)]
  by_cases hnarrow : -2 ^ 31 ≤ v.toInt
  · rw [if_pos hnarrow, if_pos (by omega)]
    exact twosComplement_narrow hv hnarrow
  · rw [if_neg hnarrow, if_neg (by omega)]
    exact twosComplement_wide hv hmin

theorem exists_ofUInt64 (v : UInt64) :
    ∃ bits, ofUInt64 v = .integer v.toNat bits ∧
      (twosComplement v.toNat bits : ℤ) = complement v.toNat := by
  refine ⟨_, rfl, ?_⟩
  have hv : (0 : ℤ) ≤ v.toNat := Int.natCast_nonneg _
  rw [twosComplement_of_nonneg hv, complement_of_nonneg hv]

end Number

/-! ## Formats -/

namespace Standard

variable {letter : Char} {base : ℕ}

/-- The letters of the hexadecimal and the binary format with the bases of their digits. -/
def bases : List (Char × ℕ) := [('X', 16), ('x', 16), ('B', 2), ('b', 2)]

theorem one_lt_and_le_of_mem_bases (h : (letter, base) ∈ bases) : 1 < base ∧ base ≤ 16 := by
  have hall : ∀ entry ∈ bases, 1 < entry.2 ∧ entry.2 ≤ 16 := by decide
  exact hall _ h

theorem text_of_mem_bases (sym : NumberSymbols) (h : (letter, base) ∈ bases) (v : ℤ) (bits : ℕ)
    (precision : Option ℕ) :
    text sym (.integer v bits) letter precision =
      .ok (Numeral.padZeros (precision.getD 0)
        (Numeral.text base letter.isUpper (Number.twosComplement v bits))) := by
  simp only [bases, List.mem_cons, List.not_mem_nil, or_false, Prod.mk.injEq] at h
  rcases h with ⟨rfl, rfl⟩ | ⟨rfl, rfl⟩ | ⟨rfl, rfl⟩ | ⟨rfl, rfl⟩
  · rfl
  · rfl
  · rw [Numeral.text_eq_text_of_le_ten (by decide) 'B'.isUpper false]
    rfl
  · rfl

end Standard

namespace FormatArgument

variable {arg : FormatArgument} {v : ℤ} {letter : Char} {base : ℕ} {digits : List Char}

theorem exists_number?_of_integer? (h : arg.integer? = some v) :
    ∃ bits, arg.number? = some (.integer v bits) ∧
      (Number.twosComplement v bits : ℤ) = Number.complement v := by
  cases arg with
  | int w =>
    cases h
    obtain ⟨bits, hnumber, hbits⟩ := Number.exists_ofInt64 w
    exact ⟨bits, congrArg some hnumber, hbits⟩
  | uint w =>
    cases h
    obtain ⟨bits, hnumber, hbits⟩ := Number.exists_ofUInt64 w
    exact ⟨bits, congrArg some hnumber, hbits⟩
  | null | bool b | char c | string s | float x => simp [integer?] at h

/-- Hexadecimal and binary text is the two's complement of an integer, filled up to a precision. -/
theorem isWritten_complement (sym : NumberSymbols) (hv : arg.integer? = some v)
    (hbase : (letter, base) ∈ Standard.bases) (hspec : Specifier.IsStandard letter digits)
    (hprecision : Numeral.read digits ≤ 999) :
    ∃ t, ∃ n : ℕ, arg.text sym (letter :: digits) = .ok t ∧ (n : ℤ) = Number.complement v ∧
      Numeral.IsWritten base letter.isUpper (Numeral.read digits) t n := by
  obtain ⟨bits, hnumber, hbits⟩ := exists_number?_of_integer? hv
  obtain ⟨hone, hle⟩ := Standard.one_lt_and_le_of_mem_bases hbase
  have hwidth : (if digits = [] then none else some (Numeral.read digits)).getD 0 =
      Numeral.read digits := by
    split
    next h => rw [h]; rfl
    next => rfl
  refine ⟨_, _, ?_, hbits, Numeral.isWritten_padZeros hone hle letter.isUpper _ _⟩
  rw [text_of_number? hnumber, Number.text_of_isStandard hspec, if_pos hprecision,
    Standard.text_of_mem_bases sym hbase, hwidth]

/-- One below the least number that 32 bits hold, with four zeros in front. -/
theorem isWritten_complement_wide :
    (int (-2147483649)).integer? = some (-2147483649) ∧
      ('x', 16) ∈ Standard.bases ∧ Specifier.IsStandard 'x' ['2', '0'] ∧
      ∃ t, ∃ n : ℕ, (int (-2147483649)).text .invariant ['x', '2', '0'] = .ok t ∧
        (n : ℤ) = Number.complement (-2147483649) ∧ Numeral.IsWritten 16 false 20 t n := by
  have hv : (int (-2147483649)).integer? = some (-2147483649) := by decide
  have hbase : ('x', 16) ∈ Standard.bases := by decide
  have hspec : Specifier.IsStandard 'x' ['2', '0'] :=
    ⟨by decide, by decide, by simp [Numeral.isDigit]⟩
  exact ⟨hv, hbase, hspec, isWritten_complement .invariant hv hbase hspec (by decide)⟩

example : (int (-2147483649)).text .invariant ['x', '2', '0'] =
    .ok "0000ffffffff7fffffff".toList := by decide +kernel

end FormatArgument
end NativeBindings
