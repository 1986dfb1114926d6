import Mathlib.Data.Nat.Digits.Lemmas
import NativeBindings.Text.Numeral

/-!
# Values of numerals

The value of a row of digits, how many digits a number has, and the characters that digits are
written with.

## Main statements

- `Numeral.value_append`, `Numeral.value_pad` — values of longer rows of digits
- `Numeral.eq_of_value_eq` — rows of one length are told apart by their values
- `Numeral.length_digits_le_iff` — how many digits a number has
- `Numeral.read_map_glyph` — written digits read as their value
-/

namespace NativeBindings
namespace Numeral

variable {base n k : Nat} {ds : List Nat}

theorem value_eq_ofDigits (base : Nat) (ds : List Nat) :
    value base ds = Nat.ofDigits base ds.reverse := by
  induction ds using List.reverseRecOn with
  | nil => rfl
  | append_singleton ds d ih =>
    rw [value_append_singleton, ih, List.reverse_append, List.reverse_singleton,
      List.singleton_append, Nat.ofDigits_cons]
    ring

theorem digits_eq_reverse (hbase : 1 < base) (n : Nat) :
    digits base n = (Nat.digits base n).reverse := by
  induction n using Nat.strongRecOn with
  | _ n ih =>
    rw [digits]
    split
    next h =>
      have hn : n = 0 := by omega
      simp [hn]
    next h =>
      have hpos : 0 < n := by omega
      rw [ih (n / base) (Nat.div_lt_self hpos hbase), Nat.digits_def' hbase hpos,
        List.reverse_cons]

theorem value_append (base : Nat) (xs ys : List Nat) :
    value base (xs ++ ys) = value base xs * base ^ ys.length + value base ys := by
  simp only [value_eq_ofDigits, List.reverse_append, Nat.ofDigits_append, List.length_reverse]
  ring

theorem value_replicate_zero (base k : Nat) : value base (List.replicate k 0) = 0 := by
  rw [value_eq_ofDigits, List.reverse_replicate, Nat.ofDigits_replicate_zero]

/-- Zeros in front do not count, zeros behind multiply. -/
theorem value_pad (base i j : Nat) (ds : List Nat) :
    value base (List.replicate i 0 ++ ds ++ List.replicate j 0) = value base ds * base ^ j := by
  simp only [value_append, value_replicate_zero, List.length_replicate, Nat.zero_mul, Nat.zero_add,
    Nat.add_zero]

theorem lt_of_mem_append_zeros (h : ∀ d ∈ ds, d < base) (hbase : 0 < base) (k : Nat) :
    ∀ d ∈ ds ++ List.replicate k 0, d < base := by
  intro d hd
  rcases List.mem_append.1 hd with hd | hd
  · exact h d hd
  · rwa [List.eq_of_mem_replicate hd]

theorem value_lt (hbase : 1 < base) (h : ∀ d ∈ ds, d < base) :
    value base ds < base ^ ds.length := by
  rw [value_eq_ofDigits, ← List.length_reverse]
  exact Nat.ofDigits_lt_base_pow_length hbase fun d hd => h d (List.mem_reverse.1 hd)

theorem value_cons (base d : Nat) (ds : List Nat) :
    value base (d :: ds) = d * base ^ ds.length + value base ds := by
  rw [← List.singleton_append, value_append]
  simp [value]

/-- A row that does not start with a zero is at least as large as its first place. -/
theorem pow_le_value (h : ds.head? ≠ some 0) (hds : ds ≠ []) :
    base ^ (ds.length - 1) ≤ value base ds := by
  obtain ⟨d, rest, rfl⟩ := List.exists_cons_of_ne_nil hds
  have hd : 1 ≤ d := by
    have : d ≠ 0 := fun hd => h (by rw [hd]; rfl)
    omega
  have hle : 1 * base ^ rest.length ≤ d * base ^ rest.length := Nat.mul_le_mul_right _ hd
  rw [value_cons, List.length_cons, Nat.add_sub_cancel]
  omega

/-- Another digit in one place changes the value by the difference of the two. -/
theorem value_set {i : Nat} (hi : i < ds.length) (d : Nat) :
    value base (ds.set i d) + ds[i] * base ^ (ds.length - (i + 1)) =
      value base ds + d * base ^ (ds.length - (i + 1)) := by
  have hds : value base ds = value base (ds.take i) * base ^ (ds.length - i) +
      (ds[i] * base ^ (ds.length - (i + 1)) + value base (ds.drop (i + 1))) := by
    conv_lhs => rw [← List.take_append_drop i ds, List.drop_eq_getElem_cons hi]
    rw [value_append, value_cons, ← List.drop_eq_getElem_cons hi, List.length_drop,
      List.length_drop]
  have hset : value base (ds.set i d) = value base (ds.take i) * base ^ (ds.length - i) +
      (d * base ^ (ds.length - (i + 1)) + value base (ds.drop (i + 1))) := by
    rw [List.set_eq_take_append_cons_drop, if_pos hi, value_append, value_cons, List.length_cons,
      List.length_drop]
    have hlength : ds.length - (i + 1) + 1 = ds.length - i := by omega
    rw [hlength]
  rw [hset, hds]
  ring

/-- Rows of one length are told apart by their values. -/
theorem eq_of_value_eq (hbase : 1 < base) {ds' : List Nat} (hlength : ds.length = ds'.length)
    (h : ∀ d ∈ ds, d < base) (h' : ∀ d ∈ ds', d < base) (hvalue : value base ds = value base ds') :
    ds = ds' := by
  rw [value_eq_ofDigits, value_eq_ofDigits] at hvalue
  have hreverse := Nat.ofDigits_inj_of_len_eq hbase (by simpa using hlength)
    (fun d hd => h d (List.mem_reverse.1 hd)) (fun d hd => h' d (List.mem_reverse.1 hd)) hvalue
  exact List.reverse_injective hreverse

theorem length_digits_le_iff (hbase : 1 < base) :
    (digits base n).length ≤ k ↔ n < base ^ k := by
  rw [digits_eq_reverse hbase, List.length_reverse, Nat.digits_length_le_iff hbase]

theorem head?_digits (hbase : 1 < base) (n : Nat) : (digits base n).head? ≠ some 0 := by
  rw [digits_eq_reverse hbase, List.head?_reverse]
  intro h
  have hn : n ≠ 0 := by
    rintro rfl
    simp at h
  have hne := Nat.digits_ne_nil_iff_ne_zero (b := base).2 hn
  rw [List.getLast?_eq_some_getLast hne, Option.some.injEq] at h
  exact Nat.getLast_digit_ne_zero base hn h

/-- Digits without a zero in front are those of their value. -/
theorem digits_value (hbase : 1 < base) (h : ∀ d ∈ ds, d < base) (hhead : ds.head? ≠ some 0) :
    digits base (value base ds) = ds := by
  rw [digits_eq_reverse hbase, value_eq_ofDigits, Nat.digits_ofDigits base hbase,
    List.reverse_reverse]
  · exact fun d hd => h d (List.mem_reverse.1 hd)
  · intro hne hlast
    rw [List.getLast_reverse] at hlast
    exact hhead (by rw [← hlast, List.head?_eq_some_head])

theorem digits_ne_nil (hbase : 1 < base) (hn : n ≠ 0) : digits base n ≠ [] := by
  rw [digits_eq_reverse hbase, ne_eq, List.reverse_eq_nil_iff]
  exact Nat.digits_ne_nil_iff_ne_zero.2 hn

/-! ## Characters -/

theorem digitValue_glyph (upper : Bool) : ∀ d < 10, digitValue (glyph upper d) = d := by
  cases upper <;> decide

theorem isDigit_glyph (upper : Bool) : ∀ d < 10, isDigit (glyph upper d) = true := by
  cases upper <;> decide

theorem digitValue_lt {c : Char} (h : isDigit c = true) : digitValue c < 10 := by
  have hle : c ≤ '9' := by
    rw [isDigit, Bool.and_eq_true, decide_eq_true_iff, decide_eq_true_iff] at h
    exact h.2
  have hnat : c.toNat ≤ 57 := hle
  rw [digitValue]
  omega

theorem map_digitValue_glyph (upper : Bool) (h : ∀ d ∈ ds, d < 10) :
    (ds.map (glyph upper)).map digitValue = ds := by
  rw [List.map_map]
  exact (List.map_congr_left fun d hd => digitValue_glyph upper d (h d hd)).trans (List.map_id ds)

theorem read_map_glyph (upper : Bool) (h : ∀ d ∈ ds, d < 10) :
    read (ds.map (glyph upper)) = value 10 ds := by
  rw [read, map_digitValue_glyph upper h]

theorem read_decimal (n : Nat) : read (decimal n) = n := by
  unfold decimal text
  split
  next h => rw [h]; decide
  next => rw [read_map_glyph false fun d => lt_of_mem_digits, value_digits (by decide)]

theorem read_padZeros (width : Nat) (s : List Char) : read (padZeros width s) = read s := by
  have hzeros := value_pad 10 (width - s.length) 0 (s.map digitValue)
  simpa [read, padZeros, digitValue] using hzeros

/-- Zeros behind digits multiply. -/
theorem read_append_zeros (s : List Char) (k : Nat) :
    read (s ++ List.replicate k '0') = read s * 10 ^ k := by
  have hzeros := value_pad 10 0 k (s.map digitValue)
  simpa [read, digitValue] using hzeros

theorem length_padZeros (width : Nat) (s : List Char) :
    (padZeros width s).length = max width s.length := by
  simp only [padZeros, List.length_append, List.length_replicate]
  omega

/-- Zero is written with a digit although it has none. -/
theorem exists_text_eq_map (hbase : 1 < base) (upper : Bool) (n : Nat) :
    ∃ ds, text base upper n = ds.map (glyph upper) ∧ (∀ d ∈ ds, d < base) ∧ value base ds = n := by
  by_cases hn : n = 0
  · subst hn
    refine ⟨[0], ?_, ?_, ?_⟩
    · cases upper <;> rfl
    · intro d hd
      rw [List.mem_singleton.1 hd]
      omega
    · simp [value]
  · refine ⟨digits base n, ?_, fun d => lt_of_mem_digits, value_digits hbase n⟩
    rw [text, if_neg hn]

theorem length_text_le (hbase : 1 < base) (upper : Bool) (hk : 1 ≤ k) (hn : n < base ^ k) :
    (text base upper n).length ≤ k := by
  unfold text
  split
  next => exact hk
  next => rw [List.length_map]; exact (length_digits_le_iff hbase).2 hn

theorem isDigit_decimal (n : Nat) : ∀ c ∈ decimal n, isDigit c = true := by
  unfold decimal text
  split
  next => exact List.forall_mem_singleton.2 (by decide)
  next =>
    simp only [List.forall_mem_map]
    exact fun d hd => isDigit_glyph false d (lt_of_mem_digits hd)

theorem isDigit_padZeros {width : Nat} {s : List Char} (h : ∀ c ∈ s, isDigit c = true) :
    ∀ c ∈ padZeros width s, isDigit c = true := by
  intro c hc
  rcases List.mem_append.1 hc with hc | hc
  · rw [List.eq_of_mem_replicate hc]
    decide
  · exact h c hc

theorem decimal_ne_nil (n : Nat) : decimal n ≠ [] := by
  unfold decimal text
  split
  next => simp
  next h => simpa using digits_ne_nil (by decide) h

theorem padZeros_ne_nil {width : Nat} {s : List Char} (h : s ≠ []) : padZeros width s ≠ [] := by
  intro hnil
  exact h (List.append_eq_nil_iff.1 hnil).2

end Numeral
end NativeBindings
