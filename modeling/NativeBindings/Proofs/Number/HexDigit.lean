import Mathlib.Tactic.SplitIfs
import NativeBindings.Proofs.Number.Numeral
import NativeBindings.Toml.Scalar

/-!
# Hexadecimal digits

Digits and letters as they are written are read as the values that they were written for, so numbers
in a base up to sixteen read as themselves, with zeros in front or without.

## Main statements

- `Toml.mapM_hexDigit?_padZeros` — written numbers are read digit by digit
-/

namespace NativeBindings
namespace Toml

variable {base : Nat} {d : Char}

theorem hexDigit?_glyph (upper : Bool) :
    ∀ d < 16, hexDigit? (Numeral.glyph upper d) = some d := by
  cases upper <;> decide

theorem mapM_hexDigit?_map_glyph (upper : Bool) {ds : List Nat} (h : ∀ d ∈ ds, d < 16) :
    (ds.map (Numeral.glyph upper)).mapM hexDigit? = some ds := by
  induction ds with
  | nil => rfl
  | cons d ds ih =>
    obtain ⟨hd, hds⟩ := List.forall_mem_cons.1 h
    rw [List.map_cons, List.mapM_cons, hexDigit?_glyph upper d hd, ih hds]
    rfl

/-- The digits of a number, with zeros in front, read as that number. -/
theorem mapM_hexDigit?_padZeros (hbase : 1 < base) (hle : base ≤ 16) (upper : Bool)
    (width n : Nat) :
    ∃ ds, (Numeral.padZeros width (Numeral.text base upper n)).mapM hexDigit? = some ds ∧
      (∀ d ∈ ds, d < base) ∧ Numeral.value base ds = n := by
  obtain ⟨ds, htext, hds, hvalue⟩ := Numeral.exists_text_eq_map hbase upper n
  have hzero : '0' = Numeral.glyph upper 0 := by cases upper <;> rfl
  have hdigits : ∀ d ∈ List.replicate (width - ds.length) 0 ++ ds, d < base := by
    intro d hd
    rcases List.mem_append.1 hd with hd | hd
    · rw [List.eq_of_mem_replicate hd]
      omega
    · exact hds d hd
  refine ⟨List.replicate (width - ds.length) 0 ++ ds, ?_, hdigits, ?_⟩
  · rw [Numeral.padZeros, htext, List.length_map, hzero, ← List.map_replicate, ← List.map_append]
    exact mapM_hexDigit?_map_glyph upper fun d hd => Nat.lt_of_lt_of_le (hdigits d hd) hle
  · rw [Numeral.value_append, Numeral.value_replicate_zero, hvalue, Nat.zero_mul, Nat.zero_add]

theorem toNat_of_hexDigit? {n : Nat} (h : hexDigit? d = some n) :
    0x30 ≤ d.toNat ∧ d.toNat ≤ 0x66 := by
  have hle (a b : Char) : a ≤ b ↔ a.toNat ≤ b.toNat := Iff.rfl
  simp only [hexDigit?, hle, Char.reduceToNat] at h
  split_ifs at h <;> omega

theorem exists_hexDigit?_of_mapM {ds : List Char} {ns : List Nat}
    (h : ds.mapM hexDigit? = some ns) : ∀ d ∈ ds, ∃ n, hexDigit? d = some n := by
  induction ds generalizing ns with
  | nil => exact List.forall_mem_nil _
  | cons d ds ih =>
    simp only [List.mapM_cons, Option.bind_eq_bind, Option.bind_eq_some_iff] at h
    obtain ⟨n, hd, ms, hds, _⟩ := h
    exact List.forall_mem_cons.2 ⟨⟨n, hd⟩, ih hds⟩

end Toml
end NativeBindings
