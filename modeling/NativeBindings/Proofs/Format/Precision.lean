import Mathlib.Control.Monad.Basic
import NativeBindings.Proofs.Format.Specifier

/-!
# Digits behind the letter of a specifier

Up to nine digits behind a letter are the precision of a standard format, and zeros in front count
among the nine. A number has a text for such a specifier exactly if it has the format and the value
of the digits is at most 999. Nothing is refused behind more than nine digits, whatever their value:
letter and digits are the characters of a pattern.

## Main definitions

- `Number.ReadsPrecision` — the digits behind a letter are a precision

## Main statements

- `Number.readsPrecision_or_isPattern` — how many digits are a precision
- `Number.exists_not_readsPrecision` — not every row of digits is one
-/

namespace NativeBindings
namespace Number

variable {sym : NumberSymbols} {n : Number} {letter : Char} {digits : List Char}

/-- The number is written in the standard format of the letter with the value of the digits as its
precision. If it does not have the format, or the value is above 999, it is not written at all. -/
structure ReadsPrecision (sym : NumberSymbols) (n : Number) (letter : Char)
    (digits : List Char) : Prop where
  exists_text : letter.toUpper ∈ n.letters → Numeral.read digits ≤ 999 →
    ∃ t, Standard.text sym n letter (some (Numeral.read digits)) = .ok t ∧
      n.text sym (letter :: digits) = .ok t
  text_eq_error : letter.toUpper ∉ n.letters ∨ 999 < Numeral.read digits →
    n.text sym (letter :: digits) = .error .invalidSpecifier

theorem readsPrecision_of_isStandard (h : Specifier.IsStandard letter digits) (hne : digits ≠ [])
    (sym : NumberSymbols) (n : Number) : ReadsPrecision sym n letter digits where
  exists_text := by
    intro hletter hread
    obtain ⟨t, ht⟩ : ∃ t, Standard.text sym n letter (some (Numeral.read digits)) = .ok t :=
      Standard.exists_text hletter
    refine ⟨t, ht, ?_⟩
    rw [text_of_isStandard h, if_pos hread, if_neg hne, ht]
  text_eq_error := by
    intro hrefused
    apply Number.text_eq_error
    intro haccepts
    obtain ⟨hletter, hread⟩ := haccepts letter digits rfl h
    rcases hrefused with hnot | hlt
    · exact hnot hletter
    · omega

/-- Up to nine digits behind a letter are a precision; with more digits it is the start of a pattern,
which every number has a text for. -/
theorem readsPrecision_or_isPattern (hletter : Specifier.isLetter letter = true)
    (hne : digits ≠ []) (hdigits : ∀ c ∈ digits, Numeral.isDigit c = true) (sym : NumberSymbols)
    (n : Number) :
    (digits.length ≤ 9 → ReadsPrecision sym n letter digits) ∧
      (9 < digits.length →
        n.text sym (letter :: digits) = .ok (Pattern.text sym n (letter :: digits))) := by
  constructor
  · intro hlength
    exact readsPrecision_of_isStandard ⟨hletter, hlength, hdigits⟩ hne sym n
  · intro hlength
    refine text_of_not_isStandard fun hstandard => ?_
    have := hstandard.2.1
    omega

/-- Zeros in front do not count for the value, as long as there are at most nine digits. -/
theorem readsPrecision_or_isPattern_zeros :
    let digits := "000000004".toList
    Specifier.isLetter 'D' = true ∧ digits ≠ [] ∧ (∀ c ∈ digits, Numeral.isDigit c = true) ∧
      digits.length ≤ 9 ∧ ReadsPrecision .invariant (.integer (-42) 32) 'D' digits ∧
      (Number.integer (-42) 32).text .invariant ('D' :: digits) = .ok "-0042".toList := by
  intro digits
  have hdigits : ∀ c ∈ digits, Numeral.isDigit c = true := List.all_eq_true.1 (by decide)
  have hletter : Specifier.isLetter 'D' = true := by decide
  have hreads := (readsPrecision_or_isPattern hletter (by decide) hdigits .invariant
    (.integer (-42) 32)).1 (by decide)
  exact ⟨hletter, by decide, hdigits, by decide, hreads, by decide +kernel⟩

/-- A value far above 999 is accepted if it is written with ten digits, most of which are then
placeholders of a pattern. -/
theorem exists_not_readsPrecision :
    ¬ ∀ (sym : NumberSymbols) (n : Number) (letter : Char) (digits : List Char),
      Specifier.isLetter letter = true → digits ≠ [] →
      (∀ c ∈ digits, Numeral.isDigit c = true) →
      (n.text sym (letter :: digits) =
          Standard.text sym n letter (some (Numeral.read digits)) ∨
        n.text sym (letter :: digits) = .error .invalidSpecifier) ∧
      (999 < Numeral.read digits →
        n.text sym (letter :: digits) = .error .invalidSpecifier) := by
  intro h
  have htext : (Number.integer 5 32).text .invariant "D1000000000".toList =
      .ok "D1000000005".toList := by decide +kernel
  have herror := (h .invariant (.integer 5 32) 'D' "1000000000".toList (by decide) (by decide)
    (List.all_eq_true.1 (by decide))).2 (by decide +kernel)
  cases htext.symm.trans herror

end Number
end NativeBindings
