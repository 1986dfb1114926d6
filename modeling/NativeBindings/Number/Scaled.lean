import NativeBindings.Number.Decimal
import NativeBindings.Number.Rounding

/-!
# Decimals of scaled numbers

The normal form of a natural number times a power of ten, and the rounding of a decimal by a
division of its digits read as one number.

## Main definitions

- `Decimal.ofScaled` — the normal form of a scaled number
- `Decimal.nearestAt` — the nearest decimal with a given number of leading digits
-/

namespace NativeBindings
namespace Decimal

/-- `n · 10^e` without the trailing zeros of `n`. -/
def stripZeros (n : Nat) (e : Int) : Nat × Int :=
  if _h : n = 0 ∨ n % 10 ≠ 0 then (n, e) else stripZeros (n / 10) (e + 1)
termination_by n
decreasing_by omega

/-- The normal form of `± coefficient · 10^exponent`. -/
def ofScaled (negative : Bool) (coefficient : Nat) (exponent : Int) : Decimal :=
  if coefficient = 0 then zero negative
  else
    let (n, e) := stripZeros coefficient exponent
    let ds := Numeral.digits 10 n
    ⟨negative, ds, ds.length + e⟩

/-- The nearest decimal with the given number of leading digits. -/
def nearestAt (tie : Tie) (d : Decimal) (keep : Int) : Decimal :=
  if d.digits.length ≤ keep then d
  else if keep < 0 then zero d.negative
  else
    let dropped := d.digits.length - keep.toNat
    ofScaled d.negative (roundedQuotient tie d.coefficient (Nat.pow 10 dropped)) (d.point - keep)

@[simp] theorem negative_ofScaled (s : Bool) (n : Nat) (e : Int) :
    (ofScaled s n e).negative = s := by
  unfold ofScaled
  split <;> rfl

@[simp] theorem negative_nearestAt (tie : Tie) (d : Decimal) (keep : Int) :
    (d.nearestAt tie keep).negative = d.negative := by
  unfold nearestAt
  split
  · rfl
  · split
    · rfl
    · exact negative_ofScaled ..

theorem isNormal_zero (s : Bool) : (zero s).IsNormal :=
  ⟨by simp [zero], by simp [zero], by simp [zero], fun _ => rfl⟩

end Decimal
end NativeBindings
