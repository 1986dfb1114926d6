import NativeBindings.Number.Scaled

/-!
# Binary floating point

A 64-bit floating-point number is its bit pattern. A finite pattern stands for `± m · 2^q`.

## Main definitions

- `Binary64.decode` — what a bit pattern stands for
- `Binary64.ofScaled` — the nearest number to a decimal, the even one of two
- `Binary64.exactDecimal` — the decimal expansion, cut at 61 significant digits
- `Binary64.shortestDecimal` — the fewest digits that read back as the number
-/

namespace NativeBindings

/-- A floating-point number as its bit pattern. -/
structure Binary64 where
  bits : UInt64
  deriving DecidableEq

namespace Binary64

/-- What a bit pattern stands for. -/
inductive Meaning where
  /-- `± m · 2^q`. -/
  | finite (negative : Bool) (m : Nat) (q : Int)
  | infinite (negative : Bool)
  | notANumber
  deriving DecidableEq

/-- The meaning of a bit pattern. -/
def decode (x : Binary64) : Meaning :=
  let n := x.bits.toNat
  let negative : Bool := Nat.pow 2 63 ≤ n
  let exponent : Nat := n / Nat.pow 2 52 % Nat.pow 2 11
  let fraction : Nat := n % Nat.pow 2 52
  if exponent = 2047 then
    if fraction = 0 then .infinite negative else .notANumber
  else if exponent = 0 then .finite negative fraction (-1074)
  else .finite negative (Nat.pow 2 52 + fraction) ((exponent : Int) - 1075)

/-- The sign bit put in front of a magnitude. -/
def ofMagnitude (negative : Bool) (magnitude : Nat) : Binary64 :=
  ⟨UInt64.ofNat (magnitude + if negative then Nat.pow 2 63 else 0)⟩

/-- The magnitude bits of infinity. -/
def infinityBits : Nat := 2047 * Nat.pow 2 52

/-- The infinity of the given sign. -/
def infinity (negative : Bool) : Binary64 := ofMagnitude negative infinityBits

/-- The standard quiet not-a-number of the given sign. -/
def nan (negative : Bool) : Binary64 := ofMagnitude negative (infinityBits + Nat.pow 2 51)

/-- The exponent `q` at which `n / d` has a 53-bit significand, no lower than the smallest one. -/
def unitExponent (n d : Nat) : Int :=
  let q : Int := (n.log2 : Int) - d.log2 - 52
  -- `n / d` lies between `2^(q + 51)` and `2^(q + 53)`.
  let short :=
    if 0 ≤ q + 52 then n < d * Nat.pow 2 (q + 52).toNat else n * Nat.pow 2 (-(q + 52)).toNat < d
  max (if short then q - 1 else q) (-1074)

/-- The magnitude bits of the number nearest to `n / d`, those of infinity on overflow. -/
def nearestBits (n d : Nat) : Nat :=
  if n = 0 then 0
  else
    let q := unitExponent n d
    let m :=
      if 0 ≤ q then roundedQuotient .toEven n (d * Nat.pow 2 q.toNat)
      else roundedQuotient .toEven (n * Nat.pow 2 (-q).toNat) d
    min ((q + 1074).toNat * Nat.pow 2 52 + m) infinityBits

/-- The magnitude bits of the number nearest to `coefficient · 10^exponent`. A number of more than 310
integer digits is infinite and one below `10^(-330)` is zero, so neither needs its exact value. -/
def scaledBits (coefficient : Nat) (exponent : Int) : Nat :=
  let point : Int := (Numeral.digits 10 coefficient).length + exponent
  if coefficient = 0 ∨ point < -330 then 0
  else if 310 < point then infinityBits
  else if 0 ≤ exponent then nearestBits (coefficient * Nat.pow 10 exponent.toNat) 1
  else nearestBits coefficient (Nat.pow 10 (-exponent).toNat)

/-- The nearest number to `± coefficient · 10^exponent`, the even one of two that are as near. -/
def ofScaled (negative : Bool) (coefficient : Nat) (exponent : Int) : Binary64 :=
  ofMagnitude negative (scaledBits coefficient exponent)

/-- All digits of `m · 2^q`. -/
def dyadicDecimal (m : Nat) (q : Int) : Decimal :=
  if 0 ≤ q then .ofScaled false (m * Nat.pow 2 q.toNat) 0
  else .ofScaled false (m * Nat.pow 5 (-q).toNat) q

/-- The most significant digits kept of an exact expansion. -/
def exactDigits : Nat := 61

/-- The expansion of `± m · 2^q`, read off its magnitude, which is displayed with `exactDigits`
significant digits, rounded to even. -/
def exactDecimal (negative : Bool) (m : Nat) (q : Int) : Decimal :=
  let d := (dyadicDecimal m q).nearestAt .toEven exactDigits
  .ofExponential negative (d.exponentialText (exactDigits - 1))

/-- The interval of values that read back as one number, in multiples of a power of ten. -/
structure Neighbourhood where
  centre : Nat
  low : Nat
  high : Nat
  /-- Both ends read back as the number too. -/
  closed : Bool
  /-- The power of ten. -/
  exponent : Int
  deriving DecidableEq

namespace Neighbourhood

/-- The interval around `m · 2^q`; below a power of two the gap is half as wide. -/
def around (m : Nat) (q : Int) : Neighbourhood :=
  let below := if m = Nat.pow 2 52 then 1 else 2
  let unit := if 2 ≤ q then Nat.pow 2 (q - 2).toNat else Nat.pow 5 (2 - q).toNat
  { centre := 4 * m * unit
    low := (4 * m - below) * unit
    high := (4 * m + 2) * unit
    closed := m % 2 = 0
    exponent := min (q - 2) 0 }

/-- `x` reads back as the number. -/
def contains (i : Neighbourhood) (x : Nat) : Bool :=
  if i.closed then i.low ≤ x && x ≤ i.high else i.low < x && x < i.high

/-- The multiple of `unit` in the interval that is nearest to the centre, the larger of two. -/
def nearestMultiple? (i : Neighbourhood) (unit : Nat) : Option Nat :=
  let below := i.centre / unit * unit
  let above := below + unit
  match i.contains below, i.contains above with
  | true, true => some (if 2 * (i.centre - below) < unit then below else above)
  | true, false => some below
  | false, true => some above
  | false, false => none

/-- The multiple of the largest power of ten below `10^k` that has one in the interval. -/
def shortestBelow (i : Neighbourhood) : Nat → Nat
  | 0 => i.centre
  | k + 1 => (i.nearestMultiple? (Nat.pow 10 k)).getD (i.shortestBelow k)

/-- The value in the interval with the fewest digits, of those the nearest to the centre. -/
def shortest (i : Neighbourhood) : Nat :=
  i.shortestBelow (Numeral.digits 10 i.centre).length

end Neighbourhood

/-- The fewest digits that read back as `± m · 2^q`, read off its displayed magnitude. -/
def shortestDecimal (negative : Bool) (m : Nat) (q : Int) : Decimal :=
  let i := Neighbourhood.around m q
  let d : Decimal := if m = 0 then .zero false else .ofScaled false i.shortest i.exponent
  .ofExponential negative (d.exponentialText (d.digits.length - 1))

end Binary64
end NativeBindings
