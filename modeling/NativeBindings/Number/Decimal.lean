import NativeBindings.Text.Numeral

/-!
# Decimals

A decimal is a sign, a list of digits and the position of the point before them: it stands for
`0.d₀d₁d₂… · 10^point`. In normal form no digit is a leading or trailing zero, and zero has no
digits and its point at 0; the sign of zero is kept. All operations end with `Decimal.trim`, which
removes the zeros at both ends.

## Main definitions

- `Decimal.trim` — the decimal without zeros at either end
- `Decimal.ofInt`, `Decimal.ofExponential` — decimals of written numbers
- `Decimal.roundDigits` — rounds at a digit, a half going away from zero
-/

namespace NativeBindings

/-- A sign, the digits and the position of the point before the first digit. -/
structure Decimal where
  negative : Bool
  digits : List Nat
  point : Int
  deriving DecidableEq

namespace Decimal

/-- The zero of the given sign. -/
def zero (negative : Bool) : Decimal := ⟨negative, [], 0⟩

/-- The digits read as one whole number. -/
def coefficient (d : Decimal) : Nat := Numeral.value 10 d.digits

/-- The power of ten that scales `coefficient`. -/
def scale (d : Decimal) : Int := d.point - d.digits.length

def isZero (d : Decimal) : Bool := d.digits.isEmpty

/-- No leading or trailing zero, and zero has its point at 0. -/
structure IsNormal (d : Decimal) : Prop where
  digit_lt : ∀ x ∈ d.digits, x < 10
  head_ne_zero : d.digits.head? ≠ some 0
  last_ne_zero : d.digits.getLast? ≠ some 0
  point_of_zero : d.digits = [] → d.point = 0

/-- The decimal without zeros at either end. A zero in front takes its place behind the point with
it; one at the end leaves nothing behind. -/
def trim (d : Decimal) : Decimal :=
  let leading := (d.digits.takeWhile (· = 0)).length
  let ds := ((d.digits.drop leading).reverse.dropWhile (· = 0)).reverse
  ⟨d.negative, ds, if ds.isEmpty then 0 else d.point - leading⟩

/-- An integer as a decimal: the digits of its written form, trimmed. -/
def ofInt (v : Int) : Decimal :=
  let ds := (Numeral.decimal v.natAbs).map Numeral.digitValue
  trim ⟨v < 0, ds, ds.length⟩

/-- The number that a text of digits stands for; what is none counts as 0. -/
def readDigits (s : List Char) : Nat :=
  if s.isEmpty || !s.all Numeral.isDigit then 0 else Numeral.read s

/-- An exponent with an optional sign. -/
def readExponent : List Char → Int
  | '-' :: ds => -readDigits ds
  | '+' :: ds => readDigits ds
  | ds => readDigits ds

/-- A decimal in exponential notation, one digit before the point. -/
def ofExponential (negative : Bool) (s : List Char) : Decimal :=
  let mantissa := s.takeWhile (· ≠ 'e')
  let exponent := match s.dropWhile (· ≠ 'e') with
    | [] => 0
    | _ :: e => readExponent e
  trim ⟨negative, (mantissa.filter Numeral.isDigit).map Numeral.digitValue, exponent + 1⟩

/-- The value times `10^k`. -/
def shift (d : Decimal) (k : Int) : Decimal :=
  if d.isZero then d else { d with point := d.point + k }

/-- The digit at a position counted from the first digit; zero outside the digits. -/
def digitAt (d : Decimal) (i : Int) : Nat :=
  if i < 0 then 0 else (d.digits[i.toNat]?).getD 0

/-- One more in the place before `index`. A nine becomes a zero and carries into the place before
it; a carry out of the first place puts a new digit in front. -/
def carry (d : Decimal) : Nat → Decimal
  | 0 => { d with digits := 1 :: d.digits, point := d.point + 1 }
  | index + 1 =>
    if d.digitAt index = 9 then carry { d with digits := d.digits.set index 0 } index
    else { d with digits := d.digits.set index (d.digitAt index + 1) }

/-- Keeps the given number of leading digits and rounds at the cut, a half going away from zero. -/
def roundDigits (d : Decimal) (keep : Int) : Decimal :=
  if d.digits.length ≤ keep then d
  else if keep < 0 then trim { d with digits := [] }
  else
    let kept : Decimal := { d with digits := d.digits.take keep.toNat }
    trim (if 5 ≤ d.digitAt keep then kept.carry keep.toNat else kept)

/-- The value to `p` significant digits. -/
def roundSignificant (d : Decimal) (p : Nat) : Decimal := d.roundDigits p

/-- The value to `places` digits after the point. -/
def roundFraction (d : Decimal) (places : Nat) : Decimal := d.roundDigits (d.point + places)

/-- The characters of `count` digits from position `start` on. -/
def digitText (d : Decimal) (start : Int) (count : Nat) : List Char :=
  (List.range count).map fun (i : Nat) => Numeral.glyph false (d.digitAt (start + i))

/-- The digits before the point, a single `0` if there are none. -/
def integerText (d : Decimal) : List Char :=
  if d.point ≤ 0 then ['0'] else d.digitText 0 d.point.toNat

/-- Exactly `places` digits after the point. -/
def fractionText (d : Decimal) (places : Nat) : List Char := d.digitText d.point places

/-- The digits after the point up to the last one that is not zero. -/
def significantFraction (d : Decimal) : List Char :=
  d.fractionText (d.digits.length - d.point).toNat

/-- The decimal exponent of the leading digit. -/
def exponent (d : Decimal) : Int := if d.isZero then 0 else d.point - 1

/-- The leading digit. -/
def leadText (d : Decimal) : List Char := d.digitText 0 1

/-- Exactly `places` digits after the leading one. -/
def mantissaText (d : Decimal) (places : Nat) : List Char := d.digitText 1 places

/-- The digits after the leading one up to the last one that is not zero. -/
def mantissaTail (d : Decimal) : List Char := d.mantissaText (d.digits.length - 1)

/-- Exponential notation with `places` digits after the point, as floating-point numbers are
displayed. -/
def exponentialText (d : Decimal) (places : Nat) : List Char :=
  let fraction := d.mantissaText places
  let mantissa := if fraction.isEmpty then d.leadText else d.leadText ++ '.' :: fraction
  let magnitude := Numeral.decimal d.exponent.natAbs
  mantissa ++ 'e' :: (if d.exponent < 0 then '-' :: magnitude else magnitude)

@[simp] theorem negative_trim (d : Decimal) : d.trim.negative = d.negative := rfl

@[simp] theorem negative_carry (d : Decimal) (index : Nat) :
    (d.carry index).negative = d.negative := by
  induction index generalizing d with
  | zero => rfl
  | succ index ih =>
    unfold carry
    split
    · rw [ih]
    · rfl

@[simp] theorem negative_roundDigits (d : Decimal) (keep : Int) :
    (d.roundDigits keep).negative = d.negative := by
  unfold roundDigits
  split
  · rfl
  · split
    · rfl
    · dsimp only
      split <;> simp

end Decimal
end NativeBindings
