import NativeBindings.Format.Culture
import NativeBindings.Number.Binary64

/-!
# Finite numbers and their written parts

The numbers that numeric formats take, and the pieces that every format is put together from:
signs, groups of three digits, fixed digits and exponents.
-/

namespace NativeBindings

/-- A finite number to be written. -/
inductive Number where
  /-- An integer; `width` is the number of bits of its two's complement form. -/
  | integer (value : Int) (width : Nat)
  /-- The binary fraction `± m · 2^q`. -/
  | binary (negative : Bool) (m : Nat) (q : Int)
  deriving DecidableEq

namespace Number

/-- A signed integer; the two's complement form has 32 bits if the value fits into them. -/
def ofInt64 (v : Int64) : Number :=
  let n := v.toInt
  .integer n (if -0x80000000 ≤ n ∧ n < 0x80000000 then 32 else 64)

/-- An unsigned integer; the two's complement form has 32 bits if the value fits into them. -/
def ofUInt64 (v : UInt64) : Number :=
  .integer v.toNat (if v.toNat < UInt32.size then 32 else 64)

/-- The value that formats with a precision start from. -/
def exact : Number → Decimal
  | .integer v _ => .ofInt v
  | .binary s m q => Binary64.exactDecimal s m q

/-- The bits of a two's complement form as a number; a value below zero is cut to the signed type
of the width first. -/
def twosComplement (v : Int) (width : Nat) : Nat :=
  if 0 ≤ v then v.toNat
  else if width = 32 then (Int32.ofInt v).toUInt32.toNat
  else (Int64.ofInt v).toUInt64.toNat

end Number

namespace NumberSymbols

/-- `body` with the negative sign in front if asked for. -/
def signed (sym : NumberSymbols) (negative : Bool) (body : List Char) : List Char :=
  if negative then sym.negativeSign ++ body else body

/-- A separator after every digit that has a positive multiple of three digits behind it. -/
def grouped (sym : NumberSymbols) : List Char → List Char
  | [] => []
  | c :: cs =>
    if cs ≠ [] ∧ cs.length % 3 = 0 then c :: (sym.groupSeparator ++ sym.grouped cs)
    else c :: sym.grouped cs

/-- `head` and the digits behind the separator, which is left out with them. -/
def withFraction (sym : NumberSymbols) (head fraction : List Char) : List Char :=
  if fraction.isEmpty then head else head ++ sym.decimalSeparator ++ fraction

/-- Digits before the point, grouped if asked for, and exactly `places` digits after it. -/
def fixedDigits (sym : NumberSymbols) (d : Decimal) (places : Nat) (inGroups : Bool) : List Char :=
  let integer := if inGroups then sym.grouped d.integerText else d.integerText
  sym.withFraction integer (d.fractionText places)

end NumberSymbols
end NativeBindings
