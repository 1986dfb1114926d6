import NativeBindings.Format.Error
import NativeBindings.Format.Number

/-!
# Standard numeric formats

A standard format is a letter and an optional precision of at most three significant digits. What
does not look like one is a custom pattern.

## Main definitions

- `Specifier.read` — tells standard formats and custom patterns apart
- `Standard.text` — a number written in a standard format
-/

namespace NativeBindings

/-- The largest precision of a standard format. -/
def maxPrecision : Nat := 999

/-- Numbers without a precision change to scientific notation at this exponent. -/
def roundTripThreshold : Nat := 15

/-- How a number is to be written. -/
inductive Specifier where
  | standard (letter : Char) (precision : Option Nat)
  | pattern (chars : List Char)
  deriving DecidableEq

namespace Specifier

def isLetter (c : Char) : Bool := ('a' ≤ c && c ≤ 'z') || ('A' ≤ c && c ≤ 'Z')

/-- The most digits that are read as a precision. -/
def maxPrecisionDigits : Nat := 9

/-- A letter with at most nine digits is a standard format, no text at all the general one, and
all else a custom pattern. -/
def read : List Char → Except FormatError Specifier
  | [] => .ok (.standard 'G' none)
  | letter :: rest =>
    if isLetter letter && rest.length ≤ maxPrecisionDigits && rest.all Numeral.isDigit then
      if rest.isEmpty then .ok (.standard letter none)
      else
        let precision := Numeral.read rest
        if precision ≤ maxPrecision then .ok (.standard letter (some precision))
        else .error .invalidSpecifier
    else .ok (.pattern (letter :: rest))

end Specifier

namespace Standard

/-- The notation that a letter stands for. -/
inductive Style where
  | decimal
  | hexadecimal
  | binary
  | roundTrip
  | general
  | fixed
  | grouped
  | scientific
  | percent
  | currency
  deriving DecidableEq

/-- The notation of a letter of either case. -/
def Style.ofLetter? (letter : Char) : Option Style :=
  match letter.toUpper with
  | 'D' => some .decimal
  | 'X' => some .hexadecimal
  | 'B' => some .binary
  | 'R' => some .roundTrip
  | 'G' => some .general
  | 'F' => some .fixed
  | 'N' => some .grouped
  | 'E' => some .scientific
  | 'P' => some .percent
  | 'C' => some .currency
  | _ => none

/-- The symbol, a sign and at least `minDigits` digits of an exponent. -/
def exponentText (symbol : Char) (e : Int) (minDigits : Nat) : List Char :=
  symbol :: (if e < 0 then '-' else '+') ::
    Numeral.padZeros minDigits (Numeral.decimal e.natAbs)

/-- Scientific notation: one digit, exactly `places` digits, an exponent of at least three. -/
def scientific (sym : NumberSymbols) (d : Decimal) (places : Nat) (symbol : Char) : List Char :=
  let d := d.roundSignificant (places + 1)
  let body := sym.withFraction d.leadText (d.mantissaText places)
  sym.signed d.negative (body ++ exponentText symbol d.exponent 3)

/-- Fixed notation for exponents between -5 and `threshold`, scientific notation outside; no zeros
at the end of either. -/
def general (sym : NumberSymbols) (d : Decimal) (threshold : Nat) (symbol : Char) : List Char :=
  let body :=
    if threshold ≤ d.exponent ∨ d.exponent ≤ -5 then
      sym.withFraction d.leadText d.mantissaTail ++ exponentText symbol d.exponent 2
    else sym.withFraction d.integerText d.significantFraction
  sym.signed d.negative body

/-- The shortest form of a number, in general notation. -/
def shortest (sym : NumberSymbols) (negative : Bool) (m : Nat) (q : Int) (symbol : Char) :
    List Char :=
  general sym (Binary64.shortestDecimal negative m q) roundTripThreshold symbol

/-- `precision` significant digits in general notation; without a precision an integer keeps all
its digits and a fraction has its shortest form. -/
def generalText (sym : NumberSymbols) (n : Number) (precision : Nat) (symbol : Char) : List Char :=
  if precision = 0 then
    match n with
    | .integer v _ => sym.signed (v < 0) (Numeral.decimal v.natAbs)
    | .binary s m q => shortest sym s m q symbol
  else general sym (n.exact.roundSignificant precision) precision symbol

/-- Digits with exactly `places` of them after the point. -/
def fixedText (sym : NumberSymbols) (n : Number) (places : Nat) (inGroups : Bool) : List Char :=
  let d := n.exact.roundFraction places
  sym.signed d.negative (sym.fixedDigits d places inGroups)

/-- Hundredths, in groups, with a blank before the sign. -/
def percentText (sym : NumberSymbols) (n : Number) (places : Nat) : List Char :=
  let d := (n.exact.shift 2).roundFraction places
  sym.signed d.negative (sym.fixedDigits d places true ++ ' ' :: sym.percent)

/-- An amount of money; a negative one stands in parentheses. -/
def currencyText (sym : NumberSymbols) (n : Number) (places : Nat) : List Char :=
  let d := n.exact.roundFraction places
  let body := sym.currency ++ sym.fixedDigits d places true
  if d.negative then '(' :: body ++ [')'] else body

/-- A number in a standard format. Only integers have decimal, hexadecimal and binary forms, and
only fractions a round-trip form. -/
def text (sym : NumberSymbols) (n : Number) (letter : Char) (precision : Option Nat) :
    Except FormatError (List Char) :=
  let symbol := if letter.isUpper then 'E' else 'e'
  let width := precision.getD 0
  match Style.ofLetter? letter, n with
  | some .decimal, .integer v _ =>
    .ok (sym.signed (v < 0) (Numeral.padZeros width (Numeral.decimal v.natAbs)))
  | some .hexadecimal, .integer v bits =>
    .ok (Numeral.padZeros width
      (Numeral.text 16 letter.isUpper (Number.twosComplement v bits)))
  | some .binary, .integer v bits =>
    .ok (Numeral.padZeros width (Numeral.text 2 false (Number.twosComplement v bits)))
  | some .roundTrip, .binary s m q => .ok (shortest sym s m q symbol)
  | some .general, n => .ok (generalText sym n width symbol)
  | some .fixed, n => .ok (fixedText sym n (precision.getD 2) false)
  | some .grouped, n => .ok (fixedText sym n (precision.getD 2) true)
  | some .scientific, n => .ok (scientific sym n.exact (precision.getD 6) symbol)
  | some .percent, n => .ok (percentText sym n (precision.getD 2))
  | some .currency, n => .ok (currencyText sym n (precision.getD 2))
  | _, _ => .error .invalidSpecifier

end Standard
end NativeBindings
