import NativeBindings.Text.Segment
import NativeBindings.Toml.Value

/-!
# TOML scalars

Truth values, numbers, dates and times. Some words are well formed without having a value; they matter
only where the value is used.

## Main definitions

- `Toml.digitRun?` — digits with single underscores between them
- `Toml.scalar?` — the value of an unquoted word
-/

namespace NativeBindings
namespace Toml

/-- The digits of a run in which underscores stand only between digits. -/
def digitRun? (isDigit : Char → Bool) (s : List Char) : Option (List Char) :=
  let parts := segments '_' s
  if parts.all fun part => !part.isEmpty && part.all isDigit then some parts.flatten else none

/-- The value of a hexadecimal digit. -/
def hexDigit? (c : Char) : Option Nat :=
  if '0' ≤ c ∧ c ≤ '9' then some (c.toNat - 48)
  else if 'a' ≤ c ∧ c ≤ 'f' then some (c.toNat - 87)
  else if 'A' ≤ c ∧ c ≤ 'F' then some (c.toNat - 55)
  else none

/-- The number that digits of a base are written for; without any digits there is none. -/
def basedNumber? (base : Nat) (s : List Char) : Option Value :=
  let isDigit (c : Char) : Bool := (hexDigit? c).any (· < base)
  if s.isEmpty then some (.unusable s)
  else (digitRun? isDigit s).map fun ds => .integer (Numeral.value base (ds.filterMap hexDigit?))

/-- The digits of a decimal integer. It has no needless zeros in front unless they are allowed. -/
def integerDigits? (zeros : Bool) (s : List Char) : Option (List Char) := do
  let ds ← digitRun? Numeral.isDigit s
  if zeros || ds.length = 1 || ds.head? ≠ some '0' then some ds else none

/-- The sign of a number and what follows it. -/
def signed : List Char → Bool × List Char
  | '-' :: s => (true, s)
  | '+' :: s => (false, s)
  | s => (false, s)

/-- A number with its sign. -/
def withSign (negative : Bool) (n : Nat) : Int := if negative then -n else n

/-- What stands in front of and behind the exponent mark, which may be missing. -/
def cutExponent (s : List Char) : List Char × Option (List Char) :=
  let mantissa := s.takeWhile fun c => c != 'e' && c != 'E'
  match s.drop mantissa.length with
  | [] => (mantissa, none)
  | _ :: exponent => (mantissa, some exponent)

/-- The exponent of a number; zeros may stand in front. -/
def exponent? : Option (List Char) → Option Int
  | none => some 0
  | some s => do
    let (negative, s) := signed s
    let ds ← digitRun? Numeral.isDigit s
    some (withSign negative (Numeral.read ds))

/-- A number with a fraction or an exponent or both; one that is too large has no value. -/
def float? (negative zeros : Bool) (s : List Char) : Option Value := do
  let (mantissa, e) := cutExponent s
  let exponent ← exponent? e
  let (integer, fraction) ← match cut? '.' mantissa with
    | some (integer, fraction) => do some (integer, ← digitRun? Numeral.isDigit fraction)
    | none => if e.isSome then some (mantissa, []) else none
  let ds := (← integerDigits? zeros integer) ++ fraction
  let x := Binary64.ofScaled negative (Numeral.read ds) (exponent - fraction.length)
  some (if x = .infinity negative then .unusable s else .float x)

/-- A hexadecimal digit stands on both sides of every underscore. -/
def hasDigitsAround : List (List Char) → Bool
  | [] => true
  | [part] => (part.head?.bind hexDigit?).isSome
  | part :: parts =>
    (part.head?.bind hexDigit?).isSome && (part.getLast?.bind hexDigit?).isSome
      && hasDigitsAround parts

/-- The text can pass for an integer: it starts with decimal digits, and only behind an underscore do
others follow. -/
def resemblesInteger (zeros : Bool) (s : List Char) : Bool :=
  let parts := segments '_' s
  let first := parts.head?.getD []
  hasDigitsAround parts && (zeros || (first.all Numeral.isDigit && first.head? ≠ some '0'))

/-- The value of a number behind its sign. A text that only resembles an integer has none. -/
def magnitude? (negative zeros : Bool) (s : List Char) : Option Value :=
  match integerDigits? zeros s with
  | some ds => some (.integer (withSign negative (Numeral.read ds)))
  | none =>
    if s.any ['.', 'e', 'E'].contains then float? negative zeros s
    else if resemblesInteger zeros s then some (.unusable s)
    else none

/-- The value of a number. An underscore can follow the sign, and then zeros can stand in front. -/
def number? : List Char → Option Value
  | '+' :: '_' :: s => magnitude? false true s
  | '-' :: '_' :: s => magnitude? true true s
  | s =>
    let (negative, s) := signed s
    if s = ['i', 'n', 'f'] then some (.float (.infinity negative))
    else if s = ['n', 'a', 'n'] then some (.float (.nan negative))
    else magnitude? negative false s

/-- The value of an unquoted word. -/
def scalar? : List Char → Option Value
  | ['t', 'r', 'u', 'e'] => some (.boolean true)
  | ['f', 'a', 'l', 's', 'e'] => some (.boolean false)
  | '0' :: 'x' :: s => basedNumber? 16 s
  | '0' :: 'o' :: s => basedNumber? 8 s
  | '0' :: 'b' :: s => basedNumber? 2 s
  | s =>
    match DateTime.read? s with
    | some d => some (.dateTime d)
    | none => number? s

end Toml
end NativeBindings
