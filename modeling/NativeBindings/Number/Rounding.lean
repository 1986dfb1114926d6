/-!
# Rounding a quotient

The nearest natural number to a quotient, with a rule for the exact half.
-/

namespace NativeBindings

/-- What becomes of a quotient that lies exactly between two numbers. -/
inductive Tie where
  /-- The larger magnitude is taken. -/
  | awayFromZero
  /-- The even neighbour is taken. -/
  | toEven
  deriving DecidableEq

/-- `n / d` rounded to the nearest number. -/
def roundedQuotient (tie : Tie) (n d : Nat) : Nat :=
  let q := n / d
  let r := n % d
  if 2 * r < d then q
  else if d < 2 * r then q + 1
  else match tie with
    | .awayFromZero => q + 1
    | .toEven => q + q % 2

end NativeBindings
