/-!
# Cultures

The symbols that numeric formats write, and the cultures that choose them.
-/

namespace NativeBindings

/-- The culture that a constant is formatted with. -/
inductive Culture where
  | default
  | invariant
  deriving DecidableEq

/-- The symbols that numeric formats write. -/
structure NumberSymbols where
  decimalSeparator : List Char
  groupSeparator : List Char
  currency : List Char
  percent : List Char
  perMille : List Char
  negativeSign : List Char
  notANumber : List Char
  positiveInfinity : List Char
  negativeInfinity : List Char
  deriving DecidableEq

/-- The symbols that belong to no country. -/
def NumberSymbols.invariant : NumberSymbols where
  decimalSeparator := ['.']
  groupSeparator := [',']
  currency := ['\u00a4']
  percent := ['%']
  perMille := ['\u2030']
  negativeSign := ['-']
  notANumber := ['N', 'a', 'N']
  positiveInfinity := "Infinity".toList
  negativeInfinity := "-Infinity".toList

namespace Culture

/-- Both cultures write the invariant symbols: what a host prefers is not known here. -/
def symbols : Culture → NumberSymbols
  | default => .invariant
  | invariant => .invariant

theorem symbols_eq (culture : Culture) : culture.symbols = .invariant := by
  cases culture <;> rfl

/-- The culture of a raw value; 1 is invariant. -/
def ofRaw (raw : Int) : Culture := if raw = 1 then invariant else default

/-- The name that a culture is printed with. -/
def name : Culture → String
  | default => "Default"
  | invariant => "Invariant"

end Culture
end NativeBindings
