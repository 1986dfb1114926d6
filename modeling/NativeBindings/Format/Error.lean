/-!
# Errors of composite formatting
-/

namespace NativeBindings

/-- Why a template has no value for its arguments. -/
inductive FormatError where
  /-- The template does not follow the grammar of composite templates. -/
  | invalidTemplate
  /-- An item names an argument that is not there. -/
  | indexOutOfRange
  /-- A format specifier is unknown, or does not fit its argument. -/
  | invalidSpecifier
  deriving DecidableEq

/-- The text of an error. -/
def FormatError.message : FormatError → String
  | .invalidTemplate => "Input string was not in a correct format."
  | .indexOutOfRange =>
    "Index (zero based) must be greater than or equal to zero and less than the size of the argument list."
  | .invalidSpecifier => "Format specifier was invalid."

end NativeBindings
