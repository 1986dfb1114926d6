import NativeBindings.Constant.Basic
import NativeBindings.Diagnostic

/-!
# Valid constants

What a member must look like to return a constant text, and the text itself.

## Main definitions

- `ConstantError` — why a member cannot return a constant text
- `Constant.validate` — the type of a constant
- `Constant.value` — the text of a constant
- `Constant.evaluate` — both, in this order
-/

namespace NativeBindings

/-- Why a member cannot return a constant text. -/
inductive ConstantError where
  | unsupportedDeclaration (member : String)
  | nullTemplate
  | format (cause : FormatError)
  deriving DecidableEq

namespace ConstantError

/-- The text of an error. -/
def message : ConstantError → String
  | unsupportedDeclaration member =>
    s!"The target declaration of \"{member}\" must be a 'static' 'partial' method or a 'static' 'partial' property with only a 'get' accessor, returning 'string', 'string?', 'ReadOnlySpan<char>', or 'ReadOnlySpan<byte>'"
  | nullTemplate => "The format string cannot be null"
  | format cause => s!"Error formatting string: {cause.message}"

/-- The problem that an error is reported as. -/
def problem : ConstantError → Problem
  | unsupportedDeclaration _ => .unsupportedDeclarationSignature
  | nullTemplate => .nullFormatString
  | format _ => .formatStringError

/-- The report of an error. -/
def diagnostic (e : ConstantError) (location : Option Location) : Diagnostic :=
  { pass := .constants, problem := e.problem, message := e.message, location }

end ConstantError

/-- The type of constants that a declared type stands for. -/
def ConstantType.ofTypeUse? (t : TypeUse) : Option ConstantType :=
  match t.shape with
  | .string => some (if t.nullable then .nullableString else .string)
  | .span _ .char _ => some .charSpan
  | .span _ .byte _ => some .byteSpan
  | _ => none

/-- Static, in parts, and without a body of its own; a property can only be read. -/
def Member.hasConstantForm (m : Member) : Bool :=
  m.isStatic && m.isPartial &&
    match m.form with
    | .method => !m.hasBody
    | .property hasGet hasSet => hasGet && !hasSet

namespace Constant

/-- The type of a constant whose member has the right form. -/
def validate (c : Constant) : Except ConstantError ConstantType :=
  let type := if c.target.hasConstantForm then ConstantType.ofTypeUse? c.target.returnType else none
  type.elim (.error (.unsupportedDeclaration c.target.displayName)) .ok

/-- The text of a constant. -/
def value (c : Constant) : Except ConstantError String :=
  match c.template with
  | none => .error .nullTemplate
  | some template => (NativeBindings.format template c.args c.culture).mapError .format

/-- The constant with its type and its text. -/
def evaluate (c : Constant) : Except ConstantError EvaluatedConstant := do
  let type ← c.validate
  let value ← c.value
  .ok ⟨{ c with type := some type }, value⟩

end Constant
end NativeBindings
