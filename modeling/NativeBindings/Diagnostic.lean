import NativeBindings.Declaration.Location
import NativeBindings.Text.Numeral

/-!
# Diagnostics

What a pass has to say about its input. A diagnostic has a stable code, which belongs to the
problem and to the pass that found it.

## Main definitions

- `Problem` — everything that can be wrong with a declaration
- `Diagnostic` — a problem with its message and location
- `Diagnostic.code` — the stable code, such as `NBIMP0031`
-/

namespace NativeBindings

/-- The two passes over the members. -/
inductive Pass where
  | imports
  | constants
  deriving DecidableEq

/-- The letters in front of the codes of a pass. -/
def Pass.codeLetters : Pass → String
  | imports => "NBIMP"
  | constants => "NBFMT"

inductive Severity where
  | error
  | warning
  deriving DecidableEq

def Severity.name : Severity → String
  | error => "error"
  | warning => "warning"

/-- A coarse class of problems. -/
inductive ProblemCategory where
  | unsupportedDeclarationShape
  | inaccessibleReferencedType
  | unsupportedAccessKindSignature
  | unsupportedFunctionSignature
  | missingRequiredRuntimeType
  | unsafeCodeNotAllowed
  | nullFormatTemplate
  | formatEvaluationFailure
  deriving DecidableEq

/-- Everything that a pass can report. -/
inductive Problem where
  | unsafeNotAllowed
  | missingRequiredType
  | nullFormatString
  | formatStringError
  | unsupportedTypeDeclaration
  | unsupportedDeclarationSignature
  | inaccessibleLibrary
  | inaccessibleCondition
  | unsupportedAccess
  | unsupportedAuto
  | unsupportedGetter
  | unsupportedSetter
  | unsupportedReference
  | unsupportedFunction
  deriving DecidableEq

namespace Problem

/-- The number of a problem in a pass. -/
def number (pass : Pass) : Problem → Nat
  | unsafeNotAllowed | missingRequiredType => 1
  | nullFormatString => 2
  | formatStringError => 3
  | unsupportedTypeDeclaration => 11
  | unsupportedDeclarationSignature =>
    match pass with
    | .imports => 21
    | .constants => 31
  | inaccessibleLibrary => 22
  | inaccessibleCondition => 23
  | unsupportedAccess => 30
  | unsupportedAuto => 31
  | unsupportedGetter => 32
  | unsupportedSetter => 33
  | unsupportedReference => 34
  | unsupportedFunction => 41

def category : Problem → ProblemCategory
  | unsafeNotAllowed => .unsafeCodeNotAllowed
  | missingRequiredType => .missingRequiredRuntimeType
  | nullFormatString => .nullFormatTemplate
  | formatStringError => .formatEvaluationFailure
  | unsupportedTypeDeclaration | unsupportedDeclarationSignature => .unsupportedDeclarationShape
  | inaccessibleLibrary | inaccessibleCondition => .inaccessibleReferencedType
  | unsupportedAccess | unsupportedAuto | unsupportedGetter | unsupportedSetter
  | unsupportedReference => .unsupportedAccessKindSignature
  | unsupportedFunction => .unsupportedFunctionSignature

/-- The name of a problem in reports. -/
def name : Problem → String
  | unsafeNotAllowed => "UnsafeNotAllowed"
  | missingRequiredType => "MissingRequiredType"
  | nullFormatString => "NullFormatString"
  | formatStringError => "FormatStringError"
  | unsupportedTypeDeclaration => "UnsupportedTypeDeclaration"
  | unsupportedDeclarationSignature => "UnsupportedDeclarationSignature"
  | inaccessibleLibrary => "InvalidOrInaccessibleLibraryType"
  | inaccessibleCondition => "InaccessibleConditionType"
  | unsupportedAccess => "UnsupportedAccessKind"
  | unsupportedAuto => "UnsupportedAutoSignature"
  | unsupportedGetter => "UnsupportedGetterSignature"
  | unsupportedSetter => "UnsupportedSetterSignature"
  | unsupportedReference => "UnsupportedReferenceSignature"
  | unsupportedFunction => "UnsupportedFunctionSignature"

/-- The problem concerns a whole pass, which produces nothing then. -/
def isPassWide : Problem → Bool
  | unsafeNotAllowed | missingRequiredType => true
  | _ => false

end Problem

/-- A problem with its message. -/
structure Diagnostic where
  pass : Pass
  problem : Problem
  severity : Severity := .error
  message : String
  location : Option Location := none
  deriving DecidableEq

namespace Diagnostic

/-- The letters of the pass and the number of the problem in four digits. -/
def code (d : Diagnostic) : String :=
  d.pass.codeLetters ++
    .ofList (Numeral.padZeros 4 (Numeral.decimal (d.problem.number d.pass)))

def isError (d : Diagnostic) : Bool := d.severity == .error

/-- Severity, code and message. -/
def summary (d : Diagnostic) : String := s!"{d.severity.name}[{d.code}]: {d.message}"

/-- The summary with the location in parentheses. -/
def display (d : Diagnostic) : String :=
  match d.location with
  | none => d.summary
  | some l => s!"{d.summary} (at {l.display})"

/-- The summary with the location on a second line. -/
def report (d : Diagnostic) : String :=
  match d.location with
  | none => d.summary
  | some l => s!"{d.summary}\n  --> {l.display}"

end Diagnostic
end NativeBindings
