import NativeBindings.Binding.Basic
import NativeBindings.Diagnostic

/-!
# Valid bindings

What a method must look like to be bound, and what is wrong with one that does not.

## Main definitions

- `BindingError` — why a method cannot be bound
- `Binding.validate` — what a binding is bound to, with automatic access resolved
-/

namespace NativeBindings

/-- Why a method cannot be bound. -/
inductive BindingError where
  | unsupportedDeclaration (member : String)
  | inaccessibleLibrary (library : String)
  | inaccessibleCondition (condition : String)
  | unsupportedAccess (raw : Int)
  | unsupportedAuto (member : String)
  | unsupportedGetter (member : String)
  | unsupportedSetter (member : String)
  | unsupportedReference (member : String)
  | unsupportedFunction (member : String)
  deriving DecidableEq

namespace BindingError

/-- The text of an error. -/
def message : BindingError → String
  | unsupportedDeclaration member =>
    s!"The target method declaration of \"{member}\" must be 'static' and 'partial' without a provided implementation part"
  | inaccessibleLibrary library =>
    s!"The import library type \"{library}\" must be accessible from a global scope within the consuming assembly (at least 'internal'), in order for it to be used as such"
  | inaccessibleCondition condition =>
    s!"The condition type \"{condition}\" must be accessible from a global scope within the consuming assembly (at least 'internal'), in order to use it as a condition for a conditionally imported native symbol"
  | unsupportedAccess raw =>
    s!"The kind \"{raw}\" for an imported native symbol is unknown and unsupported. Only \"Auto\", \"Getter\", \"Setter\", or \"Reference\" are allowed kind values."
  | unsupportedAuto member =>
    s!"The target method declaration of \"{member}\" must either take no arguments and return non-void or take exactly one argument and return void, in order to be used as an \"Auto\" kind imported native symbol. The return type or the argument type respectively must be either a blittable ('unmanaged') type, a type parameter constrained to be 'unmanaged', or a 'ref'/'ref readonly'/'in' reference to such types."
  | unsupportedGetter member =>
    s!"The target method declaration of \"{member}\" must take no arguments and return non-void, in order to be used as a getter for an imported native symbol. The return type must be either a blittable ('unmanaged') type, a type parameter constrained to be 'unmanaged', or a 'ref'/'ref readonly' reference to such types."
  | unsupportedSetter member =>
    s!"The target method declaration of \"{member}\" must take exactly one argument and return void, in order to be used as a setter for an imported native symbol. The argument type must be either a blittable ('unmanaged') type, a type parameter constrained to be 'unmanaged', or a 'ref'/'ref readonly'/'in' reference to such types."
  | unsupportedReference member =>
    s!"The target method declaration of \"{member}\" must take no arguments and return non-void by-ref, in order to be used as a reference getter for an imported native symbol. The return type must be a 'ref'/'ref readonly' reference to either a blittable ('unmanaged') type, or a type parameter constrained to be 'unmanaged'."
  | unsupportedFunction member =>
    s!"The return type and all of the argument types of the target method declaration of \"{member}\" must be either a blittable ('unmanaged') type, a type parameter constrained to be 'unmanaged', or a 'ref'/'ref readonly'/'in' reference to such types"

/-- The problem that an error is reported as. -/
def problem : BindingError → Problem
  | unsupportedDeclaration _ => .unsupportedDeclarationSignature
  | inaccessibleLibrary _ => .inaccessibleLibrary
  | inaccessibleCondition _ => .inaccessibleCondition
  | unsupportedAccess _ => .unsupportedAccess
  | unsupportedAuto _ => .unsupportedAuto
  | unsupportedGetter _ => .unsupportedGetter
  | unsupportedSetter _ => .unsupportedSetter
  | unsupportedReference _ => .unsupportedReference
  | unsupportedFunction _ => .unsupportedFunction

/-- The report of an error. -/
def diagnostic (e : BindingError) (location : Option Location) : Diagnostic :=
  { pass := .imports, problem := e.problem, message := e.message, location }

end BindingError

namespace Member

/-- No parameters and a result of fixed layout, perhaps by reference. -/
def hasGetterShape (m : Member) : Bool :=
  m.params.isEmpty && !m.returnType.isVoid && m.returnType.isUnmanaged

/-- One parameter of fixed layout and no result. -/
def hasSetterShape (m : Member) : Bool :=
  m.returnType.isVoid &&
    match m.params with
    | [p] => p.type.isUnmanaged
    | _ => false

/-- A result of fixed layout or none, and only parameters of fixed layout. -/
def hasFunctionShape (m : Member) : Bool :=
  (m.returnType.isVoid || m.returnType.isUnmanaged) && m.params.all (·.type.isUnmanaged)

end Member

/-- The access that fits the signature of a method. -/
def Access.resolve (m : Member) : Access → Except BindingError Access
  | auto =>
    if m.hasGetterShape then .ok getter
    else if m.hasSetterShape then .ok setter
    else .error (.unsupportedAuto m.displayName)
  | getter => if m.hasGetterShape then .ok getter else .error (.unsupportedGetter m.displayName)
  | setter => if m.hasSetterShape then .ok setter else .error (.unsupportedSetter m.displayName)
  | reference =>
    if m.hasGetterShape && m.returnPassing.isByRef then .ok reference
    else .error (.unsupportedReference m.displayName)
  | unknown raw => .error (.unsupportedAccess raw)

namespace Binding

/-- What a binding is bound to, with automatic access resolved, or the first thing wrong with it. -/
def validate (b : Binding) (rule : AccessRule) : Except BindingError BindingKind :=
  let m := b.target
  if m.isAbstract || !m.isStatic || !m.isPartial || m.hasBody then
    .error (.unsupportedDeclaration m.displayName)
  else if !rule b.library then .error (.inaccessibleLibrary b.library.name)
  else
    match b.condition.filter (!rule ·) with
    | some condition => .error (.inaccessibleCondition condition.name)
    | none =>
      match b.kind with
      | .symbol access => (access.resolve m).map .symbol
      | .function conventions =>
        if m.hasFunctionShape then .ok (.function conventions)
        else .error (.unsupportedFunction m.displayName)

end Binding
end NativeBindings
