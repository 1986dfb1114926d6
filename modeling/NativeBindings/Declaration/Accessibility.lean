import NativeBindings.Symbol
import NativeBindings.Text.Segment

/-!
# Accessibility

How far a type can be seen, and the types that markers name.

## Main definitions

- `Accessibility.narrower` — the one of two that reaches less far
- `NamedType` — a library, condition or calling convention
- `NamedType.isReachable` — generated code may name the type
-/

namespace NativeBindings

/-- The declared accessibility of a type. -/
inductive Accessibility where
  | publicAccess
  | internalAccess
  | protectedInternal
  | protectedAccess
  | privateProtected
  | privateAccess
  | fileLocal
  /-- The type has not been declared. -/
  | unresolved
  deriving DecidableEq

namespace Accessibility

/-- How far a type can be seen from outside; larger is wider. -/
def reach : Accessibility → Nat
  | publicAccess => 7
  | protectedInternal => 6
  | internalAccess => 5
  | protectedAccess => 4
  | privateProtected => 3
  | privateAccess => 2
  | fileLocal => 1
  | unresolved => 0

/-- The one that reaches less far. -/
def narrower (a b : Accessibility) : Accessibility := if b.reach < a.reach then b else a

/-- A type of this accessibility can be named anywhere in its assembly. -/
def isGlobal : Accessibility → Bool
  | publicAccess | internalAccess | protectedInternal => true
  | _ => false

/-- No two accessibilities reach equally far. -/
theorem reach_inj {a b : Accessibility} (h : a.reach = b.reach) : a = b := by
  cases a <;> cases b <;> first | rfl | cases h

theorem reach_narrower (a b : Accessibility) : (a.narrower b).reach = min a.reach b.reach := by
  unfold narrower
  split <;> omega

end Accessibility

/-- A type that a marker names. -/
structure NamedType where
  id : Symbol
  /-- The dotted name, without a qualifier. -/
  name : String
  access : Accessibility
  deriving DecidableEq

namespace NamedType

/-- The name in generated code. -/
def qualified (t : NamedType) : String := "global::" ++ t.name

/-- The part of the name behind the last point. -/
def simpleName (t : NamedType) : String :=
  .ofList ((cutLast? '.' t.name.toList).elim t.name.toList Prod.snd)

/-- The type can be named anywhere in the assembly. -/
def isReachable (t : NamedType) : Bool := t.access.isGlobal

end NamedType

/-- Decides which types generated code may name. -/
abbrev AccessRule := NamedType → Bool

end NativeBindings
