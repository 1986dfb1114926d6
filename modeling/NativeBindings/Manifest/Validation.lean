import NativeBindings.Manifest.Error
import NativeBindings.Manifest.Reading
import NativeBindings.Text.Quotation

/-!
# Valid manifests

What is checked in a manifest that can be read, in this order: the names of types, then each member
with all names, types and values in it, and that no member repeats the signature of an earlier one.

## Main definitions

- `Manifest.validate` — the first fault of a manifest
- `Manifest.parse` — the valid manifest that a document stands for
-/

namespace NativeBindings

/-- Nothing, or the first error. -/
abbrev Check := Except ManifestError Unit

/-- Fails with a fault if a condition holds. -/
def refuseIf (condition : Bool) (fault : ManifestFault) (place : Option Span) : Check :=
  if condition then .error ⟨fault, place⟩ else .ok ()

/-- The text must be a name. -/
def checkName (name : List Char) (role : NameRole) (place : Option Span) : Check :=
  (Identifier.fault? name).elim (.ok ()) fun fault =>
    .error ⟨.invalidName (.ofList name) role fault, place⟩

/-- The parts of a key between points and plus signs. -/
def keyParts (key : List Char) : List (List Char) :=
  (segments '.' key).flatMap (segments '+')

namespace Manifest

/-- The place of a text in quotes, first inside a span, then anywhere. -/
def quotedIn? (m : Manifest) (within : Span) (text : String) : Option Span :=
  (quoted? m.source.text within text.toList).or
    (quoted? m.source.text (.all m.source.text) text.toList)

/-- The place of a text in quotes. -/
def quotedAnywhere? (m : Manifest) (text : String) : Option Span :=
  quoted? m.source.text (.all m.source.text) text.toList

/-- The names in a declared type. -/
def checkType (m : Manifest) (key : String) (t : DeclaredType) : Check := do
  (keyParts key.toList).forM fun part => checkName part .type (m.quotedAnywhere? key)
  t.typeParams.forM fun p => checkName p.toList .typeParameter none

/-- A property has no parameters, and it can be read or written. -/
def checkProperty (place : Span) (e : MemberEntry) : Check := do
  refuseIf (!e.params.isEmpty || !e.typeParams.isEmpty) (.parameterizedProperty e.display) place
  refuseIf (!e.hasGet && !e.hasSet) (.inaccessibleProperty e.display) place

/-- The text must stand for a type. -/
def checkTypeUse (m : Manifest) (place : Span) (e : MemberEntry) (type : String)
    (role : TypeRole) : Check :=
  refuseIf ((m.scope e).resolve? type.toList).isNone (.unknownType type role e.display)
    (m.quotedIn? place type)

/-- One member by itself. -/
def checkMember (m : Manifest) (place : Span) (e : MemberEntry) : Check := do
  (keyParts e.container.toList).forM fun part =>
    checkName part .container (m.quotedIn? place e.container)
  checkName e.name.toList .member (m.quotedIn? place e.name)
  refuseIf (1 < e.markerCount) (.multipleMarkers e.display) place
  if e.kind = .property then checkProperty place e
  e.typeParams.forM fun p => checkName p.name.toList .typeParameter (m.quotedIn? place p.name)
  e.params.forM fun p => checkName p.name.toList .parameter (m.quotedIn? place p.name)
  m.checkTypeUse place e e.returns .result
  e.params.forM fun p => m.checkTypeUse place e p.type (.parameter p.name)
  e.symbol.toList.forM fun s =>
    refuseIf s.access.access?.isNone (.unknownAccess s.access.display) none
  e.constant.toList.forM fun c =>
    refuseIf c.culture.culture?.isNone (.unknownCulture c.culture.display) none

/-- The members, none of which has one of the signatures of those before it. -/
def checkMembers (m : Manifest) (seen : List String) : List (Span × MemberEntry) → Check
  | [] => .ok ()
  | (place, e) :: rest => do
    m.checkMember place e
    refuseIf (seen.contains e.signature) (.duplicateMember e.display) place
    checkMembers m (e.signature :: seen) rest

/-- The first fault of a manifest. -/
def validate (m : Manifest) : Check := do
  m.types.forM fun (key, t) => m.checkType key t
  m.checkMembers [] m.members

/-- The valid manifest that a document stands for. -/
def parse (source : SourceText) : Except ManifestError Manifest :=
  match read? source with
  | none => .error ⟨.unreadable, none⟩
  | some m => do
    m.validate
    .ok m

end Manifest
end NativeBindings
