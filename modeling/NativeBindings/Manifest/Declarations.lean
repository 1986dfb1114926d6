import NativeBindings.Manifest.Validation

/-!
# Declarations of a manifest

The members of a manifest as declarations. Every namespace, type and member is known by a key, which
is interned when it is first met: those of a member's container, then those of its marker, then that
of the member itself.

## Main definitions

- `Manifest.containerOf` — the namespaces and types of a container key
- `Manifest.namedType` — a type that a marker names
- `Manifest.declarations` — the compilation and all members
-/

namespace NativeBindings

/-- Interns a key. -/
def internKey (key : String) : StateM SymbolTable Symbol := fun t => t.intern key

/-- The beginnings of a list that are not empty, the shortest first. -/
def beginnings {α : Type} : List α → List (List α)
  | [] => []
  | a :: as => [a] :: (beginnings as).map (a :: ·)

/-- The names in a container key: those of the namespaces, of the outermost type and of the types
nested in it. -/
structure ContainerNames where
  namespaces : List String
  outermost : String
  nested : List String
  deriving DecidableEq

namespace ContainerNames

/-- The names that a key joins. -/
def ofKey (key : List Char) : ContainerNames :=
  let (outer, nested) := match cut? '+' key with
    | some (outer, nested) => (outer, segments '+' nested)
    | none => (key, [])
  let (namespaces, outermost) := match cutLast? '.' outer with
    | some (namespacePath, type) => (segments '.' namespacePath, type)
    | none => ([], outer)
  ⟨namespaces.map .ofList, .ofList outermost, nested.map .ofList⟩

/-- The namespaces with their dotted names. -/
def namespaceKeys (c : ContainerNames) : List (String × String) :=
  ((beginnings c.namespaces).map (joined ".")).zip c.namespaces

/-- The types with their keys. -/
def typeKeys (c : ContainerNames) : List (String × String) :=
  let outerKey := joined "." (c.namespaces ++ [c.outermost])
  ((beginnings (outerKey :: c.nested)).map (joined "+")).zip (c.outermost :: c.nested)

end ContainerNames

/-- The namespace of the types that stand for calling conventions. -/
def conventionNamespace : String := "System.Runtime.CompilerServices"

/-- The key of a calling convention, which can be written with or without the start `CallConv` of its
name and with or without its namespace. -/
def conventionKey (name : List Char) : List Char :=
  let simple := (cutLast? '.' name).elim name Prod.snd
  let type := if "CallConv".toList.isPrefixOf simple then simple else "CallConv".toList ++ simple
  conventionNamespace.toList ++ '.' :: type

/-- The beginnings of a key that end in front of a plus sign or at the end. The sign is left out
behind an empty beginning. -/
def keyLinks : List Char → List (List Char) → List (List Char)
  | _, [] => []
  | front, part :: parts =>
    let link := if front.isEmpty then part else front ++ '+' :: part
    link :: keyLinks link parts

/-- The members of a manifest with the table of their keys. -/
structure Declarations where
  compilation : Compilation
  members : List Member
  symbols : SymbolTable

namespace Manifest

/-- How far a type can be seen: as far as the type itself and all types around it. -/
def accessOfKey (m : Manifest) (key : List Char) : Accessibility :=
  (keyLinks [] (segments '+' key)).foldl (fun access link =>
    access.narrower ((m.types.get? (.ofList link)).elim .unresolved (·.access))) .publicAccess

/-- The type of a key. -/
def namedType (m : Manifest) (key : List Char) : StateM SymbolTable NamedType := do
  let key := withoutQualifier key
  let id ← internKey ("T:" ++ .ofList key)
  return ⟨id, .ofList (nameOfKey key), m.accessOfKey key⟩

/-- The type of an optional key. -/
def namedType? (m : Manifest) : Option String → StateM SymbolTable (Option NamedType)
  | none => return none
  | some key => some <$> m.namedType key.toList

/-- A calling convention; it is public unless the manifest declares it. -/
def convention (m : Manifest) (name : String) : StateM SymbolTable NamedType := do
  let key := conventionKey name.toList
  if (m.types.get? (.ofList key)).isSome then m.namedType key
  else
    let id ← internKey ("T:" ++ .ofList key)
    return ⟨id, .ofList key, .publicAccess⟩

def importSource (m : Manifest) (s : SourceEntry) : StateM SymbolTable ImportSource := do
  return ⟨← m.namedType? s.library, ← m.namedType? s.condition, s.name⟩

/-- The marker of a member; a symbol comes before a function, and a function before a constant. -/
def markerOf (m : Manifest) (e : MemberEntry) : StateM SymbolTable (Option Marker) :=
  match e.symbol, e.function, e.constant with
  | some s, _, _ => do
    return some (.symbol (← m.importSource s.source) (s.access.access?.getD 0))
  | none, some f, _ => do
    let source ← m.importSource f.source
    return some (.function source (← f.conventions.mapM m.convention))
  | none, none, some c => return some (.constant c.template c.args (c.culture.culture?.getD 0))
  | none, none, none => return none

/-- A type around a member, as it is declared or else as usual. -/
def enclosingType (m : Manifest) (key name : String) : StateM SymbolTable EnclosingType := do
  let t := (m.types.get? key).getD {}
  return ⟨← internKey ("T:" ++ key), name, t.keyword, t.typeParams, t.isPartial, m.typeLocation? key⟩

/-- The namespaces and types of a container key. -/
def containerOf (m : Manifest) (key : String) : StateM SymbolTable Container := do
  let names := ContainerNames.ofKey key.toList
  let namespaces ← names.namespaceKeys.mapM fun (key, name) => do
    return ⟨← internKey ("N:" ++ key), name⟩
  let types ← names.typeKeys.mapM fun (key, name) => m.enclosingType key name
  return ⟨namespaces, types⟩

/-- The type that a text stands for in a member. -/
def typeUse (m : Manifest) (place : Span) (e : MemberEntry) (type : String) (role : TypeRole) :
    Except ManifestError TypeUse :=
  ((m.scope e).resolve? type.toList).elim
    (.error ⟨.unknownType type role e.display, quoted? m.source.text place type.toList⟩) .ok

def param (m : Manifest) (place : Span) (e : MemberEntry) (p : ParamEntry) :
    Except ManifestError Param := do
  return ⟨p.name, ← m.typeUse place e p.type (.parameter p.name), p.passing, p.defaultValue⟩

/-- The key of a member. -/
def memberKey (e : MemberEntry) : String :=
  match e.kind with
  | .method => "M:" ++ e.container ++ "." ++ e.name ++ "(" ++ joined "," e.paramTypes ++ ")"
  | .property => "P:" ++ e.container ++ "." ++ e.name

/-- A member with its types; its keys are interned. -/
def member (m : Manifest) (place : Span) (e : MemberEntry) (returnType : TypeUse)
    (params : List Param) : StateM SymbolTable Member := do
  let container ← m.containerOf e.container
  let marker ← m.markerOf e
  return {
    id := ← internKey (memberKey e)
    name := e.name
    form := if e.kind = .property then .property e.hasGet e.hasSet else .method
    modifiers := e.modifiers
    hasBody := e.hasBody
    params
    typeParams := e.typeParams
    returnType
    returnPassing := e.returnPassing
    container
    location := m.source.location? place.start
    marker }

/-- The members, with the keys interned in a table. -/
def declareAll (m : Manifest) :
    List (Span × MemberEntry) → SymbolTable → Except ManifestError (List Member × SymbolTable)
  | [], t => .ok ([], t)
  | (place, e) :: rest, t => do
    let returnType ← m.typeUse place e e.returns .result
    let params ← e.params.mapM (m.param place e)
    let (declared, t) := m.member place e returnType params t
    let (members, t) ← declareAll m rest t
    .ok (declared :: members, t)

/-- The compilation and all members of a manifest. -/
def declarations (m : Manifest) : Except ManifestError Declarations := do
  let (members, symbols) ← m.declareAll m.members .empty
  .ok ⟨m.compilation.compilation, members, symbols⟩

end Manifest
end NativeBindings
