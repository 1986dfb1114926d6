import NativeBindings.Manifest.Basic
import NativeBindings.Manifest.Record
import NativeBindings.Toml.Document

/-!
# Reading manifests

A manifest is a TOML document of known tables. A key that is not known, a value of the wrong kind and
a missing value that has to be there make it unreadable.

## Main definitions

- `Manifest.read?` — the manifest that a document stands for
-/

namespace NativeBindings
open Toml

namespace Toml.Value

def string? : Value → Option String
  | .string s => some s
  | _ => none

def boolean? : Value → Option Bool
  | .boolean b => some b
  | _ => none

/-- The items of an array, all read in the same way. -/
def list? {α : Type} (read : Value → Option α) : Value → Option (List α)
  | .array _ items => items.mapM fun item => read item.2
  | _ => none

/-- The same with the places of the items. -/
def placedList? {α : Type} (read : Value → Option α) : Value → Option (List (Span × α))
  | .array _ items => items.mapM fun (place, v) => (read v).map (place, ·)
  | _ => none

/-- The entries of a table, all read in the same way. -/
def map? {α : Type} (read : Value → Option α) : Value → Option (List (String × α))
  | .table _ es => es.mapM fun (key, v) => (read v).map (key, ·)
  | _ => none

/-- A name, written as a string or as the only key of a table, with nothing below it. -/
def name? : Value → Option String
  | .string s => some s
  | .table _ [(key, .table _ [])] => some key
  | .table _ [(key, .array _ [])] => some key
  | _ => none

/-- What a name stands for. -/
def named? {α : Type} (names : List (String × α)) (v : Value) : Option α :=
  v.name?.bind fun name => names.lookup name

end Toml.Value

/-- The names of type keywords. -/
def TypeKeyword.names : List (String × TypeKeyword) :=
  [("class", .classType), ("struct", .structType), ("record", .recordType),
   ("record-struct", .recordStruct), ("interface", .interfaceType), ("enum", .enumType),
   ("delegate", .delegateType)]

/-- The names of accessibilities. -/
def Accessibility.names : List (String × Accessibility) :=
  [("public", .publicAccess), ("internal", .internalAccess),
   ("protected-internal", .protectedInternal), ("protected", .protectedAccess),
   ("private-protected", .privateProtected), ("private", .privateAccess), ("file", .fileLocal),
   ("unresolved", .unresolved)]

/-- The names of the ways to pass a parameter. -/
def ParamPassing.names : List (String × ParamPassing) :=
  [("none", .byValue), ("ref", .byRef), ("out", .byOut), ("in", .byIn),
   ("ref-readonly", .byRefReadonly)]

/-- The names of the ways to return a result. -/
def ReturnPassing.names : List (String × ReturnPassing) :=
  [("none", .byValue), ("ref", .byRef), ("ref-readonly", .byRefReadonly)]

/-- The names of modifiers, which are their keywords. -/
def Modifier.names : List (String × Modifier) :=
  [publicAccess, privateAccess, protectedAccess, internalAccess, fileLocal, replacing, staticMember,
   abstractMember, virtualMember, overriding, sealedMember, external, unsafeCode, readOnly,
   requiredMember, partialMember].map fun m => (m.keyword, m)

/-- The names of the kinds of members. -/
def MemberKind.names : List (String × MemberKind) := [("method", .method), ("property", .property)]

/-- A name or a 32-bit number. -/
def NameOrNumber.read? : Value → Option NameOrNumber
  | .integer n => if -0x80000000 ≤ n ∧ n < 0x80000000 then some (.number n) else none
  | .string s => some (.name s)
  | _ => none

/-- An argument in braces: a character, an unsigned number or the empty argument. -/
def FormatArgument.readTyped? : Entries → Option FormatArgument
  | [("char", .string s)] =>
    match s.toList with
    | [c] => some (.char c)
    | _ => none
  | [("uint", .integer n)] => if 0 ≤ n ∧ n < UInt64.size then some (.uint (.ofNat n.toNat)) else none
  | [("null", .boolean _)] => some .null
  | _ => none

/-- An argument. A number that is too large for a signed one is read as floating-point. -/
def FormatArgument.read? : Value → Option FormatArgument
  | .boolean b => some (.bool b)
  | .integer n =>
    if -0x8000000000000000 ≤ n ∧ n < 0x8000000000000000 then some (.int (.ofInt n))
    else if 0x8000000000000000 ≤ n ∧ n < UInt64.size then some (.float (.ofScaled false n.toNat 0))
    else none
  | .float x => some (.float x)
  | .string s => some (.string s)
  | .table _ es => readTyped? es
  | .array .. | .dateTime _ | .unusable _ => none

def GeneratorEntry.read? (v : Value) : Option GeneratorEntry := do
  let r ← Record.of? ["namespace", "tool", "version"] v
  some
    { markerNamespace := ← r.optional? "namespace" Value.string?
      tool := ← r.optional? "tool" Value.string?
      version := ← r.optional? "version" fun v => v.string?.bind fun s => Version.read? s.toList }

def CompilationEntry.read? (v : Value) : Option CompilationEntry := do
  let r ← Record.of? ["assembly", "allow_unsafe", "known_types"] v
  some
    { assembly := ← r.optional? "assembly" Value.string?
      allowsUnsafeCode := ← r.orElse? "allow_unsafe" true Value.boolean?
      knownTypes := ← r.optional? "known_types" (Value.list? Value.string?) }

def DeclaredType.read? (v : Value) : Option DeclaredType := do
  let r ← Record.of? ["kind", "partial", "accessibility", "unmanaged", "type_params"] v
  some
    { keyword := ← r.orElse? "kind" .classType (Value.named? TypeKeyword.names)
      isPartial := ← r.orElse? "partial" true Value.boolean?
      access := ← r.orElse? "accessibility" .internalAccess (Value.named? Accessibility.names)
      hasFixedLayout := ← r.orElse? "unmanaged" false Value.boolean?
      typeParams := ← r.orElse? "type_params" [] (Value.list? Value.string?) }

def ParamEntry.read? (v : Value) : Option ParamEntry := do
  let r ← Record.of? ["name", "type", "ref", "default"] v
  some
    { name := ← r.required? "name" Value.string?
      type := ← r.required? "type" Value.string?
      passing := ← r.orElse? "ref" .byValue (Value.named? ParamPassing.names)
      defaultValue := ← r.optional? "default" Value.string? }

def TypeParam.read? (v : Value) : Option TypeParam := do
  let r ← Record.of? ["name", "constraint"] v
  some
    { name := ← r.required? "name" Value.string?
      constraint := ← r.optional? "constraint" Value.string? }

/-- The keys that symbols and functions share. -/
def SourceEntry.keys : List String := ["library", "condition", "name"]

def SourceEntry.ofRecord? (r : Record) : Option SourceEntry := do
  some
    { library := ← r.optional? "library" Value.string?
      condition := ← r.optional? "condition" Value.string?
      name := ← r.optional? "name" Value.string? }

def SymbolEntry.read? (v : Value) : Option SymbolEntry := do
  let r ← Record.of? (SourceEntry.keys ++ ["kind"]) v
  some
    { source := ← SourceEntry.ofRecord? r
      access := ← r.orElse? "kind" (.number 0) NameOrNumber.read? }

def FunctionEntry.read? (v : Value) : Option FunctionEntry := do
  let r ← Record.of? (SourceEntry.keys ++ ["call_convs"]) v
  some
    { source := ← SourceEntry.ofRecord? r
      conventions := ← r.orElse? "call_convs" [] (Value.list? Value.string?) }

def ConstantEntry.read? (v : Value) : Option ConstantEntry := do
  let r ← Record.of? ["format", "args", "culture"] v
  some
    { template := ← r.optional? "format" Value.string?
      args := ← r.orElse? "args" [] (Value.list? FormatArgument.read?)
      culture := ← r.orElse? "culture" (.number 0) NameOrNumber.read? }

/-- The keys of a member in their order. -/
def MemberEntry.keys : List String :=
  ["container", "name", "shape", "modifiers", "returns", "return_ref", "params", "type_params",
   "body", "get", "set", "symbol", "function", "constant"]

/-- The modifiers of a member that does not say them. -/
def MemberEntry.usualModifiers : List Modifier := [.internalAccess, .staticMember, .partialMember]

def MemberEntry.read? (v : Value) : Option MemberEntry := do
  let r ← Record.of? keys v
  some
    { container := ← r.required? "container" Value.string?
      name := ← r.required? "name" Value.string?
      kind := ← r.orElse? "shape" .method (Value.named? MemberKind.names)
      modifiers := ← r.orElse? "modifiers" usualModifiers
        (Value.list? (Value.named? Modifier.names))
      returns := ← r.orElse? "returns" "void" Value.string?
      returnPassing := ← r.orElse? "return_ref" .byValue (Value.named? ReturnPassing.names)
      params := ← r.orElse? "params" [] (Value.list? ParamEntry.read?)
      typeParams := ← r.orElse? "type_params" [] (Value.list? TypeParam.read?)
      hasBody := ← r.orElse? "body" false Value.boolean?
      hasGet := ← r.orElse? "get" true Value.boolean?
      hasSet := ← r.orElse? "set" false Value.boolean?
      symbol := ← r.optional? "symbol" SymbolEntry.read?
      function := ← r.optional? "function" FunctionEntry.read?
      constant := ← r.optional? "constant" ConstantEntry.read? }

/-- The manifest that a document stands for. -/
def Manifest.read? (source : SourceText) : Option Manifest := do
  let r ← Record.ofTable? ["generator", "compilation", "types", "members"]
    (← Toml.read? source.text)
  some
    { source
      generator := ← r.orElse? "generator" {} GeneratorEntry.read?
      compilation := ← r.orElse? "compilation" {} CompilationEntry.read?
      types := ← r.orElse? "types" [] (Value.map? DeclaredType.read?)
      members := ← r.orElse? "members" [] (Value.placedList? MemberEntry.read?) }

end NativeBindings
