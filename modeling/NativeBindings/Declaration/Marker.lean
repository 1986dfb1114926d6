import NativeBindings.Declaration.Accessibility
import NativeBindings.Format.Template

/-!
# Markers

A marker asks the generators to implement a member: as access to a native symbol, as a call of a
native function, or as a constant text.
-/

namespace NativeBindings

/-- How a native symbol is accessed. -/
inductive Access where
  /-- A getter or a setter, whichever fits the signature. -/
  | auto
  | getter
  | setter
  | reference
  /-- A raw value without a meaning. -/
  | unknown (raw : Int)
  deriving DecidableEq

namespace Access

/-- The access of a raw value. -/
def ofRaw (raw : Int) : Access :=
  if raw = 0 then auto
  else if raw = 1 then getter
  else if raw = 2 then setter
  else if raw = 3 then reference
  else unknown raw

/-- The raw value of an access. -/
def raw : Access → Int
  | auto => 0
  | getter => 1
  | setter => 2
  | reference => 3
  | unknown raw => raw

/-- The access that a name stands for. -/
def ofName? (name : String) : Option Access :=
  if name = "Auto" ∨ name = "auto" then some auto
  else if name = "Getter" ∨ name = "getter" then some getter
  else if name = "Setter" ∨ name = "setter" then some setter
  else if name = "Reference" ∨ name = "reference" then some reference
  else none

/-- The name of an access. -/
def display : Access → String
  | auto => "Auto"
  | getter => "Getter"
  | setter => "Setter"
  | reference => "Reference"
  | unknown raw => s!"Unknown({raw})"

@[simp] theorem raw_ofRaw (raw : Int) : (ofRaw raw).raw = raw := by
  unfold ofRaw
  repeat' split
  all_goals simp_all [Access.raw]

end Access

/-- The raw value of a culture that a name stands for. -/
def Culture.rawOfName? (name : String) : Option Int :=
  if name = "Default" ∨ name = "default" then some 0
  else if name = "Invariant" ∨ name = "invariant" then some 1
  else none

/-- The library that a member is imported from, the condition of the import and its name. -/
structure ImportSource where
  library : Option NamedType
  condition : Option NamedType
  /-- The imported name; the member's own name if there is none. -/
  name : Option String
  deriving DecidableEq

/-- A marker of a member. -/
inductive Marker where
  /-- Access to a native symbol, by a raw access value. -/
  | symbol (source : ImportSource) (access : Int)
  /-- A call of a native function. -/
  | function (source : ImportSource) (conventions : List NamedType)
  /-- A constant text, by a raw culture value. -/
  | constant (template : Option String) (args : List FormatArgument) (culture : Int)
  deriving DecidableEq

end NativeBindings
