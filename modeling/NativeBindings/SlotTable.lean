import NativeBindings.Declaration.Accessibility

/-!
# Slots

Members that import the same name from the same library under the same condition share one slot,
and so one attempt to resolve it. Slots are numbered in each library in the order in which they are
first needed.

## Main definitions

- `Slot` — the number of a library and of a slot in it
- `LibrarySlots` — the slots of a library, each with its importers
- `SlotTable.register` — the slot of an import, which is made if there is none yet
-/

namespace NativeBindings

/-- A storage slot, known by the number of its library and its own number there. -/
structure Slot where
  library : Nat
  symbol : Nat
  deriving DecidableEq

/-- A member that imports a slot. -/
structure Importer where
  member : Symbol
  signature : String
  deriving DecidableEq

/-- A slot with the name that it stores and its importers. -/
structure SharedSlot where
  slot : Slot
  symbolName : String
  importers : List Importer
  deriving DecidableEq

/-- The slots behind one condition. -/
structure GatedSlots where
  condition : NamedType
  slots : List SharedSlot
  deriving DecidableEq

/-- The slots of one library. -/
structure LibrarySlots where
  index : Nat
  library : NamedType
  unconditional : List SharedSlot := []
  conditional : List GatedSlots := []
  /-- How many slots there are. -/
  slotCount : Nat := 0
  deriving DecidableEq

/-- The slots of all libraries, in the order of their first import. -/
structure SlotTable where
  libraries : List LibrarySlots := []
  deriving DecidableEq

/-- What a member imports. -/
structure ImportRequest where
  library : NamedType
  condition : Option NamedType
  symbolName : String
  importer : Importer
  deriving DecidableEq

namespace SharedSlot

/-- The slot of a name. -/
def slotOf? (name : String) (ss : List SharedSlot) : Option Slot :=
  (ss.find? (·.symbolName == name)).map (·.slot)

/-- Adds an importer to the slot of a name, which is `fresh` if there is none yet. -/
def addImporter (name : String) (fresh : Slot) (i : Importer) : List SharedSlot → List SharedSlot
  | [] => [⟨fresh, name, [i]⟩]
  | s :: ss =>
    if s.symbolName = name then { s with importers := s.importers ++ [i] } :: ss
    else s :: addImporter name fresh i ss

end SharedSlot

/-- Adds an importer behind a condition. -/
def GatedSlots.addImporter (condition : NamedType) (name : String) (fresh : Slot) (i : Importer) :
    List GatedSlots → List GatedSlots
  | [] => [⟨condition, SharedSlot.addImporter name fresh i []⟩]
  | g :: gs =>
    if g.condition.id = condition.id then
      { g with slots := SharedSlot.addImporter name fresh i g.slots } :: gs
    else g :: addImporter condition name fresh i gs

namespace LibrarySlots

def hasUnconditional (l : LibrarySlots) : Bool := !l.unconditional.isEmpty

/-- The slots behind a condition, or those without one. -/
def slotsBehind (l : LibrarySlots) : Option Symbol → List SharedSlot
  | none => l.unconditional
  | some id => ((l.conditional.find? (·.condition.id == id)).map (·.slots)).getD []

/-- All slots with their conditions, those without one first. -/
def slots (l : LibrarySlots) : List (Option NamedType × SharedSlot) :=
  l.unconditional.map (none, ·) ++
    l.conditional.flatMap fun g => g.slots.map (some g.condition, ·)

/-- The slot of an import, and the library with the importer added to it. -/
def register (l : LibrarySlots) (r : ImportRequest) : Slot × LibrarySlots :=
  let found := SharedSlot.slotOf? r.symbolName (l.slotsBehind (r.condition.map (·.id)))
  let fresh : Slot := ⟨l.index, l.slotCount⟩
  let counted := { l with slotCount := if found.isSome then l.slotCount else l.slotCount + 1 }
  (found.getD fresh,
    match r.condition with
    | none =>
      { counted with
        unconditional := SharedSlot.addImporter r.symbolName fresh r.importer l.unconditional }
    | some c =>
      { counted with
        conditional := GatedSlots.addImporter c r.symbolName fresh r.importer l.conditional })

end LibrarySlots

namespace SlotTable

def size (t : SlotTable) : Nat := t.libraries.length

def isEmpty (t : SlotTable) : Bool := t.libraries.isEmpty

/-- The number of slots of all libraries. -/
def slotCount (t : SlotTable) : Nat := t.libraries.foldr (·.slotCount + ·) 0

/-- Registers an import with its library, which gets the number `next` if it is not there yet. -/
def registerIn (next : Nat) (r : ImportRequest) : List LibrarySlots → Slot × List LibrarySlots
  | [] =>
    let (slot, l) := ({ index := next, library := r.library } : LibrarySlots).register r
    (slot, [l])
  | l :: ls =>
    if l.library.id = r.library.id then
      let (slot, l') := l.register r
      (slot, l' :: ls)
    else
      let (slot, ls') := registerIn next r ls
      (slot, l :: ls')

/-- The slot of an import, and the table with the importer added to it. -/
def register (t : SlotTable) (r : ImportRequest) : Slot × SlotTable :=
  let (slot, libraries) := registerIn t.libraries.length r t.libraries
  (slot, ⟨libraries⟩)

end SlotTable
end NativeBindings
