import NativeBindings.Toml.Value

/-!
# Records

A record is a table with known keys, or an array that lists the values of the keys in their order.

## Main definitions

- `Record.of?` — a record with some of the given keys and no others
- `Record.required?`, `Record.optional?`, `Record.orElse?` — the values of keys
-/

namespace NativeBindings
open Toml

/-- The values of a record by key. -/
structure Record where
  entries : Entries
  /-- Written as an array, which cannot leave out optional values. -/
  isListed : Bool

namespace Record

/-- The record that a table stands for, if it has no other than the given keys. -/
def ofTable? (keys : List String) (es : Entries) : Option Record :=
  if es.all fun e => keys.contains e.1 then some ⟨es, false⟩ else none

/-- The record that a value stands for. -/
def of? (keys : List String) : Value → Option Record
  | .table _ es => ofTable? keys es
  | .array _ items => some ⟨keys.zip (items.map (·.2)), true⟩
  | _ => none

variable {α : Type}

/-- The value of a key that must be there. -/
def required? (r : Record) (key : String) (read : Value → Option α) : Option α :=
  (r.entries.get? key).bind read

/-- The value of a key, or a given one. -/
def orElse? (r : Record) (key : String) (usual : α) (read : Value → Option α) : Option α :=
  (r.entries.get? key).elim (some usual) read

/-- The value of a key, if it is there. -/
def optional? (r : Record) (key : String) (read : Value → Option α) : Option (Option α) :=
  match r.entries.get? key with
  | some v => (read v).map some
  | none => if r.isListed then none else some none

end Record
end NativeBindings
