import NativeBindings.Number.Binary64
import NativeBindings.Text.Position
import NativeBindings.Toml.DateTime

/-!
# TOML values

Values as a TOML document holds them. The entries of a table are sorted by key, and a table knows
what introduced it, for that decides which later lines may still add to it.

## Main definitions

- `Toml.Value` — strings, numbers, truth values, dates, arrays and tables
- `Toml.Entries.assign?` — adds a value under a dotted key
- `Toml.Entries.alter?` — changes what a header stands for
- `Toml.Entries.within?` — changes the table that a header has opened
-/

namespace NativeBindings
namespace Toml

/-- What introduced a table. -/
inductive Origin where
  /-- A header of its own. -/
  | header
  /-- The header of a table inside it. -/
  | implied
  /-- A dotted key. -/
  | dotted
  /-- Braces; nothing can be added later. -/
  | inline
  deriving DecidableEq

/-- A value. -/
inductive Value where
  | string (s : String)
  | integer (n : Int)
  | float (x : Binary64)
  /-- A number without a value, as it is written: too large, or with missing or wrong digits. -/
  | unusable (written : List Char)
  | boolean (b : Bool)
  | dateTime (d : DateTime)
  /-- Items with the places where they stand; `growing` if further headers add items. -/
  | array (growing : Bool) (items : List (Span × Value))
  | table (origin : Origin) (entries : List (String × Value))

/-- The entries of a table, sorted by key. -/
abbrev Entries := List (String × Value)

namespace Entries

/-- The value of a key. -/
def get? (es : Entries) (key : String) : Option Value := (es.find? (·.1 == key)).map (·.2)

/-- Gives a key a value. -/
def put (key : String) (value : Value) : Entries → Entries
  | [] => [(key, value)]
  | (k, v) :: es =>
    if k = key then (key, value) :: es
    else if key < k then (key, value) :: (k, v) :: es
    else (k, v) :: put key value es

/-- Changes the last item of a growing array, which is a table. -/
def alterLast? (f : Entries → Option Entries) : List (Span × Value) → Option (List (Span × Value))
  | [] => none
  | [(span, .table origin es)] => (f es).map fun es => [(span, .table origin es)]
  | [_] => none
  | item :: items => (alterLast? f items).map (item :: ·)

/-- Adds a value under a dotted key. Every part but the last stands for a table that dotted keys have
introduced, or that they introduce now; they may pass through an implied table. The key must be
new. -/
def assign? (value : Value) : List String → Entries → Option Entries
  | [], _ => none
  | [key], es => if (es.get? key).isSome then none else some (es.put key value)
  | key :: next :: rest, es =>
    match es.get? key with
    | none => (assign? value (next :: rest) []).map fun sub => es.put key (.table .dotted sub)
    | some (.table origin sub) =>
      if origin = .dotted ∨ (origin = .implied ∧ !rest.isEmpty) then
        (assign? value (next :: rest) sub).map fun sub => es.put key (.table origin sub)
      else none
    | some _ => none

/-- Changes the entry that the last part of a header's key stands for. The parts before it stand for
tables or for the last table of a growing array; tables that are missing are implied. -/
def alter? (f : Option Value → Option Value) : List String → Entries → Option Entries
  | [], _ => none
  | [key], es => (f (es.get? key)).map (es.put key)
  | key :: next :: rest, es =>
    match es.get? key with
    | none => (alter? f (next :: rest) []).map fun sub => es.put key (.table .implied sub)
    | some (.table origin sub) =>
      if origin = .inline then none
      else (alter? f (next :: rest) sub).map fun sub => es.put key (.table origin sub)
    | some (.array true items) =>
      (alterLast? (alter? f (next :: rest)) items).map fun items => es.put key (.array true items)
    | some _ => none

/-- Changes the table that a header has opened. -/
def within? (f : Entries → Option Entries) : List String → Entries → Option Entries
  | [], es => f es
  | key :: rest, es =>
    match es.get? key with
    | some (.table origin sub) => (within? f rest sub).map fun sub => es.put key (.table origin sub)
    | some (.array true items) =>
      (alterLast? (within? f rest) items).map fun items => es.put key (.array true items)
    | _ => none

/-- The table of a header; it can only have been implied before. -/
def openTable? : Option Value → Option Value
  | none => some (.table .header [])
  | some (.table .implied es) => some (.table .header es)
  | some _ => none

/-- The array of a header in double brackets, with a further table in it. -/
def openItem? (span : Span) : Option Value → Option Value
  | none => some (.array true [(span, .table .header [])])
  | some (.array true items) => some (.array true (items ++ [(span, .table .header [])]))
  | some _ => none

end Entries
end Toml
end NativeBindings
