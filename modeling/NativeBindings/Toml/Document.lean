import NativeBindings.Toml.Statement

/-!
# TOML documents

A document is one table, put together from its statements: a header opens a table, and the keys that
follow it are assigned in that table.
-/

namespace NativeBindings
namespace Toml

/-- A document that is being put together. -/
structure Draft where
  entries : Entries
  /-- The key of the last header. -/
  opened : List String

/-- A draft with a further statement. -/
def Draft.add? (d : Draft) : Statement → Option Draft
  | .assignment key value =>
    (d.entries.within? (Entries.assign? value key) d.opened).map fun es => { d with entries := es }
  | .table key => (d.entries.alter? Entries.openTable? key).map fun es => ⟨es, key⟩
  | .item key place => (d.entries.alter? (Entries.openItem? place) key).map fun es => ⟨es, key⟩

/-- The table that a document stands for, if it is well formed. -/
def read? (document : List Char) : Option Entries := do
  let statements ← statements? (← tokens? document)
  let draft ← statements.foldlM Draft.add? ⟨[], []⟩
  some draft.entries

end Toml
end NativeBindings
