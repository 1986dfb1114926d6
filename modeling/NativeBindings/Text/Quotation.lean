import NativeBindings.Text.Position
import NativeBindings.Text.Segment

/-!
# Quoted occurrences

Where a text stands in quotes in a part of another text. Double quotes are looked for before single
ones.
-/

namespace NativeBindings

/-- The byte offset of the first occurrence of a text between two quotes, counted from the text
itself. -/
def quotedBy? (quote : Char) (text region : List Char) : Option Nat :=
  (occurrence? (quote :: (text ++ [quote])) region).map fun n => byteLength (region.take n) + 1

/-- The first occurrence of a text in double quotes, or else in single quotes, inside a span. -/
def quoted? (source : List Char) (within : Span) (text : List Char) : Option Span := do
  let region ← within.slice? source
  let offset ← (quotedBy? '"' text region).or (quotedBy? '\'' text region)
  some ⟨within.start + offset, within.start + offset + byteLength text⟩

end NativeBindings
