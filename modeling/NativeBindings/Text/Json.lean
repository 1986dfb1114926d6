import NativeBindings.Text.Numeral
import NativeBindings.Text.Segment

/-!
# JSON texts

Values as JSON, a line for each item and each field, indented by two blanks.

## Main definitions

- `Json` — the values that reports are made of
- `Json.pretty` — the text of a value
-/

namespace NativeBindings

/-- A value that a report is made of. -/
inductive Json where
  | null
  | number (n : Nat)
  | string (s : String)
  | list (items : List Json)
  | record (fields : List (String × Json))

namespace Json

/-- A character in a string. Quotes, backslashes and control characters are escaped. -/
def escape (c : Char) : List Char :=
  if c = '"' then ['\\', '"']
  else if c = '\\' then ['\\', '\\']
  else if c = '\x08' then ['\\', 'b']
  else if c = '\t' then ['\\', 't']
  else if c = '\n' then ['\\', 'n']
  else if c = '\x0c' then ['\\', 'f']
  else if c = '\r' then ['\\', 'r']
  else if c.toNat < 0x20 then '\\' :: 'u' :: Numeral.padZeros 4 (Numeral.text 16 false c.toNat)
  else [c]

/-- A string in quotes. -/
def quoted (s : String) : String := .ofList ('"' :: (s.toList.flatMap escape ++ ['"']))

/-- A line end and the indentation of the next line. -/
def lineBreak (depth : Nat) : String := .ofList ('\n' :: List.replicate (2 * depth) ' ')

/-- Items on lines of their own between brackets. -/
def bracketed (opening closing : String) (depth : Nat) (items : List String) : String :=
  if items.isEmpty then opening ++ closing
  else
    opening ++ lineBreak (depth + 1) ++ joined ("," ++ lineBreak (depth + 1)) items ++
      lineBreak depth ++ closing

mutual

/-- The text of a value at a depth. -/
def pretty (depth : Nat) : Json → String
  | null => "null"
  | number n => .ofList (Numeral.decimal n)
  | string s => quoted s
  | list items => bracketed "[" "]" depth (prettyItems (depth + 1) items)
  | record fields => bracketed "\x7b" "\x7d" depth (prettyFields (depth + 1) fields)

/-- The texts of items at a depth. -/
def prettyItems (depth : Nat) : List Json → List String
  | [] => []
  | v :: vs => pretty depth v :: prettyItems depth vs

/-- The texts of fields at a depth. -/
def prettyFields (depth : Nat) : List (String × Json) → List String
  | [] => []
  | (key, v) :: rest => (quoted key ++ ": " ++ pretty depth v) :: prettyFields depth rest

end

end Json
end NativeBindings
