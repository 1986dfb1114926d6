import NativeBindings.Constant.Basic
import NativeBindings.Text.Numeral

/-!
# String literals

Texts as C# string literals, and the expressions that constant members return.
-/

namespace NativeBindings
namespace Literal

/-- `c` is a control character. -/
def isControl (c : Char) : Bool := c.toNat < 0x20 || (0x7f ≤ c.toNat && c.toNat < 0xa0)

/-- The letter of a simple escape sequence. -/
def simpleEscape? (c : Char) : Option Char :=
  match c.toNat with
  | 0x5c => some '\\'
  | 0x22 => some '"'
  | 0x00 => some '0'
  | 0x07 => some 'a'
  | 0x08 => some 'b'
  | 0x0c => some 'f'
  | 0x0a => some 'n'
  | 0x0d => some 'r'
  | 0x09 => some 't'
  | 0x0b => some 'v'
  | _ => none

/-- A character inside a literal: control characters and the separators of lines and paragraphs
have escape sequences, simple ones where there are any and four hexadecimal digits otherwise. -/
def escape (c : Char) : List Char :=
  match simpleEscape? c with
  | some letter => ['\\', letter]
  | none =>
    if isControl c || c.toNat == 0x2028 || c.toNat == 0x2029 then
      '\\' :: 'u' :: Numeral.padZeros 4 (Numeral.text 16 true c.toNat)
    else [c]

/-- The literal of a text, without its quotes. -/
def body (s : List Char) : List Char := s.flatMap escape

/-- The literal of a text. -/
def quote (s : String) : String := .ofList ('"' :: (body s.toList ++ ['"']))

end Literal

namespace ConstantType

/-- The return type of a constant member. -/
def typeName : ConstantType → String
  | string => "string"
  | nullableString => "string?"
  | charSpan => "global::System.ReadOnlySpan<char>"
  | byteSpan => "global::System.ReadOnlySpan<byte>"

/-- The expression that a constant member returns; an empty text has an expression of its own. -/
def expression (value : String) : ConstantType → String
  | string | nullableString => if value.isEmpty then "string.Empty" else Literal.quote value
  | charSpan => if value.isEmpty then "[]" else Literal.quote value
  | byteSpan => if value.isEmpty then "[]" else Literal.quote value ++ "u8"

end ConstantType
end NativeBindings
