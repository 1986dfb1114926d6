import NativeBindings.Text.Numeral
import NativeBindings.Text.Segment

/-!
# Versions

The three-part version of a tool, as it is stamped into generated code.

## Main definitions

- `Version.display` — the written form `X.Y.Z`
- `Version.read` — reads a version
- `Tool` — the name and the version of a tool
-/

namespace NativeBindings

/-- A version of three 32-bit numbers. -/
structure Version where
  major : UInt32
  minor : UInt32
  patch : UInt32
  deriving DecidableEq

/-- A text that is no version. -/
structure VersionError where
  text : String
  deriving DecidableEq

/-- The text of the error. -/
def VersionError.message (e : VersionError) : String :=
  s!"invalid version '{e.text}', expected 'X.Y.Z'"

namespace Version

/-- The written form `X.Y.Z`. -/
def display (v : Version) : String :=
  String.ofList <| joinSegments '.'
    [Numeral.decimal v.major.toNat, Numeral.decimal v.minor.toNat, Numeral.decimal v.patch.toNat]

/-- A part of a version: digits, with an optional plus sign, of a 32-bit number. -/
def readPart? (s : List Char) : Option UInt32 :=
  let ds := match s with
    | '+' :: ds => ds
    | ds => ds
  if ds.isEmpty || !ds.all Numeral.isDigit then none
  else
    let n := Numeral.read ds
    if n < UInt32.size then some (UInt32.ofNat n) else none

/-- The version that consists of exactly three parts between points. -/
def read? (s : List Char) : Option Version :=
  match segments '.' s with
  | [a, b, c] => do some ⟨← readPart? a, ← readPart? b, ← readPart? c⟩
  | _ => none

/-- Reads a version. -/
def read (s : String) : Except VersionError Version :=
  (read? s.toList).elim (.error ⟨s⟩) .ok

/-- Versions are ordered by their first different part. -/
def compare (a b : Version) : Ordering :=
  ((Ord.compare a.major b.major).then (Ord.compare a.minor b.minor)).then
    (Ord.compare a.patch b.patch)

end Version

/-- The tool that generated code names as its author. -/
structure Tool where
  name : String
  version : Version
  deriving DecidableEq

/-- This tool. -/
def Tool.default : Tool := ⟨"natbind", ⟨0, 1, 0⟩⟩

end NativeBindings
