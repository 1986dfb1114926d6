import NativeBindings.Text.Numeral
import NativeBindings.Text.Segment

/-!
# TOML dates and times

Dates of the calendar and times of day, alone or together. A day that the calendar does not have and a
time that no clock shows are refused; any minute can have a leap second.

## Main definitions

- `Toml.Date`, `Toml.TimeOfDay` — the two parts
- `Toml.DateTime` — a date, a time of day or both
- `Toml.DateTime.read?` — what a text stands for
-/

namespace NativeBindings
namespace Toml

/-- A date. -/
structure Date where
  year : Nat
  month : Nat
  day : Nat
  deriving DecidableEq

/-- A time of day. -/
structure TimeOfDay where
  hour : Nat
  minute : Nat
  second : Nat
  /-- The digits behind the point of the second. -/
  fraction : List Char
  deriving DecidableEq

/-- A date, a time of day or both. -/
inductive DateTime where
  | date (d : Date)
  | time (t : TimeOfDay)
  /-- Both, with the minutes that the clock is ahead of universal time, if they are said. -/
  | both (d : Date) (t : TimeOfDay) (ahead : Option Int)
  deriving DecidableEq

/-- The two-digit number at the start of a text, if it is not too large, and what follows it. -/
def twoDigits? (largest : Nat) : List Char → Option (Nat × List Char)
  | a :: b :: s =>
    let n := Numeral.read [a, b]
    if Numeral.isDigit a && Numeral.isDigit b && n ≤ largest then some (n, s) else none
  | _ => none

namespace Date

/-- Every fourth year is a leap year, but of the full centuries only every fourth. -/
def isLeapYear (year : Nat) : Bool := year % 4 = 0 && (year % 100 ≠ 0 || year % 400 = 0)

/-- The number of days in a month. -/
def daysIn (year month : Nat) : Nat :=
  if month = 2 then if isLeapYear year then 29 else 28
  else if [4, 6, 9, 11].contains month then 30 else 31

/-- The calendar has the date. -/
def isValid (d : Date) : Bool :=
  1 ≤ d.month && d.month ≤ 12 && 1 ≤ d.day && d.day ≤ daysIn d.year d.month

/-- The date at the start of a text, and what follows it. -/
def read? (s : List Char) : Option (Date × List Char) := do
  let (century, s) ← twoDigits? 99 s
  let (year, s) ← twoDigits? 99 s
  let (month, s) ← twoDigits? 12 (← dropStart? ['-'] s)
  let (day, s) ← twoDigits? 31 (← dropStart? ['-'] s)
  let d : Date := ⟨century * 100 + year, month, day⟩
  if d.isValid then some (d, s) else none

end Date

/-- The seconds at the start of a text with the digits of their fraction, and what follows them. -/
def seconds? (s : List Char) : Option ((Nat × List Char) × List Char) := do
  let (second, s) ← twoDigits? 60 s
  match s with
  | '.' :: s =>
    let fraction := s.takeWhile Numeral.isDigit
    if fraction.isEmpty then none else some ((second, fraction), s.drop fraction.length)
  | s => some ((second, []), s)

/-- The time at the start of a text, and what follows it; the seconds can be left out. -/
def TimeOfDay.read? (s : List Char) : Option (TimeOfDay × List Char) := do
  let (hour, s) ← twoDigits? 23 s
  let (minute, s) ← twoDigits? 59 (← dropStart? [':'] s)
  match s with
  | ':' :: s =>
    let ((second, fraction), s) ← seconds? s
    some (⟨hour, minute, second, fraction⟩, s)
  | s => some (⟨hour, minute, 0, []⟩, s)

/-- The distance in hours and minutes that the whole of a text gives. -/
def distance? (s : List Char) : Option Int := do
  let (hours, s) ← twoDigits? 23 s
  let (minutes, s) ← twoDigits? 59 (← dropStart? [':'] s)
  if s.isEmpty then some (hours * 60 + minutes : Nat) else none

/-- How far a clock is ahead of universal time, which the text behind a time can say. -/
def ahead? : List Char → Option (Option Int)
  | [] => some none
  | ['Z'] | ['z'] => some (some 0)
  | '+' :: s => (distance? s).map some
  | '-' :: s => (distance? s).map fun n => some (-n)
  | _ => none

namespace DateTime

/-- What the whole of a text stands for. -/
def read? (s : List Char) : Option DateTime :=
  match Date.read? s with
  | some (d, []) => some (.date d)
  | some (d, c :: s) =>
    if ['T', 't', ' '].contains c then do
      let (t, s) ← TimeOfDay.read? s
      some (.both d t (← ahead? s))
    else none
  | none => do
    let (t, s) ← TimeOfDay.read? s
    if s.isEmpty then some (.time t) else none

/-- The whole of a text is a date. -/
def isDate (s : List Char) : Bool := (Date.read? s).any (·.2.isEmpty)

end DateTime
end Toml
end NativeBindings
