/-!
# Numerals

Natural numbers written in a base, most significant digit first.

## Main definitions

- `Numeral.digits` — the digits of a number, none for zero
- `Numeral.value` — the number that a list of digits stands for
- `Numeral.text` — the written form, `0` for zero
-/

namespace NativeBindings
namespace Numeral

/-- The digits of `n` in the given base, most significant first; zero has none. -/
def digits (base n : Nat) : List Nat :=
  if _h : base < 2 ∨ n = 0 then [] else digits base (n / base) ++ [n % base]
termination_by n
decreasing_by exact Nat.div_lt_self (by omega) (by omega)

/-- The number that a list of digits stands for. -/
def value (base : Nat) (ds : List Nat) : Nat :=
  ds.foldl (fun acc d => acc * base + d) 0

/-- The character of a digit: `0` to `9`, then letters of the chosen case. -/
def glyph (upper : Bool) (d : Nat) : Char :=
  if d < 10 then Char.ofNat (48 + d)
  else if upper then Char.ofNat (55 + d) else Char.ofNat (87 + d)

/-- The written form of `n`, a single `0` for zero. -/
def text (base : Nat) (upper : Bool) (n : Nat) : List Char :=
  if n = 0 then ['0'] else (digits base n).map (glyph upper)

/-- The decimal form of `n`. -/
def decimal (n : Nat) : List Char := text 10 false n

/-- `s` with zeros in front up to the given width. -/
def padZeros (width : Nat) (s : List Char) : List Char :=
  List.replicate (width - s.length) '0' ++ s

/-- `c` is one of the ten ASCII digits. -/
def isDigit (c : Char) : Bool := '0' ≤ c && c ≤ '9'

/-- The value of an ASCII digit. -/
def digitValue (c : Char) : Nat := c.toNat - 48

/-- The number written by a list of ASCII digits. -/
def read (cs : List Char) : Nat := value 10 (cs.map digitValue)

theorem value_append_singleton (base : Nat) (ds : List Nat) (d : Nat) :
    value base (ds ++ [d]) = value base ds * base + d := by
  simp [value]

/-- Reading the digits of a number gives the number back. -/
theorem value_digits {base : Nat} (hb : 2 ≤ base) (n : Nat) : value base (digits base n) = n := by
  induction n using Nat.strongRecOn with
  | _ n ih =>
    rw [digits]
    split
    next h =>
      have : n = 0 := by omega
      simp [value, this]
    next h =>
      rw [value_append_singleton, ih (n / base) (Nat.div_lt_self (by omega) hb)]
      exact Nat.div_add_mod' n base

/-- Every digit is below the base. -/
theorem lt_of_mem_digits {base n d : Nat} (hd : d ∈ digits base n) : d < base := by
  induction n using Nat.strongRecOn with
  | _ n ih =>
    rw [digits] at hd
    split at hd
    next => simp at hd
    next h =>
      rcases List.mem_append.1 hd with hd | hd
      · exact ih _ (Nat.div_lt_self (by omega) (by omega)) hd
      · rw [List.mem_singleton.1 hd]
        exact Nat.mod_lt _ (by omega)

end Numeral
end NativeBindings
