import NativeBindings.Proofs.Number.Written

/-!
# Numbers in loose notation

A number may be written without integer digits if it has a fraction, and without the sign of an
exponent that is not negative. Such a number is read back as its parts.

## Main definitions

- `Written.readLoose?` — reads a number in loose notation

## Main statements

- `Written.readLoose?_signed` — reading gives back the parts that were written
-/

namespace NativeBindings
namespace Written

/-- The sign of an exponent, which may be missing, and what follows it. -/
def exponentSign : List Char → Bool × List Char
  | '-' :: ds => (true, ds)
  | '+' :: ds => (false, ds)
  | ds => (false, ds)

/-- The exponent that a text consists of; no text at all is none. -/
def looseExponent? : List Char → Option (Option (Bool × List Char))
  | [] => some none
  | symbol :: rest =>
    let (negative, ds) := exponentSign rest
    if (symbol = 'E' ∨ symbol = 'e') ∧ ds ≠ [] ∧ ds.all Numeral.isDigit then
      some (some (negative, ds))
    else none

/-- Reads a number behind its sign; it has integer digits or a fraction. -/
def looseUnsigned? (negative : Bool) (s : List Char) : Option Written := do
  let integer := s.takeWhile Numeral.isDigit
  let (fraction, rest) ← fraction? (s.drop integer.length)
  guard (integer ≠ [] ∨ fraction ≠ [])
  let exponent ← looseExponent? rest
  some ⟨negative, [integer], fraction, exponent⟩

/-- Reads a number in loose notation. -/
def readLoose? : List Char → Option Written
  | '-' :: rest => looseUnsigned? true rest
  | s => looseUnsigned? false s

variable {integer fraction tail : List Char} {exponent : Option (Bool × List Char)}

theorem exponentSign_of_isDigit {ds : List Char} (h : ∀ c ∈ ds, Numeral.isDigit c = true) :
    exponentSign ds = (false, ds) := by
  unfold exponentSign
  split
  next rest => exact absurd (h '-' List.mem_cons_self) (by decide)
  next rest => exact absurd (h '+' List.mem_cons_self) (by decide)
  next => rfl

/-- An exponent is read behind its letter and a sign that is not needed for a positive one. -/
theorem looseExponent?_cons {symbol : Char} {sign ds : List Char} {negative : Bool}
    (hsymbol : symbol = 'E' ∨ symbol = 'e')
    (hsign : sign = ['-'] ∧ negative = true ∨ (sign = ['+'] ∨ sign = []) ∧ negative = false)
    (hne : ds ≠ []) (hds : ∀ c ∈ ds, Numeral.isDigit c = true) :
    looseExponent? (symbol :: (sign ++ ds)) = some (some (negative, ds)) := by
  have hrest : exponentSign (sign ++ ds) = (negative, ds) := by
    rcases hsign with ⟨rfl, rfl⟩ | ⟨rfl | rfl, rfl⟩
    · rfl
    · rfl
    · exact exponentSign_of_isDigit hds
  rw [looseExponent?, hrest]
  exact if_pos ⟨hsymbol, hne, List.all_eq_true.2 hds⟩

theorem looseUnsigned?_append (hinteger : ∀ c ∈ integer, Numeral.isDigit c = true)
    (hfraction : ∀ c ∈ fraction, Numeral.isDigit c = true) (hsome : integer ≠ [] ∨ fraction ≠ [])
    (hstop : StopsAt isInteger tail) (hpoint : ∀ s, tail ≠ '.' :: s)
    (hexponent : looseExponent? tail = some exponent) (negative : Bool) :
    looseUnsigned? negative (integer ++ (fractionText fraction ++ tail)) =
      some ⟨negative, [integer], fraction, exponent⟩ := by
  have hdigits : StopsAt Numeral.isDigit (fractionText fraction ++ tail) := by
    intro c hc
    have := stopsAt_fractionText hstop c hc
    rw [isInteger, Bool.or_eq_false_iff] at this
    exact this.1
  simp only [looseUnsigned?, takeWhile_append_of_stopsAt hinteger hdigits, List.drop_left,
    fraction?_append hfraction hstop hpoint]
  simp [hsome, hexponent]

/-- Reading gives back the parts that were written. -/
theorem readLoose?_signed (hinteger : ∀ c ∈ integer, Numeral.isDigit c = true)
    (hfraction : ∀ c ∈ fraction, Numeral.isDigit c = true) (hsome : integer ≠ [] ∨ fraction ≠ [])
    (hstop : StopsAt isInteger tail) (hpoint : ∀ s, tail ≠ '.' :: s)
    (hexponent : looseExponent? tail = some exponent) (negative : Bool) :
    readLoose? (if negative then '-' :: (integer ++ (fractionText fraction ++ tail))
        else integer ++ (fractionText fraction ++ tail)) =
      some ⟨negative, [integer], fraction, exponent⟩ := by
  have hread := looseUnsigned?_append hinteger hfraction hsome hstop hpoint hexponent negative
  cases negative with
  | true => exact hread
  | false =>
    -- The first character is a digit or the point, so it is not taken for a sign.
    have hminus : ∀ s, integer ++ (fractionText fraction ++ tail) ≠ '-' :: s := by
      intro s hs
      cases integer with
      | cons c cs =>
        obtain ⟨rfl, -⟩ := List.cons.inj hs
        exact absurd (hinteger '-' List.mem_cons_self) (by decide)
      | nil =>
        have hne : fraction ≠ [] := hsome.resolve_left (not_not.2 rfl)
        rw [fractionText, if_neg hne] at hs
        exact absurd (List.cons.inj hs).1 (by decide)
    show readLoose? (integer ++ (fractionText fraction ++ tail)) = _
    rw [readLoose?]
    · exact hread
    · exact hminus

/-- A number needs a digit. -/
theorem readLoose?_nil : readLoose? [] = none := rfl

end Written
end NativeBindings
