import Mathlib.Logic.Basic
import NativeBindings.Format.Template

/-!
# Specifiers that an argument accepts

Only finite numbers look at their specifier. A letter with at most nine digits is never read as a
pattern, so a number accepts it only if it has that standard format and the precision is small
enough; every other specifier is accepted.

## Main definitions

- `Number.Accepts` — the specifiers that a number has a text for
- `FormatArgument.number?` — the finite number that an argument is

## Main statements

- `Number.text_of_isStandard`, `Number.text_of_not_isStandard` — the texts that specifiers ask for
- `FormatArgument.exists_text`, `FormatArgument.text_eq_error` — an argument has a text for exactly
  the specifiers that it accepts
-/

namespace NativeBindings

variable {sym : NumberSymbols} {n : Number} {spec digits : List Char}

/-- A letter and at most nine digits. -/
def Specifier.IsStandard (letter : Char) (digits : List Char) : Prop :=
  isLetter letter = true ∧ digits.length ≤ 9 ∧ ∀ c ∈ digits, Numeral.isDigit c = true

/-- The letters of the standard formats that a number has, in upper case. -/
def Number.letters : Number → List Char
  | .integer .. => ['D', 'X', 'B', 'G', 'F', 'N', 'E', 'P', 'C']
  | .binary .. => ['R', 'G', 'F', 'N', 'E', 'P', 'C']

/-- A standard format must be one that the number has, with a precision of at most 999. -/
def Number.Accepts (n : Number) (spec : List Char) : Prop :=
  ∀ letter digits, spec = letter :: digits → Specifier.IsStandard letter digits →
    letter.toUpper ∈ n.letters ∧ Numeral.read digits ≤ 999

namespace Specifier

theorem isStandard_iff {letter : Char} :
    (isLetter letter && digits.length ≤ maxPrecisionDigits && digits.all Numeral.isDigit) = true ↔
      IsStandard letter digits := by
  simp only [Bool.and_eq_true, decide_eq_true_eq, List.all_eq_true, and_assoc]
  rfl

theorem read_of_isStandard {letter : Char} (h : IsStandard letter digits) :
    read (letter :: digits) =
      if Numeral.read digits ≤ 999 then
        .ok (.standard letter (if digits = [] then none else some (Numeral.read digits)))
      else .error .invalidSpecifier := by
  rw [read, if_pos (isStandard_iff.2 h)]
  cases digits with
  | nil => rfl
  | cons c cs => rfl

theorem read_of_not_isStandard {letter : Char} (h : ¬IsStandard letter digits) :
    read (letter :: digits) = .ok (.pattern (letter :: digits)) := by
  rw [read, if_neg (mt isStandard_iff.1 h)]

end Specifier

namespace Standard

variable {letter : Char} {precision : Option Nat}

theorem exists_text (h : letter.toUpper ∈ n.letters) :
    ∃ t, text sym n letter precision = .ok t := by
  unfold text Style.ofLetter?
  cases n with
  | integer v bits =>
    simp only [Number.letters, List.mem_cons, List.not_mem_nil, or_false] at h
    rcases h with h | h | h | h | h | h | h | h | h <;> rw [h] <;> exact ⟨_, rfl⟩
  | binary s m q =>
    simp only [Number.letters, List.mem_cons, List.not_mem_nil, or_false] at h
    rcases h with h | h | h | h | h | h | h <;> rw [h] <;> exact ⟨_, rfl⟩

/-- The letter of a notation in upper case. -/
def Style.upperLetter : Style → Char
  | decimal => 'D'
  | hexadecimal => 'X'
  | binary => 'B'
  | roundTrip => 'R'
  | general => 'G'
  | fixed => 'F'
  | grouped => 'N'
  | scientific => 'E'
  | percent => 'P'
  | currency => 'C'

theorem Style.toUpper_of_ofLetter? {style : Style} (h : ofLetter? letter = some style) :
    letter.toUpper = style.upperLetter := by
  unfold ofLetter? at h
  split at h <;> simp only [Option.some.injEq, reduceCtorEq] at h <;> subst h <;> assumption

theorem text_eq_error (h : letter.toUpper ∉ n.letters) :
    text sym n letter precision = .error .invalidSpecifier := by
  unfold text
  cases hs : Style.ofLetter? letter with
  | none => rfl
  | some style =>
    -- Every other letter has a notation, so what remains are those of the other kind of number.
    rw [Style.toUpper_of_ofLetter? hs] at h
    cases n <;> cases style <;> simp only [Number.letters, Style.upperLetter] at h <;>
      first | exact absurd (by decide) h | rfl

end Standard

namespace Number

variable {letter : Char}

theorem text_of_isStandard (h : Specifier.IsStandard letter digits) :
    n.text sym (letter :: digits) =
      if Numeral.read digits ≤ 999 then
        Standard.text sym n letter (if digits = [] then none else some (Numeral.read digits))
      else .error .invalidSpecifier := by
  rw [text, Specifier.read_of_isStandard h]
  split <;> rfl

theorem text_of_not_isStandard (h : ¬Specifier.IsStandard letter digits) :
    n.text sym (letter :: digits) = .ok (Pattern.text sym n (letter :: digits)) := by
  rw [text, Specifier.read_of_not_isStandard h]
  rfl

theorem text_of_not_isLetter (h : Specifier.isLetter letter = false) :
    n.text sym (letter :: digits) = .ok (Pattern.text sym n (letter :: digits)) :=
  text_of_not_isStandard fun hstandard => Bool.false_ne_true (h.symm.trans hstandard.1)

theorem exists_text (h : n.Accepts spec) : ∃ t, n.text sym spec = .ok t := by
  cases spec with
  | nil =>
    have hG : 'G'.toUpper ∈ n.letters := by cases n <;> simp [letters]
    exact Standard.exists_text hG
  | cons letter digits =>
    by_cases hs : Specifier.IsStandard letter digits
    · obtain ⟨hletter, hread⟩ := h letter digits rfl hs
      rw [text_of_isStandard hs, if_pos hread]
      exact Standard.exists_text hletter
    · exact ⟨_, text_of_not_isStandard hs⟩

theorem text_eq_error (h : ¬n.Accepts spec) : n.text sym spec = .error .invalidSpecifier := by
  simp only [Accepts, not_forall] at h
  obtain ⟨letter, digits, rfl, hs, h⟩ := h
  rw [text_of_isStandard hs]
  split
  next hread => exact Standard.text_eq_error fun hletter => h ⟨hletter, hread⟩
  next => rfl

end Number

namespace FormatArgument

variable {arg : FormatArgument}

/-- The finite number that an argument is. -/
def number? : FormatArgument → Option Number
  | .int v => some (.ofInt64 v)
  | .uint v => some (.ofUInt64 v)
  | .float x =>
    match x.decode with
    | .finite s m q => some (.binary s m q)
    | .infinite _ | .notANumber => none
  | .null | .bool _ | .char _ | .string _ => none

/-- The specifiers that an argument has a text for. -/
def Accepts (arg : FormatArgument) (spec : List Char) : Prop :=
  ∀ n, arg.number? = some n → n.Accepts spec

theorem text_of_number? (h : arg.number? = some n) : arg.text sym spec = n.text sym spec := by
  cases arg with
  | int v | uint v =>
    injection h with h
    rw [text, h]
  | float x =>
    simp only [number?] at h
    split at h
    next hx =>
      injection h with h
      rw [text, hx, ← h]
    next => simp at h
    next => simp at h
  | null | bool b | char c | string s => simp [number?] at h

theorem exists_text_of_number? (h : arg.number? = none) : ∃ t, arg.text sym spec = .ok t := by
  cases arg with
  | int v | uint v => simp [number?] at h
  | float x =>
    simp only [number?] at h
    split at h
    next => simp at h
    next hx => simp [text, hx]
    next hx => simp [text, hx]
  | null | bool b | char c | string s => exact ⟨_, rfl⟩

theorem exists_text (sym : NumberSymbols) (h : arg.Accepts spec) :
    ∃ t, arg.text sym spec = .ok t := by
  cases hn : arg.number? with
  | none => exact exists_text_of_number? hn
  | some n =>
    rw [text_of_number? hn]
    exact Number.exists_text (h n hn)

theorem text_eq_error (h : ¬arg.Accepts spec) : arg.text sym spec = .error .invalidSpecifier := by
  simp only [Accepts, not_forall] at h
  obtain ⟨n, hn, h⟩ := h
  rw [text_of_number? hn]
  exact Number.text_eq_error h

end FormatArgument
end NativeBindings
