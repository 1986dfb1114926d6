import Mathlib.Data.Rat.Defs
import NativeBindings.Proofs.Number.Numeral
import NativeBindings.Proofs.Text.Scanning
import NativeBindings.Text.Segment

/-!
# Written numbers

The parts of a number as it is written: a sign, groups of integer digits between separators,
fraction digits and an exponent. A number with these parts is read back as exactly them.

## Main definitions

- `Written.value` — the number that is written
- `Written.read?` — reads a number with a leading sign
- `Written.readPercentage?`, `Written.readAmount?` — read hundredths and amounts of money

## Main statements

- `Written.read?_text` — reading gives back the parts of a written number
-/

namespace NativeBindings

/-- The parts of a written number. -/
structure Written where
  negative : Bool
  /-- The integer digits between separators. -/
  groups : List (List Char)
  fraction : List Char
  /-- Whether the exponent is negative, and its digits. -/
  exponent : Option (Bool × List Char)
  deriving DecidableEq

namespace Written

/-- The power of ten that an exponent stands for. -/
def power : Option (Bool × List Char) → ℤ
  | none => 0
  | some (negative, ds) => if negative then -(Numeral.read ds : ℤ) else Numeral.read ds

/-- The number that is written. -/
def value (w : Written) : ℚ :=
  (if w.negative then -1 else 1) *
    (Numeral.read (w.groups.flatten ++ w.fraction) * 10 ^ (power w.exponent - w.fraction.length))

/-- An exponent is written as its sign and its digits. -/
theorem power_padZeros (exponent : ℤ) (width : ℕ) :
    power (some (decide (exponent < 0),
      Numeral.padZeros width (Numeral.decimal exponent.natAbs))) = exponent := by
  simp only [power, Numeral.read_padZeros, Numeral.read_decimal, decide_eq_true_eq]
  split <;> omega

/-! ## Reading -/

/-- The digits behind a point, none without one, and what follows them. -/
def fraction? : List Char → Option (List Char × List Char)
  | '.' :: rest =>
    let ds := rest.takeWhile Numeral.isDigit
    if ds.isEmpty then none else some (ds, rest.drop ds.length)
  | s => some ([], s)

/-- The exponent that a text consists of; no text at all is none. -/
def exponent? : List Char → Option (Option (Bool × List Char))
  | [] => some none
  | symbol :: sign :: ds =>
    if (symbol = 'E' ∨ symbol = 'e') ∧ (sign = '+' ∨ sign = '-') ∧ ds ≠ [] ∧
        ds.all Numeral.isDigit then some (some (sign = '-', ds))
    else none
  | [_] => none

/-- A digit or a separator of groups. -/
def isInteger (c : Char) : Bool := Numeral.isDigit c || c = ','

/-- Reads a number behind its sign. -/
def unsigned? (negative : Bool) (s : List Char) : Option Written := do
  let integer := s.takeWhile isInteger
  let groups := segments ',' integer
  guard (groups.all (!·.isEmpty))
  let (fraction, rest) ← fraction? (s.drop integer.length)
  let exponent ← exponent? rest
  some ⟨negative, groups, fraction, exponent⟩

/-- Reads a number. -/
def read? : List Char → Option Written
  | '-' :: rest => unsigned? true rest
  | s => unsigned? false s

/-- Reads a number in front of a blank and a percent sign. -/
def readPercentage? (s : List Char) : Option Written := (dropEnd? [' ', '%'] s).bind read?

/-- Reads a number behind a currency sign; parentheses around both mean that it is negative. -/
def readAmount? : List Char → Option Written
  | '(' :: '\u00a4' :: rest =>
    ((dropEnd? [')'] rest).bind read?).map fun w => { w with negative := !w.negative }
  | '\u00a4' :: rest => read? rest
  | _ => none

/-! ## Writing -/

/-- What is written for an exponent. -/
def exponentText (symbol : Char) : Option (Bool × List Char) → List Char
  | none => []
  | some (negative, ds) => symbol :: (if negative then '-' else '+') :: ds

/-- What is written for fraction digits. -/
def fractionText (fraction : List Char) : List Char :=
  if fraction = [] then [] else '.' :: fraction

/-- The written number without its sign. -/
def unsignedText (symbol : Char) (w : Written) : List Char :=
  joinSegments ',' w.groups ++ (fractionText w.fraction ++ exponentText symbol w.exponent)

/-- The written number. -/
def text (symbol : Char) (w : Written) : List Char :=
  if w.negative then '-' :: w.unsignedText symbol else w.unsignedText symbol

/-- All parts hold digits, and only the fraction and the exponent may be missing. -/
structure IsProper (w : Written) : Prop where
  groups_ne_nil : w.groups ≠ []
  group_ne_nil : ∀ g ∈ w.groups, g ≠ []
  isDigit_group : ∀ g ∈ w.groups, ∀ c ∈ g, Numeral.isDigit c = true
  isDigit_fraction : ∀ c ∈ w.fraction, Numeral.isDigit c = true
  exponent : ∀ negative ds, w.exponent = some (negative, ds) →
    ds ≠ [] ∧ ∀ c ∈ ds, Numeral.isDigit c = true

variable {w : Written} {symbol : Char}

theorem exponent?_exponentText (hsymbol : symbol = 'E' ∨ symbol = 'e') (hw : w.IsProper) :
    exponent? (exponentText symbol w.exponent) = some w.exponent := by
  cases he : w.exponent with
  | none => rfl
  | some e =>
    obtain ⟨negative, ds⟩ := e
    obtain ⟨hne, hdigits⟩ := hw.exponent negative ds he
    cases negative <;> simp [exponentText, exponent?, hsymbol, hne, List.all_eq_true.2 hdigits]

theorem stopsAt_exponentText (hsymbol : symbol = 'E' ∨ symbol = 'e')
    (e : Option (Bool × List Char)) : StopsAt isInteger (exponentText symbol e) := by
  cases e with
  | none =>
    intro c hc
    cases hc
  | some e =>
    apply stopsAt_cons
    rcases hsymbol with rfl | rfl <;> decide

theorem stopsAt_fractionText {fraction rest : List Char} (hrest : StopsAt isInteger rest) :
    StopsAt isInteger (fractionText fraction ++ rest) := by
  unfold fractionText
  split
  · exact hrest
  · exact stopsAt_cons (by decide) _

theorem fraction?_append {fraction rest : List Char}
    (hfraction : ∀ c ∈ fraction, Numeral.isDigit c = true) (hrest : StopsAt isInteger rest)
    (hpoint : ∀ s, rest ≠ '.' :: s) :
    fraction? (fractionText fraction ++ rest) = some (fraction, rest) := by
  have hdigits : StopsAt Numeral.isDigit rest := by
    intro c hc
    have := hrest c hc
    rw [isInteger, Bool.or_eq_false_iff] at this
    exact this.1
  unfold fractionText
  split
  next h =>
    subst h
    rw [List.nil_append, fraction?]
    exact hpoint
  next h =>
    rw [List.cons_append, fraction?, takeWhile_append_of_stopsAt hfraction hdigits,
      if_neg (by simpa using h), List.drop_left]

theorem isInteger_joinSegments {groups : List (List Char)}
    (h : ∀ g ∈ groups, ∀ c ∈ g, Numeral.isDigit c = true) :
    ∀ c ∈ joinSegments ',' groups, isInteger c = true := by
  induction groups with
  | nil => simp [joinSegments]
  | cons g rest ih =>
    have hg : ∀ c ∈ g, isInteger c = true := fun c hc => by
      rw [isInteger, h g List.mem_cons_self c hc, Bool.true_or]
    cases rest with
    | nil => exact hg
    | cons next rest =>
      intro c hc
      rw [joinSegments_cons_cons] at hc
      rcases List.mem_append.1 hc with hc | hc
      · exact hg c hc
      · rcases List.mem_cons.1 hc with rfl | hc
        · decide
        · exact ih (fun g hg => h g (List.mem_cons_of_mem _ hg)) c hc

theorem notMem_group (hw : w.IsProper) : ∀ g ∈ w.groups, ',' ∉ g := by
  intro g hg hcomma
  exact absurd (hw.isDigit_group g hg ',' hcomma) (by decide)

theorem unsigned?_unsignedText (hsymbol : symbol = 'E' ∨ symbol = 'e') (hw : w.IsProper) :
    unsigned? w.negative (w.unsignedText symbol) = some w := by
  have hexponent := stopsAt_exponentText hsymbol w.exponent
  have hinteger := isInteger_joinSegments hw.isDigit_group
  have hstops : StopsAt isInteger (fractionText w.fraction ++ exponentText symbol w.exponent) :=
    stopsAt_fractionText hexponent
  have hpoint : ∀ s, exponentText symbol w.exponent ≠ '.' :: s := by
    intro s hs
    cases he : w.exponent with
    | none => simp [exponentText, he] at hs
    | some e => rcases hsymbol with rfl | rfl <;> simp [exponentText, he] at hs
  have hgroups : (w.groups.all (!·.isEmpty)) = true := by
    simpa [List.all_eq_true] using hw.group_ne_nil
  simp only [unsigned?, unsignedText, takeWhile_append_of_stopsAt hinteger hstops,
    segments_joinSegments hw.groups_ne_nil (notMem_group hw), List.drop_left, hgroups,
    fraction?_append hw.isDigit_fraction hexponent hpoint]
  simp [exponent?_exponentText hsymbol hw]

/-- Reading gives back the parts of a written number. -/
theorem read?_text (hsymbol : symbol = 'E' ∨ symbol = 'e') (hw : w.IsProper) :
    read? (w.text symbol) = some w := by
  have hread := unsigned?_unsignedText hsymbol hw
  unfold text
  cases hnegative : w.negative with
  | true => rwa [hnegative] at hread
  | false =>
    rw [hnegative] at hread
    -- The first character is a digit, so it is not taken for a sign.
    have hminus : ∀ s, w.unsignedText symbol ≠ '-' :: s := by
      intro s hs
      obtain ⟨g, rest, hg⟩ := List.exists_cons_of_ne_nil hw.groups_ne_nil
      have hmem : g ∈ w.groups := by
        rw [hg]
        exact List.mem_cons_self
      obtain ⟨c, cs, rfl⟩ := List.exists_cons_of_ne_nil (hw.group_ne_nil g hmem)
      have hdigit := hw.isDigit_group _ hmem c List.mem_cons_self
      have hc : c = '-' := by
        cases rest <;> simp [unsignedText, hg, joinSegments] at hs <;> exact hs.1
      rw [hc] at hdigit
      exact absurd hdigit (by decide)
    show read? (w.unsignedText symbol) = some w
    rw [read?]
    · exact hread
    · exact hminus

theorem read?_unsignedText (hsymbol : symbol = 'E' ∨ symbol = 'e') (hw : w.IsProper) :
    read? (w.unsignedText symbol) = some { w with negative := false } :=
  read?_text (w := { w with negative := false }) hsymbol ⟨hw.1, hw.2, hw.3, hw.4, hw.5⟩

/-! ## Separators -/

theorem filter_eq_self_of_isDigit {s : List Char} (h : ∀ c ∈ s, Numeral.isDigit c = true) :
    s.filter (· ≠ ',') = s := by
  apply List.filter_eq_self.2
  intro c hc
  refine decide_eq_true ?_
  rintro rfl
  exact absurd (h ',' hc) (by decide)

theorem filter_joinSegments {groups : List (List Char)}
    (h : ∀ g ∈ groups, ∀ c ∈ g, Numeral.isDigit c = true) :
    (joinSegments ',' groups).filter (· ≠ ',') = groups.flatten := by
  induction groups with
  | nil => rfl
  | cons g rest ih =>
    have hg := filter_eq_self_of_isDigit (h g List.mem_cons_self)
    cases rest with
    | nil => simpa [joinSegments] using hg
    | cons next rest =>
      have hrest := ih fun g hg => h g (List.mem_cons_of_mem _ hg)
      rw [joinSegments_cons_cons, List.filter_append, hg, List.filter_cons_of_neg (by decide), hrest]
      rfl

/-- Without its separators a number in fixed notation has all integer digits in one group. -/
theorem filter_text (hw : w.IsProper) (hexponent : w.exponent = none) :
    (w.text symbol).filter (· ≠ ',') =
      ({ w with groups := [w.groups.flatten] } : Written).text symbol := by
  have hfraction : (fractionText w.fraction).filter (· ≠ ',') = fractionText w.fraction := by
    unfold fractionText
    split
    · rfl
    · rw [List.filter_cons_of_pos (by decide), filter_eq_self_of_isDigit hw.isDigit_fraction]
  have hbody : (w.unsignedText symbol).filter (· ≠ ',') =
      ({ w with groups := [w.groups.flatten] } : Written).unsignedText symbol := by
    simp only [unsignedText, hexponent, exponentText, List.append_nil, List.filter_append,
      filter_joinSegments hw.isDigit_group, hfraction, joinSegments]
  unfold text
  cases w.negative
  · exact hbody
  · exact (List.filter_cons_of_pos (by decide)).trans (congrArg _ hbody)

theorem readPercentage?_append (s : List Char) : readPercentage? (s ++ [' ', '%']) = read? s := by
  rw [readPercentage?, dropEnd?_append]
  rfl

theorem readAmount?_currency (s : List Char) : readAmount? ('\u00a4' :: s) = read? s := rfl

theorem readAmount?_parentheses (s : List Char) :
    readAmount? ('(' :: '\u00a4' :: s ++ [')']) =
      (read? s).map fun w => { w with negative := !w.negative } := by
  rw [List.cons_append, List.cons_append, readAmount?, dropEnd?_append]
  rfl

end Written
end NativeBindings
