import NativeBindings.Format.Number

/-!
# Custom numeric patterns

A pattern has up to three sections, for values above, below and at zero. Each section is a row of
digit places, separators, signs and literal text.

## Main definitions

- `Pattern.sections` — cuts a pattern at its semicolons
- `Pattern.tokens` — the row of tokens of a section
- `Pattern.Layout.of` — the digit places of a row
- `Pattern.text` — a number written through a pattern
-/

namespace NativeBindings
namespace Pattern

/-- What a character means to the search for the next semicolon. -/
inductive Quoting where
  | plain
  /-- Behind a backslash. -/
  | escaped
  /-- Between two quotes of this kind. -/
  | quoted (mark : Char)
  deriving DecidableEq

/-- The state behind a character. -/
def Quoting.next : Quoting → Char → Quoting
  | .escaped, _ => .plain
  | .quoted mark, c => if c = mark then .plain else .quoted mark
  | .plain, c =>
    if c = '\\' then .escaped
    else if c = '\'' ∨ c = '"' then .quoted c
    else .plain

/-- The first section and the others, cut at semicolons outside quotes and escapes. -/
def sectionsFrom : Quoting → List Char → List Char × List (List Char)
  | _, [] => ([], [])
  | state, c :: cs =>
    let (first, others) := sectionsFrom (state.next c) cs
    if state = .plain ∧ c = ';' then ([], first :: others) else (c :: first, others)

/-- The first section of a pattern and the others. -/
def sections (pattern : List Char) : List Char × List (List Char) := sectionsFrom .plain pattern

/-- A part of a section. -/
inductive Token where
  /-- A digit place; one that `isZero` is always filled. -/
  | digit (isZero : Bool)
  | point
  | group
  | percent
  | perMille
  /-- An exponent with at least `minDigits` digits. -/
  | exponent (symbol : Char) (alwaysSign : Bool) (minDigits : Nat)
  | literal (chars : List Char)
  deriving DecidableEq

namespace Token

def isDigit : Token → Bool
  | .digit _ => true
  | _ => false

def isExponent : Token → Bool
  | .exponent .. => true
  | _ => false

end Token

/-- The sign and the zeros of an exponent, and what follows them; none without a zero. -/
def exponentMark? (s : List Char) : Option (Bool × Nat × List Char) :=
  let (alwaysSign, digits) := match s with
    | '+' :: rest => (true, rest)
    | '-' :: rest => (false, rest)
    | rest => (false, rest)
  let zeros := (digits.takeWhile (· = '0')).length
  if zeros = 0 then none else some (alwaysSign, zeros, digits.drop zeros)

theorem exponentMark?_length {s rest : List Char} {b : Bool} {n : Nat}
    (h : exponentMark? s = some (b, n, rest)) : rest.length ≤ s.length := by
  unfold exponentMark? at h
  split at h
  next alwaysSign digits hd =>
    have hl : digits.length ≤ s.length := by
      split at hd <;> simp only [Prod.mk.injEq] at hd <;> obtain ⟨-, rfl⟩ := hd <;> simp
    dsimp only at h
    split at h
    · simp at h
    · simp only [Option.some.injEq, Prod.mk.injEq] at h
      obtain ⟨-, -, rfl⟩ := h
      simp only [List.length_drop]
      omega

/-- The tokens of a section; of several points only the first counts. -/
def tokens (seenPoint : Bool) : List Char → List Token
  | [] => []
  | c :: rest =>
    if c = '0' then .digit true :: tokens seenPoint rest
    else if c = '#' then .digit false :: tokens seenPoint rest
    else if c = '.' then
      if seenPoint then tokens seenPoint rest else .point :: tokens true rest
    else if c = ',' then .group :: tokens seenPoint rest
    else if c = '%' then .percent :: tokens seenPoint rest
    else if c = '\u2030' then .perMille :: tokens seenPoint rest
    else if c = 'E' ∨ c = 'e' then
      match h : exponentMark? rest with
      | some (alwaysSign, minDigits, after) =>
        have := exponentMark?_length h
        .exponent c alwaysSign minDigits :: tokens seenPoint after
      | none => .literal [c] :: tokens seenPoint rest
    else if c = '\\' then
      match rest with
      | [] => []
      | next :: after => .literal [next] :: tokens seenPoint after
    else if c = '\'' ∨ c = '"' then
      let chars := rest.takeWhile (· ≠ c)
      .literal chars :: tokens seenPoint (rest.drop (chars.length + 1))
    else .literal [c] :: tokens seenPoint rest
termination_by s => s.length
decreasing_by all_goals grind

/-- The digit places of a section. -/
structure Layout where
  integerPlaces : Nat
  minInteger : Nat
  minFraction : Nat
  maxFraction : Nat
  /-- Integer digits stand in groups of three. -/
  grouping : Bool
  /-- The power of ten that the value is multiplied by. -/
  scale : Int
  deriving DecidableEq

/-- Whether each digit place of a row is always filled. -/
def places (ts : List Token) : List Bool :=
  ts.filterMap fun
    | .digit isZero => some isZero
    | _ => none

/-- The places of a section: groups are asked for by a separator between integer places, the
separators right behind the last of them divide by 1000 each. -/
def Layout.of (ts : List Token) : Layout :=
  let integer := ts.takeWhile (· ≠ .point)
  let fraction := ts.dropWhile (· ≠ .point)
  let integerPlaces := places integer
  let fractionPlaces := places fraction
  let fromFirst := integer.dropWhile (!·.isDigit)
  let behindLast := (integer.reverse.takeWhile (!·.isDigit)).reverse
  let between := fromFirst.take (fromFirst.length - behindLast.length)
  let thousands := if integerPlaces.isEmpty then 0 else (behindLast.takeWhile (· = .group)).length
  { integerPlaces := integerPlaces.length
    minInteger := (integerPlaces.dropWhile (!·)).length
    minFraction := (fractionPlaces.reverse.dropWhile (!·)).length
    maxFraction := fractionPlaces.length
    grouping := between.contains .group
    scale := 2 * (ts.count .percent : Int) + 3 * (ts.count .perMille : Int) - 3 * (thousands : Int) }

/-- The digits that fill the places of a section. -/
structure Filling where
  integer : List Char
  fraction : List Char
  exponent : Int
  deriving DecidableEq

/-- The digits printed at the integer place of the given index: the first place also takes the
digits that have no place of their own, and grouped digits all stand at the first place. -/
def integerAt (sym : NumberSymbols) (l : Layout) (integer : List Char) (index : Nat) : List Char :=
  if l.grouping then if index = 0 then sym.grouped integer else []
  else
    let extra : Int := integer.length - l.integerPlaces
    if index = 0 ∧ 0 < extra then integer.take (extra.toNat + 1)
    else if 0 ≤ index + extra then (integer[(index + extra).toNat]?).toList
    else []

/-- An exponent as its token asks for. -/
def exponentText (sym : NumberSymbols) (e : Int) (symbol : Char) (alwaysSign : Bool)
    (minDigits : Nat) : List Char :=
  let sign := if e < 0 then sym.negativeSign else if alwaysSign then ['+'] else []
  symbol :: (sign ++ Numeral.padZeros minDigits (Numeral.decimal e.natAbs))

/-- The tokens behind the point, from the given fraction place on. -/
def fractionText (sym : NumberSymbols) (f : Filling) : Nat → List Token → List Char
  | _, [] => []
  | index, t :: ts =>
    match t with
    | .digit _ => (f.fraction[index]?).toList ++ fractionText sym f (index + 1) ts
    | .point | .group => fractionText sym f index ts
    | .percent => sym.percent ++ fractionText sym f index ts
    | .perMille => sym.perMille ++ fractionText sym f index ts
    | .exponent symbol alwaysSign minDigits =>
      exponentText sym f.exponent symbol alwaysSign minDigits ++ fractionText sym f index ts
    | .literal chars => chars ++ fractionText sym f index ts

/-- The tokens of a section, from the given integer place on. A section without an integer place
has the integer digits in front of the point. -/
def integerText (sym : NumberSymbols) (l : Layout) (f : Filling) : Nat → List Token → List Char
  | _, [] => []
  | index, t :: ts =>
    match t with
    | .digit _ => integerAt sym l f.integer index ++ integerText sym l f (index + 1) ts
    | .point =>
      (if l.integerPlaces = 0 then f.integer else []) ++
        (if f.fraction.isEmpty then [] else sym.decimalSeparator) ++ fractionText sym f 0 ts
    | .group => integerText sym l f index ts
    | .percent => sym.percent ++ integerText sym l f index ts
    | .perMille => sym.perMille ++ integerText sym l f index ts
    | .exponent symbol alwaysSign minDigits =>
      exponentText sym f.exponent symbol alwaysSign minDigits ++ integerText sym l f index ts
    | .literal chars => chars ++ integerText sym l f index ts

/-- The mantissa and the exponent of a value: the mantissa has one digit for each integer place. -/
def normalized (l : Layout) (hasExponent : Bool) (d : Decimal) : Decimal × Int :=
  if hasExponent ∧ !d.isZero then
    let d := d.roundSignificant (max (l.integerPlaces + l.maxFraction) 1)
    let exponent := d.point - l.integerPlaces
    (d.shift (-exponent), exponent)
  else (d, 0)

/-- The digits of a rounded value: integer digits up to the first place that is always filled,
fraction digits without the zeros behind the last such place. -/
def Layout.fill (l : Layout) (d : Decimal) (exponent : Int) : Filling :=
  let integer := if 0 < d.point then d.integerText else []
  let fraction := d.fractionText l.maxFraction
  { integer := Numeral.padZeros l.minInteger integer
    fraction := fraction.take l.minFraction ++
      ((fraction.drop l.minFraction).reverse.dropWhile (· = '0')).reverse
    exponent := exponent }

/-- The section for a value, and whether the sign is written in front of it. An empty section
stands for the first. -/
def select (pattern : List Char) (value : Decimal) : List Char × Bool :=
  match sections pattern with
  | (first, negative :: zero :: _) =>
    if value.isZero ∧ !zero.isEmpty then (zero, false)
    else if value.negative ∧ !negative.isEmpty then (negative, false)
    else (first, true)
  | (first, [negative]) =>
    if value.negative ∧ !negative.isEmpty then (negative, false) else (first, true)
  | (first, []) => (first, true)

/-- A value written through one section. -/
def sectionText (sym : NumberSymbols) (chars : List Char) (withSign : Bool) (value : Decimal) :
    List Char :=
  let ts := tokens false chars
  let l := Layout.of ts
  let (mantissa, exponent) := normalized l (ts.any Token.isExponent) (value.shift l.scale)
  let d := mantissa.roundFraction l.maxFraction
  let out := integerText sym l (l.fill d exponent) 0 ts
  sym.signed (withSign && d.negative && !d.isZero) out

/-- A number written through a pattern. -/
def text (sym : NumberSymbols) (n : Number) (pattern : List Char) : List Char :=
  let value := n.exact
  let (chars, withSign) := select pattern value
  sectionText sym chars withSign value

end Pattern
end NativeBindings
