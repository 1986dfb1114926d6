import NativeBindings.Proofs.Format.Filling

/-!
# Tokens of patterns

Digit places, separators and signs are read one by one, up to the first point as integer places and
behind it as fraction places. The digits that are printed for them are all digits of the number.

## Main definitions

- `Pattern.isPlace`, `Pattern.isMark` — characters of patterns that stand for one token
- `Pattern.Token.IsSilent` — tokens of whose text only digits are kept
- `Pattern.integerText?` — the text of a section where each lookup is checked
- `Pattern.Filling.Fits` — digits that fit the tokens of a section

## Main statements

- `Pattern.tokens_append_of_isMark`, `Pattern.tokens_exponent` — how patterns are read
- `Pattern.Layout.of_append` — the layout of tokens in front of the point and behind it
- `Pattern.integerText?_eq_some` — no lookup is outside the digits
- `Pattern.filter_integerText_row` — the digits that a section prints
-/

namespace NativeBindings
namespace Pattern

/-- The character stands for a digit place. -/
def isPlace (c : Char) : Bool := c = '0' || c = '#'

/-- The character stands for a digit place, a separator or a sign. -/
def isMark (c : Char) : Bool := c = '0' || c = '#' || c = ',' || c = '%' || c = '\u2030'

/-- The token that a mark stands for. -/
def Token.ofMark (c : Char) : Token :=
  if c = '0' then .digit true
  else if c = '#' then .digit false
  else if c = ',' then .group
  else if c = '%' then .percent
  else .perMille

/-- Only digits are kept of the text of the token. -/
def Token.IsSilent (sym : NumberSymbols) (keep : Char → Bool) : Token → Prop
  | .digit _ | .group => True
  | .percent => ∀ c ∈ sym.percent, keep c = false
  | .perMille => ∀ c ∈ sym.perMille, keep c = false
  | .point | .exponent .. | .literal _ => False

variable {sym : NumberSymbols} {l : Layout} {f : Filling} {keep : Char → Bool}
  {cs s : List Char} {a b ts : List Token}

/-! ## Sections -/

theorem sectionsFrom_of_notMem (h : ';' ∉ cs) (state : Quoting) :
    sectionsFrom state cs = (cs, []) := by
  induction cs generalizing state with
  | nil => rfl
  | cons c cs ih =>
    rw [List.mem_cons, not_or] at h
    rw [sectionsFrom, ih h.2]
    exact if_neg fun hc => h.1 hc.2.symm

/-- A pattern without a semicolon is one section, for all values. -/
theorem text_of_notMem (h : ';' ∉ cs) (sym : NumberSymbols) (n : Number) :
    text sym n cs = sectionText sym cs true n.exact := by
  have hselect : select cs n.exact = (cs, true) := by
    rw [select, sections, sectionsFrom_of_notMem h]
  rw [text, hselect]

/-- The mantissa of a value fills the places of its section. -/
theorem sectionText_of_normalized {mantissa value : Decimal} {exponent : ℤ}
    (h : normalized (.of (tokens false cs)) ((tokens false cs).any Token.isExponent)
      (value.shift (Layout.of (tokens false cs)).scale) = (mantissa, exponent))
    (sym : NumberSymbols) (withSign : Bool) :
    let d := mantissa.roundFraction (Layout.of (tokens false cs)).maxFraction
    sectionText sym cs withSign value = sym.signed (withSign && d.negative && !d.isZero)
      (integerText sym (.of (tokens false cs)) ((Layout.of (tokens false cs)).fill d exponent) 0
        (tokens false cs)) := by
  simp only [sectionText, h]

/-! ## Reading -/

theorem isMark_iff {c : Char} :
    isMark c = true ↔ c = '0' ∨ c = '#' ∨ c = ',' ∨ c = '%' ∨ c = '\u2030' := by
  simp only [isMark, Bool.or_eq_true, decide_eq_true_eq, or_assoc]

theorem isPlace_iff {c : Char} : isPlace c = true ↔ c = '0' ∨ c = '#' := by
  simp only [isPlace, Bool.or_eq_true, decide_eq_true_eq]

theorem isMark_of_isPlace {c : Char} (h : isPlace c = true) : isMark c = true :=
  isMark_iff.2 ((isPlace_iff.1 h).imp_right .inl)

theorem isDigit_ofMark (c : Char) : (Token.ofMark c).isDigit = isPlace c := by
  unfold Token.ofMark isPlace
  split_ifs <;> simp_all [Token.isDigit]

theorem tokens_cons_of_isMark {c : Char} (h : isMark c = true) (seen : Bool) (s : List Char) :
    tokens seen (c :: s) = .ofMark c :: tokens seen s := by
  rcases isMark_iff.1 h with rfl | rfl | rfl | rfl | rfl <;>
    simp [tokens.eq_def seen (_ :: s), Token.ofMark]

theorem tokens_append_of_isMark (h : ∀ c ∈ cs, isMark c = true) (seen : Bool) (s : List Char) :
    tokens seen (cs ++ s) = cs.map .ofMark ++ tokens seen s := by
  induction cs with
  | nil => rfl
  | cons c cs ih =>
    rw [List.forall_mem_cons] at h
    rw [List.cons_append, tokens_cons_of_isMark h.1, ih h.2]
    rfl

theorem tokens_point (seen : Bool) (s : List Char) :
    tokens seen ('.' :: s) = if seen then tokens seen s else .point :: tokens true s := by
  rw [tokens.eq_def]
  simp

/-- Behind the first point further points do not count. -/
theorem tokens_true (h : ∀ c ∈ cs, c = '.' ∨ isMark c = true) :
    tokens true cs = (cs.filter (· ≠ '.')).map .ofMark := by
  induction cs with
  | nil => simp [tokens]
  | cons c cs ih =>
    rw [List.forall_mem_cons] at h
    rcases h.1 with rfl | hc
    · rw [tokens_point, if_pos rfl, ih h.2, List.filter_cons_of_neg (by decide)]
    · have hpoint : c ≠ '.' := by
        rintro rfl
        exact absurd hc (by decide)
      rw [tokens_cons_of_isMark hc, ih h.2, List.filter_cons_of_pos (by simpa using hpoint)]
      rfl

theorem exponentMark?_append {sign : List Char} (hsign : sign = ['+'] ∨ sign = ['-'] ∨ sign = [])
    {k : ℕ} (hk : 0 < k) :
    exponentMark? (sign ++ List.replicate k '0') = some (decide (sign = ['+']), k, []) := by
  obtain ⟨j, rfl⟩ := Nat.exists_eq_add_of_lt hk
  rw [Nat.zero_add]
  rcases hsign with rfl | rfl | rfl <;> simp [exponentMark?, List.replicate_succ]

/-- A letter and zeros at the end of a pattern are an exponent. -/
theorem tokens_exponent {symbol : Char} (hsymbol : symbol = 'E' ∨ symbol = 'e') {sign : List Char}
    (hsign : sign = ['+'] ∨ sign = ['-'] ∨ sign = []) {k : ℕ} (hk : 0 < k) (seen : Bool) :
    tokens seen (symbol :: (sign ++ List.replicate k '0')) =
      [.exponent symbol (decide (sign = ['+'])) k] := by
  have hmark := exponentMark?_append hsign hk
  rcases hsymbol with rfl | rfl
  all_goals
    rw [tokens.eq_def]
    simp only [Char.reduceEq, if_false, or_true, true_or, if_true]
    split
    next heq =>
      rw [hmark, Option.some.injEq, Prod.mk.injEq, Prod.mk.injEq] at heq
      obtain ⟨rfl, rfl, rfl⟩ := heq
      simp [tokens]
    next heq =>
      rw [hmark] at heq
      cases heq

/-! ## Layout -/

theorem places_append (a b : List Token) : places (a ++ b) = places a ++ places b :=
  List.filterMap_append

theorem length_places_digit (isZero : Bool) (ts : List Token) :
    (places (.digit isZero :: ts)).length = (places ts).length + 1 := rfl

theorem places_cons_of_isDigit_eq_false {t : Token} (h : t.isDigit = false) :
    places (t :: ts) = places ts := by
  cases t with
  | digit => cases h
  | _ => rfl

/-- A zero is a place that is always filled. -/
theorem places_map_ofMark (cs : List Char) :
    places (cs.map .ofMark) = (cs.filter isPlace).map fun c => decide (c = '0') := by
  induction cs with
  | nil => rfl
  | cons c cs ih =>
    rw [List.map_cons]
    by_cases hplace : isPlace c = true
    · rw [List.filter_cons_of_pos hplace, List.map_cons, ← ih]
      rcases isPlace_iff.1 hplace with rfl | rfl <;> rfl
    · rw [List.filter_cons_of_neg hplace, ← ih]
      exact places_cons_of_isDigit_eq_false ((isDigit_ofMark c).trans (Bool.eq_false_iff.2 hplace))

/-- The places from the first zero on. -/
theorem length_dropWhile_map (cs : List Char) :
    ((cs.map fun c => decide (c = '0')).dropWhile (!·)).length =
      (cs.dropWhile (· ≠ '0')).length := by
  have hbool : (fun b : Bool => !b) ∘ (fun c : Char => decide (c = '0')) =
      fun c => decide (c ≠ '0') := funext fun c => decide_not.symm
  rw [List.dropWhile_map, hbool, List.length_map]

/-- The places up to the last zero. -/
theorem length_reverse_dropWhile_map (cs : List Char) :
    ((cs.map fun c => decide (c = '0')).reverse.dropWhile (!·)).length =
      (cs.rdropWhile (· ≠ '0')).length := by
  rw [← List.map_reverse, length_dropWhile_map, List.rdropWhile, List.length_reverse]

/-- How many separators stand directly behind the last digit place. -/
def thousands (a : List Token) : ℕ :=
  if (places a).isEmpty then 0
  else ((a.rtakeWhile (!·.isDigit)).takeWhile (· = .group)).length

/-- A separator stands between digit places. -/
def hasInnerGroup (a : List Token) : Bool :=
  let fromFirst := a.dropWhile (!·.isDigit)
  (fromFirst.take (fromFirst.length - (a.rtakeWhile (!·.isDigit)).length)).contains .group

/-- The places in front of the point are integer places and those behind it fraction places. -/
theorem Layout.of_append (ha : .point ∉ a) (hb : ∀ t ∈ b.head?, t = .point) :
    Layout.of (a ++ b) =
      { integerPlaces := (places a).length
        minInteger := ((places a).dropWhile (!·)).length
        minFraction := ((places b).reverse.dropWhile (!·)).length
        maxFraction := (places b).length
        grouping := hasInnerGroup a
        scale := 2 * ((a ++ b).count .percent : ℤ) + 3 * ((a ++ b).count .perMille : ℤ) -
          3 * (thousands a : ℤ) } := by
  have hne : ∀ t ∈ a, decide (t ≠ .point) = true :=
    fun t ht => decide_eq_true fun heq => ha (heq ▸ ht)
  have hintegers : (a ++ b).takeWhile (· ≠ .point) = a := by
    rw [List.takeWhile_append_of_pos hne]
    cases b with
    | nil => simp
    | cons t b => simp [hb t rfl]
  have hfraction : (a ++ b).dropWhile (· ≠ .point) = b := by
    rw [List.dropWhile_append_of_pos hne]
    cases b with
    | nil => rfl
    | cons t b => simp [hb t rfl]
  unfold Layout.of thousands hasInnerGroup
  rw [hintegers, hfraction]
  rfl

theorem thousands_of_notMem (h : .group ∉ a) : thousands a = 0 := by
  unfold thousands
  split
  · rfl
  · rw [List.length_eq_zero_iff, List.takeWhile_eq_nil_iff]
    intro hpos hgroup
    have hmem := (List.rtakeWhile_suffix (!·.isDigit) a).subset (List.get_mem _ ⟨0, hpos⟩)
    rw [of_decide_eq_true hgroup] at hmem
    exact h hmem

theorem hasInnerGroup_of_notMem (h : .group ∉ a) : hasInnerGroup a = false := by
  unfold hasInnerGroup
  rw [← Bool.not_eq_true, List.contains_iff_mem]
  exact fun hmem => h ((List.dropWhile_sublist _).subset (List.mem_of_mem_take hmem))

/-! ## Printing -/

theorem integerText_append (ha : .point ∉ a) (index : ℕ) :
    integerText sym l f index (a ++ b) =
      integerText sym l f index a ++ integerText sym l f (index + (places a).length) b := by
  induction a generalizing index with
  | nil => rfl
  | cons t a ih =>
    rw [List.mem_cons, not_or] at ha
    cases t with
    | digit isZero =>
      have hindex : index + (places (.digit isZero :: a)).length =
          index + 1 + (places a).length := by
        rw [length_places_digit]
        omega
      rw [List.cons_append, integerText, ih ha.2, integerText, hindex, List.append_assoc]
    | point => exact absurd rfl ha.1
    | group =>
      rw [List.cons_append, integerText, ih ha.2, integerText]
      rfl
    | percent | perMille | exponent | literal =>
      rw [List.cons_append, integerText, ih ha.2, integerText, List.append_assoc]
      rfl

theorem fractionText_append (index : ℕ) :
    fractionText sym f index (a ++ b) =
      fractionText sym f index a ++ fractionText sym f (index + (places a).length) b := by
  induction a generalizing index with
  | nil => rfl
  | cons t a ih =>
    cases t with
    | digit isZero =>
      have hindex : index + (places (.digit isZero :: a)).length =
          index + 1 + (places a).length := by
        rw [length_places_digit]
        omega
      rw [List.cons_append, fractionText, ih, fractionText, hindex, List.append_assoc]
    | point | group =>
      rw [List.cons_append, fractionText, ih, fractionText]
      rfl
    | percent | perMille | exponent | literal =>
      rw [List.cons_append, fractionText, ih, fractionText, List.append_assoc]
      rfl

/-- What is kept of tokens in front of the point are the digits at their places. -/
theorem filter_integerText (h : ∀ t ∈ ts, t.IsSilent sym keep) (index : ℕ) :
    (integerText sym l f index ts).filter keep =
      (List.range' index (places ts).length).flatMap fun i =>
        (integerAt sym l f.integer i).filter keep := by
  induction ts generalizing index with
  | nil => rfl
  | cons t ts ih =>
    rw [List.forall_mem_cons] at h
    cases t with
    | digit isZero =>
      rw [integerText, List.filter_append, ih h.2]
      rfl
    | group => exact ih h.2 index
    | percent | perMille =>
      rw [integerText, List.filter_append, ih h.2, filter_eq_nil_of_forall h.1]
      rfl
    | point | exponent | literal => exact h.1.elim

/-- The text of a section where each lookup is checked; none if one is outside the digits. Behind
the point a place without a digit prints nothing. -/
def integerText? (sym : NumberSymbols) (l : Layout) (f : Filling) :
    ℕ → List Token → Option (List Char)
  | _, [] => some []
  | index, t :: ts =>
    match t with
    | .digit _ => do
      let digits ← integerAt? sym l f.integer index
      let rest ← integerText? sym l f (index + 1) ts
      some (digits ++ rest)
    | .point => some (integerText sym l f index (.point :: ts))
    | t => do
      let rest ← integerText? sym l f index ts
      some (integerText sym l f index [t] ++ rest)

theorem integerText?_of_le (index : ℕ)
    (h : index + (places (ts.takeWhile (· ≠ .point))).length ≤ l.integerPlaces) :
    integerText? sym l f index ts = some (integerText sym l f index ts) := by
  induction ts generalizing index with
  | nil => rfl
  | cons t ts ih =>
    cases t with
    | digit isZero =>
      have hplaces : (places ((.digit isZero :: ts).takeWhile (· ≠ .point))).length =
          (places (ts.takeWhile (· ≠ .point))).length + 1 := rfl
      rw [hplaces] at h
      simp [integerText?, integerText, integerAt?_eq_some (show index < l.integerPlaces by omega),
        ih (index + 1) (by omega)]
    | point => rfl
    | group | percent | perMille | exponent | literal =>
      simp [integerText?, integerText, ih index h]

/-- No section looks up digits outside those of the number. -/
theorem integerText?_eq_some (sym : NumberSymbols) (f : Filling) (ts : List Token) :
    integerText? sym (.of ts) f 0 ts = some (integerText sym (.of ts) f 0 ts) :=
  integerText?_of_le 0 (by rw [Nat.zero_add]; exact le_rfl)

/-- What is kept of tokens behind the point are the digits at their places. -/
theorem filter_fractionText (h : ∀ t ∈ ts, t.IsSilent sym keep) (index : ℕ) :
    (fractionText sym f index ts).filter keep =
      ((f.fraction.drop index).take (places ts).length).filter keep := by
  induction ts generalizing index with
  | nil => simp [fractionText, places]
  | cons t ts ih =>
    rw [List.forall_mem_cons] at h
    cases t with
    | digit isZero =>
      rw [fractionText, List.filter_append, ih h.2, length_places_digit]
      cases hdigit : f.fraction[index]? with
      | none =>
        rw [List.getElem?_eq_none_iff] at hdigit
        rw [List.drop_eq_nil_of_le hdigit, List.drop_eq_nil_of_le (by omega)]
        simp
      | some c =>
        obtain ⟨hlt, rfl⟩ := List.getElem?_eq_some_iff.1 hdigit
        rw [List.drop_eq_getElem_cons hlt, List.take_succ_cons, ← List.singleton_append,
          List.filter_append]
        rfl
    | group => exact ih h.2 index
    | percent | perMille =>
      rw [fractionText, List.filter_append, ih h.2, filter_eq_nil_of_forall h.1]
      rfl
    | point | exponent | literal => exact h.1.elim

/-- The digits of `f` fit the tokens of a section in front of its point and from there on. -/
structure Filling.Fits (f : Filling) (l : Layout) (a b : List Token) : Prop where
  length_places : (places a).length = l.integerPlaces
  integer_eq_nil : l.integerPlaces = 0 → f.integer = []
  isDigit_integer : ∀ c ∈ f.integer, Numeral.isDigit c = true
  isDigit_fraction : ∀ c ∈ f.fraction, Numeral.isDigit c = true
  length_fraction_le : f.fraction.length ≤ (places b).length

/-- What is kept of a row are the integer digits and, behind a point, the fraction digits. -/
theorem filter_integerText_row {rest : List Token} {tail : List Char} (hf : f.Fits l a b)
    (hdigit : ∀ c, Numeral.isDigit c = true → keep c = true) (hpoint : keep '.' = true)
    (hgroup : l.grouping = true → keep ',' = false)
    (ha : ∀ t ∈ a, t.IsSilent .invariant keep)
    (hb : b = [] ∨ ∃ ts, b = .point :: ts ∧ ∀ t ∈ ts, t.IsSilent .invariant keep)
    (hrest : ∀ k, integerText .invariant l f k rest = tail ∧
      fractionText .invariant f k rest = tail) :
    (integerText .invariant l f 0 (a ++ (b ++ rest))).filter keep =
      f.integer ++ (Written.fractionText f.fraction ++ tail.filter keep) := by
  obtain ⟨hplaces, hnone, hinteger, hfraction, hlength⟩ := hf
  have hkept : f.integer.filter keep = f.integer :=
    List.filter_eq_self.2 fun c hc => hdigit c (hinteger c hc)
  have hgrouped : (if l.grouping then NumberSymbols.invariant.grouped f.integer
      else f.integer).filter keep = f.integer := by
    split
    next h =>
      exact NumberSymbols.filter_grouped (List.forall_mem_singleton.2 (hgroup h))
        fun c hc => hdigit c (hinteger c hc)
    next => exact hkept
  have hfront : (integerText .invariant l f 0 a).filter keep = f.integer := by
    rw [filter_integerText ha, hplaces, ← List.range_eq_range', ← List.filter_flatMap]
    by_cases hzero : l.integerPlaces = 0
    · rw [hzero, hnone hzero]
      rfl
    · rw [flatMap_integerAt (Nat.pos_of_ne_zero hzero), hgrouped]
  have hnotMem : .point ∉ a := fun hmem => ha .point hmem
  rw [integerText_append hnotMem, List.filter_append, hfront]
  congr 1
  rcases hb with rfl | ⟨ts, rfl, hts⟩
  · have hnil : f.fraction = [] := List.length_eq_zero_iff.1 (Nat.le_zero.1 hlength)
    rw [List.nil_append, (hrest _).1, hnil]
    rfl
  · have hempty : (if l.integerPlaces = 0 then f.integer else []) = [] := by
      split
      next hzero => exact hnone hzero
      next => rfl
    have hback : (fractionText .invariant f 0 ts).filter keep = f.fraction := by
      rw [filter_fractionText hts, List.drop_zero]
      have hall : (places ts).length = (places (.point :: ts)).length := rfl
      rw [hall, List.take_of_length_le hlength]
      exact List.filter_eq_self.2 fun c hc => hdigit c (hfraction c hc)
    rw [List.cons_append, integerText, hempty, List.nil_append, fractionText_append, (hrest _).2,
      List.filter_append, List.filter_append, hback, ← List.append_assoc]
    congr 1
    unfold Written.fractionText
    cases hnil : f.fraction with
    | nil => rfl
    | cons c cs => simp [NumberSymbols.invariant, hpoint]

end Pattern
end NativeBindings
