import NativeBindings.Format.Pattern
import NativeBindings.Format.Culture
import NativeBindings.Proofs.Number.AbsoluteValue

/-!
# The choice of a section

A pattern has a section for numbers above zero, one for numbers below and one for zero. Each of them
stands for itself: cut again, it is a pattern of one section. A number is written through the
section that its sign chooses as if the section were the whole pattern, without its sign where the
section is meant for numbers below zero. The zero that has a sign goes with the numbers below zero,
unless the pattern has a section for zero.

## Main definitions

- `Pattern.filled?` — the sections behind the first that can be chosen
- `Pattern.chosen?` — the section that a value chooses instead of the first
- `Pattern.IsChosenBySign` — how a number chooses among the sections of a pattern

## Main statements

- `Pattern.sectionsFrom_of_mem` — a section is a pattern of one section
- `Pattern.isChosenBySign_sections` — the sign of a number chooses the section it is written through
-/

namespace NativeBindings
namespace Pattern

variable {cs s pattern : List Char} {sym : NumberSymbols}

/-! ## Sections of sections -/

theorem sectionsFrom_cons_of_cut {state : Quoting} {c : Char} (h : state = .plain ∧ c = ';') :
    sectionsFrom state (c :: cs) =
      ([], (sectionsFrom (state.next c) cs).1 :: (sectionsFrom (state.next c) cs).2) := by
  rw [sectionsFrom]
  exact if_pos h

theorem sectionsFrom_cons_of_not_cut {state : Quoting} {c : Char}
    (h : ¬ (state = .plain ∧ c = ';')) :
    sectionsFrom state (c :: cs) =
      (c :: (sectionsFrom (state.next c) cs).1, (sectionsFrom (state.next c) cs).2) := by
  rw [sectionsFrom]
  exact if_neg h

/-- The first section is not cut again. -/
theorem sectionsFrom_fst (state : Quoting) (cs : List Char) :
    sectionsFrom state (sectionsFrom state cs).1 = ((sectionsFrom state cs).1, []) := by
  induction cs generalizing state with
  | nil => rfl
  | cons c cs ih =>
    by_cases hcut : state = .plain ∧ c = ';'
    · rw [sectionsFrom_cons_of_cut hcut]
      rfl
    · rw [sectionsFrom_cons_of_not_cut hcut]
      dsimp only
      rw [sectionsFrom_cons_of_not_cut hcut, ih]

/-- No other section is cut again: a cut leaves no quote or escape open. -/
theorem sectionsFrom_of_mem {state : Quoting} (h : s ∈ (sectionsFrom state cs).2) :
    sections s = (s, []) := by
  induction cs generalizing state with
  | nil => cases h
  | cons c cs ih =>
    by_cases hcut : state = .plain ∧ c = ';'
    · rw [sectionsFrom_cons_of_cut hcut, List.mem_cons] at h
      obtain ⟨rfl, rfl⟩ := hcut
      rcases h with rfl | hmem
      · exact sectionsFrom_fst .plain cs
      · exact ih hmem
    · rw [sectionsFrom_cons_of_not_cut hcut] at h
      exact ih h

/-! ## Sections that can be chosen -/

/-- The section with an index among those behind the first, unless it is empty. -/
def filled? (others : List (List Char)) (i : ℕ) : Option (List Char) :=
  others[i]?.filter (!·.isEmpty)

theorem sections_of_filled? {i : ℕ} (h : filled? (sections pattern).2 i = some s) :
    sections s = (s, []) := by
  rw [filled?, Option.filter_eq_some_iff] at h
  exact sectionsFrom_of_mem (List.mem_of_getElem? h.1)

/-- The section that is chosen instead of the first: the one for zero comes before the one for values
with a sign. -/
def chosen? (pattern : List Char) (value : Decimal) : Option (List Char) :=
  (if value.isZero then filled? (sections pattern).2 1 else none).or
    (if value.negative then filled? (sections pattern).2 0 else none)

theorem sections_of_chosen? {value : Decimal} (h : chosen? pattern value = some s) :
    sections s = (s, []) := by
  rcases Option.or_eq_some_iff.1 h with hfirst | ⟨-, hsecond⟩
  · exact sections_of_filled? (Option.ite_none_right_eq_some.1 hfirst).2
  · exact sections_of_filled? (Option.ite_none_right_eq_some.1 hsecond).2

/-- The sign is written in front of the first section only. -/
theorem select_eq (pattern : List Char) (value : Decimal) :
    select pattern value =
      (chosen? pattern value).elim ((sections pattern).1, true) fun s => (s, false) := by
  unfold select chosen?
  rcases sections pattern with ⟨first, _ | ⟨negative, _ | ⟨zero, rest⟩⟩⟩
  · simp [filled?]
  · cases value.negative <;> cases negative <;> simp [filled?, Option.filter]
  · cases value.isZero <;> cases value.negative <;> cases negative <;> cases zero <;>
      simp [filled?, Option.filter]

theorem text_of_chosen?_eq_none {n : Number} (h : chosen? pattern n.exact = none)
    (sym : NumberSymbols) :
    text sym n pattern = sectionText sym (sections pattern).1 true n.exact := by
  rw [text, select_eq, h]
  rfl

theorem text_of_chosen? {n : Number} (h : chosen? pattern n.exact = some s) (sym : NumberSymbols) :
    text sym n pattern = sectionText sym s false n.exact := by
  rw [text, select_eq, h]
  rfl

/-! ## Values without their sign -/

theorem abs_normalized (l : Layout) (hasExponent : Bool) (d : Decimal) :
    normalized l hasExponent d.abs =
      ((normalized l hasExponent d).1.abs, (normalized l hasExponent d).2) := by
  unfold normalized
  rw [Decimal.isZero_abs]
  split
  · dsimp only
    rw [← Decimal.abs_roundSignificant, Decimal.abs_shift]
    rfl
  · rfl

/-- A section for numbers below zero writes them without their sign. -/
theorem sectionText_abs (sym : NumberSymbols) (chars : List Char) (value : Decimal) :
    sectionText sym chars true value.abs = sectionText sym chars false value := by
  simp only [sectionText, ← Decimal.abs_shift, abs_normalized, ← Decimal.abs_roundFraction]
  rfl

/-- Zero is written without a sign, whatever section it is written through. -/
theorem sectionText_of_isZero {value : Decimal} (h : value.isZero = true) (sym : NumberSymbols)
    (chars : List Char) (withSign : Bool) :
    sectionText sym chars withSign value = sectionText sym chars false value := by
  have hshift (k : ℤ) : value.shift k = value := if_pos h
  have hnormalized (l : Layout) (hasExponent : Bool) : normalized l hasExponent value = (value, 0) := by
    simp [normalized, h]
  have hround (places : ℕ) : (value.roundFraction places).isZero = true :=
    Decimal.isZero_iff.2 (Decimal.digits_roundDigits_of_eq_nil (Decimal.isZero_iff.1 h) _)
  simp only [sectionText, hshift, hnormalized, hround, Bool.not_true, Bool.and_false]

/-! ## The choice -/

/-- How a number chooses the section that it is written through. -/
structure IsChosenBySign (sym : NumberSymbols) (n : Number) (pattern : List Char) : Prop where
  above_zero : 0 < n.toRat → text sym n pattern = text sym n (sections pattern).1
  below_zero : n.toRat < 0 → text sym n pattern =
    (filled? (sections pattern).2 0).elim (text sym n (sections pattern).1) (text sym n.abs)
  /-- A section for zero is taken before one for numbers below zero. -/
  at_zero : n.toRat = 0 → text sym n pattern =
    ((filled? (sections pattern).2 1).or
      (if n.isNegativeZero then filled? (sections pattern).2 0 else none)).elim
        (text sym n (sections pattern).1) (text sym n)

theorem text_of_sections (h : sections s = (s, [])) (sym : NumberSymbols) (n : Number) :
    text sym n s = sectionText sym s true n.exact := by
  have hselect : select s n.exact = (s, true) := by
    rw [select, h]
  rw [text, hselect]

theorem text_first (sym : NumberSymbols) (n : Number) (pattern : List Char) :
    text sym n (sections pattern).1 = sectionText sym (sections pattern).1 true n.exact :=
  text_of_sections (sectionsFrom_fst .plain pattern) sym n

/-- What is written through a section as a whole pattern is written through the pattern where the
section is chosen. -/
theorem text_eq_elim {n : Number} {whole : List Char → List Char}
    (h : ∀ s, sections s = (s, []) → sectionText sym s false n.exact = whole s) :
    text sym n pattern =
      (chosen? pattern n.exact).elim (text sym n (sections pattern).1) whole := by
  cases hchosen : chosen? pattern n.exact with
  | none => rw [text_of_chosen?_eq_none hchosen, Option.elim_none, text_first]
  | some s => rw [text_of_chosen? hchosen, Option.elim_some, h s (sections_of_chosen? hchosen)]

/-- The sign of a number chooses the section that it is written through. -/
theorem isChosenBySign_sections (sym : NumberSymbols) (n : Number) (pattern : List Char) :
    IsChosenBySign sym n pattern where
  above_zero := by
    intro hpos
    have hzero : n.exact.isZero = false :=
      Bool.eq_false_iff.2 fun h => hpos.ne' (Number.isZero_exact_iff.1 h)
    have hnegative : n.exact.negative = false := by
      refine Bool.eq_false_iff.2 fun h => ?_
      rcases Number.negative_exact_iff.1 h with hlt | hnegativeZero
      · exact lt_asymm hpos hlt
      · exact hpos.ne' (Number.toRat_of_isNegativeZero hnegativeZero)
    have hnone : chosen? pattern n.exact = none := by
      rw [chosen?, hzero, hnegative]
      rfl
    rw [text_of_chosen?_eq_none hnone, text_first]
  below_zero := by
    intro hneg
    have hzero : n.exact.isZero = false :=
      Bool.eq_false_iff.2 fun h => hneg.ne (Number.isZero_exact_iff.1 h)
    have hchosen : chosen? pattern n.exact = filled? (sections pattern).2 0 := by
      rw [chosen?, hzero, if_pos (Number.negative_exact_iff.2 (.inl hneg))]
      rfl
    rw [← hchosen]
    apply text_eq_elim
    intro s hs
    rw [text_of_sections hs, Number.exact_abs, sectionText_abs]
  at_zero := by
    intro hzero
    have hisZero : n.exact.isZero = true := Number.isZero_exact_iff.2 hzero
    have hnegative : n.exact.negative = n.isNegativeZero := by
      rw [Bool.eq_iff_iff, Number.negative_exact_iff, or_iff_right hzero.not_lt]
    have hchosen : chosen? pattern n.exact = (filled? (sections pattern).2 1).or
        (if n.isNegativeZero then filled? (sections pattern).2 0 else none) := by
      rw [chosen?, if_pos hisZero, hnegative]
    rw [← hchosen]
    apply text_eq_elim
    intro s hs
    rw [text_of_sections hs, sectionText_of_isZero hisZero sym s true]

/-- The zero that has a sign is written through the section for numbers below zero, although it is
not below zero. -/
theorem text_negativeZero :
    Binary64.decode ⟨0x8000000000000000⟩ = .finite true 0 (-1074) ∧
      (Number.binary true 0 (-1074)).toRat = 0 ∧
      sections "0;(0)".toList = (['0'], [['(', '0', ')']]) ∧
      text .invariant (.binary true 0 (-1074)) "0;(0)".toList = ['(', '0', ')'] ∧
      text .invariant (.binary true 0 (-1074)) ['0'] = ['0'] :=
  ⟨by decide +kernel, by simp [Number.toRat], by decide +kernel, by decide +kernel,
    by decide +kernel⟩

end Pattern
end NativeBindings
