import NativeBindings.Proofs.Number.Numeral
import NativeBindings.Version

/-!
# Spellings of versions

A version is read from three parts with points between them. Each part is a numeral, which may have
zeros or a plus sign in front, of a number that has at most 32 bits. Every other text is refused. The
written form of a version is one of its spellings.

## Main definitions

- `Numeral.Spells` — a numeral of a number, perhaps with a plus sign
- `Version.HasParts` — three numerals between points

## Main statements

- `Version.readPart?_eq_some_iff` — the numbers of parts
- `Version.reads_read` — what is read, and that written versions are read back
-/

namespace NativeBindings

open Numeral (isDigit digitValue)

/-- The text is at least one digit, perhaps behind a plus sign, and the digits stand for the number
in base ten. -/
def Numeral.Spells (s : List Char) (n : Nat) : Prop :=
  ∃ ds, (s = ds ∨ s = '+' :: ds) ∧ ds ≠ [] ∧ (∀ c ∈ ds, isDigit c = true) ∧
    Nat.ofDigits 10 (ds.reverse.map digitValue) = n

namespace Version

/-- The text has exactly three parts between points, which are numerals of the numbers. -/
def HasParts (s : List Char) (major minor patch : Nat) : Prop :=
  ∃ a b c, segments '.' s = [a, b, c] ∧
    Numeral.Spells a major ∧ Numeral.Spells b minor ∧ Numeral.Spells c patch

variable {s ds : List Char} {n : UInt32} {v : Version}

/-! ## Parts -/

theorem ofDigits_eq_read (ds : List Char) :
    Nat.ofDigits 10 (ds.reverse.map digitValue) = Numeral.read ds := by
  rw [Numeral.read, Numeral.value_eq_ofDigits, List.map_reverse]

/-- Only a first plus sign is a sign. -/
theorem readPart?_eq (h : s = ds ∧ ds.head? ≠ some '+' ∨ s = '+' :: ds) :
    readPart? s = if ds.isEmpty || !ds.all isDigit then none
      else if Numeral.read ds < UInt32.size then some (UInt32.ofNat (Numeral.read ds)) else none := by
  rcases h with ⟨rfl, hhead⟩ | rfl
  · rw [readPart?]
    rintro ds rfl
    exact hhead rfl
  · rfl

theorem exists_digits (s : List Char) :
    ∃ ds, s = ds ∧ ds.head? ≠ some '+' ∨ s = '+' :: ds := by
  by_cases hsign : s.head? = some '+'
  · obtain ⟨ds, rfl⟩ := List.head?_eq_some_iff.1 hsign
    exact ⟨ds, .inr rfl⟩
  · exact ⟨s, .inl ⟨rfl, hsign⟩⟩

theorem readPart?_eq_some_iff : readPart? s = some n ↔ Numeral.Spells s n.toNat := by
  constructor
  · intro h
    obtain ⟨ds, hs⟩ := exists_digits s
    rw [readPart?_eq hs] at h
    split at h
    next => cases h
    next hdigits =>
      simp only [Bool.or_eq_true, not_or, List.isEmpty_iff, Bool.not_eq_true', Bool.not_eq_false,
        List.all_eq_true] at hdigits
      split at h
      next hlt =>
        cases h
        refine ⟨ds, hs.imp_left And.left, hdigits.1, hdigits.2, ?_⟩
        rw [ofDigits_eq_read, UInt32.toNat_ofNat_of_lt' hlt]
      next => cases h
  · rintro ⟨ds, hs, hne, hdigits, hvalue⟩
    rw [ofDigits_eq_read] at hvalue
    have hhead : ds.head? ≠ some '+' := by
      intro hhead
      exact absurd (hdigits '+' (List.mem_of_head? hhead)) (by decide)
    have hall : (ds.isEmpty || !ds.all isDigit) = false := by
      simpa [hne] using hdigits
    rw [readPart?_eq (hs.imp_left fun hs => ⟨hs, hhead⟩), hall, if_neg Bool.false_ne_true, hvalue,
      if_pos n.toNat_lt, UInt32.ofNat_toNat]

/-! ## Versions -/

theorem read?_eq_some_iff :
    read? s = some v ↔ HasParts s v.major.toNat v.minor.toNat v.patch.toNat := by
  constructor
  · intro h
    rw [read?] at h
    split at h
    next a b c hparts =>
      obtain ⟨major, ha, h⟩ := Option.bind_eq_some_iff.1 h
      obtain ⟨minor, hb, h⟩ := Option.bind_eq_some_iff.1 h
      obtain ⟨patch, hc, h⟩ := Option.bind_eq_some_iff.1 h
      cases h
      exact ⟨a, b, c, hparts, readPart?_eq_some_iff.1 ha, readPart?_eq_some_iff.1 hb,
        readPart?_eq_some_iff.1 hc⟩
    next => cases h
  · rintro ⟨a, b, c, hparts, ha, hb, hc⟩
    rw [read?, hparts]
    simp only [readPart?_eq_some_iff.2 ha, readPart?_eq_some_iff.2 hb, readPart?_eq_some_iff.2 hc]
    rfl

theorem read_eq_ok_iff {s : String} :
    read s = .ok v ↔ HasParts s.toList v.major.toNat v.minor.toNat v.patch.toNat := by
  rw [← read?_eq_some_iff, read]
  cases read? s.toList <;> simp

theorem read_eq_error_iff {s : String} : read s = .error ⟨s⟩ ↔ ¬ ∃ v, read s = .ok v := by
  rw [read]
  cases read? s.toList <;> simp

/-- A text is read if its numbers have at most 32 bits. -/
theorem exists_read_eq_ok_iff {s : String} :
    (∃ v, read s = .ok v) ↔ ∃ major minor patch, HasParts s.toList major minor patch ∧
      major < 2 ^ 32 ∧ minor < 2 ^ 32 ∧ patch < 2 ^ 32 := by
  constructor
  · rintro ⟨v, hv⟩
    exact ⟨_, _, _, read_eq_ok_iff.1 hv, v.major.toNat_lt, v.minor.toNat_lt, v.patch.toNat_lt⟩
  · rintro ⟨major, minor, patch, hparts, hmajor, hminor, hpatch⟩
    refine ⟨⟨.ofNat major, .ofNat minor, .ofNat patch⟩, read_eq_ok_iff.2 ?_⟩
    rwa [UInt32.toNat_ofNat_of_lt' hmajor, UInt32.toNat_ofNat_of_lt' hminor,
      UInt32.toNat_ofNat_of_lt' hpatch]

/-! ## Written versions -/

theorem spells_decimal (n : Nat) : Numeral.Spells (Numeral.decimal n) n :=
  ⟨_, .inl rfl, Numeral.decimal_ne_nil n, Numeral.isDigit_decimal n, by
    rw [ofDigits_eq_read, Numeral.read_decimal]⟩

theorem point_notMem_decimal (n : Nat) : '.' ∉ Numeral.decimal n := fun h =>
  absurd (Numeral.isDigit_decimal n '.' h) (by decide)

theorem hasParts_display (v : Version) :
    HasParts v.display.toList v.major.toNat v.minor.toNat v.patch.toNat := by
  refine ⟨_, _, _, ?_, spells_decimal _, spells_decimal _, spells_decimal _⟩
  rw [display, String.toList_ofList]
  exact segments_joinSegments (List.cons_ne_nil _ _) (by simp [point_notMem_decimal])

/-- Written versions are read back. A text is read if it has three parts between points, each of them
digits of a number of at most 32 bits and perhaps a plus sign in front, and the version has these
numbers; every other text is refused by its own name. -/
theorem reads_read :
    (∀ v : Version, read v.display = .ok v) ∧
      ∀ s : String,
        (∀ v, read s = .ok v ↔ HasParts s.toList v.major.toNat v.minor.toNat v.patch.toNat) ∧
        ((∃ v, read s = .ok v) ↔ ∃ major minor patch, HasParts s.toList major minor patch ∧
          major < 2 ^ 32 ∧ minor < 2 ^ 32 ∧ patch < 2 ^ 32) ∧
        (read s = .error ⟨s⟩ ↔ ¬ ∃ v, read s = .ok v) :=
  ⟨fun v => read_eq_ok_iff.2 (hasParts_display v), fun _ =>
    ⟨fun _ => read_eq_ok_iff, exists_read_eq_ok_iff, read_eq_error_iff⟩⟩

example : (read "+1.02.4294967295").toOption = some ⟨1, 2, 4294967295⟩ := by decide +kernel

end Version
end NativeBindings
