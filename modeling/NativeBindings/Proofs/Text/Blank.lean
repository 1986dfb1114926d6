import Mathlib.Data.List.DropRight
import NativeBindings.CSharp.Identifier
import NativeBindings.Text.Blank

/-!
# White space at the ends of texts

## Main statements

- `exists_append_trimBlank` — a text is its inside with white space at its ends
- `trimBlank_append_append` — more white space at the ends does not matter
- `trimBlank_eq_self` — a text without white space at its ends
-/

namespace NativeBindings

variable {s before after : List Char} {c : Char}

/-- All characters are white space. -/
def IsBlank (s : List Char) : Prop := ∀ c ∈ s, isBlank c = true

theorem trimBlank_eq (s : List Char) :
    trimBlank s = (s.dropWhile isBlank).rdropWhile isBlank := rfl

theorem dropWhile_eq_nil (h : IsBlank s) : s.dropWhile isBlank = [] :=
  List.dropWhile_eq_nil_iff.2 h

theorem rdropWhile_append (h : IsBlank after) (s : List Char) :
    (s ++ after).rdropWhile isBlank = s.rdropWhile isBlank := by
  unfold List.rdropWhile
  rw [List.reverse_append, List.dropWhile_append_of_pos]
  exact fun c hc => h c (List.mem_reverse.1 hc)

theorem trimBlank_append_append (hbefore : IsBlank before) (hafter : IsBlank after)
    (s : List Char) : trimBlank (before ++ s ++ after) = trimBlank s := by
  rw [trimBlank_eq, trimBlank_eq, List.append_assoc, List.dropWhile_append_of_pos hbefore,
    List.dropWhile_append]
  split
  next h =>
    rw [dropWhile_eq_nil hafter, List.isEmpty_iff.1 h]
  next => exact rdropWhile_append hafter _

theorem exists_append_trimBlank (s : List Char) :
    ∃ before after, IsBlank before ∧ IsBlank after ∧ s = before ++ trimBlank s ++ after := by
  refine ⟨s.takeWhile isBlank, ((s.dropWhile isBlank).reverse.takeWhile isBlank).reverse,
    fun c hc => List.mem_takeWhile_imp hc, fun c hc => ?_, ?_⟩
  · exact List.mem_takeWhile_imp (List.mem_reverse.1 hc)
  · rw [trimBlank, List.append_assoc, ← List.reverse_append, List.takeWhile_append_dropWhile,
      List.reverse_reverse, List.takeWhile_append_dropWhile]

theorem trimBlank_eq_self (hhead : ∀ c ∈ s.head?, isBlank c = false)
    (hlast : ∀ c ∈ s.getLast?, isBlank c = false) : trimBlank s = s := by
  have hdrop : s.dropWhile isBlank = s := by
    cases s with
    | nil => rfl
    | cons c s => exact List.dropWhile_cons_of_neg (by simp [hhead c rfl])
  rw [trimBlank_eq, hdrop]
  cases s using List.reverseRecOn with
  | nil => rfl
  | append_singleton s c =>
    exact List.rdropWhile_concat_neg _ _ _ (by simp [hlast c (by simp)])

/-- What stands in front of a character at the end keeps the white space at its own end. -/
theorem trimBlank_concat (h : isBlank c = false) (s : List Char) :
    trimBlank (s ++ [c]) = s.dropWhile isBlank ++ [c] := by
  have hc : ¬ isBlank c = true := by simp [h]
  rw [trimBlank_eq, List.dropWhile_append]
  split
  next hs =>
    rw [List.isEmpty_iff.1 hs, List.dropWhile_cons_of_neg hc]
    exact List.rdropWhile_concat_neg isBlank [] c hc
  next => exact List.rdropWhile_concat_neg isBlank _ c hc

theorem trimBlank_dropWhile (s : List Char) : trimBlank (s.dropWhile isBlank) = trimBlank s := by
  rw [trimBlank_eq, trimBlank_eq, List.dropWhile_idempotent]

/-- No name holds white space. -/
theorem isPart_eq_false_of_isBlank (h : isBlank c = true) : Identifier.isPart c = false := by
  have hblanks : ∀ n ∈ (List.range' 9 5 ++ [0x20, 0x85, 0xa0, 0x1680] ++ List.range' 0x2000 11 ++
      [0x2028, 0x2029, 0x202f, 0x205f, 0x3000]), Identifier.isPart (Char.ofNat n) = false := by
    decide +kernel
  rw [← Char.ofNat_toNat c]
  refine hblanks c.toNat ?_
  simp only [isBlank, Bool.or_eq_true, Bool.and_eq_true, decide_eq_true_eq, beq_iff_eq] at h
  simp only [List.mem_append, List.mem_range'_1, List.mem_cons, List.not_mem_nil, or_false]
  omega

end NativeBindings
