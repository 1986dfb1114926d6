import Mathlib.Data.List.Basic
import NativeBindings.Text.Segment

/-!
# Joined texts

Texts that were cut at a separator make up the whole again when they are joined. A qualifier is made
of names that each have a point behind them.

## Main definitions

- `qualifier` — the text in front of a name in a namespace

## Main statements

- `joined_eq_take` — what stands behind the first of some joined texts
- `joined_segments` — the parts of a text, joined
- `joined_concat_eq`, `joined_cons_append` — what stands in front of joined texts
-/

namespace NativeBindings

theorem joined_cons_of_ne_nil (sep s : String) {ss : List String} (h : ss ≠ []) :
    joined sep (s :: ss) = s ++ sep ++ joined sep ss := by
  cases ss with
  | nil => exact absurd rfl h
  | cons t ss => rfl

theorem joined_append (sep : String) {ss ts : List String} (hs : ss ≠ []) (ht : ts ≠ []) :
    joined sep (ss ++ ts) = joined sep ss ++ sep ++ joined sep ts := by
  induction ss with
  | nil => exact absurd rfl hs
  | cons s ss ih =>
    by_cases hss : ss = []
    · subst hss
      exact joined_cons_of_ne_nil sep s ht
    · have hne : ss ++ ts ≠ [] := List.append_ne_nil_of_left_ne_nil hss ts
      rw [List.cons_append, joined_cons_of_ne_nil sep s hne, ih hss,
        joined_cons_of_ne_nil sep s hss]
      simp only [String.append_assoc]

/-- The first of some joined texts end in front of a separator or at the end. -/
theorem joined_eq_take (sep : String) {ss : List String} {n : Nat} (hpos : 0 < n)
    (hle : n ≤ ss.length) :
    joined sep ss = joined sep (ss.take n) ∨
      ∃ rest, joined sep ss = joined sep (ss.take n) ++ sep ++ rest := by
  by_cases hlast : ss.length = n
  · left
    rw [List.take_of_length_le (Nat.le_of_eq hlast)]
  · right
    have htake : ss.take n ≠ [] := List.ne_nil_of_length_pos (by rw [List.length_take]; omega)
    have hdrop : ss.drop n ≠ [] := List.ne_nil_of_length_pos (by rw [List.length_drop]; omega)
    refine ⟨joined sep (ss.drop n), ?_⟩
    rw [← joined_append sep htake hdrop, List.take_append_drop]

theorem toList_joined {sep : String} {c : Char} (hsep : sep.toList = [c]) (ss : List String) :
    (joined sep ss).toList = joinSegments c (ss.map (·.toList)) := by
  induction ss with
  | nil => rfl
  | cons s ss ih =>
    cases ss with
    | nil => rfl
    | cons t ss =>
      rw [joined, String.toList_append, String.toList_append, hsep, ih, List.append_assoc]
      · rfl
      · exact List.cons_ne_nil t ss

/-- The parts of a text, joined, are the text. -/
theorem joined_segments {sep : String} {c : Char} (hsep : sep.toList = [c]) (s : List Char) :
    joined sep ((segments c s).map .ofList) = .ofList s := by
  rw [← String.toList_inj, toList_joined hsep, List.map_map, String.toList_ofList]
  have hmap : (segments c s).map ((·.toList) ∘ String.ofList) = segments c s := by
    simp only [Function.comp_def, String.toList_ofList, List.map_id']
  rw [hmap, joinSegments_segments]

/-- Names with a point behind each. -/
def qualifier (names : List String) : String := if names = [] then "" else joined "." names ++ "."

theorem joined_concat_eq (names : List String) (name : String) :
    joined "." (names ++ [name]) = qualifier names ++ name := by
  unfold qualifier
  split
  next h =>
    subst h
    simp [joined]
  next h => exact joined_append "." h (List.cons_ne_nil name [])

theorem qualifier_segments (s : List Char) :
    qualifier ((segments '.' s).map .ofList) = .ofList s ++ "." := by
  rw [qualifier, if_neg (by simpa using segments_ne_nil '.' s), joined_segments (c := '.') rfl]

/-- What stands in front of the first text stands in front of them all. -/
theorem joined_cons_append (sep front s : String) (ss : List String) :
    joined sep ((front ++ s) :: ss) = front ++ joined sep (s :: ss) := by
  cases ss with
  | nil => rfl
  | cons t ss => simp only [joined, String.append_assoc]

/-- Texts with different starts of one length are different. -/
theorem append_ne_append_of_length_eq {p q : String} (hlength : p.length = q.length) (hne : p ≠ q)
    (s t : String) : p ++ s ≠ q ++ t := by
  intro h
  rw [← String.toList_inj, String.toList_append, String.toList_append] at h
  refine hne (String.toList_inj.1 (List.append_inj_left h ?_))
  rw [String.length_toList, String.length_toList, hlength]

/-! ## Cut texts -/

theorem append_of_cut? {c : Char} {s before behind : List Char}
    (h : cut? c s = some (before, behind)) : s = before ++ c :: behind := by
  induction s generalizing before with
  | nil => cases h
  | cons d s ih =>
    rw [cut?] at h
    split at h
    next hd =>
      cases h
      rw [hd, List.nil_append]
    next =>
      obtain ⟨⟨before', behind'⟩, hcut, heq⟩ := Option.map_eq_some_iff.1 h
      cases heq
      rw [ih hcut, List.cons_append]

theorem append_of_cutLast? {c : Char} {s before behind : List Char}
    (h : cutLast? c s = some (before, behind)) : s = before ++ c :: behind := by
  obtain ⟨⟨behind', before'⟩, hcut, heq⟩ := Option.map_eq_some_iff.1 h
  cases heq
  rw [← List.reverse_reverse s, append_of_cut? hcut]
  simp

end NativeBindings
