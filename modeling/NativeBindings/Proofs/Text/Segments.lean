import NativeBindings.Proofs.Text.Joined

/-!
# Parts of texts

Where separators stand in the parts of a text, and what becomes of parts that are cut once more.

## Main statements

- `segments_append_cons_append` — the parts of two texts with a separator between them
- `flatMap_segments_comm` — the order in which a text is cut at two separators does not matter
- `notMem_of_cut?`, `notMem_of_cutLast?` — a cut stands at the first or at the last separator
- `lastPart_append_cons`, `exists_append_lastPart` — what stands behind the last separator
-/

namespace NativeBindings

/-! ## Parts -/

theorem segments_cons (sep c : Char) (s : List Char) :
    segments sep (c :: s) =
      if c = sep then [] :: segments sep s else (segments sep s).modifyHead (c :: ·) := by
  rw [segments]
  split
  · rfl
  · cases h : segments sep s with
    | nil => exact absurd h (segments_ne_nil sep s)
    | cons part parts => rfl

/-- The parts of two texts with a separator between them are those of both. -/
theorem segments_append_cons_append (sep : Char) (s t : List Char) :
    segments sep (s ++ sep :: t) = segments sep s ++ segments sep t := by
  induction s with
  | nil => exact segments_append_cons List.not_mem_nil t
  | cons c s ih =>
    rw [List.cons_append, segments_cons, segments_cons, ih]
    split
    · rfl
    · cases h : segments sep s with
      | nil => exact absurd h (segments_ne_nil sep s)
      | cons part parts => rfl

/-- The parts of joined texts are the parts of all of them. -/
theorem segments_joinSegments_of_ne_nil {sep : Char} {parts : List (List Char)} (h : parts ≠ []) :
    segments sep (joinSegments sep parts) = parts.flatMap (segments sep) := by
  induction parts with
  | nil => exact absurd rfl h
  | cons part parts ih =>
    cases parts with
    | nil => exact (List.append_nil _).symm
    | cons next parts =>
      rw [joinSegments_cons_cons, segments_append_cons_append, ih (List.cons_ne_nil _ _)]
      rfl

/-- A character at the start of a text that is cut at two separators. -/
theorem flatMap_segments_cons (p q c : Char) (s : List Char) :
    (segments p (c :: s)).flatMap (segments q) =
      if c = p ∨ c = q then [] :: (segments p s).flatMap (segments q)
      else ((segments p s).flatMap (segments q)).modifyHead (c :: ·) := by
  rw [segments_cons]
  by_cases hp : c = p
  · rw [if_pos hp, if_pos (.inl hp)]
    rfl
  · rw [if_neg hp]
    cases h : segments p s with
    | nil => exact absurd h (segments_ne_nil p s)
    | cons part parts =>
      rw [List.modifyHead_cons, List.flatMap_cons, List.flatMap_cons, segments_cons]
      by_cases hq : c = q
      · rw [if_pos hq, if_pos (.inr hq)]
        rfl
      · rw [if_neg hq, if_neg (not_or.2 ⟨hp, hq⟩)]
        cases hpart : segments q part with
        | nil => exact absurd hpart (segments_ne_nil q part)
        | cons first rest => rfl

theorem flatMap_segments_comm (p q : Char) (s : List Char) :
    (segments p s).flatMap (segments q) = (segments q s).flatMap (segments p) := by
  induction s with
  | nil => rfl
  | cons c s ih =>
    rw [flatMap_segments_cons, flatMap_segments_cons, ih]
    exact if_congr or_comm rfl rfl

theorem joinSegments_concat_append (sep : Char) (parts : List (List Char)) (last t : List Char) :
    joinSegments sep (parts ++ [last ++ t]) = joinSegments sep (parts ++ [last]) ++ t := by
  induction parts with
  | nil => rfl
  | cons part parts ih =>
    cases parts with
    | nil => exact (List.append_assoc part (sep :: last) t).symm
    | cons next parts =>
      rw [List.cons_append, List.cons_append, joinSegments_cons_cons, ← List.cons_append, ih]
      exact (List.append_assoc part (sep :: _) t).symm

/-- A text without separators goes on with the last part of another. -/
theorem segments_append_of_notMem {sep : Char} {s t last : List Char} {parts : List (List Char)}
    (h : segments sep s = parts ++ [last]) (ht : sep ∉ t) :
    segments sep (s ++ t) = parts ++ [last ++ t] := by
  have hparts : ∀ part ∈ parts ++ [last], sep ∉ part := fun part hpart =>
    not_mem_of_mem_segments (h ▸ hpart)
  rw [List.forall_mem_append, List.forall_mem_singleton] at hparts
  rw [← joinSegments_segments sep s, h, ← joinSegments_concat_append,
    segments_joinSegments (by simp)]
  rw [List.forall_mem_append, List.forall_mem_singleton, List.mem_append, not_or]
  exact ⟨hparts.1, hparts.2, ht⟩

theorem mem_joinSegments_of_mem {sep c : Char} {part : List Char} {parts : List (List Char)}
    (h : part ∈ parts) (hc : c ∈ part) : c ∈ joinSegments sep parts := by
  induction parts with
  | nil => cases h
  | cons first parts ih =>
    cases parts with
    | nil => exact List.mem_singleton.1 h ▸ hc
    | cons next parts =>
      rw [joinSegments_cons_cons, List.mem_append, List.mem_cons]
      rcases List.mem_cons.1 h with rfl | h
      · exact .inl hc
      · exact .inr (.inr (ih h))

/-! ## Cut texts -/

theorem notMem_of_cut? {c : Char} {s before behind : List Char}
    (h : cut? c s = some (before, behind)) : c ∉ before := by
  induction s generalizing before with
  | nil => cases h
  | cons d s ih =>
    rw [cut?] at h
    split at h
    next =>
      cases h
      exact List.not_mem_nil
    next hd =>
      obtain ⟨⟨before', behind'⟩, hcut, heq⟩ := Option.map_eq_some_iff.1 h
      cases heq
      rw [List.mem_cons, not_or]
      exact ⟨Ne.symm hd, ih hcut⟩

theorem notMem_of_cut?_eq_none {c : Char} {s : List Char} (h : cut? c s = none) : c ∉ s := by
  induction s with
  | nil => exact List.not_mem_nil
  | cons d s ih =>
    rw [cut?] at h
    split at h
    next => cases h
    next hd =>
      rw [List.mem_cons, not_or]
      exact ⟨Ne.symm hd, ih (Option.map_eq_none_iff.1 h)⟩

theorem notMem_of_cutLast? {c : Char} {s before behind : List Char}
    (h : cutLast? c s = some (before, behind)) : c ∉ behind := by
  obtain ⟨⟨behind', before'⟩, hcut, heq⟩ := Option.map_eq_some_iff.1 h
  cases heq
  rw [List.mem_reverse]
  exact notMem_of_cut? hcut

theorem notMem_of_cutLast?_eq_none {c : Char} {s : List Char} (h : cutLast? c s = none) : c ∉ s := by
  rw [← List.mem_reverse]
  exact notMem_of_cut?_eq_none (Option.map_eq_none_iff.1 h)

theorem cut?_append_cons {sep : Char} {s : List Char} (h : sep ∉ s) (t : List Char) :
    cut? sep (s ++ sep :: t) = some (s, t) := by
  induction s with
  | nil => rw [List.nil_append, cut?, if_pos rfl]
  | cons c s ih =>
    rw [List.mem_cons, not_or] at h
    rw [List.cons_append, cut?, if_neg (Ne.symm h.1), ih h.2, Option.map_some]

/-! ## Last parts -/

/-- What stands behind the last separator. -/
def lastPart (sep : Char) (s : List Char) : List Char := (cutLast? sep s).elim s Prod.snd

theorem lastPart_append_cons {sep : Char} {t : List Char} (h : sep ∉ t) (s : List Char) :
    lastPart sep (s ++ sep :: t) = t := by
  have hreverse : (s ++ sep :: t).reverse = t.reverse ++ sep :: s.reverse := by simp
  rw [lastPart, cutLast?, hreverse, cut?_append_cons (mt List.mem_reverse.1 h), Option.map_some,
    Option.elim_some]
  exact List.reverse_reverse t

theorem lastPart_of_notMem {sep : Char} {s : List Char} (h : sep ∉ s) : lastPart sep s = s := by
  unfold lastPart
  cases hcut : cutLast? sep s with
  | none => rfl
  | some parts =>
    rw [append_of_cutLast? hcut] at h
    exact absurd (List.mem_append_right _ List.mem_cons_self) h

theorem notMem_lastPart (sep : Char) (s : List Char) : sep ∉ lastPart sep s := by
  unfold lastPart
  cases hcut : cutLast? sep s with
  | none => exact notMem_of_cutLast?_eq_none hcut
  | some parts => exact notMem_of_cutLast? hcut

theorem exists_append_lastPart {sep : Char} {s : List Char} (h : sep ∈ s) :
    ∃ front, s = front ++ sep :: lastPart sep s := by
  unfold lastPart
  cases hcut : cutLast? sep s with
  | none => exact absurd h (notMem_of_cutLast?_eq_none hcut)
  | some parts => exact ⟨parts.1, append_of_cutLast? hcut⟩

end NativeBindings
