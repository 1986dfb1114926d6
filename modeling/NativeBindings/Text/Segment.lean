/-!
# Parts of a text

Cutting a text at a separator, joining texts, and searching for a text in another.

## Main definitions

- `segments` — the parts between separators
- `joined` — texts with a separator between them
- `occurrence?` — where a text first occurs in another
- `without` — a text with every occurrence of another left out
-/

namespace NativeBindings

/-- The parts of `s` between separators; there is always at least one. -/
def segments (sep : Char) : List Char → List (List Char)
  | [] => [[]]
  | c :: cs =>
    if c = sep then [] :: segments sep cs
    else match segments sep cs with
      | [] => [[c]]
      | part :: parts => (c :: part) :: parts

/-- The parts with a separator between them. -/
def joinSegments (sep : Char) : List (List Char) → List Char
  | [] => []
  | [part] => part
  | part :: parts => part ++ sep :: joinSegments sep parts

/-- The texts with a separator between them. -/
def joined (sep : String) : List String → String
  | [] => ""
  | [s] => s
  | s :: ss => s ++ sep ++ joined sep ss

/-- What stands before and behind the first separator. -/
def cut? (sep : Char) : List Char → Option (List Char × List Char)
  | [] => none
  | c :: cs =>
    if c = sep then some ([], cs)
    else (cut? sep cs).map fun (before, behind) => (c :: before, behind)

/-- What stands before and behind the last separator. -/
def cutLast? (sep : Char) (s : List Char) : Option (List Char × List Char) :=
  (cut? sep s.reverse).map fun (behind, before) => (before.reverse, behind.reverse)

/-- What follows the given start of `s`. -/
def dropStart? : List Char → List Char → Option (List Char)
  | [], s => some s
  | _ :: _, [] => none
  | p :: ps, c :: cs => if p = c then dropStart? ps cs else none

/-- What stands in front of the given end of `s`. -/
def dropEnd? (tail s : List Char) : Option (List Char) :=
  (dropStart? tail.reverse s.reverse).map List.reverse

/-- The number of characters in front of the first occurrence of `pattern`. -/
def occurrence? (pattern : List Char) : List Char → Option Nat
  | [] => if pattern.isEmpty then some 0 else none
  | c :: cs =>
    if pattern.isPrefixOf (c :: cs) then some 0 else (occurrence? pattern cs).map (· + 1)

/-- Leaves out `skip` characters, then every occurrence of `pattern` from left to right. -/
def withoutFrom (pattern : List Char) : Nat → List Char → List Char
  | _, [] => []
  | skip + 1, _ :: cs => withoutFrom pattern skip cs
  | 0, c :: cs =>
    if pattern.isPrefixOf (c :: cs) then withoutFrom pattern (pattern.length - 1) cs
    else c :: withoutFrom pattern 0 cs

/-- `s` with every occurrence of a non-empty pattern left out. -/
def without (pattern s : List Char) : List Char := withoutFrom pattern 0 s

theorem segments_ne_nil (sep : Char) (s : List Char) : segments sep s ≠ [] := by
  cases s with
  | nil => simp [segments]
  | cons c cs =>
    rw [segments]
    split
    · simp
    · split <;> simp

theorem joinSegments_cons_cons (sep : Char) (part next : List Char) (parts : List (List Char)) :
    joinSegments sep (part :: next :: parts) = part ++ sep :: joinSegments sep (next :: parts) :=
  rfl

/-- The parts with the separators put back are the text. -/
theorem joinSegments_segments (sep : Char) (s : List Char) :
    joinSegments sep (segments sep s) = s := by
  induction s with
  | nil => rfl
  | cons c cs ih =>
    rw [segments]
    split
    next h =>
      subst h
      cases hs : segments c cs with
      | nil => exact absurd hs (segments_ne_nil c cs)
      | cons part parts =>
        rw [joinSegments, ← hs, ih]
        · simp
        · nofun
    next =>
      cases hs : segments sep cs with
      | nil => exact absurd hs (segments_ne_nil sep cs)
      | cons part parts =>
        rw [hs] at ih
        cases parts with
        | nil => simpa [joinSegments] using ih
        | cons next parts => simpa [joinSegments] using ih

/-- No part holds a separator. -/
theorem not_mem_of_mem_segments {sep : Char} {s part : List Char} (h : part ∈ segments sep s) :
    sep ∉ part := by
  induction s generalizing part with
  | nil => simp_all [segments]
  | cons c cs ih =>
    rw [segments] at h
    split at h
    next =>
      rcases List.mem_cons.1 h with rfl | h
      · simp
      · exact ih h
    next hc =>
      cases hs : segments sep cs with
      | nil => exact absurd hs (segments_ne_nil sep cs)
      | cons first parts =>
        rw [hs] at h ih
        rcases List.mem_cons.1 h with rfl | h
        · have := ih List.mem_cons_self
          simp only [List.mem_cons, not_or]
          exact ⟨fun e => hc e.symm, this⟩
        · exact ih (List.mem_cons_of_mem _ h)

theorem segments_append_cons {sep : Char} {part : List Char} (h : sep ∉ part) (s : List Char) :
    segments sep (part ++ sep :: s) = part :: segments sep s := by
  induction part with
  | nil => simp [segments]
  | cons c cs ih =>
    rw [List.mem_cons, not_or] at h
    rw [List.cons_append, segments, if_neg (Ne.symm h.1), ih h.2]

theorem segments_of_notMem {sep : Char} {part : List Char} (h : sep ∉ part) :
    segments sep part = [part] := by
  induction part with
  | nil => rfl
  | cons c cs ih =>
    rw [List.mem_cons, not_or] at h
    rw [segments, if_neg (Ne.symm h.1), ih h.2]

/-- The parts of joined texts are those texts. -/
theorem segments_joinSegments {sep : Char} {parts : List (List Char)} (hparts : parts ≠ [])
    (h : ∀ part ∈ parts, sep ∉ part) : segments sep (joinSegments sep parts) = parts := by
  induction parts with
  | nil => exact absurd rfl hparts
  | cons part rest ih =>
    have hpart := h part List.mem_cons_self
    cases rest with
    | nil => exact segments_of_notMem hpart
    | cons next rest =>
      rw [joinSegments_cons_cons, segments_append_cons hpart, ih (by simp)]
      exact fun p hp => h p (List.mem_cons_of_mem _ hp)

theorem append_of_dropStart? {p s rest : List Char} (h : dropStart? p s = some rest) :
    s = p ++ rest := by
  induction p generalizing s with
  | nil => simpa [dropStart?] using h
  | cons c cs ih =>
    cases s with
    | nil => simp [dropStart?] at h
    | cons d ds =>
      simp only [dropStart?] at h
      split at h
      next hd => rw [hd, ih h, List.cons_append]
      next => simp at h

theorem append_of_dropEnd? {tail s rest : List Char} (h : dropEnd? tail s = some rest) :
    s = rest ++ tail := by
  obtain ⟨r, hr, rfl⟩ := Option.map_eq_some_iff.1 h
  have := congrArg List.reverse (append_of_dropStart? hr)
  simpa using this

theorem dropStart?_append (p rest : List Char) : dropStart? p (p ++ rest) = some rest := by
  induction p with
  | nil => rfl
  | cons c cs ih => rw [List.cons_append, dropStart?, if_pos rfl, ih]

theorem dropEnd?_append (s tail : List Char) : dropEnd? tail (s ++ tail) = some s := by
  rw [dropEnd?, List.reverse_append, dropStart?_append, Option.map_some, List.reverse_reverse]

end NativeBindings
