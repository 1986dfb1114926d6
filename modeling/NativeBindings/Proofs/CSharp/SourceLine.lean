import NativeBindings.Fragment
import NativeBindings.Proofs.CSharp.StringLiteral

/-!
# Lines of source text

A line of source text ends at any line terminator, not only at the line feeds that end generated
lines. So a generated line is several lines of source text if its text has a terminator in it. A
comment goes on up to the end of its line; text that is put behind the start of a comment stays in
comments if each further line of it starts one.

## Main definitions

- `sourceLines` — the lines of a source text
- `IsCommentLine` — a line that is a comment
- `StaysComment` — a text of which nothing leaves the comment in which it starts
- `IsOneLine` — a text without line terminators

## Main statements

- `sourceLines_flatten` — the lines of generated lines
- `forall_sourceLines_render_iff` — when all lines of a generated line are comments
-/

namespace NativeBindings

open Literal (isLineTerminator)

/-! ## Lines -/

/-- The lines with a character in front of the first one. -/
def consLine (c : Char) : List (List Char) → List (List Char)
  | [] => [[c]]
  | line :: lines => (c :: line) :: lines

/-- The lines of a source text, without what ends them. A carriage return and the line feed behind it
end one line. -/
def sourceLines : List Char → List (List Char)
  | [] => []
  | c :: s =>
    if c = '\r' ∧ s.head? = some '\n' then sourceLines s
    else if isLineTerminator c then [] :: sourceLines s
    else consLine c (sourceLines s)

/-- Lines are indented with tabs and blanks. -/
def isIndentation (c : Char) : Bool := c == '\t' || c == ' '

/-- The line is a comment, behind its indentation. -/
def IsCommentLine (line : List Char) : Prop := ['/', '/'] <+: line.dropWhile isIndentation

instance (line : List Char) : Decidable (IsCommentLine line) :=
  inferInstanceAs (Decidable (_ <+: _))

/-- Every line of a generated line that starts with a comment and goes on with `text` is a comment:
each further line of `text` starts one. -/
def StaysComment (text : List Char) : Prop :=
  ∀ line ∈ (sourceLines (text ++ ['\n'])).tail, IsCommentLine line

instance (text : List Char) : Decidable (StaysComment text) :=
  decidable_of_iff
    ((sourceLines (text ++ ['\n'])).tail.all (fun line => decide (IsCommentLine line)) = true)
    (by simp [StaysComment])

/-- No character of the text ends a line. -/
def IsOneLine (text : List Char) : Prop := ∀ c ∈ text, isLineTerminator c = false

instance (text : List Char) : Decidable (IsOneLine text) :=
  decidable_of_iff (text.all (!isLineTerminator ·) = true) (by simp [IsOneLine])

variable {c : Char} {s t line : List Char} {lines : List (List Char)}

theorem consLine_append (h : lines ≠ []) (c : Char) (more : List (List Char)) :
    consLine c (lines ++ more) = consLine c lines ++ more := by
  cases lines with
  | nil => exact absurd rfl h
  | cons line lines => rfl

theorem sourceLines_ne_nil (h : s ≠ []) : sourceLines s ≠ [] := by
  induction s with
  | nil => exact absurd rfl h
  | cons c s ih =>
    rw [sourceLines]
    split
    next hpair =>
      apply ih
      rintro rfl
      cases hpair.2
    next =>
      split
      · exact List.cons_ne_nil _ _
      · cases sourceLines s <;> exact List.cons_ne_nil _ _

/-- A line feed ends a line, whatever stands behind it. -/
theorem sourceLines_append (s t : List Char) :
    sourceLines (s ++ '\n' :: t) = sourceLines (s ++ ['\n']) ++ sourceLines t := by
  induction s with
  | nil => rfl
  | cons c s ih =>
    have hhead : (s ++ '\n' :: t).head? = (s ++ ['\n']).head? := by cases s <;> rfl
    rw [List.cons_append, List.cons_append, sourceLines, sourceLines, hhead, ih]
    split
    · rfl
    · split
      · rfl
      · exact consLine_append (sourceLines_ne_nil (by simp)) c _

theorem sourceLines_flatten {texts : List (List Char)}
    (h : ∀ text ∈ texts, ∃ s, text = s ++ ['\n']) :
    sourceLines texts.flatten = texts.flatMap sourceLines := by
  induction texts with
  | nil => rfl
  | cons text texts ih =>
    obtain ⟨⟨s, rfl⟩, htexts⟩ := List.forall_mem_cons.1 h
    rw [List.flatten_cons, List.append_assoc, List.singleton_append, sourceLines_append,
      ih htexts, List.flatMap_cons]

/-- Text without terminators stands in front of the first line. -/
theorem exists_sourceLines_append (hs : IsOneLine s) (ht : t ≠ []) :
    ∃ line lines, sourceLines t = line :: lines ∧ sourceLines (s ++ t) = (s ++ line) :: lines := by
  induction s with
  | nil =>
    obtain ⟨line, lines, h⟩ := List.exists_cons_of_ne_nil (sourceLines_ne_nil ht)
    exact ⟨line, lines, h, h⟩
  | cons c s ih =>
    obtain ⟨hc, hs⟩ := List.forall_mem_cons.1 hs
    obtain ⟨line, lines, hlines, happend⟩ := ih hs
    have hpair : ¬ (c = '\r' ∧ (s ++ t).head? = some '\n') := by
      rintro ⟨rfl, -⟩
      exact absurd hc (by decide)
    refine ⟨line, lines, hlines, ?_⟩
    rw [List.cons_append, sourceLines, if_neg hpair, hc, if_neg Bool.false_ne_true, happend]
    rfl

/-! ## Texts without terminators -/

theorem isOneLine_append : IsOneLine (s ++ t) ↔ IsOneLine s ∧ IsOneLine t := List.forall_mem_append

@[simp]
theorem isOneLine_toList_append {s t : String} :
    IsOneLine (s ++ t).toList ↔ IsOneLine s.toList ∧ IsOneLine t.toList := by
  rw [String.toList_append, isOneLine_append]

theorem IsOneLine.staysComment (h : IsOneLine s) : StaysComment s := by
  obtain ⟨line, lines, hline, hlines⟩ := exists_sourceLines_append h (List.cons_ne_nil '\n' [])
  obtain ⟨-, rfl⟩ : [] = line ∧ [] = lines := List.cons.inj hline
  rw [StaysComment, hlines]
  exact List.forall_mem_nil _

/-! ## Comments -/

theorem isOneLine_of_isIndentation (h : ∀ c ∈ s, isIndentation c = true) : IsOneLine s := by
  intro c hc
  have hindentation := h c hc
  rw [isIndentation, Bool.or_eq_true, beq_iff_eq, beq_iff_eq] at hindentation
  rcases hindentation with rfl | rfl <;> decide

theorem isCommentLine_append (h : ∀ c ∈ s, isIndentation c = true) (text : List Char) :
    IsCommentLine (s ++ '/' :: '/' :: text) := by
  have hslash : isIndentation '/' = false := by decide
  rw [IsCommentLine, List.dropWhile_append_of_pos h,
    List.dropWhile_cons_of_neg (by rw [hslash]; exact Bool.false_ne_true)]
  exact ⟨text, rfl⟩

theorem Indentation.isIndentation_unit (i : Indentation) : ∀ c ∈ i.unit, isIndentation c = true := by
  cases i with
  | tab => exact List.forall_mem_singleton.2 rfl
  | blanks width =>
    intro c hc
    rw [List.eq_of_mem_replicate hc]
    rfl

/-- The lines of a generated line that starts with a comment are comments if the text behind this
start stays in comments. -/
theorem forall_sourceLines_render_iff (i : Indentation) (depth : Nat) {start : List Char}
    (hstart : IsOneLine start) (text : List Char) {l : IndentedLine} (hdepth : l.depth = depth)
    (htext : l.text.toList = '/' :: '/' :: (start ++ text)) :
    (∀ line ∈ sourceLines (l.render i.unit), IsCommentLine line) ↔ StaysComment text := by
  have hunit : ∀ c ∈ (List.replicate depth i.unit).flatten, isIndentation c = true := by
    intro c hc
    obtain ⟨unit, hmem, hc⟩ := List.mem_flatten.1 hc
    exact i.isIndentation_unit c (List.eq_of_mem_replicate hmem ▸ hc)
  have hrender : l.render i.unit = ((List.replicate depth i.unit).flatten ++
      '/' :: '/' :: start) ++ (text ++ ['\n']) := by
    simp [IndentedLine.render, hdepth, htext]
  have hfront : IsOneLine ((List.replicate depth i.unit).flatten ++ '/' :: '/' :: start) := by
    refine isOneLine_append.2 ⟨isOneLine_of_isIndentation hunit, ?_⟩
    exact List.forall_mem_cons.2 ⟨by decide, List.forall_mem_cons.2 ⟨by decide, hstart⟩⟩
  obtain ⟨line, lines, hlines, happend⟩ :=
    exists_sourceLines_append hfront (List.append_ne_nil_of_right_ne_nil text (List.cons_ne_nil '\n' []))
  rw [hrender, happend, StaysComment, hlines, List.tail_cons, List.forall_mem_cons]
  refine and_iff_right ?_
  rw [List.append_assoc]
  exact isCommentLine_append hunit _

end NativeBindings
