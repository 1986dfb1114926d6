import Mathlib.Algebra.Group.Nat.Defs
import Mathlib.Data.List.Induction
import NativeBindings.Manifest.Basic
import NativeBindings.Proofs.Text.Bytes

/-!
# Cursors in a text

A cursor goes through a text and counts lines and columns. It stands at the first column of the first
line at the start, every line feed takes it to the next line, and every other character takes it to
the next column. The position of an offset is where the cursor stands there. It always moves forward,
so positions are ordered as offsets are, and it comes by each position once. Line and column together
are at most two more than the characters of the text, so 32 bits are enough for both in a text of
fewer than `2 ^ 32 - 1` characters, and not in every text of one character more.

## Main definitions

- `Position.next` — one character further
- `Position.Precedes` — the order of positions
- `Position.offset?` — how far a cursor goes to a position

## Main statements

- `Position.precedes_counted_append` — a cursor moves forward
- `Position.walk?_counted` — how far it goes to a later position
- `Position.tracks_ofOffset?` — positions of the offsets of a text
-/

namespace NativeBindings
namespace Position

variable {p q r : Position} {source : List Char} {o o' : Nat}

/-- The position is in an earlier line, or in the same line in an earlier column. -/
def Precedes (p q : Position) : Prop := p.line < q.line ∨ p.line = q.line ∧ p.column < q.column

instance (p q : Position) : Decidable (p.Precedes q) :=
  inferInstanceAs (Decidable (_ ∨ _))

/-- The position behind one more character. -/
def next (p : Position) (c : Char) : Position :=
  if c = '\n' then ⟨p.line + 1, 1⟩ else ⟨p.line, p.column + 1⟩

/-- The number of bytes that a cursor goes by until it stands at a position, if it does. -/
def walk? (target cursor : Position) : List Char → Option Nat
  | [] => if cursor = target then some 0 else none
  | c :: s => if cursor = target then some 0
    else (walk? target (cursor.next c) s).map (c.utf8Size + ·)

/-- The offset at which a cursor from the start of a text stands at a position. -/
def offset? (source : List Char) (p : Position) : Option Nat := walk? p ⟨1, 1⟩ source

/-! ## The order of positions -/

theorem Precedes.ne (h : p.Precedes q) : p ≠ q := by
  rintro rfl
  rcases h with h | ⟨-, h⟩ <;> exact Nat.lt_irrefl _ h

theorem Precedes.trans (hpq : p.Precedes q) (hqr : q.Precedes r) : p.Precedes r := by
  rw [Precedes] at *
  omega

/-- One character takes a cursor forward. -/
theorem precedes_next (p : Position) (c : Char) : p.Precedes (p.next c) := by
  rw [next]
  split
  · exact .inl (Nat.lt_succ_self _)
  · exact .inr ⟨rfl, Nat.lt_succ_self _⟩

/-! ## Moving forward -/

theorem counted_concat (s : List Char) (c : Char) : counted (s ++ [c]) = (counted s).next c := by
  rw [next]
  split
  next h => simp [counted, h]
  next h => simp [counted, h]

theorem precedes_counted_concat (s : List Char) (c : Char) :
    (counted s).Precedes (counted (s ++ [c])) := by
  rw [counted_concat]
  exact precedes_next _ c

theorem precedes_counted_append (s : List Char) (c : Char) (t : List Char) :
    (counted s).Precedes (counted (s ++ c :: t)) := by
  induction t generalizing s c with
  | nil => exact precedes_counted_concat s c
  | cons d t ih =>
    have hrest := ih (s ++ [c]) d
    rw [List.append_assoc, List.singleton_append] at hrest
    exact (precedes_counted_concat s c).trans hrest

/-- Between two places of a text, a cursor goes by the bytes between them. -/
theorem walk?_counted (s t u : List Char) :
    walk? (counted (s ++ t)) (counted s) (t ++ u) = some (byteLength t) := by
  induction t generalizing s with
  | nil =>
    rw [List.append_nil]
    cases u <;> exact if_pos rfl
  | cons c t ih =>
    have hrest := ih (s ++ [c])
    rw [List.append_assoc, List.singleton_append, counted_concat] at hrest
    rw [List.cons_append, walk?, if_neg (precedes_counted_append s c t).ne, hrest]
    rfl

/-- A cursor goes by at least as many characters as it counts. -/
theorem line_add_column_counted_le (s : List Char) :
    (counted s).line + (counted s).column ≤ s.length + 2 := by
  induction s using List.reverseRecOn with
  | nil => exact Nat.le_refl 2
  | append_singleton s c ih =>
    have hcolumn : 1 ≤ (counted s).column := Nat.le_add_left _ _
    rw [counted_concat, List.length_append, List.length_singleton, next]
    split <;> dsimp only <;> omega

/-! ## Offsets -/

/-- The counts of a text that is not too long fit into 32 bits. -/
theorem behind_eq_counted {s : List Char} (h : s.length < 2 ^ 32 - 1) : behind s = counted s := by
  have hle := line_add_column_counted_le s
  have hline : 1 ≤ (counted s).line := Nat.le_add_left _ _
  have hcolumn : 1 ≤ (counted s).column := Nat.le_add_left _ _
  rw [behind, narrow, UInt32.toNat_ofNat_of_lt' (by rw [UInt32.size]; omega),
    UInt32.toNat_ofNat_of_lt' (by rw [UInt32.size]; omega)]

theorem ofOffset?_byteLength (before rest : List Char) :
    ofOffset? (before ++ rest) (byteLength before) = some (behind before) := by
  have hmin : min (byteLength before) (byteLength (before ++ rest)) = byteLength before := by
    rw [byteLength_append]
    omega
  rw [ofOffset?, hmin, splitBytes?_byteLength]
  rfl

/-- Offsets in a text that is not too long have the positions that a cursor counts. -/
theorem ofOffset?_eq_counted {before rest : List Char}
    (hlength : (before ++ rest).length < 2 ^ 32 - 1) :
    ofOffset? (before ++ rest) (byteLength before) = some (counted before) := by
  rw [List.length_append] at hlength
  rw [ofOffset?_byteLength, behind_eq_counted (by omega)]

theorem exists_precedes_of_lt (hlength : source.length < 2 ^ 32 - 1) (ho : IsBoundary source o)
    (ho' : IsBoundary source o') (hlt : o < o') :
    ∃ p p', ofOffset? source o = some p ∧ ofOffset? source o' = some p' ∧ p.Precedes p' := by
  obtain ⟨before, rest, hsource, rfl⟩ := ho
  obtain ⟨before', rest', rfl, rfl⟩ := ho'
  obtain ⟨between, rfl, rfl⟩ := exists_append_of_byteLength_le hsource.symm (Nat.le_of_lt hlt)
  refine ⟨counted before, counted (before ++ between), ?_, ofOffset?_eq_counted hlength, ?_⟩
  · rw [List.append_assoc] at hlength ⊢
    exact ofOffset?_eq_counted hlength
  · cases between with
    | nil => simp at hlt
    | cons c between => exact precedes_counted_append before c between

/-- A cursor finds the offset of a position. -/
theorem exists_offset?_eq (hlength : source.length < 2 ^ 32 - 1) (ho : IsBoundary source o) :
    ∃ p, ofOffset? source o = some p ∧ offset? source p = some o ∧
      p.line + p.column ≤ source.length + 2 := by
  obtain ⟨before, rest, rfl, rfl⟩ := ho
  have hle := line_add_column_counted_le before
  refine ⟨counted before, ofOffset?_eq_counted hlength, walk?_counted [] before rest, ?_⟩
  rw [List.length_append]
  omega

theorem ofOffset?_of_byteLength_le (hle : byteLength source ≤ o) :
    ofOffset? source o = ofOffset? source (byteLength source) := by
  rw [ofOffset?, ofOffset?, Nat.min_eq_right hle, Nat.min_self]

/-- In a text that 32 bits are enough for, positions are ordered as their offsets are. A cursor that
goes from the start of the text to the position of an offset goes as far as the offset, and counts no
more than the characters it goes by. Behind the end of a text, all offsets have the position of the
end. -/
theorem tracks_ofOffset? (t : SourceText) (hlength : t.text.length < 2 ^ 32 - 1) :
    (∀ o o', IsBoundary t.text o → IsBoundary t.text o' → o < o' →
      ∃ p p', ofOffset? t.text o = some p ∧ ofOffset? t.text o' = some p' ∧ p.Precedes p') ∧
    (∀ o, IsBoundary t.text o →
      ∃ p, ofOffset? t.text o = some p ∧ offset? t.text p = some o ∧
        p.line + p.column ≤ t.text.length + 2 ∧
        t.location? o = some ⟨t.file, p.line, p.column⟩) ∧
    ∀ o, byteLength t.text ≤ o → ofOffset? t.text o = ofOffset? t.text (byteLength t.text) := by
  refine ⟨fun o o' => exists_precedes_of_lt hlength, fun o ho => ?_,
    fun o => ofOffset?_of_byteLength_le⟩
  obtain ⟨p, hposition, hoffset, hle⟩ := exists_offset?_eq hlength ho
  refine ⟨p, hposition, hoffset, hle, ?_⟩
  rw [SourceText.location?, hposition]
  rfl

/-- Two line feeds behind a character of two bytes. -/
theorem tracks_ofOffset?_lines :
    let t : SourceText := ⟨"é\n\nb".toList, "natbind.toml"⟩
    t.text.length < 2 ^ 32 - 1 ∧ IsBoundary t.text 2 ∧ IsBoundary t.text 4 ∧
      byteLength t.text ≤ 9 ∧
      (∃ p p', ofOffset? t.text 2 = some p ∧ ofOffset? t.text 4 = some p' ∧ p.Precedes p') ∧
      (∃ p, ofOffset? t.text 4 = some p ∧ offset? t.text p = some 4) ∧
      ofOffset? t.text 4 = some ⟨3, 1⟩ ∧ ofOffset? t.text 9 = some ⟨3, 2⟩ := by
  intro t
  have hlength : t.text.length < 2 ^ 32 - 1 := by
    have hfour : t.text.length = 4 := by decide
    omega
  have hearlier : IsBoundary t.text 2 := ⟨['é'], "\n\nb".toList, rfl, rfl⟩
  have hlater : IsBoundary t.text 4 := ⟨"é\n\n".toList, ['b'], rfl, rfl⟩
  obtain ⟨hordered, hfound, hend⟩ := tracks_ofOffset? t hlength
  obtain ⟨p, hposition, hoffset, -⟩ := hfound 4 hlater
  refine ⟨hlength, hearlier, hlater, by decide, hordered 2 4 hearlier hlater (by decide),
    ⟨p, hposition, hoffset⟩, by decide, ?_⟩
  rw [hend 9 (by decide)]
  decide

/-! ## Long lines -/

theorem byteLength_replicate (n : Nat) : byteLength (List.replicate n 'a') = n := by
  induction n with
  | zero => rfl
  | succ n ih =>
    have hsize : 'a'.utf8Size = 1 := by decide
    rw [List.replicate_succ, byteLength_cons, ih, hsize, Nat.add_comm]

theorem counted_replicate (n : Nat) : counted (List.replicate n 'a') = ⟨1, n + 1⟩ := by
  have hcolumn : (List.replicate n 'a').takeWhile (· ≠ '\n') = List.replicate n 'a' := by
    rw [List.takeWhile_replicate, if_pos (by decide)]
  rw [counted, List.reverse_replicate, hcolumn, List.length_replicate, List.count_replicate]
  rfl

theorem isBoundary_replicate {n k : Nat} (hk : k ≤ n) : IsBoundary (List.replicate n 'a') k :=
  ⟨List.replicate k 'a', List.replicate (n - k) 'a',
    by rw [List.replicate_append_replicate, Nat.add_sub_cancel' hk], (byteLength_replicate k).symm⟩

theorem ofOffset?_replicate {n k : Nat} (hk : k ≤ n) :
    ofOffset? (List.replicate n 'a') k = some (narrow ⟨1, k + 1⟩) := by
  have hcut := ofOffset?_byteLength (List.replicate k 'a') (List.replicate (n - k) 'a')
  rwa [List.replicate_append_replicate, Nat.add_sub_cancel' hk, byteLength_replicate, behind,
    counted_replicate] at hcut

/-- The end of a line of `2 ^ 32 - 1` characters has a column of its own no more: 32 bits make it 0,
and it is not behind the start of the line. -/
theorem ofOffset?_end_of_long_line :
    let source := List.replicate 4294967295 'a'
    source.length < 2 ^ 32 ∧ IsBoundary source 0 ∧ IsBoundary source 4294967295 ∧
      ofOffset? source 0 = some ⟨1, 1⟩ ∧ ofOffset? source 4294967295 = some ⟨1, 0⟩ ∧
      ¬ (⟨1, 1⟩ : Position).Precedes ⟨1, 0⟩ := by
  intro source
  refine ⟨?_, isBoundary_replicate (Nat.zero_le _), isBoundary_replicate (Nat.le_refl _), ?_, ?_,
    by decide⟩
  · rw [List.length_replicate]
    decide
  · exact ofOffset?_replicate (Nat.zero_le _)
  · exact ofOffset?_replicate (Nat.le_refl _)

end Position
end NativeBindings
