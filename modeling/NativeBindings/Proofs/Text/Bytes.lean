import Mathlib.Data.List.Basic
import NativeBindings.Text.Position

/-!
# Bytes of texts

Offsets and spans count the bytes of a text. They are of use where they do not fall inside a
character. A byte of an ASCII character stands for this character wherever it is found, as no other
character has it among its bytes.

## Main definitions

- `utf8` — the bytes of a text
- `IsBoundary` — an offset that is not inside a character
- `Span.Holds` — the text in a span

## Main statements

- `Span.slice?_eq_some_iff` — slices are the texts in spans
- `exists_append_of_byteLength_le` — what stands in front of an offset goes on up to a later one
- `getElem?_utf8_byteLength_iff`, `getElem?_utf8_pred_iff` — the bytes behind and in front of an
  offset
-/

namespace NativeBindings

variable {s t before behind before' behind' : List Char} {c d : Char}

/-- The bytes of a text. -/
def utf8 (s : List Char) : List UInt8 := s.flatMap String.utf8EncodeChar

/-- The offset is not inside a character. -/
def IsBoundary (source : List Char) (offset : Nat) : Prop :=
  ∃ before behind, source = before ++ behind ∧ offset = byteLength before

/-- The text stands in the span. -/
def Span.Holds (span : Span) (source text : List Char) : Prop :=
  ∃ before behind, source = before ++ text ++ behind ∧
    span = ⟨byteLength before, byteLength before + byteLength text⟩

/-! ## Offsets -/

theorem byteLength_eq_zero_iff : byteLength s = 0 ↔ s = [] := by
  cases s with
  | nil => simp
  | cons c s =>
    have := c.utf8Size_pos
    simp only [byteLength_cons, List.cons_ne_nil, iff_false]
    omega

theorem exists_append_of_byteLength_le (h : before ++ behind = before' ++ behind')
    (hle : byteLength before ≤ byteLength before') :
    ∃ between, before' = before ++ between ∧ behind = between ++ behind' := by
  rcases List.append_eq_append_iff.1 h with ⟨between, hbefore, hbehind⟩ | ⟨excess, hbefore, hbehind⟩
  · exact ⟨between, hbefore, hbehind⟩
  · -- the longer part is not longer in bytes, so there is no excess
    rw [hbefore, byteLength_append] at hle
    obtain rfl : excess = [] := byteLength_eq_zero_iff.1 (by omega)
    exact ⟨[], by simp [hbefore], by simp [hbehind]⟩

/-! ## Spans -/

namespace Span

variable {span : Span} {source text : List Char}

theorem slice?_eq_some_iff : span.slice? source = some text ↔ span.Holds source text := by
  constructor
  · intro h
    rw [slice?] at h
    split at h
    next => cases h
    next hforward =>
      obtain ⟨⟨before, rest⟩, hfront, h⟩ := Option.bind_eq_some_iff.1 h
      obtain ⟨⟨inside, behind⟩, hinside, h⟩ := Option.bind_eq_some_iff.1 h
      cases h
      obtain ⟨hsource, hstart⟩ := splitBytes?_eq_some_iff.1 hfront
      obtain ⟨hrest, hlength⟩ := splitBytes?_eq_some_iff.1 hinside
      refine ⟨before, behind, by rw [hsource, hrest, List.append_assoc], ?_⟩
      obtain ⟨start, stop⟩ := span
      simp only [length] at hstart hlength hforward
      rw [mk.injEq]
      omega
  · rintro ⟨before, behind, rfl, rfl⟩
    have hstart : splitBytes? (byteLength before) (before ++ text ++ behind) =
        some (before, text ++ behind) := by
      rw [List.append_assoc, splitBytes?_byteLength]
    rw [slice?, if_neg (by simp), hstart]
    simp [length, splitBytes?_byteLength]

end Span

/-! ## Bytes -/

theorem utf8_append (s t : List Char) : utf8 (s ++ t) = utf8 s ++ utf8 t := List.flatMap_append

@[simp] theorem length_utf8 (s : List Char) : (utf8 s).length = byteLength s := by
  induction s with
  | nil => rfl
  | cons c s ih =>
    rw [← List.singleton_append, utf8_append, List.length_append, ih, byteLength_append]
    simp [utf8]

theorem utf8_singleton (hc : c.utf8Size = 1) : utf8 [c] = [c.toUInt8] := by
  rw [utf8, List.flatMap_singleton, String.utf8EncodeChar_eq_singleton hc, Char.toUInt8_val]

/-- Only the character itself has the byte of an ASCII character. -/
theorem eq_of_mem_utf8_singleton (hc : c.utf8Size = 1) (h : c.toUInt8 ∈ utf8 [d]) : d = c := by
  have hle : c.toNat ≤ 127 := Char.utf8Size_eq_one_iff.1 hc
  have hbyte : c.toUInt8.toNat = c.toNat := by
    rw [← Char.toUInt8_val, UInt32.toNat_toUInt8]
    exact Nat.mod_eq_of_lt (show c.toNat < 256 by omega)
  have hmem : c.toNat ∈ (utf8 [d]).map UInt8.toNat := hbyte ▸ List.mem_map_of_mem h
  have hval : d.toNat = c.toNat := by
    simp only [utf8, List.flatMap_singleton, String.utf8EncodeChar, Char.toNat_val] at hmem
    split at hmem
    next =>
      simp at hmem
      omega
    next =>
      -- all bytes of a longer character are above those of ASCII characters
      split at hmem
      · simp at hmem
        omega
      · split at hmem <;> simp at hmem <;> omega
  exact Char.ext (UInt32.toNat_inj.1 hval)

/-- A byte behind an offset. -/
theorem getElem?_utf8_byteLength_iff (hc : c.utf8Size = 1) (s t : List Char) :
    (utf8 (s ++ t))[byteLength s]? = some c.toUInt8 ↔ t.head? = some c := by
  have hat : (utf8 (s ++ t))[byteLength s]? = (utf8 t)[0]? := by
    rw [utf8_append, List.getElem?_append_right (by simp), length_utf8, Nat.sub_self]
  rw [hat]
  cases t with
  | nil => simp [utf8]
  | cons d t =>
    have hfirst : (utf8 (d :: t))[0]? = (utf8 [d])[0]? := by
      rw [← List.singleton_append, utf8_append, List.getElem?_append_left]
      simpa using d.utf8Size_pos
    rw [hfirst, List.head?_cons, Option.some.injEq]
    constructor
    · intro h
      exact eq_of_mem_utf8_singleton hc (List.mem_of_getElem? h)
    · rintro rfl
      rw [utf8_singleton hc]
      rfl

/-- A byte in front of an offset. -/
theorem getElem?_utf8_pred_iff (hc : c.utf8Size = 1) (hs : s ≠ []) (t : List Char) :
    (utf8 (s ++ t))[byteLength s - 1]? = some c.toUInt8 ↔ s.getLast? = some c := by
  obtain ⟨s, d, rfl⟩ : ∃ s' d, s = s' ++ [d] := ⟨_, _, (List.dropLast_append_getLast hs).symm⟩
  have hpos := d.utf8Size_pos
  have hat : (utf8 (s ++ [d] ++ t))[byteLength (s ++ [d]) - 1]? = (utf8 [d])[d.utf8Size - 1]? := by
    have hindex : byteLength (s ++ [d]) - 1 = byteLength s + (d.utf8Size - 1) := by
      simp
      omega
    rw [utf8_append, utf8_append, hindex, List.getElem?_append_left (by simp; omega),
      List.getElem?_append_right (by simp), length_utf8, Nat.add_sub_cancel_left]
  rw [hat, List.getLast?_concat, Option.some.injEq]
  constructor
  · intro h
    exact eq_of_mem_utf8_singleton hc (List.mem_of_getElem? h)
  · rintro rfl
    rw [utf8_singleton hc, hc]
    rfl

end NativeBindings
