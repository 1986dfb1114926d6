/-!
# Positions in a text

Places in a text are counted in the bytes of its UTF-8 form. Readers of messages are shown lines
and columns, both from one and in 32 bits; a column counts characters.

## Main definitions

- `byteLength` — the number of bytes of a text
- `splitBytes?` — cuts a text behind a number of bytes
- `Span` — a range of bytes, and `Span.slice?`, the text in it
- `Position.ofOffset?` — the line and column of a byte offset
-/

namespace NativeBindings

/-- The number of bytes of a text. -/
def byteLength : List Char → Nat
  | [] => 0
  | c :: s => c.utf8Size + byteLength s

/-- Cuts a text behind a number of bytes. There is no cut inside a character or behind the end. -/
def splitBytes? : Nat → List Char → Option (List Char × List Char)
  | 0, s => some ([], s)
  | _ + 1, [] => none
  | n + 1, c :: cs =>
    if c.utf8Size ≤ n + 1 then
      (splitBytes? (n + 1 - c.utf8Size) cs).map fun (before, behind) => (c :: before, behind)
    else none

/-- The bytes from `start` up to `stop`. -/
structure Span where
  start : Nat
  stop : Nat
  deriving DecidableEq

namespace Span

def length (s : Span) : Nat := s.stop - s.start

/-- All bytes of a text. -/
def all (source : List Char) : Span := ⟨0, byteLength source⟩

/-- The text in a span, if the span runs forward between two cuts of the text. -/
def slice? (s : Span) (source : List Char) : Option (List Char) :=
  if s.stop < s.start then none
  else do
    let (_, behind) ← splitBytes? s.start source
    let (inside, _) ← splitBytes? s.length behind
    some inside

end Span

/-- A line and a column, both from one. -/
structure Position where
  line : Nat
  column : Nat
  deriving DecidableEq

namespace Position

/-- The lines and columns counted up to the end of a text. -/
def counted (s : List Char) : Position :=
  ⟨s.count '\n' + 1, (s.reverse.takeWhile (· ≠ '\n')).length + 1⟩

/-- A position in two 32-bit numbers. -/
def narrow (p : Position) : Position :=
  ⟨(UInt32.ofNat p.line).toNat, (UInt32.ofNat p.column).toNat⟩

/-- The position behind a text. -/
def behind (s : List Char) : Position := (counted s).narrow

/-- The position of a byte offset; behind the end of the text it is that of the end. There is none
inside a character. -/
def ofOffset? (source : List Char) (offset : Nat) : Option Position :=
  (splitBytes? (min offset (byteLength source)) source).map fun (before, _) => behind before

end Position

@[simp] theorem byteLength_nil : byteLength [] = 0 := rfl

@[simp] theorem byteLength_cons (c : Char) (s : List Char) :
    byteLength (c :: s) = c.utf8Size + byteLength s := rfl

@[simp] theorem byteLength_append (s t : List Char) :
    byteLength (s ++ t) = byteLength s + byteLength t := by
  induction s with
  | nil => rw [List.nil_append, byteLength_nil, Nat.zero_add]
  | cons c s ih => rw [List.cons_append, byteLength_cons, byteLength_cons, ih, Nat.add_assoc]

/-- Cutting behind the bytes of a first part gives the parts back. -/
theorem splitBytes?_byteLength (s t : List Char) :
    splitBytes? (byteLength s) (s ++ t) = some (s, t) := by
  induction s with
  | nil => simp [splitBytes?]
  | cons c cs ih =>
    have hc := c.utf8Size_pos
    obtain ⟨n, hn⟩ : ∃ n, c.utf8Size + byteLength cs = n + 1 := ⟨_, (Nat.succ_pred (by omega)).symm⟩
    rw [byteLength_cons, hn, List.cons_append, splitBytes?, if_pos (by omega)]
    have : n + 1 - c.utf8Size = byteLength cs := by omega
    rw [this, ih]
    rfl

/-- A cut is behind the bytes of the first part. -/
theorem eq_append_of_splitBytes? {n : Nat} {s before after : List Char}
    (h : splitBytes? n s = some (before, after)) : s = before ++ after ∧ n = byteLength before := by
  induction s generalizing n before with
  | nil =>
    cases n with
    | zero => simp_all [splitBytes?]
    | succ n => simp [splitBytes?] at h
  | cons c cs ih =>
    cases n with
    | zero => simp_all [splitBytes?]
    | succ n =>
      rw [splitBytes?] at h
      split at h
      next hc =>
        obtain ⟨⟨b, a⟩, hr, he⟩ := Option.map_eq_some_iff.1 h
        obtain ⟨rfl, rfl⟩ := Prod.mk.inj he
        obtain ⟨h1, h2⟩ := ih hr
        exact ⟨by rw [h1]; rfl, by rw [byteLength_cons, ← h2]; omega⟩
      next => simp at h

/-- The parts of a cut make up the text, and the first has the asked number of bytes. -/
theorem splitBytes?_eq_some_iff {n : Nat} {s before after : List Char} :
    splitBytes? n s = some (before, after) ↔ s = before ++ after ∧ n = byteLength before :=
  ⟨eq_append_of_splitBytes?, fun ⟨hs, hn⟩ => by rw [hs, hn]; exact splitBytes?_byteLength ..⟩

end NativeBindings
