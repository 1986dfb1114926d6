import Mathlib.Data.List.TakeWhile

/-!
# Longest runs of characters

A scanner takes the longest run of characters of a kind. It takes exactly a given row of such
characters if what follows does not go on with one.
-/

namespace NativeBindings

variable {isKind : Char → Bool} {c : Char} {xs rest : List Char}

/-- `s` does not start with a character of the given kind. -/
def StopsAt (isKind : Char → Bool) (s : List Char) : Prop := ∀ c ∈ s.head?, isKind c = false

theorem stopsAt_cons (h : isKind c = false) (s : List Char) : StopsAt isKind (c :: s) := by
  intro d hd
  rwa [← Option.some.inj hd]

theorem stopsAt_replicate_append (h : isKind c = false) (k : Nat) (hrest : StopsAt isKind rest) :
    StopsAt isKind (List.replicate k c ++ rest) := by
  cases k with
  | zero => exact hrest
  | succ k =>
    rw [List.replicate_succ, List.cons_append]
    exact stopsAt_cons h _

theorem takeWhile_append_of_stopsAt (hxs : ∀ c ∈ xs, isKind c = true) (hrest : StopsAt isKind rest) :
    (xs ++ rest).takeWhile isKind = xs := by
  rw [List.takeWhile_append_of_pos hxs]
  cases rest with
  | nil => simp
  | cons c cs => simp [hrest c rfl]

end NativeBindings
