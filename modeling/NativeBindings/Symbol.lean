/-!
# Symbols

Declarations are identified by keys such as `N:Demo`, `T:Demo.Outer+Inner` and
`M:Demo.Outer.Init(uint)`. A symbol table numbers the keys in the order in which they are first
interned.
-/

namespace NativeBindings

/-- An interned key, known by its number. -/
structure Symbol where
  index : Nat
  deriving DecidableEq

/-- A symbol as it is printed. -/
def Symbol.display (id : Symbol) : String := s!"#{id.index}"

/-- The interned keys in the order of their numbers; no key has two. -/
structure SymbolTable where
  keys : List String
  nodup : keys.Nodup

namespace SymbolTable

/-- The table without keys. -/
def empty : SymbolTable := ⟨[], List.nodup_nil⟩

/-- The number of a key that has been interned. -/
def get? (t : SymbolTable) (key : String) : Option Symbol := (t.keys.idxOf? key).map Symbol.mk

/-- The key of a number. -/
def resolve? (t : SymbolTable) (id : Symbol) : Option String := t.keys[id.index]?

/-- How many keys have been interned. -/
def size (t : SymbolTable) : Nat := t.keys.length

def isEmpty (t : SymbolTable) : Bool := t.keys.isEmpty

/-- The number of a key, which is given the next one if it has none yet. -/
def intern (t : SymbolTable) (key : String) : Symbol × SymbolTable :=
  if h : key ∈ t.keys then (⟨t.keys.idxOf key⟩, t)
  else
    (⟨t.keys.length⟩,
      ⟨t.keys ++ [key], List.nodup_append.2
        ⟨t.nodup, List.Pairwise.cons (by simp) .nil, fun a ha b hb => by
          rw [List.mem_singleton.1 hb]
          exact fun e => h (e ▸ ha)⟩⟩)

/-- Interned keys keep their numbers. -/
theorem keys_intern (t : SymbolTable) (key : String) :
    (t.intern key).2.keys = if key ∈ t.keys then t.keys else t.keys ++ [key] := by
  unfold intern
  split <;> rfl

end SymbolTable
end NativeBindings
