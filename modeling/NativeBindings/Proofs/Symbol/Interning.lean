import Mathlib.Data.List.Forall2
import Mathlib.Data.List.Nodup
import NativeBindings.Manifest.Declarations

/-!
# Interning

A symbol table only grows, and what a symbol stands for stays the same while it grows. So what has
been interned at some time can be looked up in every later table.

## Main definitions

- `SymbolTable.Extends` — a table that has grown out of another
- `Interns` — a computation that only adds keys, with what its result is in every later table

## Main statements

- `SymbolTable.get?_inj` — different keys have different symbols
- `Interns.bind`, `Interns.mapM` — computations one after the other
-/

namespace NativeBindings

namespace SymbolTable

variable {t t' t'' : SymbolTable} {key key' : String} {id : Symbol}

/-- The table has grown out of another. -/
def Extends (t t' : SymbolTable) : Prop := t.keys <+: t'.keys

theorem Extends.refl (t : SymbolTable) : t.Extends t := List.prefix_refl _

theorem Extends.trans (h : t.Extends t') (h' : t'.Extends t'') : t.Extends t'' :=
  List.IsPrefix.trans h h'

/-- Symbols and keys belong to each other. -/
theorem get?_eq_some_iff : t.get? key = some id ↔ t.resolve? id = some key := by
  obtain ⟨n⟩ := id
  rw [get?, resolve?, Option.map_eq_some_iff, List.getElem?_eq_some_iff]
  constructor
  · rintro ⟨i, hi, heq⟩
    cases heq
    obtain ⟨hlt, hget, -⟩ := List.idxOf?_eq_some_iff.1 hi
    exact ⟨hlt, hget⟩
  · rintro ⟨hlt, rfl⟩
    refine ⟨n, List.idxOf?_eq_some_iff.2 ⟨hlt, rfl, fun j hj heq => ?_⟩, rfl⟩
    have hindex : j = n := (List.Nodup.getElem_inj_iff t.nodup).1 heq
    omega

theorem get?_inj (h : t.get? key = some id) (h' : t.get? key' = some id) : key = key' := by
  rw [get?_eq_some_iff] at h h'
  exact Option.some.inj (h.symm.trans h')

/-- Keys of one kind have the same symbol exactly if they are the same. -/
theorem eq_iff_of_get?_append {kind : String} {id' : Symbol} (h : t.get? (kind ++ key) = some id)
    (h' : t.get? (kind ++ key') = some id') : id = id' ↔ key = key' := by
  constructor
  · rintro rfl
    exact (String.append_right_inj kind).1 (get?_inj h h')
  · rintro rfl
    exact Option.some.inj (h.symm.trans h')

theorem Extends.resolve? (hextends : t.Extends t') (h : t.resolve? id = some key) :
    t'.resolve? id = some key := by
  obtain ⟨added, hadded⟩ := hextends
  unfold SymbolTable.resolve? at h ⊢
  obtain ⟨hlt, -⟩ := List.getElem?_eq_some_iff.1 h
  rw [← hadded, List.getElem?_append_left hlt, h]

theorem Extends.get? (hextends : t.Extends t') (h : t.get? key = some id) :
    t'.get? key = some id :=
  get?_eq_some_iff.2 (hextends.resolve? (get?_eq_some_iff.1 h))

theorem extends_intern (t : SymbolTable) (key : String) : t.Extends (t.intern key).2 := by
  unfold Extends
  rw [keys_intern]
  split
  · exact List.prefix_refl _
  · exact List.prefix_append _ _

theorem get?_intern (t : SymbolTable) (key : String) :
    (t.intern key).2.get? key = some (t.intern key).1 := by
  rw [get?_eq_some_iff]
  unfold intern resolve?
  split
  next h => exact List.getElem?_idxOf h
  next h => simp

end SymbolTable

/-! ## Related lists -/

theorem exists_of_forall₂ {α β : Type} {R : α → β → Prop} {as : List α} {bs : List β} {i : Nat}
    {b : β} (h : List.Forall₂ R as bs) (hb : bs[i]? = some b) : ∃ a, as[i]? = some a ∧ R a b := by
  induction h generalizing i with
  | nil => cases hb
  | cons hab _ ih =>
    cases i with
    | zero =>
      cases hb
      exact ⟨_, rfl, hab⟩
    | succ i => exact ih hb

theorem exists_of_mem_of_forall₂ {α β : Type} {R : α → β → Prop} {as : List α} {bs : List β} {b : β}
    (h : List.Forall₂ R as bs) (hb : b ∈ bs) : ∃ a ∈ as, R a b := by
  obtain ⟨i, hi⟩ := List.mem_iff_getElem?.1 hb
  obtain ⟨a, ha, hab⟩ := exists_of_forall₂ h hi
  exact ⟨a, List.mem_of_getElem? ha, hab⟩

theorem map_eq_map_of_forall₂ {α β γ : Type} {f : α → γ} {g : β → γ} {as : List α} {bs : List β}
    (h : List.Forall₂ (fun a b => f a = g b) as bs) : as.map f = bs.map g := by
  rw [← List.forall₂_eq_eq_eq, List.forall₂_map_left_iff, List.forall₂_map_right_iff]
  exact h

/-! ## Computations that intern -/

open SymbolTable

variable {α β : Type} {x : StateM SymbolTable α} {P : SymbolTable → α → Prop}

/-- The computation only adds keys, and its result has a property in every later table. -/
def Interns (x : StateM SymbolTable α) (P : SymbolTable → α → Prop) : Prop :=
  ∀ t, t.Extends (x.run t).2 ∧ ∀ t', Extends (x.run t).2 t' → P t' (x.run t).1

namespace Interns

theorem internKey (key : String) : Interns (internKey key) fun t id => t.get? key = some id := by
  intro t
  exact ⟨t.extends_intern key, fun t' ht' => ht'.get? (t.get?_intern key)⟩

theorem pure {a : α} (h : ∀ t, P t a) : Interns (pure a) P := by
  intro t
  exact ⟨Extends.refl t, fun t' _ => h t'⟩

theorem bind {f : α → StateM SymbolTable β} {Q : SymbolTable → β → Prop} (hx : Interns x P)
    (hf : ∀ a, Interns (f a) fun t b => P t a → Q t b) : Interns (x >>= f) Q := by
  intro t
  obtain ⟨hextends, hresult⟩ := hx t
  obtain ⟨hextends', hresult'⟩ := hf (x.run t).1 (x.run t).2
  -- a table later than both is later than the one between them
  refine ⟨hextends.trans hextends', fun t' ht' => hresult' t' ht' ?_⟩
  exact hresult t' (hextends'.trans ht')

theorem mono {Q : SymbolTable → α → Prop} (hx : Interns x P) (h : ∀ t a, P t a → Q t a) :
    Interns x Q := by
  intro t
  exact ⟨(hx t).1, fun t' ht' => h _ _ ((hx t).2 t' ht')⟩

theorem and {Q : SymbolTable → α → Prop} (hP : Interns x P) (hQ : Interns x Q) :
    Interns x fun t a => P t a ∧ Q t a := by
  intro t
  exact ⟨(hP t).1, fun t' ht' => ⟨(hP t).2 t' ht', (hQ t).2 t' ht'⟩⟩

theorem mapM {f : β → StateM SymbolTable α} {P : SymbolTable → β → α → Prop}
    (hf : ∀ b, Interns (f b) fun t a => P t b a) (bs : List β) :
    Interns (bs.mapM f) fun t as => List.Forall₂ (P t) bs as := by
  induction bs with
  | nil => exact pure fun t => List.Forall₂.nil
  | cons b bs ih =>
    rw [List.mapM_cons]
    refine (hf b).bind fun a => ih.bind fun as => pure fun t hrest hfirst => ?_
    exact List.Forall₂.cons hfirst hrest

end Interns
end NativeBindings
