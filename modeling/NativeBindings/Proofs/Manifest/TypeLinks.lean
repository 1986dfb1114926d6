import NativeBindings.Manifest.Declarations
import NativeBindings.Proofs.Manifest.TypeSpelling
import NativeBindings.Proofs.Manifest.Validity

/-!
# Links of nested types

The key of a nested type has one link for each type around it, and one for the type itself: the
beginnings that end in front of a plus sign, and the whole key. A type can be seen exactly as far as
the link that reaches least, and a link that is not declared reaches nowhere.

## Main definitions

- `IsLink` — the links of a key
- `Manifest.linkAccess` — the declared accessibility of a link
- `Manifest.IsNarrowest` — the accessibility of the link that reaches least

## Main statements

- `isLink_iff_mem_keyLinks` — the links that are looked up
- `Manifest.IsValid.isNarrowest_accessOfKey` — a type can be seen as far as each of its links
-/

namespace NativeBindings

/-! ## Least reach -/

namespace Accessibility

variable {α : Type} {a : Accessibility}

theorem isGlobal_iff : a.isGlobal = true ↔ 5 ≤ a.reach := by
  cases a <;> decide

theorem isGlobal_iff_mem :
    a.isGlobal = true ↔ a ∈ [publicAccess, internalAccess, protectedInternal] := by
  cases a <;> decide

theorem reach_le (a : Accessibility) : a.reach ≤ publicAccess.reach := by
  cases a <;> decide

theorem narrower_eq_or (a b : Accessibility) : a.narrower b = a ∨ a.narrower b = b := by
  unfold narrower
  split
  · exact .inr rfl
  · exact .inl rfl

/-- Through several types one reaches no further than through each of them. -/
theorem reach_foldl_le (f : α → Accessibility) (as : List α) (start : Accessibility) :
    (as.foldl (fun access a => access.narrower (f a)) start).reach ≤ start.reach ∧
      ∀ a ∈ as, (as.foldl (fun access a => access.narrower (f a)) start).reach ≤ (f a).reach := by
  induction as generalizing start with
  | nil => exact ⟨Nat.le_refl _, List.forall_mem_nil _⟩
  | cons a as ih =>
    obtain ⟨hstart, has⟩ := ih (start.narrower (f a))
    rw [reach_narrower, Nat.le_min] at hstart
    exact ⟨hstart.1, List.forall_mem_cons.2 ⟨hstart.2, has⟩⟩

/-- Through several types one reaches as far as through one of them, or as far as from the start. -/
theorem foldl_eq_or (f : α → Accessibility) (as : List α) (start : Accessibility) :
    as.foldl (fun access a => access.narrower (f a)) start = start ∨
      ∃ a ∈ as, as.foldl (fun access a => access.narrower (f a)) start = f a := by
  induction as generalizing start with
  | nil => exact .inl rfl
  | cons a as ih =>
    rw [List.foldl_cons]
    rcases ih (start.narrower (f a)) with hfold | ⟨b, hb, hfold⟩
    · rw [hfold]
      exact (narrower_eq_or start (f a)).imp_right fun h => ⟨a, List.mem_cons_self, h⟩
    · exact .inr ⟨b, List.mem_cons_of_mem a hb, hfold⟩

/-- Among some types, of which there is one, one reaches least. -/
theorem exists_foldl_eq (f : α → Accessibility) {as : List α} (h : as ≠ []) :
    ∃ a ∈ as, as.foldl (fun access a => access.narrower (f a)) publicAccess = f a := by
  rcases foldl_eq_or f as publicAccess with hfold | hfold
  · obtain ⟨a, as, rfl⟩ := List.exists_cons_of_ne_nil h
    have hle := (reach_foldl_le f (a :: as) publicAccess).2 a List.mem_cons_self
    rw [hfold] at hle
    exact ⟨a, List.mem_cons_self, hfold.trans (reach_inj (Nat.le_antisymm hle (reach_le (f a))))⟩
  · exact hfold

end Accessibility

/-! ## Links -/

/-- A beginning of a key that ends in front of a plus sign or at the end. -/
def IsLink (link key : List Char) : Prop := link = key ∨ ∃ rest, key = link ++ '+' :: rest

variable {link front part key : List Char} {parts : List (List Char)}

theorem isLink_of_notMem (h : '+' ∉ key) : IsLink link key ↔ link = key := by
  refine or_iff_left ?_
  rintro ⟨rest, rfl⟩
  exact h (by simp)

/-- One more part makes one more link. -/
theorem isLink_append (h : '+' ∉ part) :
    IsLink link (front ++ '+' :: part) ↔ IsLink link front ∨ link = front ++ '+' :: part := by
  constructor
  · rintro (rfl | ⟨rest, heq⟩)
    · exact .inr rfl
    rcases List.append_eq_append_iff.1 heq with ⟨between, rfl, hpart⟩ | ⟨between, rfl, hrest⟩
    · cases between with
      | nil => exact .inl (.inl (List.append_nil _))
      | cons c between =>
        obtain ⟨rfl, rfl⟩ := List.cons.inj hpart
        exact absurd (List.mem_append_right between List.mem_cons_self) h
    · cases between with
      | nil => exact .inl (.inl (List.append_nil _).symm)
      | cons c between =>
        obtain ⟨rfl, -⟩ := List.cons.inj hrest
        exact .inl (.inr ⟨between, rfl⟩)
  · rintro ((rfl | ⟨rest, rfl⟩) | rfl)
    · exact .inr ⟨part, rfl⟩
    · exact .inr ⟨rest ++ '+' :: part, by simp⟩
    · exact .inl rfl

theorem joinSegments_append_cons (sep : Char) (front part : List Char) (parts : List (List Char)) :
    joinSegments sep ((front ++ sep :: part) :: parts) =
      joinSegments sep (front :: part :: parts) := by
  cases parts with
  | nil => rfl
  | cons next parts => simp only [joinSegments_cons_cons, List.append_assoc, List.cons_append]

theorem keyLinks_cons (hfront : front ≠ []) (part : List Char) (parts : List (List Char)) :
    keyLinks front (part :: parts) =
      (front ++ '+' :: part) :: keyLinks (front ++ '+' :: part) parts := by
  rw [keyLinks, if_neg (mt List.isEmpty_iff.1 hfront)]

/-- What is looked up behind a beginning are the links that go beyond it. -/
theorem isLink_joinSegments_iff (hfront : front ≠ []) (hparts : ∀ part ∈ parts, '+' ∉ part) :
    IsLink link (joinSegments '+' (front :: parts)) ↔
      IsLink link front ∨ link ∈ keyLinks front parts := by
  induction parts generalizing front with
  | nil => simp [joinSegments, keyLinks]
  | cons part parts ih =>
    obtain ⟨hpart, hparts⟩ := List.forall_mem_cons.1 hparts
    rw [← joinSegments_append_cons, ih (by simp) hparts, isLink_append hpart,
      keyLinks_cons hfront, List.mem_cons, or_assoc]

/-- What is looked up are the links, or else the empty text is one of both. -/
theorem isLink_iff_mem_keyLinks (key : List Char) :
    (∀ link, IsLink link key ↔ link ∈ keyLinks [] (segments '+' key)) ∨
      IsLink [] key ∧ [] ∈ keyLinks [] (segments '+' key) := by
  obtain ⟨first, parts, hsegments⟩ := List.exists_cons_of_ne_nil (segments_ne_nil '+' key)
  have hnotMem : ∀ part ∈ first :: parts, '+' ∉ part := by
    intro part hpart
    exact not_mem_of_mem_segments (hsegments ▸ hpart)
  obtain ⟨hfirst, hparts⟩ := List.forall_mem_cons.1 hnotMem
  have hlinks : keyLinks [] (first :: parts) = first :: keyLinks first parts := rfl
  rw [hsegments, hlinks]
  rw [← joinSegments_segments '+' key, hsegments]
  by_cases hnil : first = []
  · subst hnil
    refine .inr ⟨?_, List.mem_cons_self⟩
    cases parts with
    | nil => exact .inl rfl
    | cons next parts => exact .inr ⟨_, joinSegments_cons_cons '+' [] next parts⟩
  · left
    intro link
    rw [isLink_joinSegments_iff hnil hparts, isLink_of_notMem hfirst, List.mem_cons]

theorem keyLinks_ne_nil (front : List Char) {parts : List (List Char)} (h : parts ≠ []) :
    keyLinks front parts ≠ [] := by
  obtain ⟨part, parts, rfl⟩ := List.exists_cons_of_ne_nil h
  exact List.cons_ne_nil _ _

/-! ## Accessibility of links -/

namespace Manifest

variable {m : Manifest} {access : Accessibility}

/-- How far the type of a link is declared to be seen; it is unresolved if it is not declared. -/
def linkAccess (m : Manifest) (link : List Char) : Accessibility :=
  (m.types.get? (.ofList link)).elim .unresolved (·.access)

/-- The type of the link is declared, and it is declared to be seen in the whole assembly. -/
def DeclaresGlobal (m : Manifest) (link : List Char) : Prop :=
  ∃ type, m.types.get? (.ofList link) = some type ∧
    type.access ∈ [.publicAccess, .internalAccess, .protectedInternal]

/-- The accessibility is that of a link, and no link reaches less far. -/
structure IsNarrowest (m : Manifest) (key : List Char) (access : Accessibility) : Prop where
  exists_link : ∃ link, IsLink link key ∧ m.linkAccess link = access
  reach_le : ∀ link, IsLink link key → access.reach ≤ (m.linkAccess link).reach

theorem isGlobal_linkAccess_iff : (m.linkAccess link).isGlobal = true ↔ m.DeclaresGlobal link := by
  unfold linkAccess DeclaresGlobal
  cases m.types.get? (.ofList link) with
  | none => exact iff_of_false (by decide) nofun
  | some type =>
    rw [Option.elim_some, Accessibility.isGlobal_iff_mem]
    simp only [Option.some.injEq, exists_eq_left']

namespace IsNarrowest

/-- The whole type can be seen in the assembly exactly if each link can be. -/
theorem isGlobal_iff (h : m.IsNarrowest key access) :
    access.isGlobal = true ↔ ∀ link, IsLink link key → m.DeclaresGlobal link := by
  simp only [← isGlobal_linkAccess_iff, Accessibility.isGlobal_iff]
  constructor
  · exact fun haccess link hlink => haccess.trans (h.reach_le link hlink)
  · obtain ⟨link, hlink, rfl⟩ := h.exists_link
    exact fun hlinks => hlinks link hlink

/-- One link that is not declared is enough. -/
theorem eq_unresolved (h : m.IsNarrowest key access) (hlink : IsLink link key)
    (hnone : m.types.get? (.ofList link) = none) : access = .unresolved := by
  have hle := h.reach_le link hlink
  rw [linkAccess, hnone, Option.elim_none] at hle
  exact Accessibility.reach_inj (Nat.le_zero.1 hle)

end IsNarrowest

/-- Keys are not empty. -/
theorem IsValid.linkAccess_nil (hvalid : m.IsValid) : m.linkAccess [] = .unresolved := by
  unfold linkAccess
  cases htype : m.types.get? (.ofList []) with
  | none => rfl
  | some type =>
    have hkey := TypeScope.get?_isSome_iff.1 (Option.isSome_of_eq_some htype)
    obtain ⟨entry, hentry, hnil⟩ := List.mem_map.1 hkey
    have hpart := (hvalid.types entry hentry).1 []
    rw [hnil] at hpart
    exact absurd (hpart (by decide)) (by decide)

/-- A type can be seen exactly as far as the link that reaches least. -/
theorem IsValid.isNarrowest_accessOfKey (hvalid : m.IsValid) (key : List Char) :
    m.IsNarrowest key (m.accessOfKey key) := by
  have hfold : m.accessOfKey key = (keyLinks [] (segments '+' key)).foldl
      (fun access link => access.narrower (m.linkAccess link)) .publicAccess := rfl
  obtain ⟨-, hle⟩ := Accessibility.reach_foldl_le m.linkAccess (keyLinks [] (segments '+' key))
    .publicAccess
  rw [← hfold] at hle
  rcases isLink_iff_mem_keyLinks key with hlinks | ⟨hlink, hmem⟩
  · obtain ⟨link, hmem, hlink⟩ := Accessibility.exists_foldl_eq m.linkAccess
      (keyLinks_ne_nil [] (segments_ne_nil '+' key))
    exact ⟨⟨link, (hlinks link).2 hmem, (hfold.trans hlink).symm⟩,
      fun link hlink => hle link ((hlinks link).1 hlink)⟩
  · -- an empty beginning is no key, so nothing is seen
    have hunresolved : m.accessOfKey key = .unresolved := by
      have hnil := hle [] hmem
      rw [hvalid.linkAccess_nil] at hnil
      exact Accessibility.reach_inj (Nat.le_zero.1 hnil)
    rw [hunresolved]
    exact ⟨⟨[], hlink, hvalid.linkAccess_nil⟩, fun _ _ => Nat.zero_le _⟩

end Manifest
end NativeBindings
