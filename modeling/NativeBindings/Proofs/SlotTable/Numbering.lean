import Mathlib.Algebra.Group.Nat.Defs
import NativeBindings.Proofs.SlotTable.FirstUse

/-!
# Numbering of slots

After any run of registrations a table holds exactly the slots that its requests give their keys,
each with the importers of the key. The counter of a library is shared by the slots with and without
conditions, so its slots are numbered in the order of first use, not in the order in which they are
listed.

## Main definitions

- `Slot.words` — a slot as it is kept
- `SlotTable.registerAll` — a run of registrations, with the slots that were handed out
- `SlotTable.Reflects` — a table holds what its requests ask for
- `SlotTable.importations` — the importers in a table, with their slots

## Main statements

- `SlotTable.reflects_registerAll` — runs reflect their requests
- `SlotTable.numbered_registerAll` — what this means for callers and for listings
-/

namespace NativeBindings

open ImportRequest

/-- The numbers of a slot as they are kept, in 32 bits each. -/
def Slot.words (s : Slot) : UInt32 × UInt32 := (.ofNat s.library, .ofNat s.symbol)

/-! ## Libraries -/

namespace LibrarySlots

/-- A library holds what requests ask of it. -/
structure Reflects (rs : List ImportRequest) (l : LibrarySlots) : Prop where
  index_eq : l.index = (librariesOf rs).idxOf l.library.id
  slotCount_eq : l.slotCount = (keysOf rs l.library.id).length
  hasDistinctConditions : l.HasDistinctConditions
  filed_perm : l.filed.Perm ((keysOf rs l.library.id).map fun k => (k, sharedSlotOf rs k))

/-- The importers of a library, with their slots. -/
def importations (l : LibrarySlots) : List (Slot × Importer) :=
  l.slots.flatMap fun b => b.2.importers.map (b.2.slot, ·)

theorem importations_eq (l : LibrarySlots) :
    l.importations = l.filed.flatMap fun e => e.2.importers.map (e.2.slot, ·) := by
  rw [importations, filed, List.flatMap_map]
  rfl

/-- Every registration adds its importer, to the slot that it returns. -/
theorem importations_register (l : LibrarySlots) (r : ImportRequest)
    (h : l.HasDistinctConditions) (hlib : r.library.id = l.library.id) :
    (l.register r).2.importations.Perm (((l.register r).1, r.importer) :: l.importations) := by
  rw [importations_eq, importations_eq]
  rcases l.register_cases r h hlib with ⟨before, s, after, hfiled, hfiled', hslot, -⟩ |
    ⟨-, before, after, hfiled, hfiled', -, -⟩
  · rw [hfiled, hfiled', hslot]
    simp only [SharedSlot.withImporter, List.flatMap_append, List.flatMap_cons, List.map_append,
      List.map_singleton, List.append_assoc, List.singleton_append]
    rw [← List.append_assoc, ← List.append_assoc]
    exact List.perm_middle
  · rw [hfiled, hfiled']
    simp only [List.flatMap_append, List.flatMap_cons, List.map_singleton, List.singleton_append]
    exact List.perm_middle

namespace Reflects

variable {rs : List ImportRequest} {r : ImportRequest} {l : LibrarySlots}

theorem fresh {library : NamedType} (h : library.id ∉ librariesOf rs) :
    Reflects rs { index := (librariesOf rs).length, library } := by
  have hkeys : keysOf rs library.id = [] := by
    refine List.eq_nil_iff_forall_not_mem.2 fun k hk => ?_
    obtain ⟨hmem, hlibrary⟩ := mem_keysOf.1 hk
    obtain ⟨r, hr, rfl⟩ := List.mem_map.1 hmem
    exact h (mem_librariesOf.2 ⟨r, hr, hlibrary⟩)
  refine ⟨(List.idxOf_of_notMem h).symm, by simp [hkeys], List.nodup_nil, ?_⟩
  simp [hkeys, filed, slots]

/-- A library does not notice the requests to others. -/
theorem concat_of_ne (h : l.Reflects rs) (hmem : l.library.id ∈ librariesOf rs)
    (hlib : r.library.id ≠ l.library.id) : l.Reflects (rs ++ [r]) := by
  have hkeys : keysOf (rs ++ [r]) l.library.id = keysOf rs l.library.id := keysOf_concat_of_ne hlib
  refine ⟨?_, ?_, h.hasDistinctConditions, ?_⟩
  · rw [h.index_eq, idxOf_librariesOf_concat (.inl hmem)]
  · rw [h.slotCount_eq, hkeys]
  · rw [hkeys]
    have hothers : ∀ k ∈ keysOf rs l.library.id, k ∈ rs.map key ∧ k ≠ r.key := by
      intro k hk
      obtain ⟨hk, hlibrary⟩ := mem_keysOf.1 hk
      exact ⟨hk, fun hkey => hlib (by rw [← hlibrary, hkey, library_key])⟩
    rw [map_sharedSlotOf_concat hothers]
    exact h.filed_perm

theorem mem_filed_iff (h : l.Reflects rs) {k : ImportKey} {s : SharedSlot} :
    (k, s) ∈ l.filed ↔ k ∈ rs.map key ∧ k.library = l.library.id ∧ s = sharedSlotOf rs k := by
  rw [h.filed_perm.mem_iff, List.mem_map]
  constructor
  · rintro ⟨k', hk', he⟩
    obtain ⟨rfl, rfl⟩ := Prod.mk.inj he
    obtain ⟨hk', hlibrary⟩ := mem_keysOf.1 hk'
    exact ⟨hk', hlibrary, rfl⟩
  · rintro ⟨hk, hlibrary, rfl⟩
    exact ⟨k, mem_keysOf.2 ⟨hk, hlibrary⟩, rfl⟩

theorem map_fst_filed_perm (h : l.Reflects rs) :
    (l.filed.map (·.1)).Perm (keysOf rs l.library.id) := by
  simpa [Function.comp_def] using h.filed_perm.map (·.1)

/-- The slots of the keys are numbered without gaps. -/
theorem map_slotOf_keysOf (h : l.Reflects rs) :
    (keysOf rs l.library.id).map (slotOf rs) = (List.range l.slotCount).map (⟨l.index, ·⟩) := by
  rw [h.slotCount_eq, ← map_idxOf_of_nodup (nodup_keysOf rs _), List.map_map]
  refine List.map_congr_left fun k hk => ?_
  obtain ⟨-, hlibrary⟩ := mem_keysOf.1 hk
  rw [slotOf, hlibrary, h.index_eq]
  rfl

theorem slots_perm (h : l.Reflects rs) :
    (l.slots.map (·.2.slot)).Perm ((List.range l.slotCount).map (⟨l.index, ·⟩)) := by
  have hfiled : l.slots.map (·.2.slot) = l.filed.map (·.2.slot) := by
    rw [filed, List.map_map]
    rfl
  have hperm := h.filed_perm.map (·.2.slot)
  rw [List.map_map] at hperm
  rw [hfiled, ← h.map_slotOf_keysOf]
  exact hperm

theorem register_fst (h : l.Reflects rs) (hlib : r.library.id = l.library.id) :
    (l.register r).1 = slotOf rs r.key := by
  rcases l.register_cases r h.hasDistinctConditions hlib with
    ⟨before, s, after, hfiled, -, hslot, -⟩ | ⟨hnew, -, -, -, -, hslot, -⟩
  · have hmem : (r.key, s) ∈ l.filed := by simp [hfiled]
    obtain ⟨-, -, hs⟩ := h.mem_filed_iff.1 hmem
    rw [hslot, hs]
    rfl
  · rw [h.map_fst_filed_perm.mem_iff, ← hlib] at hnew
    rw [hslot, h.index_eq, h.slotCount_eq, slotOf, library_key, ← hlib, List.idxOf_of_notMem hnew]

theorem register (h : l.Reflects rs) (hlib : r.library.id = l.library.id) :
    (l.register r).2.Reflects (rs ++ [r]) := by
  have hindex : l.index = (librariesOf (rs ++ [r])).idxOf l.library.id := by
    rw [h.index_eq, idxOf_librariesOf_concat (.inr hlib.symm)]
  have hdistinct := l.hasDistinctConditions_register r h.hasDistinctConditions
  have hfst := h.register_fst hlib
  rcases l.register_cases r h.hasDistinctConditions hlib with
    ⟨before, s, after, hfiled, hfiled', -, hcount⟩ |
    ⟨hnew, before, after, hfiled, hfiled', -, hcount⟩
  · -- the key is there: its slot gets the importer, and the other slots stay
    have hmem : (r.key, s) ∈ l.filed := by simp [hfiled]
    obtain ⟨hkey, -, rfl⟩ := h.mem_filed_iff.1 hmem
    have hkeys : keysOf (rs ++ [r]) l.library.id = keysOf rs l.library.id := by
      rw [← hlib, keysOf_concat_of_mem hkey]
    obtain ⟨ks, ks', hsplit⟩ := List.append_of_mem (mem_keysOf.2 ⟨hkey, hlib⟩)
    have hnodup := nodup_keysOf rs l.library.id
    rw [hsplit] at hnodup
    have hothers : ∀ k ∈ ks ++ ks', k ∈ rs.map key ∧ k ≠ r.key := by
      intro k hk
      have hk' : k ∈ keysOf rs l.library.id := by
        rw [hsplit, List.perm_middle.mem_iff]
        exact List.mem_cons_of_mem _ hk
      refine ⟨(mem_keysOf.1 hk').1, fun hkey => ?_⟩
      exact (List.nodup_cons.1 (List.nodup_middle.1 hnodup)).1 (hkey ▸ hk)
    have hrest : (before ++ after).Perm ((ks ++ ks').map fun k => (k, sharedSlotOf rs k)) := by
      have hperm := h.filed_perm
      rw [hfiled, hsplit, List.map_append, List.map_cons] at hperm
      have hperm' := (List.perm_middle.symm.trans hperm).trans List.perm_middle
      rw [List.map_append]
      exact hperm'.cons_inv
    refine ⟨?_, ?_, hdistinct, ?_⟩
    · simpa using hindex
    · rw [hcount, h.slotCount_eq, library_register, hkeys]
    · rw [hfiled', library_register, hkeys, hsplit, List.map_append, List.map_cons,
        sharedSlotOf_concat_self]
      refine List.perm_middle.trans (.trans (.cons _ ?_) List.perm_middle.symm)
      rw [← List.map_append, map_sharedSlotOf_concat hothers]
      exact hrest
  · -- the key is new: it is the next one of the library
    have hkey : r.key ∉ rs.map key := by
      rw [h.map_fst_filed_perm.mem_iff] at hnew
      exact fun hkey => hnew (mem_keysOf.2 ⟨hkey, hlib⟩)
    have hkeys : keysOf (rs ++ [r]) l.library.id = keysOf rs l.library.id ++ [r.key] := by
      rw [← hlib, keysOf_concat_of_notMem hkey]
    have hothers : ∀ k ∈ keysOf rs l.library.id, k ∈ rs.map key ∧ k ≠ r.key := by
      intro k hk
      obtain ⟨hmem, -⟩ := mem_keysOf.1 hk
      exact ⟨hmem, fun hk => hkey (hk ▸ hmem)⟩
    refine ⟨?_, ?_, hdistinct, ?_⟩
    · simpa using hindex
    · rw [hcount, h.slotCount_eq, library_register, hkeys, List.length_append]
      rfl
    · rw [hfiled', hfst, library_register, hkeys, List.map_append, List.map_singleton,
        sharedSlotOf_concat_of_notMem hkey, map_sharedSlotOf_concat hothers]
      refine List.perm_middle.trans (.trans (.cons _ ?_) (List.perm_append_singleton _ _).symm)
      rw [← hfiled]
      exact h.filed_perm

end Reflects
end LibrarySlots

/-! ## Tables -/

namespace SlotTable

/-- Registers requests in order, with their slots. -/
def registerAll (t : SlotTable) : List ImportRequest → List Slot × SlotTable
  | [] => ([], t)
  | r :: rs =>
    let (slot, t') := t.register r
    let (slots, t'') := t'.registerAll rs
    (slot :: slots, t'')

theorem registerAll_concat (t : SlotTable) (rs : List ImportRequest) (r : ImportRequest) :
    t.registerAll (rs ++ [r]) =
      ((t.registerAll rs).1 ++ [((t.registerAll rs).2.register r).1],
        ((t.registerAll rs).2.register r).2) := by
  induction rs generalizing t with
  | nil => rfl
  | cons r' rs ih => simp only [List.cons_append, registerAll, ih]

/-- A table holds what requests ask for. -/
structure Reflects (rs : List ImportRequest) (t : SlotTable) : Prop where
  libraries_eq : t.libraries.map (·.library.id) = librariesOf rs
  reflects : ∀ l ∈ t.libraries, l.Reflects rs

/-- All slots with their keys. -/
def filed (t : SlotTable) : List (ImportKey × SharedSlot) := t.libraries.flatMap (·.filed)

/-- The importers in a table, with their slots. -/
def importations (t : SlotTable) : List (Slot × Importer) :=
  t.libraries.flatMap (·.importations)

theorem reflects_empty : ({} : SlotTable).Reflects [] where
  libraries_eq := rfl
  reflects := by simp

namespace Reflects

variable {rs : List ImportRequest} {t : SlotTable}

theorem mem_librariesOf (h : t.Reflects rs) {l : LibrarySlots} (hl : l ∈ t.libraries) :
    l.library.id ∈ librariesOf rs :=
  h.libraries_eq ▸ List.mem_map.2 ⟨l, hl, rfl⟩

theorem indices_eq (h : t.Reflects rs) :
    t.libraries.map (·.index) = List.range t.libraries.length := by
  have hindex : ∀ l ∈ t.libraries, l.index = (librariesOf rs).idxOf l.library.id :=
    fun l hl => (h.reflects l hl).index_eq
  have hnodup : (librariesOf rs).Nodup := nodup_eraseDups _
  calc t.libraries.map (·.index)
      = t.libraries.map fun l => (librariesOf rs).idxOf l.library.id := List.map_congr_left hindex
    _ = (t.libraries.map (·.library.id)).map ((librariesOf rs).idxOf ·) := by
        rw [List.map_map]
        rfl
    _ = List.range (librariesOf rs).length := by rw [h.libraries_eq, map_idxOf_of_nodup hnodup]
    _ = List.range t.libraries.length := by rw [← h.libraries_eq, List.length_map]

theorem exists_mem_filed (h : t.Reflects rs) {k : ImportKey} (hk : k ∈ rs.map key) :
    ∃ l ∈ t.libraries, (k, sharedSlotOf rs k) ∈ l.filed := by
  obtain ⟨r, hr, rfl⟩ := List.mem_map.1 hk
  have hlibrary : r.library.id ∈ t.libraries.map (·.library.id) := by
    rw [h.libraries_eq]
    exact ImportRequest.mem_librariesOf.2 ⟨r, hr, rfl⟩
  obtain ⟨l, hl, hid⟩ := List.mem_map.1 hlibrary
  exact ⟨l, hl, (h.reflects l hl).mem_filed_iff.2 ⟨hk, hid.symm, rfl⟩⟩

theorem mem_filed_iff (h : t.Reflects rs) {k : ImportKey} {s : SharedSlot} :
    (k, s) ∈ t.filed ↔ k ∈ rs.map key ∧ s = sharedSlotOf rs k := by
  rw [filed, List.mem_flatMap]
  constructor
  · rintro ⟨l, hl, he⟩
    obtain ⟨hk, -, hs⟩ := (h.reflects l hl).mem_filed_iff.1 he
    exact ⟨hk, hs⟩
  · rintro ⟨hk, rfl⟩
    exact h.exists_mem_filed hk

theorem nodup_filed (h : t.Reflects rs) : (t.filed.map (·.1)).Nodup := by
  have hids : (t.libraries.map (·.library.id)).Nodup := by
    rw [h.libraries_eq]
    exact nodup_eraseDups _
  rw [filed, List.map_flatMap, List.nodup_flatMap]
  refine ⟨fun l hl => ?_, (List.pairwise_map.1 hids).imp_of_mem fun {l l'} hl hl' hne => ?_⟩
  · exact (h.reflects l hl).map_fst_filed_perm.nodup_iff.2 (nodup_keysOf rs _)
  · intro k hk hk'
    rw [(h.reflects l hl).map_fst_filed_perm.mem_iff, mem_keysOf] at hk
    rw [(h.reflects l' hl').map_fst_filed_perm.mem_iff, mem_keysOf] at hk'
    exact hne (hk.2.symm.trans hk'.2)

/-- A registration goes to the library of the request, which holds nothing yet if it is new. -/
theorem exists_library (h : t.Reflects rs) (r : ImportRequest) :
    ∃ before l after, t.register r = ((l.register r).1, ⟨before ++ (l.register r).2 :: after⟩) ∧
      r.library.id = l.library.id ∧ l.Reflects rs ∧
      (∀ l' ∈ before ++ after, l' ∈ t.libraries ∧ r.library.id ≠ l'.library.id) ∧
      (before ++ l :: after).map (·.library.id) = librariesOf (rs ++ [r]) ∧
      (before ++ l :: after).flatMap (·.importations) = t.importations := by
  obtain ⟨before, l, after, hl, hlibraries, hregister⟩ := t.exists_libraries_register r
  refine ⟨before, l, after, hregister, hl.symm, ?_⟩
  rcases hlibraries with hlibraries | ⟨hnew, rfl, rfl, rfl⟩
  · -- the library is there, and no other one has its identity
    have hids := h.libraries_eq
    rw [hlibraries, List.map_append, List.map_cons, hl] at hids
    have hnodup : (librariesOf rs).Nodup := nodup_eraseDups _
    rw [← hids] at hnodup
    have hmem : r.library.id ∈ librariesOf rs := by simp [← hids]
    refine ⟨h.reflects l (by simp [hlibraries]), fun l' hl' => ⟨?_, fun hsame => ?_⟩, ?_, ?_⟩
    · rw [hlibraries, List.perm_middle.mem_iff]
      exact List.mem_cons_of_mem l hl'
    · have hnotMem := (List.nodup_cons.1 (List.nodup_middle.1 hnodup)).1
      rw [← List.map_append] at hnotMem
      exact hnotMem (List.mem_map.2 ⟨l', hl', hsame.symm⟩)
    · rw [← hlibraries, h.libraries_eq, librariesOf_concat_of_mem hmem]
    · rw [importations, hlibraries]
  · -- the library is new and goes behind the others
    have hlength : t.libraries.length = (librariesOf rs).length := by
      rw [← h.libraries_eq, List.length_map]
    refine ⟨?_, fun l' hl' => ?_, ?_, ?_⟩
    · rw [hlength]
      exact .fresh (h.libraries_eq ▸ hnew)
    · rw [List.append_nil] at hl'
      exact ⟨hl', fun hsame => hnew (List.mem_map.2 ⟨l', hl', hsame.symm⟩)⟩
    · rw [List.map_append, h.libraries_eq, librariesOf_concat_of_notMem (h.libraries_eq ▸ hnew)]
      rfl
    · simp [importations, LibrarySlots.importations, LibrarySlots.slots]

/-- A registration files the request in its library and adds its importer. -/
theorem register (h : t.Reflects rs) (r : ImportRequest) :
    (t.register r).1 = slotOf rs r.key ∧ (t.register r).2.Reflects (rs ++ [r]) ∧
      (t.register r).2.importations.Perm ((slotOf rs r.key, r.importer) :: t.importations) := by
  obtain ⟨before, l, after, hregister, hl, hreflects, hothers, hids, himportations⟩ :=
    h.exists_library r
  have hslot : (l.register r).1 = slotOf rs r.key := hreflects.register_fst hl
  rw [hregister]
  refine ⟨hslot, ⟨?_, fun l' hl' => ?_⟩, ?_⟩
  · simpa using hids
  · rw [List.perm_middle.mem_iff] at hl'
    rcases List.mem_cons.1 hl' with rfl | hl'
    · exact hreflects.register hl
    · obtain ⟨hmem, hne⟩ := hothers l' hl'
      exact (h.reflects l' hmem).concat_of_ne (h.mem_librariesOf hmem) hne
  · have hadd := l.importations_register r hreflects.hasDistinctConditions hl
    rw [← himportations, ← hslot]
    simp only [importations, List.flatMap_append, List.flatMap_cons]
    exact (List.Perm.append_left _ (hadd.append_right _)).trans List.perm_middle

/-- The slots that a library hands out are numbered in the order of first use. -/
theorem eraseDups_filter_slotOf (h : t.Reflects rs) {l : LibrarySlots} (hl : l ∈ t.libraries) :
    ((rs.map fun r => slotOf rs r.key).filter (·.library == l.index)).eraseDups =
      (List.range l.slotCount).map (⟨l.index, ·⟩) := by
  -- slots of this library are slots of keys of this library
  have hlibrary : ∀ r ∈ rs, ((slotOf rs r.key).library == l.index) =
      (r.key.library == l.library.id) := by
    intro r hr
    rw [(h.reflects l hl).index_eq, slotOf, Bool.eq_iff_iff, beq_iff_eq, beq_iff_eq]
    exact List.idxOf_inj (ImportRequest.mem_librariesOf.2 ⟨r, hr, rfl⟩)
  have hfilter : (rs.map fun r => slotOf rs r.key).filter (·.library == l.index) =
      ((rs.map key).filter (·.library == l.library.id)).map (slotOf rs) := by
    rw [List.filter_map, List.filter_map, List.map_map]
    exact congrArg _ (List.filter_congr hlibrary)
  rw [hfilter, eraseDups_map_of_injOn, ← (h.reflects l hl).map_slotOf_keysOf, keysOf]
  exact fun k hk k' _ => (slotOf_inj (List.mem_filter.1 hk).1).1

/-- The importers of a slot are those of the requests that get it. -/
theorem importers_eq (h : t.Reflects rs) {l : LibrarySlots} (hl : l ∈ t.libraries)
    {c : Option NamedType} {s : SharedSlot} (hs : (c, s) ∈ l.slots) :
    s.importers = ((rs.map fun r => (r, slotOf rs r.key)).filter (·.2 == s.slot)).map
      (·.1.importer) := by
  have hfiled := LibrarySlots.mem_filed.2 ⟨c, hs, rfl⟩
  obtain ⟨hkey, -, hshared⟩ := (h.reflects l hl).mem_filed_iff.1 hfiled
  generalize (⟨l.library.id, c.map (·.id), s.symbolName⟩ : ImportKey) = k at hkey hshared
  have hsame : ∀ r ∈ rs, (slotOf rs r.key == slotOf rs k) = (r.key == k) := by
    intro r hr
    rw [Bool.eq_iff_iff, beq_iff_eq, beq_iff_eq]
    exact slotOf_inj (List.mem_map_of_mem hr)
  simp only [hshared, importers_sharedSlotOf, slot_sharedSlotOf, List.filter_map, List.map_map]
  rw [importersOf, ← List.filter_congr hsame]
  rfl

theorem index_lt (h : t.Reflects rs) {l : LibrarySlots} (hl : l ∈ t.libraries) :
    l.index < t.libraries.length := by
  have hmem : l.index ∈ t.libraries.map (·.index) := List.mem_map_of_mem hl
  rwa [h.indices_eq, List.mem_range] at hmem

/-- The slots that are listed for a library are numbered below its count. -/
theorem symbol_lt (h : t.Reflects rs) {l : LibrarySlots} (hl : l ∈ t.libraries)
    {b : Option NamedType × SharedSlot} (hb : b ∈ l.slots) : b.2.slot.symbol < l.slotCount := by
  have hmem : b.2.slot ∈ l.slots.map (·.2.slot) := List.mem_map_of_mem hb
  rw [(h.reflects l hl).slots_perm.mem_iff] at hmem
  obtain ⟨i, hi, heq⟩ := List.mem_map.1 hmem
  rw [← heq]
  exact List.mem_range.1 hi

/-- The slots of keys are listed in the libraries of the keys. -/
theorem exists_slot (h : t.Reflects rs) {r : ImportRequest} (hkey : r.key ∈ rs.map key) :
    ∃ l ∈ t.libraries, ∃ b ∈ l.slots, b.2.slot = slotOf rs r.key ∧
      (slotOf rs r.key).library = l.index ∧ l.library.id = r.library.id ∧
      b.1.map (·.id) = r.condition.map (·.id) ∧ b.2.symbolName = r.symbolName := by
  obtain ⟨l, hl, hfiled⟩ := h.exists_mem_filed hkey
  obtain ⟨c, hb, hk⟩ := LibrarySlots.mem_filed.1 hfiled
  obtain ⟨hlibrary, hcondition, hname⟩ := ImportKey.mk.inj hk
  refine ⟨l, hl, _, hb, rfl, ?_, hlibrary.symm, hcondition.symm, rfl⟩
  rw [slotOf, library_key, hlibrary, (h.reflects l hl).index_eq]

theorem toNat_words (h : t.Reflects rs) (hlibraries : t.libraries.length ≤ 2 ^ 32)
    (hslots : ∀ l ∈ t.libraries, l.slotCount ≤ 2 ^ 32) {r : ImportRequest}
    (hkey : r.key ∈ rs.map key) :
    (slotOf rs r.key).words.1.toNat = (slotOf rs r.key).library ∧
      (slotOf rs r.key).words.2.toNat = (slotOf rs r.key).symbol := by
  obtain ⟨l, hl, b, hb, hslot, hindex, -⟩ := h.exists_slot hkey
  have hsymbol := h.symbol_lt hl hb
  rw [hslot] at hsymbol
  exact ⟨UInt32.toNat_ofNat_of_lt' (hindex ▸ Nat.lt_of_lt_of_le (h.index_lt hl) hlibraries),
    UInt32.toNat_ofNat_of_lt' (Nat.lt_of_lt_of_le hsymbol (hslots l hl))⟩

end Reflects

/-- A run hands out the slots of the keys, and its table reflects the requests. -/
theorem reflects_registerAll (rs : List ImportRequest) :
    (({} : SlotTable).registerAll rs).1 = rs.map (fun r => slotOf rs r.key) ∧
      (({} : SlotTable).registerAll rs).2.Reflects rs ∧
      (({} : SlotTable).registerAll rs).2.importations.Perm
        (rs.map fun r => (slotOf rs r.key, r.importer)) := by
  induction rs using List.reverseRecOn with
  | nil => exact ⟨rfl, reflects_empty, .nil⟩
  | append_singleton rs r ih =>
    obtain ⟨hslots, hreflects, himportations⟩ := ih
    obtain ⟨hslot, hreflects', hadd⟩ := hreflects.register r
    have hold : ∀ r' ∈ rs, slotOf (rs ++ [r]) r'.key = slotOf rs r'.key :=
      fun r' hr' => slotOf_concat (.inl (List.mem_map_of_mem hr'))
    have hnew : slotOf (rs ++ [r]) r.key = slotOf rs r.key := slotOf_concat (.inr rfl)
    rw [registerAll_concat]
    refine ⟨?_, hreflects', ?_⟩
    · rw [hslots, hslot, List.map_append, List.map_singleton, hnew, List.map_congr_left hold]
    · have himporters : rs.map (fun r' => (slotOf (rs ++ [r]) r'.key, r'.importer)) =
          rs.map fun r' => (slotOf rs r'.key, r'.importer) :=
        List.map_congr_left fun r' hr' => by rw [hold r' hr']
      rw [List.map_append, List.map_singleton, hnew, himporters]
      exact (hadd.trans (himportations.cons _)).trans (List.perm_append_singleton _ _).symm

/-- What a run of registrations promises those who asked for slots and those who list them. -/
structure Numbered (rs : List ImportRequest) (issued : List Slot) (t : SlotTable) : Prop where
  /-- Every request gets a slot. -/
  length_eq : issued.length = rs.length
  /-- Two requests get the same slot if they agree on library, condition and name, and only then. -/
  slot_eq_iff : ∀ p ∈ rs.zip issued, ∀ q ∈ rs.zip issued, p.2 = q.2 ↔
    p.1.library.id = q.1.library.id ∧ p.1.condition.map (·.id) = q.1.condition.map (·.id) ∧
      p.1.symbolName = q.1.symbolName
  /-- The slot of a request is listed in its library, behind its condition and with its name. -/
  exists_slot : ∀ p ∈ rs.zip issued, ∃ l ∈ t.libraries, ∃ b ∈ l.slots,
    b.2.slot = p.2 ∧ p.2.library = l.index ∧ l.library.id = p.1.library.id ∧
      b.1.map (·.id) = p.1.condition.map (·.id) ∧ b.2.symbolName = p.1.symbolName
  /-- Libraries are listed in the order of their first request. -/
  libraries_eq : t.libraries.map (·.library.id) = (rs.map (·.library.id)).eraseDups
  /-- Libraries are numbered as they are listed. -/
  indices_eq : t.libraries.map (·.index) = List.range t.libraries.length
  /-- The slots of a library are numbered in the order in which they are first handed out. -/
  numbers_eq : ∀ l ∈ t.libraries, (issued.filter (·.library == l.index)).eraseDups =
    (List.range l.slotCount).map (⟨l.index, ·⟩)
  /-- A listing of a library has every slot once. -/
  slots_perm : ∀ l ∈ t.libraries,
    (l.slots.map (·.2.slot)).Perm ((List.range l.slotCount).map (⟨l.index, ·⟩))
  /-- A listing of a library starts with the slots without a condition. -/
  pairwise_slots : ∀ l ∈ t.libraries, l.slots.Pairwise fun a b => b.1 = none → a.1 = none
  /-- The importers of a slot are those that got it, in the order of their requests. -/
  importers_eq : ∀ l ∈ t.libraries, ∀ b ∈ l.slots,
    b.2.importers = ((rs.zip issued).filter (·.2 == b.2.slot)).map (·.1.importer)
  /-- One more request adds one importer, to the slot that it gets. -/
  importations_register : ∀ r, (t.register r).2.importations.Perm
    (((t.register r).1, r.importer) :: t.importations)
  /-- The words in which the numbers of a slot are kept hold them, if there are not too many
  libraries and slots. -/
  toNat_words : t.libraries.length ≤ 2 ^ 32 → (∀ l ∈ t.libraries, l.slotCount ≤ 2 ^ 32) →
    ∀ slot ∈ issued, slot.words.1.toNat = slot.library ∧ slot.words.2.toNat = slot.symbol

/-- Slots are numbered in the order of first use, once for each library, condition and name. -/
theorem numbered_registerAll (rs : List ImportRequest) :
    Numbered rs (({} : SlotTable).registerAll rs).1 (({} : SlotTable).registerAll rs).2 := by
  obtain ⟨hslots, ht, -⟩ := reflects_registerAll rs
  generalize ({} : SlotTable).registerAll rs = run at hslots ht
  obtain ⟨issued, t⟩ := run
  dsimp only at hslots ht ⊢
  have hzip : rs.zip issued = rs.map fun r => (r, slotOf rs r.key) := by
    rw [hslots, List.zip_map_right, List.zip_eq_zipWith, List.zipWith_self, List.map_map]
    rfl
  have hmem : ∀ p ∈ rs.zip issued, p.1.key ∈ rs.map key ∧ p.2 = slotOf rs p.1.key := by
    intro p hp
    rw [hzip] at hp
    obtain ⟨r, hr, rfl⟩ := List.mem_map.1 hp
    exact ⟨List.mem_map_of_mem hr, rfl⟩
  refine ⟨by simp [hslots], ?_, ?_, ht.libraries_eq, ht.indices_eq, fun l hl => ?_,
    fun l hl => (ht.reflects l hl).slots_perm, fun l _ => l.pairwise_slots, ?_, fun r => ?_,
    fun hlibraries hcounts slot hslot => ?_⟩
  · intro p hp q hq
    rw [(hmem p hp).2, (hmem q hq).2, slotOf_inj (hmem p hp).1]
    simp [key]
  · intro p hp
    obtain ⟨hkey, hslot⟩ := hmem p hp
    rw [hslot]
    exact ht.exists_slot hkey
  · rw [hslots]
    exact ht.eraseDups_filter_slotOf hl
  · intro l hl b hb
    rw [hzip]
    exact ht.importers_eq hl hb
  · obtain ⟨hslot, -, hadd⟩ := ht.register r
    rwa [hslot]
  · rw [hslots] at hslot
    obtain ⟨r, hr, rfl⟩ := List.mem_map.1 hslot
    exact ht.toNat_words hlibraries hcounts (List.mem_map_of_mem hr)

end SlotTable
end NativeBindings
