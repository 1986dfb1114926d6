import Mathlib.Data.List.Induction
import NativeBindings.Proofs.SlotTable.Registration

/-!
# Order of first use

The slot of a key can be read off the requests alone: libraries are numbered in the order of their
first request, and the keys of a library in the order of theirs. A later request changes neither
number.

## Main definitions

- `ImportRequest.librariesOf`, `ImportRequest.keysOf` — libraries and keys in the order of first use
- `ImportRequest.slotOf` — the slot that requests give a key
- `ImportRequest.sharedSlotOf` — the slot with the importers of the key
-/

namespace NativeBindings

section FirstOccurrences

variable {α β : Type} [DecidableEq α] [DecidableEq β] {xs : List α} {x a : α}

theorem eraseDups_concat_of_mem (h : a ∈ xs) : (xs ++ [a]).eraseDups = xs.eraseDups := by
  rw [List.eraseDups_append]
  simp [List.removeAll, h]

theorem eraseDups_concat_of_notMem (h : a ∉ xs) :
    (xs ++ [a]).eraseDups = xs.eraseDups ++ [a] := by
  rw [List.eraseDups_append]
  simp [List.removeAll, h, List.eraseDups_cons]

theorem nodup_eraseDups (xs : List α) : xs.eraseDups.Nodup := by
  induction xs using List.reverseRecOn with
  | nil => exact List.nodup_nil
  | append_singleton xs a ih =>
    by_cases ha : a ∈ xs
    · rwa [eraseDups_concat_of_mem ha]
    · rw [eraseDups_concat_of_notMem ha]
      have hdisjoint : ∀ x ∈ xs.eraseDups, ∀ y ∈ [a], x ≠ y := by
        intro x hx y hy hxy
        rw [List.mem_singleton.1 hy] at hxy
        exact ha (hxy ▸ List.mem_eraseDups.1 hx)
      exact List.nodup_append.2 ⟨ih, List.nodup_singleton a, hdisjoint⟩

/-- An element that is there keeps its place, and a new one gets the next place. -/
theorem idxOf_eraseDups_concat (h : x ∈ xs ∨ x = a) :
    (xs ++ [a]).eraseDups.idxOf x = xs.eraseDups.idxOf x := by
  by_cases ha : a ∈ xs
  · rw [eraseDups_concat_of_mem ha]
  · rw [eraseDups_concat_of_notMem ha]
    by_cases hx : x ∈ xs
    · exact List.idxOf_append_of_mem (List.mem_eraseDups.2 hx)
    · obtain rfl : x = a := h.resolve_left hx
      rw [List.idxOf_append_of_notMem (mt List.mem_eraseDups.1 hx), List.idxOf_cons_self,
        List.idxOf_of_notMem (mt List.mem_eraseDups.1 hx), Nat.add_zero]

theorem eraseDups_map_of_injOn {f : α → β} (h : ∀ x ∈ xs, ∀ y ∈ xs, f x = f y → x = y) :
    (xs.map f).eraseDups = xs.eraseDups.map f := by
  induction xs using List.reverseRecOn with
  | nil => rfl
  | append_singleton xs a ih =>
    have hxs := ih fun x hx y hy =>
      h x (List.mem_append_left _ hx) y (List.mem_append_left _ hy)
    rw [List.map_append, List.map_singleton]
    by_cases ha : a ∈ xs
    · rw [eraseDups_concat_of_mem ha, eraseDups_concat_of_mem (List.mem_map_of_mem ha), hxs]
    · have hfa : f a ∉ xs.map f := by
        intro hmem
        obtain ⟨x, hx, hfx⟩ := List.mem_map.1 hmem
        have hxa : x = a := h x (List.mem_append_left _ hx) a (by simp) hfx
        exact ha (hxa ▸ hx)
      rw [eraseDups_concat_of_notMem ha, eraseDups_concat_of_notMem hfa, hxs, List.map_append,
        List.map_singleton]

theorem map_idxOf_of_nodup (h : xs.Nodup) : xs.map (xs.idxOf ·) = List.range xs.length := by
  refine List.ext_getElem (by simp) fun n hn hn' => ?_
  rw [List.getElem_map, List.getElem_range, h.idxOf_getElem]

end FirstOccurrences

namespace ImportRequest

/-- The libraries of requests, in the order of first use. -/
def librariesOf (rs : List ImportRequest) : List Symbol := (rs.map (·.library.id)).eraseDups

/-- The keys of a library in requests, in the order of first use. -/
def keysOf (rs : List ImportRequest) (library : Symbol) : List ImportKey :=
  ((rs.map key).filter (·.library == library)).eraseDups

/-- The slot of a key. -/
def slotOf (rs : List ImportRequest) (k : ImportKey) : Slot :=
  ⟨(librariesOf rs).idxOf k.library, (keysOf rs k.library).idxOf k⟩

/-- The importers of a key, in order. -/
def importersOf (rs : List ImportRequest) (k : ImportKey) : List Importer :=
  (rs.filter (·.key == k)).map (·.importer)

/-- The slot of a key, with the importers of the key. -/
def sharedSlotOf (rs : List ImportRequest) (k : ImportKey) : SharedSlot :=
  ⟨slotOf rs k, k.symbolName, importersOf rs k⟩

variable {rs : List ImportRequest} {r : ImportRequest} {k : ImportKey} {library : Symbol}

@[simp] theorem slot_sharedSlotOf : (sharedSlotOf rs k).slot = slotOf rs k := rfl

@[simp] theorem importers_sharedSlotOf : (sharedSlotOf rs k).importers = importersOf rs k := rfl

@[simp] theorem library_key : r.key.library = r.library.id := rfl

theorem mem_librariesOf : library ∈ librariesOf rs ↔ ∃ r ∈ rs, r.library.id = library := by
  simp [librariesOf]

theorem mem_keysOf : k ∈ keysOf rs library ↔ k ∈ rs.map key ∧ k.library = library := by
  rw [keysOf, List.mem_eraseDups, List.mem_filter, beq_iff_eq]

theorem nodup_keysOf (rs : List ImportRequest) (library : Symbol) : (keysOf rs library).Nodup :=
  nodup_eraseDups _

theorem keysOf_concat_of_ne (h : r.library.id ≠ library) :
    keysOf (rs ++ [r]) library = keysOf rs library := by
  simp [keysOf, h]

theorem keysOf_concat_of_mem (h : r.key ∈ rs.map key) :
    keysOf (rs ++ [r]) r.library.id = keysOf rs r.library.id := by
  have hmem : r.key ∈ (rs.map key).filter (·.library == r.library.id) :=
    List.mem_filter.2 ⟨h, by simp⟩
  simpa [keysOf] using eraseDups_concat_of_mem hmem

theorem keysOf_concat_of_notMem (h : r.key ∉ rs.map key) :
    keysOf (rs ++ [r]) r.library.id = keysOf rs r.library.id ++ [r.key] := by
  have hmem : r.key ∉ (rs.map key).filter (·.library == r.library.id) :=
    fun hmem => h (List.mem_filter.1 hmem).1
  simpa [keysOf] using eraseDups_concat_of_notMem hmem

theorem librariesOf_concat_of_mem (h : r.library.id ∈ librariesOf rs) :
    librariesOf (rs ++ [r]) = librariesOf rs := by
  rw [librariesOf, List.mem_eraseDups] at h
  simpa [librariesOf] using eraseDups_concat_of_mem h

theorem librariesOf_concat_of_notMem (h : r.library.id ∉ librariesOf rs) :
    librariesOf (rs ++ [r]) = librariesOf rs ++ [r.library.id] := by
  rw [librariesOf, List.mem_eraseDups] at h
  simpa [librariesOf] using eraseDups_concat_of_notMem h

theorem idxOf_librariesOf_concat (h : library ∈ librariesOf rs ∨ library = r.library.id) :
    (librariesOf (rs ++ [r])).idxOf library = (librariesOf rs).idxOf library := by
  simp only [librariesOf, List.mem_eraseDups, List.map_append, List.map_singleton] at h ⊢
  exact idxOf_eraseDups_concat h

/-- A later request does not change the slot of a key. -/
theorem slotOf_concat (h : k ∈ rs.map key ∨ k = r.key) : slotOf (rs ++ [r]) k = slotOf rs k := by
  have hlibrary : k.library ∈ librariesOf rs ∨ k.library = r.library.id := by
    refine h.imp (fun hmem => ?_) (congrArg ImportKey.library)
    obtain ⟨r', hr', rfl⟩ := List.mem_map.1 hmem
    exact mem_librariesOf.2 ⟨r', hr', rfl⟩
  rw [slotOf, slotOf, idxOf_librariesOf_concat hlibrary, Slot.mk.injEq]
  refine ⟨rfl, ?_⟩
  -- only a request to the library of the key adds to the keys that are counted
  by_cases hr : r.library.id = k.library
  · have hk : k ∈ (rs.map key).filter (·.library == k.library) ∨ k = r.key :=
      h.imp_left fun hmem => List.mem_filter.2 ⟨hmem, by simp⟩
    simpa [keysOf, hr] using idxOf_eraseDups_concat hk
  · rw [keysOf_concat_of_ne hr]

theorem slotOf_inj {k' : ImportKey} (h : k ∈ rs.map key) :
    slotOf rs k = slotOf rs k' ↔ k = k' := by
  refine ⟨fun hslot => ?_, congrArg _⟩
  obtain ⟨r, hr, rfl⟩ := List.mem_map.1 h
  rw [slotOf, slotOf, Slot.mk.injEq] at hslot
  obtain ⟨hlibrary, hsymbol⟩ := hslot
  have hsame : r.key.library = k'.library :=
    (List.idxOf_inj (mem_librariesOf.2 ⟨r, hr, rfl⟩)).1 hlibrary
  rw [← hsame] at hsymbol
  exact (List.idxOf_inj (mem_keysOf.2 ⟨h, rfl⟩)).1 hsymbol

theorem mem_importersOf {i : Importer} :
    i ∈ importersOf rs k ↔ ∃ r ∈ rs, r.key = k ∧ r.importer = i := by
  simp [importersOf, and_assoc]

theorem importersOf_concat_self :
    importersOf (rs ++ [r]) r.key = importersOf rs r.key ++ [r.importer] := by
  simp [importersOf]

theorem importersOf_concat_of_ne (h : k ≠ r.key) :
    importersOf (rs ++ [r]) k = importersOf rs k := by
  simp [importersOf, h.symm]

theorem importersOf_of_notMem (h : k ∉ rs.map key) : importersOf rs k = [] := by
  have hnone : ∀ r ∈ rs, ¬ (r.key == k) = true := by
    intro r hr hk
    exact h (List.mem_map.2 ⟨r, hr, eq_of_beq hk⟩)
  rw [importersOf, List.filter_eq_nil_iff.2 hnone, List.map_nil]

theorem sharedSlotOf_concat_self :
    sharedSlotOf (rs ++ [r]) r.key = (sharedSlotOf rs r.key).withImporter r.importer := by
  rw [sharedSlotOf, slotOf_concat (.inr rfl), importersOf_concat_self]
  rfl

theorem sharedSlotOf_concat_of_ne (hk : k ∈ rs.map key) (h : k ≠ r.key) :
    sharedSlotOf (rs ++ [r]) k = sharedSlotOf rs k := by
  rw [sharedSlotOf, slotOf_concat (.inl hk), importersOf_concat_of_ne h, sharedSlotOf]

theorem sharedSlotOf_concat_of_notMem (h : r.key ∉ rs.map key) :
    sharedSlotOf (rs ++ [r]) r.key = ⟨slotOf rs r.key, r.symbolName, [r.importer]⟩ := by
  rw [sharedSlotOf, slotOf_concat (.inr rfl), importersOf_concat_self, importersOf_of_notMem h]
  rfl

/-- A request leaves the slots of other keys as they are. -/
theorem map_sharedSlotOf_concat {ks : List ImportKey}
    (h : ∀ k ∈ ks, k ∈ rs.map key ∧ k ≠ r.key) :
    ks.map (fun k => (k, sharedSlotOf (rs ++ [r]) k)) = ks.map fun k => (k, sharedSlotOf rs k) := by
  refine List.map_congr_left fun k hk => ?_
  obtain ⟨hmem, hne⟩ := h k hk
  rw [sharedSlotOf_concat_of_ne hmem hne]

end ImportRequest
end NativeBindings
