import Mathlib.Algebra.Group.Nat.Defs
import NativeBindings.Proofs.SlotTable.FirstUse
import NativeBindings.Proofs.Symbol.Interning

/-!
# Numbering of symbols

A run of internings from the empty table hands out consecutive numbers, one for each key, in the
order in which the keys are first interned. Later calls change neither the symbols that were handed
out nor what the table says about them.

## Main definitions

- `Symbol.word` — a symbol as it is kept
- `SymbolTable.Lists` — keys and symbols in the order of first internings
- `SymbolTable.Numbers` — what this means for callers

## Main statements

- `SymbolTable.lists_mapM_internKey` — runs list their keys
- `SymbolTable.numbers_mapM_internKey` — runs number their keys
-/

namespace NativeBindings

/-- A symbol as it is kept, in 32 bits. -/
def Symbol.word (id : Symbol) : UInt32 := .ofNat id.index

namespace SymbolTable

variable {t : SymbolTable} {key : String} {id : Symbol} {ids : List Symbol}
  {before after ks : List String} {i : ℕ}

/-! ## Runs -/

theorem idxOf_eraseDups_append_of_mem (h : key ∈ before) (after : List String) :
    (before ++ after).eraseDups.idxOf key = before.eraseDups.idxOf key := by
  rw [List.eraseDups_append, List.idxOf_append_of_mem (List.mem_eraseDups.2 h)]

/-- A key is numbered by its place among the different keys. -/
theorem intern_eq (h : t.keys = before.eraseDups) (key : String) :
    (t.intern key).1 = ⟨(before ++ [key]).eraseDups.idxOf key⟩ ∧
      (t.intern key).2.keys = (before ++ [key]).eraseDups := by
  have hmem : key ∈ t.keys ↔ key ∈ before := by rw [h, List.mem_eraseDups]
  rw [keys_intern, intern]
  by_cases hbefore : key ∈ before
  · rw [dif_pos (hmem.2 hbefore), if_pos (hmem.2 hbefore), eraseDups_concat_of_mem hbefore, h]
    exact ⟨rfl, rfl⟩
  · rw [dif_neg (mt hmem.1 hbefore), if_neg (mt hmem.1 hbefore),
      eraseDups_concat_of_notMem hbefore,
      List.idxOf_append_of_notMem (mt List.mem_eraseDups.1 hbefore), List.idxOf_cons_self, ← h]
    exact ⟨rfl, rfl⟩

theorem run_mapM_internKey (h : t.keys = before.eraseDups) (ks : List String) :
    ((ks.mapM internKey).run t).1 = ks.map (fun key => ⟨(before ++ ks).eraseDups.idxOf key⟩) ∧
      ((ks.mapM internKey).run t).2.keys = (before ++ ks).eraseDups := by
  induction ks generalizing t before with
  | nil => exact ⟨rfl, by rw [List.append_nil]; exact h⟩
  | cons key ks ih =>
    obtain ⟨hid, hkeys⟩ := intern_eq h key
    obtain ⟨hids, hkeys'⟩ := ih hkeys
    have happend : before ++ [key] ++ ks = before ++ key :: ks := by simp
    rw [happend] at hids hkeys'
    -- later keys leave the number of this one as it is
    have hfirst : (t.intern key).1 = ⟨(before ++ key :: ks).eraseDups.idxOf key⟩ := by
      rw [hid, ← happend, idxOf_eraseDups_append_of_mem List.mem_concat_self]
    rw [List.mapM_cons]
    exact ⟨by rw [List.map_cons, ← hids, ← hfirst]; rfl, hkeys'⟩

/-- The table `t` lists the different keys of a run `ks` in the order of their first internings, and
every call has been given the place of its key in this list. -/
structure Lists (ks : List String) (ids : List Symbol) (t : SymbolTable) : Prop where
  ids_eq : ids = ks.map fun key => ⟨ks.eraseDups.idxOf key⟩
  keys_eq : t.keys = ks.eraseDups

theorem lists_mapM_internKey (ks : List String) :
    let r := (ks.mapM internKey).run empty
    Lists ks r.1 r.2 := by
  have hempty : (empty : SymbolTable).keys = ([] : List String).eraseDups := rfl
  obtain ⟨hids, hkeys⟩ := run_mapM_internKey hempty ks
  exact ⟨hids, hkeys⟩

namespace Lists

theorem getElem?_eq (h : Lists ks ids t) (hkey : ks[i]? = some key) :
    ids[i]? = some ⟨ks.eraseDups.idxOf key⟩ := by
  rw [h.ids_eq, List.getElem?_map, hkey]
  rfl

theorem get?_eq_of_mem (h : Lists ks ids t) (hkey : key ∈ ks) :
    t.get? key = some ⟨ks.eraseDups.idxOf key⟩ := by
  rw [get?_eq_some_iff, resolve?, h.keys_eq]
  exact List.getElem?_idxOf (List.mem_eraseDups.2 hkey)

theorem get?_eq_getElem? (h : Lists ks ids t) (hkey : ks[i]? = some key) :
    t.get? key = ids[i]? := by
  rw [h.getElem?_eq hkey, h.get?_eq_of_mem (List.mem_of_getElem? hkey)]

theorem mem_of_get? (h : Lists ks ids t) (hid : t.get? key = some id) : key ∈ ks := by
  rw [get?_eq_some_iff, resolve?, h.keys_eq] at hid
  exact List.mem_eraseDups.1 (List.mem_of_getElem? hid)

/-- The symbols that are handed out are those that stand for a key. -/
theorem mem_iff (h : Lists ks ids t) : id ∈ ids ↔ ∃ key, t.resolve? id = some key := by
  rw [h.ids_eq, List.mem_map]
  constructor
  · rintro ⟨key, hkey, rfl⟩
    exact ⟨key, get?_eq_some_iff.1 (h.get?_eq_of_mem hkey)⟩
  · rintro ⟨key, hkey⟩
    have hget := get?_eq_some_iff.2 hkey
    have hmem := h.mem_of_get? hget
    rw [h.get?_eq_of_mem hmem] at hget
    exact ⟨key, hmem, Option.some.inj hget⟩

theorem index_lt_size_iff (h : Lists ks ids t) : id.index < t.size ↔ id ∈ ids := by
  rw [h.mem_iff, size, resolve?, ← Option.isSome_iff_exists, isSome_getElem?]

/-- A key that was not interned before gets the next number. -/
theorem getElem?_first (h : Lists ks ids t) (hks : ks = before ++ key :: after)
    (hkey : key ∉ before) : ids[before.length]? = some ⟨before.eraseDups.length⟩ := by
  have hget : ks[before.length]? = some key := by rw [hks]; simp
  have hplace : ks.eraseDups.idxOf key = before.eraseDups.length := by
    rw [hks, List.append_cons, idxOf_eraseDups_append_of_mem List.mem_concat_self,
      eraseDups_concat_of_notMem hkey,
      List.idxOf_append_of_notMem (mt List.mem_eraseDups.1 hkey), List.idxOf_cons_self,
      Nat.add_zero]
  rw [h.getElem?_eq hget, hplace]

/-- What the beginning of a run has handed out stays what it is. -/
theorem kept (h : Lists (before ++ after) ids t) {ids' : List Symbol} {t' : SymbolTable}
    (h' : Lists before ids' t') :
    ids' <+: ids ∧ (∀ key ∈ before, t'.get? key = t.get? key) ∧
      ∀ id ∈ ids', t'.resolve? id = t.resolve? id := by
  have hextends : t'.Extends t := by
    rw [Extends, h.keys_eq, h'.keys_eq, List.eraseDups_append]
    exact List.prefix_append _ _
  refine ⟨?_, fun key hkey => ?_, fun id hid => ?_⟩
  · have hfirst : ids' = before.map fun key => ⟨(before ++ after).eraseDups.idxOf key⟩ := by
      rw [h'.ids_eq]
      refine List.map_congr_left fun key hkey => ?_
      rw [idxOf_eraseDups_append_of_mem hkey]
    rw [h.ids_eq, List.map_append, ← hfirst]
    exact List.prefix_append _ _
  · have hget := h'.get?_eq_of_mem hkey
    rw [hget, hextends.get? hget]
  · obtain ⟨key, hkey⟩ := h'.mem_iff.1 hid
    rw [hkey, hextends.resolve? hkey]

end Lists

/-! ## What callers see -/

/-- The symbols `ids` of a run of internings number its keys `ks`, and the table `t` at the end of
the run knows the numbers. -/
structure Numbers (ks : List String) (ids : List Symbol) (t : SymbolTable) : Prop where
  /-- Every call is given a symbol. -/
  length_eq : ids.length = ks.length
  /-- Two calls are given the same symbol exactly if they intern the same key. -/
  eq_iff : ∀ i < ks.length, ∀ j < ks.length, ids[i]? = ids[j]? ↔ ks[i]? = ks[j]?
  /-- There is one number for each different key. -/
  size_eq : t.size = ks.eraseDups.length
  /-- The numbers that are handed out are those below the size of the table. -/
  mem_iff : ∀ id, id ∈ ids ↔ id.index < t.size
  /-- A key that was not interned before gets the next number. -/
  getElem?_first : ∀ before key after, ks = before ++ key :: after → key ∉ before →
    ids[before.length]? = some ⟨before.eraseDups.length⟩
  /-- Later calls change neither the symbols that were handed out nor what is known about them. -/
  kept : ∀ before after, ks = before ++ after →
    let r := (before.mapM internKey).run empty
    r.1 <+: ids ∧ (∀ key ∈ before, r.2.get? key = t.get? key) ∧
      ∀ id ∈ r.1, r.2.resolve? id = t.resolve? id
  /-- An interned key is looked up as the symbol that it was given. -/
  get?_eq : ∀ (i : ℕ) key, ks[i]? = some key → t.get? key = ids[i]?
  /-- No other key has a symbol. -/
  get?_eq_none : ∀ key, key ∉ ks → t.get? key = none
  /-- A symbol stands for the key that it was given to. -/
  resolve?_eq : ∀ (i : ℕ) id, ids[i]? = some id → t.resolve? id = ks[i]?
  /-- No other number stands for a key. -/
  resolve?_eq_none : ∀ id, id ∉ ids → t.resolve? id = none
  /-- The words in which the symbols are kept hold their numbers. -/
  toNat_word : ∀ id ∈ ids, id.word.toNat = id.index

/-- A run of internings with fewer than 2³² different keys numbers its keys. -/
theorem numbers_mapM_internKey (ks : List String) (h : ks.eraseDups.length < 2 ^ 32) :
    let r := (ks.mapM internKey).run empty
    Numbers ks r.1 r.2 := by
  have hlists := lists_mapM_internKey ks
  generalize (ks.mapM internKey).run empty = r at hlists
  obtain ⟨ids, t⟩ := r
  dsimp only at hlists ⊢
  have hlength : ids.length = ks.length := by rw [hlists.ids_eq, List.length_map]
  have hsize : t.size = ks.eraseDups.length := by rw [size, hlists.keys_eq]
  refine ⟨hlength, fun i hi j hj => ?_, hsize, fun id => hlists.index_lt_size_iff.symm,
    fun before key after => hlists.getElem?_first, fun before after hks => ?_,
    fun i key => hlists.get?_eq_getElem?, fun key hkey => ?_, fun i id hid => ?_, fun id hid => ?_,
    fun id hid => ?_⟩
  · have hkey := hlists.get?_eq_getElem? (List.getElem?_eq_getElem hi)
    have hkey' := hlists.get?_eq_getElem? (List.getElem?_eq_getElem hj)
    rw [List.getElem?_eq_getElem hi, List.getElem?_eq_getElem hj, ← hkey, ← hkey',
      Option.some.injEq]
    refine ⟨fun hids => ?_, fun hkeys => by rw [hkeys]⟩
    have hget := hlists.get?_eq_of_mem (List.getElem_mem hi)
    exact get?_inj hget (hids ▸ hget)
  · subst hks
    exact hlists.kept (lists_mapM_internKey before)
  · rw [Option.eq_none_iff_forall_ne_some]
    exact fun id hid => hkey (hlists.mem_of_get? hid)
  · obtain ⟨hi, -⟩ := List.getElem?_eq_some_iff.1 hid
    have hkey := List.getElem?_eq_getElem (hlength ▸ hi)
    rw [hkey, ← get?_eq_some_iff, hlists.get?_eq_getElem? hkey, hid]
  · rw [Option.eq_none_iff_forall_ne_some]
    exact fun key hkey => hid (hlists.mem_iff.2 ⟨key, hkey⟩)
  · have hlt : id.index < 2 ^ 32 := by
      rw [← hlists.index_lt_size_iff, hsize] at hid
      exact Nat.lt_trans hid h
    exact UInt32.toNat_ofNat_of_lt' hlt

/-- A namespace that comes back between a type and a member. -/
theorem numbers_repeatedKeys :
    ["N:Demo", "T:Demo.Sdl", "N:Demo", "M:Demo.Sdl.Quit()"].eraseDups.length < 2 ^ 32 ∧
      let r := (["N:Demo", "T:Demo.Sdl", "N:Demo", "M:Demo.Sdl.Quit()"].mapM internKey).run empty
      Numbers ["N:Demo", "T:Demo.Sdl", "N:Demo", "M:Demo.Sdl.Quit()"] r.1 r.2 :=
  have hlength : ["N:Demo", "T:Demo.Sdl", "N:Demo", "M:Demo.Sdl.Quit()"].eraseDups.length < 2 ^ 32 :=
    by decide
  ⟨hlength, numbers_mapM_internKey _ hlength⟩

end SymbolTable
end NativeBindings
