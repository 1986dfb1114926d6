import Mathlib.Data.List.Perm.Basic
import NativeBindings.Proofs.DeclarationArena.Numbering

/-!
# Tables of a declaration tree

An arena stores a declaration tree if the cells of the tree stand in its tables at their numbers. The
tables may have more cells, of nodes that were in the tree once, but there is nothing in these. So a
scan of a whole table finds what is in the tree.

## Main definitions

- `Tabulates` — a table holds numbered cells, and nothing else
- `Updates` — a table has new cells, and otherwise those of another table
- `DeclarationArena.Stores` — an arena stores a tree

## Main statements

- `Tabulates.flatMap_perm` — a scan of a table finds what the cells hold
- `DeclarationArena.Stores.members_perm` — a scan of the types finds the entries of the tree
-/

namespace NativeBindings

variable {α γ δ : Type}

/-- A change to a cell that leaves it as it is. -/
theorem modify_eq_self {table : List γ} {p : ℕ} {cell : γ} {g : γ → γ}
    (h : table[p]? = some cell) (hg : g cell = cell) : table.modify p g = table := by
  refine List.ext_getElem? fun i => ?_
  rw [List.getElem?_modify]
  by_cases hi : p = i
  · subst hi
    simp only [h, if_true, Option.map_eq_map, Option.map_some, hg]
  · simp only [hi, if_false, Option.map_eq_map, Option.map_id']

/-- One cell of a table changes, and those at other numbers stay. -/
theorem getElem?_modify_of_mem {table : List γ} {before after : List (ℕ × γ)} {q : ℕ} {cell : γ}
    (h : ∀ x ∈ before ++ (q, cell) :: after, table[x.1]? = some x.2)
    (hnodup : ((before ++ (q, cell) :: after).map (·.1)).Nodup) (g : γ → γ) :
    ∀ x ∈ before ++ (q, g cell) :: after, (table.modify q g)[x.1]? = some x.2 := by
  have hother : ∀ x ∈ before ++ after, q ≠ x.1 := by
    rw [List.map_append, List.map_cons, List.nodup_middle, List.nodup_cons, ← List.map_append]
      at hnodup
    exact fun x hx hq => hnodup.1 (List.mem_map.2 ⟨x, hx, hq.symm⟩)
  intro x hx
  rcases List.mem_append.1 hx with hbefore | hx
  · rw [List.getElem?_modify_ne _ _ (hother x (List.mem_append_left _ hbefore))]
    exact h x (List.mem_append_left _ hbefore)
  · rcases List.mem_cons.1 hx with rfl | hafter
    · have hcell := h (q, cell) (List.mem_append_right _ List.mem_cons_self)
      rw [List.getElem?_modify_eq, hcell, Option.map_eq_map, Option.map_some]
    · rw [List.getElem?_modify_ne _ _ (hother x (List.mem_append_right _ hafter))]
      exact h x (List.mem_append_right _ (List.mem_cons_of_mem _ hafter))

/-- The cells stand in the table at their numbers, and all others are blank. -/
structure Tabulates (table : List γ) (cells : List (ℕ × γ)) (isBlank : γ → Bool) : Prop where
  getElem?_eq : ∀ x ∈ cells, table[x.1]? = some x.2
  isBlank_of_notMem : ∀ i cell, table[i]? = some cell → i ∉ cells.map (·.1) → isBlank cell = true

namespace Tabulates

variable {table : List γ} {cells : List (ℕ × γ)} {isBlank : γ → Bool}

theorem lt_length (h : Tabulates table cells isBlank) {i : ℕ} (hi : i ∈ cells.map (·.1)) :
    i < table.length := by
  obtain ⟨x, hx, rfl⟩ := List.mem_map.1 hi
  exact (List.getElem?_eq_some_iff.1 (h.getElem?_eq x hx)).1

/-- A cell of the table is one of the cells or blank. -/
theorem mem_or_isBlank (h : Tabulates table cells isBlank) {i : ℕ} {cell : γ}
    (hget : table[i]? = some cell) : (i, cell) ∈ cells ∨ isBlank cell = true := by
  by_cases hi : i ∈ cells.map (·.1)
  · obtain ⟨x, hx, rfl⟩ := List.mem_map.1 hi
    have hcell : cell = x.2 := Option.some.inj (hget.symm.trans (h.getElem?_eq x hx))
    subst hcell
    exact .inl hx
  · exact .inr (h.isBlank_of_notMem i cell hget hi)

/-- The cells of the table that are not blank are those that are listed, each once. -/
theorem flatMap_perm (h : Tabulates table cells isBlank) (hnodup : (cells.map (·.1)).Nodup)
    (g : γ → List δ) (hblank : ∀ cell, isBlank cell = true → g cell = []) :
    (table.flatMap g).Perm (cells.flatMap fun x => g x.2) := by
  let content : ℕ → List δ := fun i => (table[i]?).elim [] g
  have htable : table.flatMap g = (List.range table.length).flatMap content := by
    have hcells : (List.range table.length).map (table[·]?) = table.map some :=
      List.ext_getElem? fun i => by by_cases hi : i < table.length <;> simp [hi]
    have hflat := congrArg (List.flatMap fun cell : Option γ => cell.elim [] g) hcells
    rw [List.flatMap_map, List.flatMap_map] at hflat
    exact hflat.symm
  have hlisted : cells.flatMap (fun x => g x.2) = (cells.map (·.1)).flatMap content := by
    rw [List.flatMap_map]
    refine List.flatMap_congr fun x hx => ?_
    simp only [content, h.getElem?_eq x hx, Option.elim_some]
  have hrest : ((List.range table.length).filter fun i => !decide (i ∈ cells.map (·.1))).flatMap
      content = [] := by
    rw [List.flatMap_eq_nil_iff]
    intro i hi
    simp only [List.mem_filter, Bool.not_eq_true', decide_eq_false_iff_not] at hi
    cases hcell : table[i]? with
    | none => simp only [content, hcell, Option.elim_none]
    | some cell =>
      simp only [content, hcell, Option.elim_some]
      exact hblank cell (h.isBlank_of_notMem i cell hcell hi.2)
  have hnumbers : ((List.range table.length).filter fun i => decide (i ∈ cells.map (·.1))).Perm
      (cells.map (·.1)) := by
    refine (List.perm_ext_iff_of_nodup (List.nodup_range.filter _) hnodup).2 fun i => ?_
    rw [List.mem_filter, List.mem_range, decide_eq_true_eq]
    exact ⟨And.right, fun hi => ⟨h.lt_length hi, hi⟩⟩
  have hsplit := ((List.filter_append_perm (fun i => decide (i ∈ cells.map (·.1)))
    (List.range table.length)).flatMap_right content).symm
  rw [List.flatMap_append, hrest, List.append_nil, ← htable] at hsplit
  rw [hlisted]
  exact hsplit.trans (hnumbers.flatMap_right content)

/-- A change to one cell of the table is a change to that cell. -/
theorem modify {before after : List (ℕ × γ)} {q : ℕ} {cell : γ}
    (h : Tabulates table (before ++ (q, cell) :: after) isBlank)
    (hnodup : ((before ++ (q, cell) :: after).map (·.1)).Nodup) (g : γ → γ) :
    Tabulates (table.modify q g) (before ++ (q, g cell) :: after) isBlank := by
  refine ⟨getElem?_modify_of_mem h.getElem?_eq hnodup g, fun i c hget hi => ?_⟩
  have hnumbers : i ∉ (before ++ (q, cell) :: after).map (·.1) := by
    simpa only [List.map_append, List.map_cons] using hi
  have hne : q ≠ i := by
    rintro rfl
    exact hnumbers (List.mem_map.2 ⟨(q, cell), by simp, rfl⟩)
  rw [List.getElem?_modify_ne _ _ hne] at hget
  exact h.isBlank_of_notMem i c hget hnumbers

end Tabulates

/-- A table has been updated: it holds the cells of some nodes, and its old cells except those of
these nodes. -/
structure Updates (old new : List γ) (numbers : List ℕ) (cells : List (ℕ × γ)) (next : ℕ) :
    Prop where
  length_eq : new.length = next
  getElem?_eq : ∀ x ∈ cells, new[x.1]? = some x.2
  getElem?_of_notMem : ∀ i < old.length, i ∉ numbers → new[i]? = old[i]?

namespace Updates

variable {old mid new : List γ} {numbers : List ℕ} {cells rest : List (ℕ × γ)}
  {isBlank : γ → Bool}

/-- A table that has grown holds nothing else, if its new cells have the next numbers. -/
theorem isBlank_of_notMem {before after : List ℕ} {next k : ℕ} (hlength : old.length = next)
    (h : Updates old new numbers cells (next + k))
    (hafter : after.Perm (before ++ List.range' next k)) (hsub : numbers ⊆ before)
    (hold : ∀ i cell, old[i]? = some cell → i ∉ before → isBlank cell = true) (i : ℕ) (cell : γ)
    (hget : new[i]? = some cell) (hi : i ∉ after) : isBlank cell = true := by
  rw [hafter.mem_iff, List.mem_append, List.mem_range'_1, not_or] at hi
  obtain ⟨hlt, -⟩ := List.getElem?_eq_some_iff.1 hget
  rw [h.length_eq] at hlt
  have hlt' : i < old.length := by omega
  rw [h.getElem?_of_notMem i hlt' fun hmem => hi.1 (hsub hmem)] at hget
  exact hold i cell hget hi.1

/-- A cell that is not updated stays as it is. -/
theorem getElem?_eq_of_notMem {next i : ℕ} {cell : γ} (h : Updates old new numbers cells next)
    (hcell : old[i]? = some cell) (hi : i ∉ numbers) : new[i]? = some cell := by
  rw [h.getElem?_of_notMem i (List.getElem?_eq_some_iff.1 hcell).1 hi, hcell]

theorem refl (table : List γ) : Updates table table [] [] table.length :=
  ⟨rfl, List.forall_mem_nil _, fun _ _ _ => rfl⟩

/-- An update of a table that has got one more cell, which has changed since. -/
theorem of_concat {number next : ℕ} {cell : γ} {g : γ → γ} (hnumber : number = old.length)
    (h : Updates ((old ++ [cell]).modify number g) new [] cells next) :
    Updates old new [] ((number, g cell) :: cells) next := by
  subst hnumber
  refine ⟨h.length_eq, List.forall_mem_cons.2 ⟨?_, h.getElem?_eq⟩, fun i hi _ => ?_⟩
  · refine h.getElem?_eq_of_notMem ?_ List.not_mem_nil
    rw [List.getElem?_modify_eq, List.getElem?_concat_length, Option.map_eq_map, Option.map_some]
  · have hlast : i < ((old ++ [cell]).modify old.length g).length := by
      rw [List.length_modify, List.length_append]
      exact Nat.lt_add_right _ hi
    rw [h.getElem?_of_notMem i hlast List.not_mem_nil, List.getElem?_modify_ne _ _ (Nat.ne_of_gt hi),
      List.getElem?_append_left hi]

/-- Two updates of different cells, one after the other. -/
theorem append {numbers' : List ℕ} {cells' : List (ℕ × γ)}
    (h : Updates old mid numbers cells old.length)
    (h' : Updates mid new numbers' cells' mid.length)
    (hdisjoint : ∀ x ∈ cells, x.1 ∉ numbers') :
    Updates old new (numbers ++ numbers') (cells ++ cells') old.length := by
  refine ⟨h'.length_eq.trans h.length_eq, List.forall_mem_append.2 ⟨fun x hx => ?_, h'.getElem?_eq⟩,
    fun i hi hnumbers => ?_⟩
  · exact h'.getElem?_eq_of_notMem (h.getElem?_eq x hx) (hdisjoint x hx)
  · rw [List.mem_append, not_or] at hnumbers
    rw [h'.getElem?_of_notMem i (by rwa [h.length_eq]) hnumbers.2,
      h.getElem?_of_notMem i hi hnumbers.1]

/-- An update of one more cell, or of one of the cells again. -/
theorem set {i : ℕ} (h : Updates old mid numbers cells old.length) (hi : i < old.length) (cell : γ)
    (hrest : ∀ x ∈ rest, x ∈ cells ∧ x.1 ≠ i) {numbers' : List ℕ} (hsub : numbers ⊆ i :: numbers') :
    Updates old (mid.set i cell) (i :: numbers') ((i, cell) :: rest) old.length := by
  refine ⟨(List.length_set).trans h.length_eq, List.forall_mem_cons.2 ⟨?_, fun x hx => ?_⟩,
    fun j hj hnumbers => ?_⟩
  · exact List.getElem?_set_self (by rwa [h.length_eq])
  · rw [List.getElem?_set_ne (hrest x hx).2.symm]
    exact h.getElem?_eq x (hrest x hx).1
  · have hne : i ≠ j := fun e => hnumbers (e ▸ List.mem_cons_self)
    rw [List.getElem?_set_ne hne]
    exact h.getElem?_of_notMem j hj fun hmem => hnumbers (hsub hmem)

end Updates

/-- After an update of all cells, those that are left stand in the table if the others are blank. -/
theorem Tabulates.update {old new : List γ} {cells kept : List (ℕ × γ)} {updated : List (ℕ × γ)}
    {isBlank : γ → Bool} (h : Tabulates old cells isBlank)
    (hupdates : Updates old new (updated.map (·.1)) updated old.length)
    (hcells : cells.map (·.1) ⊆ updated.map (·.1)) (hkept : kept ⊆ updated)
    (hblank : ∀ x ∈ updated, x.1 ∉ kept.map (·.1) → isBlank x.2 = true) :
    Tabulates new kept isBlank := by
  refine ⟨fun x hx => hupdates.getElem?_eq x (hkept hx), fun i cell hget hi => ?_⟩
  by_cases hupdated : i ∈ updated.map (·.1)
  · obtain ⟨x, hx, rfl⟩ := List.mem_map.1 hupdated
    have hcell : cell = x.2 := Option.some.inj (hget.symm.trans (hupdates.getElem?_eq x hx))
    rw [hcell]
    exact hblank x hx hi
  · have hlt := (List.getElem?_eq_some_iff.1 hget).1
    rw [hupdates.getElem?_of_notMem i (hupdates.length_eq ▸ hlt) hupdated] at hget
    exact h.isBlank_of_notMem i cell hget fun hmem => hupdated (hcells hmem)

namespace DeclarationArena

/-- The cells of the tree stand in the tables of the arena, which have a cell for every node that was
ever in the tree. -/
structure Stores (a : DeclarationArena α) (t : DeclarationTree α) : Prop where
  pass_eq : a.pass = t.pass
  refused_eq : a.refused = t.refused
  length_namespaces : a.namespaces.length = t.nextNamespace
  length_types : a.types.length = t.nextType
  namespaces : Tabulates a.namespaces t.namespaceCells (·.isEmpty)
  types : Tabulates a.types t.typeCells (·.isEmpty)

theorem stores_empty (pass : Pass) : (empty pass : DeclarationArena α).Stores (.empty pass) where
  pass_eq := rfl
  refused_eq := rfl
  length_namespaces := rfl
  length_types := rfl
  namespaces := by
    constructor
    · simp [DeclarationTree.namespaceCells, DeclarationTree.empty, NamespaceForest.cells, empty,
        NamespaceForest.childMap, TypeForest.childMap]
    · intro i cell hget hi
      obtain ⟨hlt, -⟩ := List.getElem?_eq_some_iff.1 hget
      obtain rfl : i = 0 := by simpa [empty] using hlt
      exact absurd (List.mem_map_of_mem List.mem_cons_self) hi
  types := ⟨List.forall_mem_nil _, fun i cell hget _ => by simp [empty] at hget⟩

namespace Stores

variable {a : DeclarationArena α} {t : DeclarationTree α}

/-- The cell of the global namespace. -/
theorem getElem?_zero (h : a.Stores t) :
    a.namespaces[0]? = some ⟨"", t.namespaces.childMap, t.types.childMap⟩ :=
  h.namespaces.getElem?_eq _ List.mem_cons_self

theorem isEmpty?_eq (h : a.Stores t) : a.isEmpty? = some t.isEmpty := by
  rw [isEmpty?, h.getElem?_zero, Option.map_some, NamespaceCell.isEmpty,
    NamespaceForest.isEmpty_childMap, TypeForest.isEmpty_childMap, Bool.and_comm,
    DeclarationTree.isEmpty]

/-- A scan of all types finds the entries of the tree. -/
theorem members_perm (h : a.Stores t) (ht : t.IsNumbered) :
    (a.types.flatMap (·.members)).Perm t.entries := by
  rw [t.entries_eq_flatMap]
  refine h.types.flatMap_perm ?_ (·.members) fun cell hblank => ?_
  · rw [DeclarationTree.map_fst_typeCells]
    exact ht.types_nodup
  · rw [TypeCell.isEmpty, Bool.and_eq_true, List.isEmpty_iff, List.isEmpty_iff] at hblank
    exact hblank.2

theorem isKnown_eq (h : a.Stores t) (ht : t.IsNumbered) (member : Symbol) :
    a.isKnown member = t.isKnown member := by
  have hscan : (a.types.any fun cell => cell.members.any (·.1 == member)) =
      t.entries.any (·.1 == member) := by
    rw [← (h.members_perm ht).any_eq, List.any_flatMap]
  rw [isKnown, DeclarationTree.isKnown, h.refused_eq, hscan]

theorem refuse (h : a.Stores t) (member : Symbol) : (a.refuse member).Stores (t.refuse member) := by
  unfold DeclarationArena.refuse DeclarationTree.refuse
  rw [h.refused_eq]
  split
  · exact h
  · exact { h with refused_eq := rfl }

end Stores
end DeclarationArena
end NativeBindings
