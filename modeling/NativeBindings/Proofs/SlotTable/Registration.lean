import Mathlib.Data.List.Nodup
import NativeBindings.SlotTable

/-!
# One registration

A slot is filed under its key: the library, the condition and the name that its importers agree on.
Registering a request either finds the slot of the key and adds an importer to it, or files a new
slot with the next number of the library. Everything else in the library stays where it is.

## Main definitions

- `ImportKey` — what the importers of a slot agree on
- `LibrarySlots.filed` — the slots of a library with their keys

## Main statements

- `LibrarySlots.register_cases` — what one registration does to the slots of a library
- `SlotTable.exists_libraries_register` — a registration changes one library
-/

namespace NativeBindings

/-- What the importers of a slot agree on. -/
structure ImportKey where
  library : Symbol
  condition : Option Symbol
  symbolName : String
  deriving DecidableEq

def ImportRequest.key (r : ImportRequest) : ImportKey :=
  ⟨r.library.id, r.condition.map (·.id), r.symbolName⟩

namespace SharedSlot

variable {name : String} {slot : Slot} {ss : List SharedSlot}

/-- The slot with one more importer. -/
def withImporter (i : Importer) (s : SharedSlot) : SharedSlot :=
  { s with importers := s.importers ++ [i] }

/-- The slot under its key. -/
def stamp (library : Symbol) (condition : Option Symbol) (s : SharedSlot) :
    ImportKey × SharedSlot :=
  (⟨library, condition, s.symbolName⟩, s)

theorem slotOf?_eq_none : slotOf? name ss = none ↔ name ∉ ss.map (·.symbolName) := by
  simp [slotOf?]

theorem addImporter_of_slotOf?_eq_none (h : slotOf? name ss = none) (fresh : Slot) (i : Importer) :
    addImporter name fresh i ss = ss ++ [⟨fresh, name, [i]⟩] := by
  rw [slotOf?_eq_none] at h
  induction ss with
  | nil => rfl
  | cons s ss ih =>
    rw [List.map_cons, List.mem_cons, not_or] at h
    rw [addImporter, if_neg (Ne.symm h.1), ih h.2, List.cons_append]

/-- A name that has a slot gets no other one. -/
theorem exists_addImporter_of_slotOf? (h : slotOf? name ss = some slot) :
    ∃ before s after, ss = before ++ s :: after ∧ s.symbolName = name ∧ s.slot = slot ∧
      ∀ fresh i, addImporter name fresh i ss = before ++ s.withImporter i :: after := by
  induction ss with
  | nil => simp [slotOf?] at h
  | cons s ss ih =>
    by_cases hs : s.symbolName = name
    · have hslot : s.slot = slot := by simpa [slotOf?, hs] using h
      refine ⟨[], s, ss, rfl, hs, hslot, fun fresh i => ?_⟩
      rw [addImporter, if_pos hs]
      rfl
    · have hrest : slotOf? name ss = some slot := by simpa [slotOf?, hs] using h
      obtain ⟨before, s', after, rfl, hname, hslot, hadd⟩ := ih hrest
      refine ⟨s :: before, s', after, rfl, hname, hslot, fun fresh i => ?_⟩
      rw [addImporter, if_neg hs, hadd, List.cons_append]

end SharedSlot

namespace GatedSlots

/-- An importer is added behind one condition, which may be a new one. -/
theorem addImporter_cases (c : NamedType) (name : String) (fresh : Slot) (i : Importer)
    (gs : List GatedSlots) :
    (c.id ∉ gs.map (·.condition.id) ∧ gs.find? (·.condition.id == c.id) = none ∧
      addImporter c name fresh i gs = gs ++ [⟨c, SharedSlot.addImporter name fresh i []⟩]) ∨
    ∃ before g after, gs = before ++ g :: after ∧ g.condition.id = c.id ∧
      gs.find? (·.condition.id == c.id) = some g ∧
      addImporter c name fresh i gs =
        before ++ { g with slots := SharedSlot.addImporter name fresh i g.slots } :: after := by
  induction gs with
  | nil => exact .inl ⟨by simp, rfl, rfl⟩
  | cons g gs ih =>
    by_cases hg : g.condition.id = c.id
    · refine .inr ⟨[], g, gs, rfl, hg, by simp [hg], ?_⟩
      rw [addImporter, if_pos hg, List.nil_append]
    · rcases ih with ⟨hnew, hfind, hadd⟩ | ⟨before, g', after, rfl, hg', hfind, hadd⟩
      · refine .inl ⟨by simpa [Ne.symm hg] using hnew, by simpa [hg] using hfind, ?_⟩
        rw [addImporter, if_neg hg, hadd, List.cons_append]
      · refine .inr ⟨g :: before, g', after, rfl, hg', by simpa [hg] using hfind, ?_⟩
        rw [addImporter, if_neg hg, hadd, List.cons_append]

/-- The slots behind a condition of a library, under their keys. -/
def filed (library : Symbol) (g : GatedSlots) : List (ImportKey × SharedSlot) :=
  g.slots.map (SharedSlot.stamp library (some g.condition.id))

theorem condition_of_mem_filed {library : Symbol} {g : GatedSlots} {e : ImportKey × SharedSlot}
    (h : e ∈ g.filed library) : e.1.condition = some g.condition.id := by
  obtain ⟨s, -, rfl⟩ := List.mem_map.1 h
  rfl

end GatedSlots

namespace LibrarySlots

/-- The slots with their keys, those without a condition first. -/
def filed (l : LibrarySlots) : List (ImportKey × SharedSlot) :=
  l.slots.map fun (c, s) => s.stamp l.library.id (c.map (·.id))

/-- The conditions of a library, once each. -/
def HasDistinctConditions (l : LibrarySlots) : Prop := (l.conditional.map (·.condition.id)).Nodup

variable (l : LibrarySlots) (r : ImportRequest)

@[simp] theorem index_register : (l.register r).2.index = l.index := by
  unfold register
  split <;> rfl

@[simp] theorem library_register : (l.register r).2.library = l.library := by
  unfold register
  split <;> rfl

theorem mem_filed {l : LibrarySlots} {k : ImportKey} {s : SharedSlot} : (k, s) ∈ l.filed ↔
    ∃ c, (c, s) ∈ l.slots ∧ k = ⟨l.library.id, c.map (·.id), s.symbolName⟩ := by
  simp only [filed, List.mem_map, SharedSlot.stamp, Prod.mk.injEq, Prod.exists]
  constructor
  · rintro ⟨c, s, hs, rfl, rfl⟩
    exact ⟨c, hs, rfl⟩
  · rintro ⟨c, hs, rfl⟩
    exact ⟨c, s, hs, rfl, rfl⟩

theorem pairwise_slots : l.slots.Pairwise fun a b => b.1 = none → a.1 = none := by
  have hconditional : ∀ b ∈ l.conditional.flatMap fun g => g.slots.map (some g.condition, ·),
      b.1 ≠ none := by
    intro b hb
    obtain ⟨g, -, hb⟩ := List.mem_flatMap.1 hb
    obtain ⟨s, -, rfl⟩ := List.mem_map.1 hb
    exact Option.some_ne_none g.condition
  refine List.pairwise_append.2 ⟨?_, ?_, fun a ha b hb hnone => absurd hnone (hconditional b hb)⟩
  · exact List.pairwise_map.2 (List.pairwise_of_forall fun _ _ _ => rfl)
  · exact List.pairwise_of_forall_mem_list fun a _ b hb hnone => absurd hnone (hconditional b hb)

/-- The slots of a library, without those behind conditions and with them. -/
theorem filed_eq : l.filed =
    l.unconditional.map (SharedSlot.stamp l.library.id none) ++
      l.conditional.flatMap (GatedSlots.filed l.library.id) := by
  simp only [filed, slots, List.map_append, List.map_map, List.map_flatMap]
  rfl

/-- A registration changes the slots behind one condition. -/
theorem exists_filed_register (h : l.HasDistinctConditions) :
    let stamp := SharedSlot.stamp l.library.id (r.condition.map (·.id))
    ∃ before after,
      l.filed = before ++ (l.slotsBehind (r.condition.map (·.id))).map stamp ++ after ∧
      (l.register r).2.filed = before ++ (SharedSlot.addImporter r.symbolName
        ⟨l.index, l.slotCount⟩ r.importer (l.slotsBehind (r.condition.map (·.id)))).map stamp ++
          after ∧
      (∀ e ∈ before ++ after, e.1.condition ≠ r.condition.map (·.id)) ∧
      (l.register r).2.HasDistinctConditions := by
  obtain ⟨library, condition, name, i⟩ := r
  cases condition with
  | none =>
    -- slots without a condition are filed in front of all others
    refine ⟨[], l.conditional.flatMap (GatedSlots.filed l.library.id), filed_eq l, ?_, ?_, h⟩
    · exact filed_eq _
    · intro e he
      obtain ⟨g, -, he⟩ := List.mem_flatMap.1 he
      rw [GatedSlots.condition_of_mem_filed he]
      exact Option.some_ne_none g.condition.id
  | some c =>
    have hunconditional : ∀ e ∈ l.unconditional.map (SharedSlot.stamp l.library.id none),
        e.1.condition ≠ some c.id := by
      intro e he
      obtain ⟨s, -, rfl⟩ := List.mem_map.1 he
      exact (Option.some_ne_none c.id).symm
    have hgated : ∀ gs : List GatedSlots, c.id ∉ gs.map (·.condition.id) →
        ∀ e ∈ gs.flatMap (GatedSlots.filed l.library.id), e.1.condition ≠ some c.id := by
      intro gs hgs e he hcondition
      obtain ⟨g, hg, he⟩ := List.mem_flatMap.1 he
      rw [GatedSlots.condition_of_mem_filed he, Option.some.injEq] at hcondition
      exact hgs (List.mem_map.2 ⟨g, hg, hcondition⟩)
    rcases GatedSlots.addImporter_cases c name ⟨l.index, l.slotCount⟩ i l.conditional with
      ⟨hnew, hfind, hadd⟩ | ⟨before, g, after, hgs, hg, hfind, hadd⟩
    · -- the condition is new: its first slot goes behind all others
      refine ⟨l.filed, [], by simp [slotsBehind, hfind], ?_, ?_, ?_⟩
      · rw [filed_eq, filed_eq]
        simp [register, slotsBehind, hfind, hadd, GatedSlots.filed]
      · rw [filed_eq, List.append_nil]
        exact fun e he => (List.mem_append.1 he).elim (hunconditional e) (hgated _ hnew e)
      · have hconditions : (l.register ⟨library, some c, name, i⟩).2.conditional.map
            (·.condition.id) = l.conditional.map (·.condition.id) ++ [c.id] := by
          simp [register, hadd]
        rw [HasDistinctConditions, hconditions]
        exact List.nodup_append.2 ⟨h, List.nodup_singleton _, by simpa using hnew⟩
    · -- the condition is there, once, so that the slots around it are behind other conditions
      have hids : (before.map (·.condition.id) ++ c.id :: after.map (·.condition.id)).Nodup := by
        simpa [HasDistinctConditions, hgs, hg] using h
      have hothers : c.id ∉ (before ++ after).map (·.condition.id) := by
        rw [List.map_append]
        exact (List.nodup_cons.1 (List.nodup_middle.1 hids)).1
      refine ⟨l.unconditional.map (SharedSlot.stamp l.library.id none) ++
        before.flatMap (GatedSlots.filed l.library.id),
        after.flatMap (GatedSlots.filed l.library.id), ?_, ?_, ?_, ?_⟩
      · rw [filed_eq, hgs]
        simp [slotsBehind, hfind, GatedSlots.filed, hg]
      · rw [filed_eq]
        simp [register, slotsBehind, hfind, hadd, GatedSlots.filed, hg]
      · intro e he
        rw [List.append_assoc, ← List.flatMap_append] at he
        exact (List.mem_append.1 he).elim (hunconditional e) (hgated _ hothers e)
      · have hconditions : (l.register ⟨library, some c, name, i⟩).2.conditional.map
            (·.condition.id) = l.conditional.map (·.condition.id) := by
          simp only [register, hadd]
          simp [hgs]
        rw [HasDistinctConditions, hconditions]
        exact h

/-- What one registration does to the slots of a library: the key is filed already and its slot gets
one more importer, or it is filed with a new slot. -/
theorem register_cases (h : l.HasDistinctConditions) (hlib : r.library.id = l.library.id) :
    (∃ before s after, l.filed = before ++ (r.key, s) :: after ∧
      (l.register r).2.filed = before ++ (r.key, s.withImporter r.importer) :: after ∧
      (l.register r).1 = s.slot ∧ (l.register r).2.slotCount = l.slotCount) ∨
    (r.key ∉ l.filed.map (·.1) ∧ ∃ before after, l.filed = before ++ after ∧
      (l.register r).2.filed =
        before ++ (r.key, ⟨(l.register r).1, r.symbolName, [r.importer]⟩) :: after ∧
      (l.register r).1 = ⟨l.index, l.slotCount⟩ ∧
      (l.register r).2.slotCount = l.slotCount + 1) := by
  obtain ⟨before, after, hfiled, hfiled', hothers, -⟩ := l.exists_filed_register r h
  cases hslot : SharedSlot.slotOf? r.symbolName (l.slotsBehind (r.condition.map (·.id))) with
  | some slot =>
    obtain ⟨ss, s, ss', hss, hname, hs, hadd⟩ := SharedSlot.exists_addImporter_of_slotOf? hslot
    have hstamp : SharedSlot.stamp l.library.id (r.condition.map (·.id)) s = (r.key, s) := by
      rw [SharedSlot.stamp, ImportRequest.key, hlib, hname]
    have hstamp' : SharedSlot.stamp l.library.id (r.condition.map (·.id))
        (s.withImporter r.importer) = (r.key, s.withImporter r.importer) := by
      rw [SharedSlot.stamp, ImportRequest.key, hlib, ← hname]
      rfl
    rw [hadd, List.map_append, List.map_cons, hstamp'] at hfiled'
    rw [hss, List.map_append, List.map_cons, hstamp] at hfiled
    refine .inl ⟨before ++ ss.map (SharedSlot.stamp l.library.id (r.condition.map (·.id))), s,
      ss'.map (SharedSlot.stamp l.library.id (r.condition.map (·.id))) ++ after, ?_, ?_, ?_, ?_⟩
    · simpa using hfiled
    · simpa using hfiled'
    · simp [register, hslot, hs]
    · simp only [register]
      split <;> simp [hslot]
  | none =>
    have hfresh : (l.register r).1 = ⟨l.index, l.slotCount⟩ := by simp [register, hslot]
    have hadd := SharedSlot.addImporter_of_slotOf?_eq_none hslot ⟨l.index, l.slotCount⟩ r.importer
    have hstamp : SharedSlot.stamp l.library.id (r.condition.map (·.id))
        ⟨⟨l.index, l.slotCount⟩, r.symbolName, [r.importer]⟩ =
          (r.key, ⟨(l.register r).1, r.symbolName, [r.importer]⟩) := by
      rw [SharedSlot.stamp, ImportRequest.key, hlib, hfresh]
    rw [hadd, List.map_append, List.map_singleton, hstamp] at hfiled'
    refine .inr ⟨?_, _, after, hfiled, ?_, hfresh, ?_⟩
    · rw [SharedSlot.slotOf?_eq_none] at hslot
      intro hmem
      obtain ⟨e, he, hkey⟩ := List.mem_map.1 hmem
      have hcondition : e.1.condition = r.condition.map (·.id) := by rw [hkey]; rfl
      rw [hfiled, List.append_assoc, List.mem_append, List.mem_append] at he
      rcases he with he | he | he
      · exact hothers e (List.mem_append_left _ he) hcondition
      · obtain ⟨s, hs, rfl⟩ := List.mem_map.1 he
        exact hslot (List.mem_map.2 ⟨s, hs, congrArg ImportKey.symbolName hkey⟩)
      · exact hothers e (List.mem_append_right _ he) hcondition
    · simpa using hfiled'
    · simp only [register]
      split <;> simp [hslot]

theorem hasDistinctConditions_register (h : l.HasDistinctConditions) :
    (l.register r).2.HasDistinctConditions := by
  obtain ⟨_, _, _, _, _, h'⟩ := l.exists_filed_register r h
  exact h'

end LibrarySlots

namespace SlotTable

/-- A registration changes one library, which is the last one if it is new. -/
theorem exists_libraries_register (t : SlotTable) (r : ImportRequest) :
    ∃ before l after, l.library.id = r.library.id ∧
      (t.libraries = before ++ l :: after ∨
        r.library.id ∉ t.libraries.map (·.library.id) ∧ before = t.libraries ∧ after = [] ∧
          l = { index := t.libraries.length, library := r.library }) ∧
      t.register r = ((l.register r).1, ⟨before ++ (l.register r).2 :: after⟩) := by
  have hregisterIn : ∀ next ls, ∃ before l after, l.library.id = r.library.id ∧
      (ls = before ++ l :: after ∨
        r.library.id ∉ ls.map (·.library.id) ∧ before = ls ∧ after = [] ∧
          l = ({ index := next, library := r.library } : LibrarySlots)) ∧
      registerIn next r ls = ((l.register r).1, before ++ (l.register r).2 :: after) := by
    intro next ls
    induction ls with
    | nil => exact ⟨[], _, [], rfl, .inr ⟨by simp, rfl, rfl, rfl⟩, rfl⟩
    | cons l ls ih =>
      by_cases hl : l.library.id = r.library.id
      · refine ⟨[], l, ls, hl, .inl rfl, ?_⟩
        rw [registerIn, if_pos hl, List.nil_append]
      · obtain ⟨before, l', after, hl', hls, hregister⟩ := ih
        refine ⟨l :: before, l', after, hl', ?_, ?_⟩
        · rcases hls with rfl | ⟨hnew, rfl, rfl, rfl⟩
          · exact .inl rfl
          · exact .inr ⟨by simpa [Ne.symm hl] using hnew, rfl, rfl, rfl⟩
        · rw [registerIn, if_neg hl, hregister, List.cons_append]
  obtain ⟨before, l, after, hl, hls, hregister⟩ := hregisterIn t.libraries.length t.libraries
  refine ⟨before, l, after, hl, hls, ?_⟩
  rw [register, hregister]

end SlotTable
end NativeBindings
