import NativeBindings.Proofs.Binding.Validity
import NativeBindings.Proofs.Passes.Addition
import NativeBindings.Proofs.SlotTable.Numbering

/-!
# The ledger of the imports pass

The imports pass keeps its results twice: the tree has the accepted bindings, and the slots have
their importers. Both are two views of one ledger, the accepted bindings in the order of their
declarations. A binding that is rejected or declared again leaves no trace in either.

## Main definitions

- `ImportsPass.Ledger` — the bindings that tree and slots have taken in
- `ImportsPass.Consistent` — what follows for a finished pass

## Main statements

- `ImportsPass.exists_ledger_added` — every run has a ledger
- `ImportsPass.consistent_runAll` — tree and slots agree after the pass
-/

namespace NativeBindings

/-- The kind says how a symbol is accessed. -/
def BindingKind.isResolved : BindingKind → Bool
  | symbol .auto | symbol (.unknown _) => false
  | symbol .getter | symbol .setter | symbol .reference | function _ => true

/-- Valid bindings have no open questions. -/
theorem Binding.isResolved_of_validate {rule : AccessRule} {b : Binding} {kind : BindingKind}
    (h : b.validate rule = .ok kind) : kind.isResolved = true := by
  have hadmits := admits_of_validate h
  cases hadmits with
  | getter | setter | reference | function => rfl

namespace ImportsPass

variable {rule : AccessRule} {log : List Binding} {s : ImportsPass}

/-- The bindings that tree and slots have taken in, in order. -/
structure Ledger (log : List Binding) (s : ImportsPass) : Prop where
  members_perm : s.tree.members.Perm log
  slots_eq : s.slots = (({} : SlotTable).registerAll (log.map (·.request))).2
  issued_eq : log.map (·.slot) = (({} : SlotTable).registerAll (log.map (·.request))).1.map some
  isResolved : ∀ b ∈ log, b.kind.isResolved = true

namespace Ledger

/-- An addition takes the binding into the ledger, or leaves the ledger as it is. -/
theorem add (h : Ledger log s) (rule : AccessRule) (b : Binding) :
    Ledger log (ImportsPass.add rule s b) ∨
      ∃ accepted, b.Accepts rule accepted ∧
        Ledger (log ++ [accepted]) (ImportsPass.add rule s b) := by
  -- only an accepted binding changes the entries of the tree or the slots
  have hsame : ∀ s' : ImportsPass, s'.tree.entries = s.tree.entries → s'.slots = s.slots →
      Ledger log s' := by
    intro s' hentries hslots
    refine ⟨?_, hslots ▸ h.slots_eq, h.issued_eq, h.isResolved⟩
    rw [DeclarationTree.members, hentries]
    exact h.members_perm
  have hadds := add_adds rule s b
  generalize ImportsPass.add rule s b = s' at hadds ⊢
  cases hadds with
  | blocked o _ => exact .inl (hsame _ (by simp) rfl)
  | untyped _ => exact .inl (hsame _ (by simp) rfl)
  | present _ => exact .inl (hsame _ (by simp) rfl)
  | refused _ => exact .inl (hsame _ (by simp) rfl)
  | declined error _ => exact .inl (hsame _ (by simp) rfl)
  | accepted kind ms hvalid hms =>
    refine .inr ⟨_, ⟨kind, (s.slots.register b.request).1, hvalid, rfl⟩, ?_, ?_, ?_, ?_⟩
    · have hperm := (DeclarationTree.entries_place_perm hms b.target.id
        { b with kind, slot := some (s.slots.register b.request).1 }).map (·.2)
      rw [DeclarationTree.entries_ensure, List.map_append] at hperm
      exact hperm.trans (h.members_perm.append_right _)
    · rw [List.map_append, List.map_singleton, SlotTable.registerAll_concat, ← h.slots_eq]
      rfl
    · rw [List.map_append, List.map_append, List.map_singleton, List.map_singleton,
        SlotTable.registerAll_concat, List.map_append, ← h.slots_eq, h.issued_eq]
      rfl
    · intro b' hb'
      rcases List.mem_append.1 hb' with hb' | hb'
      · exact h.isResolved b' hb'
      · rw [List.mem_singleton.1 hb']
        exact Binding.isResolved_of_validate hvalid

theorem prune (h : Ledger log s) : Ledger log { s with tree := s.tree.prune } := by
  refine ⟨?_, h.slots_eq, h.issued_eq, h.isResolved⟩
  rw [DeclarationTree.members, DeclarationTree.entries_prune]
  exact h.members_perm

theorem empty : Ledger [] {} where
  members_perm := .refl _
  slots_eq := rfl
  issued_eq := rfl
  isResolved := by simp

end Ledger

/-- Adding bindings takes some of them into the ledger, in their order. -/
theorem exists_ledger_foldl (rule : AccessRule) (bs : List Binding) :
    ∃ declared log, declared.Sublist bs ∧ List.Forall₂ (Binding.Accepts rule) declared log ∧
      Ledger log (bs.foldl (add rule) {}) := by
  induction bs using List.reverseRecOn with
  | nil => exact ⟨[], [], .slnil, .nil, .empty⟩
  | append_singleton bs b ih =>
    obtain ⟨declared, log, hsub, haccepts, hledger⟩ := ih
    rw [List.foldl_concat]
    rcases hledger.add rule b with hledger' | ⟨accepted, hb, hledger'⟩
    · exact ⟨declared, log, hsub.trans (List.sublist_append_left bs [b]), haccepts, hledger'⟩
    · exact ⟨declared ++ [b], log ++ [accepted], hsub.append (.refl [b]),
        List.rel_append haccepts (.cons hb .nil), hledger'⟩

/-- Tree and slots of a pass agree, and only accepted bindings count in either. -/
structure Consistent (rule : AccessRule) (bs : List Binding) (s : ImportsPass) : Prop where
  /-- Every binding in the tree has a slot, which is filed under what the binding imports. -/
  exists_slot : ∀ b ∈ s.tree.members,
    ∃ shared, (b.request.key, shared) ∈ s.slots.filed ∧ b.slot = some shared.slot
  /-- Nothing is filed twice. -/
  nodup_filed : (s.slots.filed.map (·.1)).Nodup
  /-- Every binding in the tree says how its symbol is accessed. -/
  isResolved : ∀ b ∈ s.tree.members, b.kind.isResolved = true
  /-- The importers of all slots are the members of all bindings in the tree. -/
  importations_perm : (s.slots.importations.map fun (slot, i) => (some slot, i.member)).Perm
    (s.tree.members.map fun b => (b.slot, b.target.id))
  /-- Every slot has an importer, which is in the tree. -/
  exists_importer : ∀ e ∈ s.slots.filed, ∃ b ∈ s.tree.members,
    b.request.importer ∈ e.2.importers ∧ b.request.key = e.1 ∧ b.slot = some e.2.slot
  /-- The slots are those of the accepted bindings alone, in the order of their declarations. -/
  exists_accepted : ∃ declared log, declared.Sublist bs ∧
    List.Forall₂ (Binding.Accepts rule) declared log ∧ s.tree.members.Perm log ∧
      (log.map (·.slot), s.slots) =
        Prod.map (List.map some) id (({} : SlotTable).registerAll (log.map (·.request)))

theorem Ledger.consistent {declared bs : List Binding} (h : Ledger log s)
    (hsub : declared.Sublist bs) (haccepts : List.Forall₂ (Binding.Accepts rule) declared log) :
    Consistent rule bs s := by
  obtain ⟨hissued, ht, himportations⟩ :=
    SlotTable.reflects_registerAll (log.map (·.request))
  rw [← h.slots_eq] at ht himportations
  have hslots : log.map (·.slot) =
      log.map fun b => some (ImportRequest.slotOf (log.map (·.request)) b.request.key) := by
    rw [h.issued_eq, hissued]
    simp
  -- bindings keep the slot they were given, whatever was registered later
  have hslot : ∀ b ∈ log,
      b.slot = some (ImportRequest.slotOf (log.map (·.request)) b.request.key) :=
    List.map_inj_left.1 hslots
  have hkey : ∀ b ∈ log, b.request.key ∈ (log.map (·.request)).map ImportRequest.key :=
    fun b hb => List.mem_map_of_mem (List.mem_map_of_mem hb)
  refine ⟨fun b hb => ?_, ht.nodup_filed, fun b hb => ?_, ?_, fun ⟨k, shared⟩ he => ?_, ?_⟩
  · have hb' := h.members_perm.mem_iff.1 hb
    exact ⟨_, ht.mem_filed_iff.2 ⟨hkey b hb', rfl⟩, hslot b hb'⟩
  · exact h.isResolved b (h.members_perm.mem_iff.1 hb)
  · have hperm := himportations.map fun (slot, i) => (some slot, i.member)
    have hpairs : ((log.map (·.request)).map fun r =>
        (ImportRequest.slotOf (log.map (·.request)) r.key, r.importer)).map
          (fun (slot, i) => (some slot, i.member)) = log.map fun b => (b.slot, b.target.id) := by
      rw [List.map_map, List.map_map]
      refine List.map_congr_left fun b hb => ?_
      rw [hslot b hb]
      rfl
    rw [hpairs] at hperm
    exact hperm.trans (h.members_perm.map fun b => (b.slot, b.target.id)).symm
  · obtain ⟨hk, rfl⟩ := ht.mem_filed_iff.1 he
    obtain ⟨r, hr, rfl⟩ := List.mem_map.1 hk
    obtain ⟨b, hb, rfl⟩ := List.mem_map.1 hr
    refine ⟨b, h.members_perm.mem_iff.2 hb, ?_, rfl, hslot b hb⟩
    exact ImportRequest.mem_importersOf.2 ⟨b.request, hr, rfl, rfl⟩
  · exact ⟨declared, log, hsub, haccepts, h.members_perm, by rw [h.issued_eq, h.slots_eq]; rfl⟩

/-- Tree and slots agree after the phases before printing. -/
theorem consistent_runAll (c : Compilation) (members : List Member) (rule : AccessRule)
    (printer : DeclarationTree Binding → SlotTable → String) (h : c.allowsUnsafeCode = true) :
    Consistent rule (members.filterMap Binding.ofMember?)
      (Phase.runAll (·.isAborted) ((phases c members rule printer).take 3) {}) := by
  obtain ⟨declared, log, hsub, haccepts, hledger⟩ :=
    exists_ledger_foldl rule (members.filterMap Binding.ofMember?)
  rw [runAll_take_three (.inr h)]
  exact hledger.prune.consistent hsub haccepts

/-- Two methods that share a symbol. The first is declared again, and a third one is not partial. -/
def sharedDeclarations : List Member :=
  let library : NamedType := ⟨⟨0⟩, "Demo.SdlLib", .internalAccess⟩
  let method (id : Nat) (name : String) (modifiers : List Modifier) : Member :=
    { id := ⟨id⟩
      name
      form := .method
      modifiers
      hasBody := false
      params := []
      typeParams := []
      returnType := .void
      returnPassing := .byValue
      container := { types := [⟨⟨1⟩, "Sdl", .classType, [], true, none⟩] }
      location := none
      marker := some (.function ⟨some library, none, some "SDL_Init"⟩ []) }
  [method 2 "Init" [.staticMember, .partialMember], method 4 "Broken" [.staticMember],
    method 2 "Init" [.staticMember, .partialMember], method 3 "Start" [.staticMember, .partialMember]]

theorem consistent_sharedDeclarations :
    let c : Compilation := {}
    let s := Phase.runAll (·.isAborted)
      ((phases c sharedDeclarations NamedType.isReachable fun _ _ => "").take 3) {}
    c.allowsUnsafeCode = true ∧ s.tree.memberCount = 2 ∧ s.slots.slotCount = 1 ∧
      Consistent NamedType.isReachable (sharedDeclarations.filterMap Binding.ofMember?) s :=
  ⟨rfl, by decide, by decide, consistent_runAll {} sharedDeclarations NamedType.isReachable _ rfl⟩

end ImportsPass
end NativeBindings
