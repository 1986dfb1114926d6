import NativeBindings.Proofs.Passes.Fates

/-!
# Independence of declarations

What a pass makes of a declaration does not depend on the other declarations around it: they can be
put into another order or left out. Only slots are shared; they stay as they are when declarations
are left out that were not stored.

## Main definitions

- `ContextFree` — two runs of a pass make the same of their common declarations

## Main statements

- `contextFree_run` — both passes treat declarations independently
-/

namespace NativeBindings

variable {α β δ : Type}

/-- The values of a member. -/
def DeclarationTree.valuesOf (t : DeclarationTree α) (member : Symbol) : List α :=
  (t.entries.filter (·.1 == member)).map (·.2)

/-- A pass over the declarations `declared` goes by each declaration alone, and a pass over
`declared'` makes the same of those that it shares with the first. -/
structure ContextFree (target : δ → Member) (IsValid : δ → Prop) (bare : α → β)
    (declared declared' : List δ) (t t' : DeclarationTree α)
    (turns turns' : List (δ × List Diagnostic)) (diagnostics diagnostics' : List Diagnostic) :
    Prop where
  /-- A declaration is stored if it stands in a type, all its types can be extended, and it is valid
  in itself. -/
  stored_iff : ∀ d ∈ declared, t.valuesOf (target d).id ≠ [] ↔
    (target d).container.types ≠ [] ∧
      (∀ u ∈ (target d).container.types, u.isExtensible = true) ∧ IsValid d
  /-- The same is stored for a declaration in both passes. -/
  values_eq : ∀ d ∈ declared',
    (t'.valuesOf (target d).id).map bare = (t.valuesOf (target d).id).map bare
  /-- The same is reported for a declaration in both passes. -/
  mem_turns_iff : ∀ d ∈ declared', ∀ ds, (d, ds) ∈ turns' ↔ (d, ds) ∈ turns
  /-- Every declaration has its turn, and all diagnostics belong to one. -/
  turns_eq : turns.map (·.1) = declared ∧ turns'.map (·.1) = declared'
  diagnostics_eq : diagnostics = turns.flatMap (·.2) ∧ diagnostics' = turns'.flatMap (·.2)

/-- What a pass is like that goes by fates. -/
structure GoesByFates (target : δ → Member) (fate : δ → Option (Verdict β)) (bare : α → β)
    (declared : List δ) (t : DeclarationTree α) (turns : List (δ × List Diagnostic))
    (diagnostics : List Diagnostic) : Prop where
  values_eq : ∀ d ∈ declared,
    (t.valuesOf (target d).id).map bare = ((fate d).bind (·.stored?)).toList
  turns_eq : turns = declared.map fun d => (d, ((fate d).bind (·.reported?)).toList)
  diagnostics_eq : diagnostics = declared.filterMap fun d => (fate d).bind (·.reported?)

/-- Fates make declarations independent of each other. -/
theorem GoesByFates.contextFree {target : δ → Member} {fate : δ → Option (Verdict β)}
    {IsValid : δ → Prop} {bare : α → β} {declared declared' : List δ} {t t' : DeclarationTree α}
    {turns turns' : List (δ × List Diagnostic)} {diagnostics diagnostics' : List Diagnostic}
    (h : GoesByFates target fate bare declared t turns diagnostics)
    (h' : GoesByFates target fate bare declared' t' turns' diagnostics')
    (hsub : declared' ⊆ declared)
    (hfate : ∀ d, (fate d).bind (·.stored?) ≠ none ↔ (target d).container.types ≠ [] ∧
      (∀ u ∈ (target d).container.types, u.isExtensible = true) ∧ IsValid d) :
    ContextFree target IsValid bare declared declared' t t' turns turns' diagnostics
      diagnostics' where
  stored_iff := by
    intro d hd
    -- the tree has a value for `d` if and only if its fate has one
    rw [← hfate]
    have hvalues := h.values_eq d hd
    constructor
    · intro hne hnone
      rw [hnone, Option.toList_none, List.map_eq_nil_iff] at hvalues
      exact hne hvalues
    · intro hsome hnil
      rw [hnil, List.map_nil] at hvalues
      exact hsome (Option.toList_eq_nil_iff.1 hvalues.symm)
  values_eq := by
    intro d hd
    rw [h'.values_eq d hd, h.values_eq d (hsub hd)]
  mem_turns_iff := by
    intro d hd ds
    rw [h.turns_eq, h'.turns_eq, List.mem_map, List.mem_map]
    constructor
    · rintro ⟨d', hd', heq⟩
      exact ⟨d', hsub hd', heq⟩
    · rintro ⟨d', -, heq⟩
      obtain rfl : d' = d := congrArg Prod.fst heq
      exact ⟨d', hd, heq⟩
  turns_eq := by
    rw [h.turns_eq, h'.turns_eq, List.map_map, List.map_map]
    exact ⟨List.map_id _, List.map_id _⟩
  diagnostics_eq := by
    have hflat : ∀ ds : List δ, (ds.map fun d => (d, ((fate d).bind (·.reported?)).toList)).flatMap
        (·.2) = ds.filterMap fun d => (fate d).bind (·.reported?) := by
      intro ds
      rw [List.flatMap_map, List.filterMap_eq_flatMap_toList]
    rw [h.turns_eq, h'.turns_eq, hflat, hflat]
    exact ⟨h.diagnostics_eq, h'.diagnostics_eq⟩

theorem Binding.stored_fate_ne_none {rule : AccessRule} {b : Binding} :
    (b.fate rule).bind (·.stored?) ≠ none ↔ b.target.container.types ≠ [] ∧
      (∀ u ∈ b.target.container.types, u.isExtensible = true) ∧
        ∃ kind, b.validate rule = .ok kind := by
  rw [← Container.obstacle?_eq_none, fate]
  cases hobstacle : b.target.container.obstacle? with
  | some o => simp [Verdict.stored?]
  | none =>
    by_cases hnil : b.target.container.types = []
    · simp [hnil]
    · cases hvalid : b.validate rule <;> simp [hnil, Verdict.stored?]

theorem Constant.stored_fate_ne_none {c : Constant} :
    c.fate.bind (·.stored?) ≠ none ↔ c.target.container.types ≠ [] ∧
      (∀ u ∈ c.target.container.types, u.isExtensible = true) ∧
        ∃ value, c.evaluate = .ok value := by
  rw [← Container.obstacle?_eq_none, fate]
  cases hvalue : c.evaluate with
  | error error => simp [Verdict.stored?]
  | ok value =>
    cases hobstacle : c.target.container.obstacle? with
    | some o => simp [Verdict.stored?]
    | none =>
      by_cases hnil : c.target.container.types = []
      · simp [hnil]
      · simp [hnil, Verdict.stored?]

/-! ## Lists of members -/

/-- The declarations of members with identities of their own have identities of their own. -/
theorem nodup_declared {of? : Member → Option δ} {target : δ → Member}
    (htarget : ∀ m d, of? m = some d → target d = m) {members : List Member}
    (hids : (members.map (·.id)).Nodup) :
    ((members.filterMap of?).map fun d => (target d).id).Nodup := by
  have hsub := (map_filterMap_sublist htarget members).map (·.id)
  rw [List.map_map] at hsub
  exact hids.sublist hsub

theorem areUniform_declared {of? : Member → Option δ} {target : δ → Member}
    (htarget : ∀ m d, of? m = some d → target d = m) {members : List Member}
    (huniform : AreUniform (enclosingTypes members)) :
    AreUniform (enclosingTypes ((members.filterMap of?).map target)) :=
  huniform.subset (enclosingTypes_subset (map_filterMap_sublist htarget members).subset)

/-- Leaving out elements without a value keeps the values. -/
theorem filterMap_eq_of_sublist {γ : Type} {f : δ → Option γ} {ds es : List δ}
    (hsub : ds.Sublist es) (hnodup : es.Nodup) (h : ∀ e ∈ es, e ∉ ds → f e = none) :
    ds.filterMap f = es.filterMap f := by
  induction hsub with
  | slnil => rfl
  | @cons ds es e hsub ih =>
    obtain ⟨hnew, hnodup⟩ := List.nodup_cons.1 hnodup
    have hnone : f e = none := h e List.mem_cons_self fun he => hnew (hsub.subset he)
    rw [List.filterMap_cons_none hnone]
    exact ih hnodup fun e' he' => h e' (List.mem_cons_of_mem e he')
  | @cons_cons ds es e hsub ih =>
    obtain ⟨hnew, hnodup⟩ := List.nodup_cons.1 hnodup
    have hrest : ds.filterMap f = es.filterMap f := by
      refine ih hnodup fun e' he' hnot => h e' (List.mem_cons_of_mem e he') ?_
      rw [List.mem_cons, not_or]
      exact ⟨fun heq => hnew (heq ▸ he'), hnot⟩
    simp only [List.filterMap_cons, hrest]

namespace ImportsPass

variable {c : Compilation} {members others : List Member} {rule : AccessRule}
  {printer : DeclarationTree Binding → SlotTable → String}

/-- The bindings of some members, with what each adds to the diagnostics. -/
def turns (rule : AccessRule) (members : List Member) : List (Binding × List Diagnostic) :=
  NativeBindings.turns (add rule) diagnostics {} (members.filterMap Binding.ofMember?)

theorem slots_run (h : (run c members rule printer).isAborted = false) :
    (run c members rule printer).slots = (added rule members).slots := by
  have hopen : members.filterMap Binding.ofMember? = [] ∨ c.allowsUnsafeCode = true := by
    by_contra hgated
    rw [isAborted_run.2 hgated] at h
    cases h
  rw [run_eq_print hopen, build_extract]
  unfold print
  split <;> rfl

/-- A pass that is not aborted goes by the fates of its bindings. -/
theorem goesByFates_run (hids : (members.map (·.id)).Nodup)
    (huniform : AreUniform (enclosingTypes members))
    (h : (run c members rule printer).isAborted = false) :
    GoesByFates (·.target) (Binding.fate rule) Binding.withoutSlot
      (members.filterMap Binding.ofMember?) (run c members rule printer).tree
      (turns rule members) (run c members rule printer).diagnostics ∧
    (run c members rule printer).slots = (({} : SlotTable).registerAll
      ((members.filterMap Binding.ofMember?).filterMap (requestOf? rule))).2 := by
  have htarget : ∀ m b, Binding.ofMember? m = some b → b.target = m :=
    fun _ _ => Binding.target_of_ofMember?
  have hids' := nodup_declared htarget hids
  have huniform' := areUniform_declared htarget huniform
  have hdiagnostics : ∀ before after, members.filterMap Binding.ofMember? = before ++ after →
      (before.foldl (add rule) {}).diagnostics =
        before.filterMap fun b => (b.fate rule).bind (·.reported?) := by
    intro before after hsplit
    rw [hsplit, List.map_append] at hids' huniform'
    obtain ⟨⟨ledger, hledger⟩, -⟩ := exists_fated rule (List.nodup_append.1 hids').1
      (huniform'.subset (enclosingTypes_subset (List.subset_append_left _ _)))
    exact hledger.diagnostics_eq
  obtain ⟨htree, hreports⟩ := run_of_not_isAborted h
  obtain ⟨⟨ledger, hledger⟩, hslots⟩ := exists_fated rule hids' huniform'
  refine ⟨⟨fun b hb => ?_, ?_, ?_⟩, ?_⟩
  · rw [DeclarationTree.valuesOf, htree, DeclarationTree.entries_prune, List.map_map]
    exact hledger.values_eq hids' hb
  · exact turns_eq hdiagnostics
  · rw [hreports]
    exact hledger.diagnostics_eq
  · rw [slots_run h]
    exact hslots

/-- Leaving out members does not abort a pass. -/
theorem isAborted_run_of_subset (hsub : others ⊆ members)
    (h : (run c members rule printer).isAborted = false) :
    (run c others rule printer).isAborted = false := by
  rw [← Bool.not_eq_true, isAborted_run, not_not] at h ⊢
  refine h.imp_left fun hnil => ?_
  rw [List.filterMap_eq_nil_iff] at hnil ⊢
  exact fun m hm => hnil m (hsub hm)

/-- Leaving out members that were not stored leaves the slots as they are. -/
theorem slots_run_of_sublist (hids : (members.map (·.id)).Nodup)
    (huniform : AreUniform (enclosingTypes members))
    (h : (run c members rule printer).isAborted = false) (hsub : others.Sublist members)
    (hstored : ∀ m ∈ members, m ∉ others →
      (run c members rule printer).tree.valuesOf m.id = []) :
    (run c others rule printer).slots = (run c members rule printer).slots := by
  have hids' := hids.sublist (hsub.map _)
  have huniform' := huniform.subset (enclosingTypes_subset hsub.subset)
  have h' := isAborted_run_of_subset hsub.subset h
  obtain ⟨hfates, hslots⟩ := goesByFates_run hids huniform h
  -- members without a value in the tree ask nothing of the slots
  have hrequests : ∀ m ∈ members, m ∉ others →
      (Binding.ofMember? m).bind (requestOf? rule) = none := by
    intro m hm hout
    cases hb : Binding.ofMember? m with
    | none => rfl
    | some b =>
      have hvalues := hfates.values_eq b (List.mem_filterMap.2 ⟨m, hm, hb⟩)
      rw [Binding.target_of_ofMember? hb, hstored m hm hout, List.map_nil] at hvalues
      rw [Option.bind_some, requestOf?, Option.toList_eq_nil_iff.1 hvalues.symm, Option.map_none]
  rw [(goesByFates_run hids' huniform' h').2, hslots, List.filterMap_filterMap,
    List.filterMap_filterMap, filterMap_eq_of_sublist hsub (.of_map _ hids) hrequests]

end ImportsPass

namespace ConstantsPass

variable {c : Compilation} {members others : List Member}
  {printer : DeclarationTree EvaluatedConstant → String}

/-- The constants of some members, with what each adds to the diagnostics. -/
def turns (members : List Member) : List (Constant × List Diagnostic) :=
  NativeBindings.turns add diagnostics {} (members.filterMap Constant.ofMember?)

/-- A pass that is not aborted goes by the fates of its constants. -/
theorem goesByFates_run (hids : (members.map (·.id)).Nodup)
    (huniform : AreUniform (enclosingTypes members))
    (h : (run c members printer).isAborted = false) :
    GoesByFates (·.target) Constant.fate id (members.filterMap Constant.ofMember?)
      (run c members printer).tree (turns members) (run c members printer).diagnostics := by
  have htarget : ∀ m c, Constant.ofMember? m = some c → c.target = m :=
    fun _ _ => Constant.target_of_ofMember?
  have hids' := nodup_declared htarget hids
  have huniform' := areUniform_declared htarget huniform
  have hdiagnostics : ∀ before after, members.filterMap Constant.ofMember? = before ++ after →
      (before.foldl add {}).diagnostics = before.filterMap fun c => c.fate.bind (·.reported?) := by
    intro before after hsplit
    rw [hsplit, List.map_append] at hids' huniform'
    obtain ⟨ledger, hledger⟩ := exists_fated (List.nodup_append.1 hids').1
      (huniform'.subset (enclosingTypes_subset (List.subset_append_left _ _)))
    exact hledger.diagnostics_eq
  obtain ⟨htree, hreports⟩ := run_of_not_isAborted h
  obtain ⟨ledger, hledger⟩ := exists_fated hids' huniform'
  refine ⟨fun c hc => ?_, ?_, ?_⟩
  · rw [DeclarationTree.valuesOf, htree, DeclarationTree.entries_prune, List.map_map]
    exact hledger.values_eq hids' hc
  · exact turns_eq hdiagnostics
  · rw [hreports]
    exact hledger.diagnostics_eq

theorem isAborted_run_of_subset (hsub : others ⊆ members)
    (h : (run c members printer).isAborted = false) :
    (run c others printer).isAborted = false := by
  rw [← Bool.not_eq_true, isAborted_run, not_not] at h ⊢
  refine h.imp_left fun hnil => ?_
  rw [List.filterMap_eq_nil_iff] at hnil ⊢
  exact fun m hm => hnil m (hsub hm)

end ConstantsPass

/-- What becomes of a declaration depends neither on the order of the members nor on which others
there are, and the slots depend on stored bindings alone. -/
theorem contextFree_run (c : Compilation) (members others : List Member) (rule : AccessRule)
    (loader : DeclarationTree Binding → SlotTable → String)
    (printer : DeclarationTree EvaluatedConstant → String) (hids : (members.map (·.id)).Nodup)
    (huniform : AreUniform (enclosingTypes members)) (hothers : others.Subperm members) :
    let imports := ImportsPass.run c members rule loader
    let imports' := ImportsPass.run c others rule loader
    let constants := ConstantsPass.run c members printer
    let constants' := ConstantsPass.run c others printer
    (imports.isAborted = false → imports'.isAborted = false ∧
      ContextFree (·.target) (fun b => ∃ kind, b.validate rule = .ok kind) Binding.withoutSlot
        (members.filterMap Binding.ofMember?) (others.filterMap Binding.ofMember?)
        imports.tree imports'.tree (ImportsPass.turns rule members)
        (ImportsPass.turns rule others) imports.diagnostics imports'.diagnostics ∧
      (others.Sublist members → (∀ m ∈ members, m ∉ others → imports.tree.valuesOf m.id = []) →
        imports'.slots = imports.slots)) ∧
    (constants.isAborted = false → constants'.isAborted = false ∧
      ContextFree (·.target) (fun c => ∃ value, c.evaluate = .ok value) id
        (members.filterMap Constant.ofMember?) (others.filterMap Constant.ofMember?)
        constants.tree constants'.tree (ConstantsPass.turns members)
        (ConstantsPass.turns others) constants.diagnostics constants'.diagnostics) := by
  dsimp only
  obtain ⟨ms, hperm, hsub⟩ := hothers
  have hids' : (others.map (·.id)).Nodup :=
    (hperm.map _).nodup_iff.1 (hids.sublist (hsub.map _))
  have hsubset : others ⊆ members := fun m hm => hsub.subset (hperm.mem_iff.2 hm)
  have huniform' := huniform.subset (enclosingTypes_subset hsubset)
  refine ⟨fun h => ?_, fun h => ?_⟩
  · have h' := ImportsPass.isAborted_run_of_subset hsubset h
    have hfates := (ImportsPass.goesByFates_run hids huniform h).1
    have hfates' := (ImportsPass.goesByFates_run hids' huniform' h').1
    exact ⟨h', hfates.contextFree hfates' (List.filterMap_subset _ hsubset)
        fun _ => Binding.stored_fate_ne_none,
      ImportsPass.slots_run_of_sublist hids huniform h⟩
  · have h' := ConstantsPass.isAborted_run_of_subset hsubset h
    have hfates := ConstantsPass.goesByFates_run hids huniform h
    have hfates' := ConstantsPass.goesByFates_run hids' huniform' h'
    exact ⟨h', hfates.contextFree hfates' (List.filterMap_subset _ hsubset)
      fun _ => Constant.stored_fate_ne_none⟩

theorem contextFree_mixedDeclarations :
    let others := mixedDeclarations.eraseIdx 1
    let imports := ImportsPass.run {} mixedDeclarations NamedType.isReachable fun _ _ => ""
    let imports' := ImportsPass.run {} others NamedType.isReachable fun _ _ => ""
    let constants := ConstantsPass.run {} mixedDeclarations fun _ => ""
    let constants' := ConstantsPass.run {} others fun _ => ""
    (mixedDeclarations.map (·.id)).Nodup ∧ AreUniform (enclosingTypes mixedDeclarations) ∧
    others.Subperm mixedDeclarations ∧ imports.isAborted = false ∧ constants.isAborted = false ∧
    imports.diagnostics.length = 2 ∧ imports'.diagnostics.length = 1 ∧
    imports'.slots = imports.slots ∧ imports.slots.slotCount = 1 ∧
    ContextFree (·.target) (fun b => ∃ kind, b.validate NamedType.isReachable = .ok kind)
      Binding.withoutSlot (mixedDeclarations.filterMap Binding.ofMember?)
      (others.filterMap Binding.ofMember?) imports.tree imports'.tree
      (ImportsPass.turns NamedType.isReachable mixedDeclarations)
      (ImportsPass.turns NamedType.isReachable others) imports.diagnostics imports'.diagnostics ∧
    ContextFree (·.target) (fun c => ∃ value, c.evaluate = .ok value) id
      (mixedDeclarations.filterMap Constant.ofMember?) (others.filterMap Constant.ofMember?)
      constants.tree constants'.tree (ConstantsPass.turns mixedDeclarations)
      (ConstantsPass.turns others) constants.diagnostics constants'.diagnostics := by
  have hids : (mixedDeclarations.map (·.id)).Nodup := by decide
  have huniform : AreUniform (enclosingTypes mixedDeclarations) := by decide
  have hsub : (mixedDeclarations.eraseIdx 1).Sublist mixedDeclarations := List.eraseIdx_sublist _ 1
  have hothers : (mixedDeclarations.eraseIdx 1).Subperm mixedDeclarations := ⟨_, .refl _, hsub⟩
  obtain ⟨himports, hconstants⟩ := contextFree_run {} mixedDeclarations
    (mixedDeclarations.eraseIdx 1) NamedType.isReachable (fun _ _ => "") (fun _ => "") hids
    huniform hothers
  have hgate : (ImportsPass.run {} mixedDeclarations NamedType.isReachable
      fun _ _ => "").isAborted = false := by
    rw [← Bool.not_eq_true, ImportsPass.isAborted_run]
    exact not_not.2 (.inr rfl)
  have hgate' : (ConstantsPass.run {} mixedDeclarations fun _ => "").isAborted = false := by
    rw [← Bool.not_eq_true, ConstantsPass.isAborted_run]
    exact not_not.2 (.inr (by decide))
  obtain ⟨-, himports, hslots⟩ := himports hgate
  obtain ⟨-, hconstants⟩ := hconstants hgate'
  refine ⟨hids, huniform, hothers, hgate, hgate', by decide, by decide, ?_, by decide, himports,
    hconstants⟩
  exact hslots hsub (by decide)

end NativeBindings
