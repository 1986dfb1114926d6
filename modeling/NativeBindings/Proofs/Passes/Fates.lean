import NativeBindings.Proofs.DeclarationTree.Nodes
import NativeBindings.Proofs.Passes.Settlement
import NativeBindings.Proofs.SlotTable.Numbering

/-!
# Fates of declarations

What becomes of a declaration in a pass can be told from the declaration alone, as long as members
have identities of their own and all declarations of a type are the same: nodes that other members
have left behind do not matter.

## Main definitions

- `Binding.fate`, `Constant.fate` — what becomes of a declaration
- `Fated` — a running pass has settled its declarations by their fates
- `turns` — what each declaration has added to the diagnostics when it was its turn

## Main statements

- `ImportsPass.exists_fated`, `ConstantsPass.exists_fated` — both passes go by the fates
- `Fated.values_eq`, `Fated.diagnostics_eq` — tree and diagnostics can be told from the fates
-/

namespace NativeBindings

open DeclarationTree (obstacleDiagnostic)

variable {α β δ σ : Type}

namespace Verdict

def map (f : α → β) : Verdict α → Verdict β
  | stored value => stored (f value)
  | reported d => reported d

@[simp] theorem stored?_map (f : α → β) (v : Verdict α) : (v.map f).stored? = v.stored?.map f := by
  cases v <;> rfl

@[simp] theorem reported?_map (f : α → β) (v : Verdict α) : (v.map f).reported? = v.reported? := by
  cases v <;> rfl

end Verdict

/-- The binding without its slot, which depends on other bindings. -/
def Binding.withoutSlot (b : Binding) : Binding := { b with slot := none }

/-- What becomes of a binding; nothing if it stands in no type. -/
def Binding.fate (rule : AccessRule) (b : Binding) : Option (Verdict Binding) :=
  match b.target.container.obstacle? with
  | some o => some (.reported (obstacleDiagnostic .imports b.target.container o))
  | none =>
    if b.target.container.types = [] then none
    else
      match b.validate rule with
      | .ok kind => some (.stored ({ b with kind } : Binding).withoutSlot)
      | .error error => some (.reported (error.diagnostic b.location))

/-- What becomes of a constant; nothing if it has a value and stands in no type. -/
def Constant.fate (c : Constant) : Option (Verdict EvaluatedConstant) :=
  match c.evaluate with
  | .error error => some (.reported (error.diagnostic c.location))
  | .ok value =>
    match c.target.container.obstacle? with
    | some o => some (.reported (obstacleDiagnostic .constants c.target.container o))
    | none => if c.target.container.types = [] then none else some (.stored value)

theorem Container.obstacle?_of_types_eq_nil {c : Container} (h : c.types = []) :
    c.obstacle? = none := by
  rw [Container.obstacle?_eq_none, h]
  simp

namespace Binding

variable {rule : AccessRule} {b : Binding}

theorem fate_of_obstacle {o : Obstacle} (h : b.target.container.obstacle? = some o) :
    b.fate rule = some (.reported (obstacleDiagnostic .imports b.target.container o)) := by
  rw [fate, h]

theorem fate_of_types_eq_nil (h : b.target.container.types = []) : b.fate rule = none := by
  rw [fate, Container.obstacle?_of_types_eq_nil h]
  exact if_pos h

theorem fate_of_open (hopen : b.target.container.obstacle? = none)
    (hne : b.target.container.types ≠ []) :
    b.fate rule = match b.validate rule with
      | .ok kind => some (.stored ({ b with kind } : Binding).withoutSlot)
      | .error error => some (.reported (error.diagnostic b.location)) := by
  simp only [fate, hopen, if_neg hne]

end Binding

/-- The types around some members. -/
def enclosingTypes (members : List Member) : List EnclosingType :=
  members.flatMap (·.container.types)

theorem enclosingTypes_subset {members others : List Member} (h : others ⊆ members) :
    enclosingTypes others ⊆ enclosingTypes members := by
  intro t ht
  obtain ⟨m, hm, ht⟩ := List.mem_flatMap.1 ht
  exact List.mem_flatMap.2 ⟨m, h hm, ht⟩

/-! ## Running passes -/

/-- A running pass has settled the declarations `ds` by their fates. -/
structure Fated (target : δ → Member) (fate : δ → Option (Verdict β)) (bare : α → β) (pass : Pass)
    (ds : List δ) (ledger : List (δ × Verdict α)) (t : DeclarationTree α)
    (diagnostics : List Diagnostic) : Prop where
  settling : Settling (fun d => (target d).id) (fun d v => fate d = some (v.map bare)) pass ledger t
    diagnostics
  declared_eq : ledger.map (·.1) = ds.filter fun d => (fate d).isSome
  /-- The nodes belong to types of the declarations that can be extended. -/
  mem_types : ∀ u ∈ t.declarations,
    u.isExtensible = true ∧ u ∈ enclosingTypes (ds.map target)

namespace Fated

variable {target : δ → Member} {fate : δ → Option (Verdict β)} {bare : α → β} {pass : Pass}
  {ds : List δ} {d : δ} {ledger : List (δ × Verdict α)} {t t' : DeclarationTree α}
  {diagnostics : List Diagnostic}

theorem empty (target : δ → Member) (fate : δ → Option (Verdict β)) (bare : α → β) (pass : Pass) :
    Fated target fate bare pass [] [] (.empty pass) [] where
  settling := .empty _ _ pass
  declared_eq := rfl
  mem_types := by simp

theorem obstacle?_eq (h : Fated target fate bare pass ds ledger t diagnostics)
    (huniform : AreUniform (enclosingTypes ((ds ++ [d]).map target))) :
    t.obstacle? (target d).container = (target d).container.obstacle? := by
  refine DeclarationTree.obstacle?_eq fun u hu v hv hid => ?_
  obtain ⟨hext, hu⟩ := h.mem_types u hu
  have hu' : u ∈ enclosingTypes ((ds ++ [d]).map target) :=
    enclosingTypes_subset (List.map_subset _ (List.subset_append_left ds [d])) hu
  have hv' : v ∈ enclosingTypes ((ds ++ [d]).map target) :=
    List.mem_flatMap.2 ⟨target d, by simp, hv⟩
  rw [← huniform u hu' v hv' hid]
  exact hext

theorem not_isKnown (h : Fated target fate bare pass ds ledger t diagnostics)
    (hnew : (target d).id ∉ ds.map fun d => (target d).id) :
    ¬ t.isKnown (target d).id = true := by
  refine h.settling.not_isKnown fun hmem => hnew ?_
  have hledger : ledger.map (fun e => (target e.1).id) =
      (ledger.map (·.1)).map fun d => (target d).id := by
    rw [List.map_map]
    rfl
  rw [hledger, h.declared_eq] at hmem
  exact (List.filter_sublist.map _).subset hmem

/-- The nodes after a step belong to the types of one more declaration. -/
theorem mem_types_concat (h : Fated target fate bare pass ds ledger t diagnostics)
    (ht : ∀ u ∈ t'.declarations,
      u ∈ t.declarations ∨ u ∈ (target d).container.types ∧ u.isExtensible = true) :
    ∀ u ∈ t'.declarations,
      u.isExtensible = true ∧ u ∈ enclosingTypes ((ds ++ [d]).map target) := by
  intro u hu
  rcases ht u hu with hold | ⟨hmem, hext⟩
  · obtain ⟨hext, hmem⟩ := h.mem_types u hold
    have hsub : ds.map target ⊆ (ds ++ [d]).map target :=
      List.map_subset _ (List.subset_append_left ds [d])
    exact ⟨hext, enclosingTypes_subset hsub hmem⟩
  · exact ⟨hext, List.mem_flatMap.2 ⟨target d, by simp, hmem⟩⟩

theorem declared_concat_of_some {v : Verdict α} (hdeclared : ledger.map (·.1) =
    ds.filter fun d => (fate d).isSome) (hfate : (fate d).isSome = true) :
    (ledger ++ [(d, v)]).map (·.1) = (ds ++ [d]).filter fun d => (fate d).isSome := by
  rw [List.map_append, hdeclared, List.filter_append]
  simp [hfate]

/-- A declaration is stored. -/
theorem store (h : Fated target fate bare pass ds ledger t diagnostics) (value : α)
    (hfate : fate d = some (.stored (bare value))) (hpass : t'.pass = t.pass)
    (hentries : t'.entries.Perm (t.entries ++ [((target d).id, value)]))
    (hrefused : t'.refused = t.refused)
    (ht : ∀ u ∈ t'.declarations,
      u ∈ t.declarations ∨ u ∈ (target d).container.types ∧ u.isExtensible = true) :
    Fated target fate bare pass (ds ++ [d]) (ledger ++ [(d, .stored value)]) t' diagnostics where
  settling := h.settling.store hfate hpass hentries hrefused
  declared_eq := declared_concat_of_some h.declared_eq (by rw [hfate]; rfl)
  mem_types := h.mem_types_concat ht

/-- A declaration is reported. -/
theorem report (h : Fated target fate bare pass ds ledger t diagnostics) {diagnostic : Diagnostic}
    (hfate : fate d = some (.reported diagnostic)) (hpass : t'.pass = t.pass)
    (hentries : t'.entries = t.entries)
    (hrefused : ∀ m ∈ t'.refused, m ∈ t.refused ∨ m = (target d).id)
    (ht : ∀ u ∈ t'.declarations,
      u ∈ t.declarations ∨ u ∈ (target d).container.types ∧ u.isExtensible = true) :
    Fated target fate bare pass (ds ++ [d]) (ledger ++ [(d, .reported diagnostic)]) t'
      (diagnostics ++ [diagnostic]) where
  settling := h.settling.report hfate hpass hentries hrefused
  declared_eq := declared_concat_of_some h.declared_eq (by rw [hfate]; rfl)
  mem_types := h.mem_types_concat ht

/-- A declaration is dropped. -/
theorem drop (h : Fated target fate bare pass ds ledger t diagnostics) (hfate : fate d = none)
    (hpass : t'.pass = t.pass) (hentries : t'.entries = t.entries)
    (hrefused : t'.refused = t.refused)
    (ht : ∀ u ∈ t'.declarations,
      u ∈ t.declarations ∨ u ∈ (target d).container.types ∧ u.isExtensible = true) :
    Fated target fate bare pass (ds ++ [d]) ledger t' diagnostics where
  settling :=
    { pass_eq := hpass.trans h.settling.pass_eq
      settles := h.settling.settles
      entries_perm := hentries ▸ h.settling.entries_perm
      diagnostics_eq := h.settling.diagnostics_eq
      mem_of_mem_refused := hrefused ▸ h.settling.mem_of_mem_refused }
  declared_eq := by
    rw [h.declared_eq, List.filter_append]
    simp [hfate]
  mem_types := h.mem_types_concat ht

/-- The diagnostics are those of the fates, in the order of the declarations. -/
theorem diagnostics_eq (h : Fated target fate bare pass ds ledger t diagnostics) :
    diagnostics = ds.filterMap fun d => (fate d).bind (·.reported?) := by
  have hreported : ∀ e ∈ ledger, e.2.reported? = (fate e.1).bind (·.reported?) := by
    intro e he
    rw [h.settling.settles e he]
    simp
  have hfilter : (ds.filter fun d => (fate d).isSome).filterMap
      (fun d => (fate d).bind (·.reported?)) =
        ds.filterMap fun d => (fate d).bind (·.reported?) := by
    rw [List.filterMap_filter]
    refine List.filterMap_congr fun d _ => ?_
    cases fate d <;> rfl
  rw [h.settling.diagnostics_eq, reportedDiagnostics, List.filterMap_congr hreported, ← hfilter,
    ← h.declared_eq, List.filterMap_map]
  rfl

/-- A declaration has the member in the tree that its fate gives it. -/
theorem values_eq (h : Fated target fate bare pass ds ledger t diagnostics)
    (hids : (ds.map fun d => (target d).id).Nodup) (hd : d ∈ ds) :
    (t.entries.filter (·.1 == (target d).id)).map (fun e => bare e.2) =
      ((fate d).bind (·.stored?)).toList := by
  have hledger : ledger.map (fun e => (target e.1).id) =
      (ds.filter fun d => (fate d).isSome).map fun d => (target d).id := by
    rw [← h.declared_eq, List.map_map]
    rfl
  have hnodup : (ledger.map fun e => (target e.1).id).Nodup :=
    hledger ▸ hids.sublist (List.filter_sublist.map _)
  cases hfate : fate d with
  | none =>
    -- no other declaration has the identity of this one
    have hnotMem : (target d).id ∉ ledger.map fun e => (target e.1).id := by
      intro hmem
      rw [hledger] at hmem
      obtain ⟨d', hd', hid⟩ := List.mem_map.1 hmem
      obtain ⟨hd', hsome⟩ := List.mem_filter.1 hd'
      rw [List.inj_on_of_nodup_map hids hd' hd hid, hfate] at hsome
      cases hsome
    have hempty := h.settling.entries_perm.filter (·.1 == (target d).id)
    rw [filter_storedEntries_of_notMem hnotMem] at hempty
    rw [List.perm_nil.1 hempty]
    rfl
  | some v =>
    have hmem : d ∈ ledger.map (·.1) := by
      rw [h.declared_eq]
      exact List.mem_filter.2 ⟨hd, by simp [hfate]⟩
    obtain ⟨e, he, rfl⟩ := List.mem_map.1 hmem
    have hv : v = e.2.map bare := by
      have hsettles := h.settling.settles e he
      rw [hfate] at hsettles
      exact Option.some.inj hsettles
    have hstored := ((h.settling.settled hnodup).stored_eq e he)
    calc (t.entries.filter (·.1 == (target e.1).id)).map (fun e => bare e.2)
        = ((t.entries.filter (·.1 == (target e.1).id)).map (·.2)).map bare := by
          rw [List.map_map]
          rfl
      _ = (e.2.stored?.map bare).toList := by
          rw [hstored]
          cases e.2.stored? <;> rfl
      _ = ((some v).bind (·.stored?)).toList := by
          rw [hv, Option.bind_some, Verdict.stored?_map]

end Fated

/-! ## Turns -/

/-- Each declaration with the diagnostics that are added when it is its turn. -/
def turns (add : σ → δ → σ) (diagnostics : σ → List Diagnostic) :
    σ → List δ → List (δ × List Diagnostic)
  | _, [] => []
  | s, d :: ds =>
    (d, (diagnostics (add s d)).drop (diagnostics s).length) :: turns add diagnostics (add s d) ds

/-- If every prefix of the declarations adds its own diagnostics, so does every declaration. -/
theorem turns_eq {add : σ → δ → σ} {diagnostics : σ → List Diagnostic} {f : δ → Option Diagnostic}
    {s : σ} {ds : List δ}
    (h : ∀ before after, ds = before ++ after →
      diagnostics (before.foldl add s) = diagnostics s ++ before.filterMap f) :
    turns add diagnostics s ds = ds.map fun d => (d, (f d).toList) := by
  induction ds generalizing s with
  | nil => rfl
  | cons d ds ih =>
    have hone : diagnostics (add s d) = diagnostics s ++ (f d).toList := by
      have hfirst := h [d] ds rfl
      cases hd : f d <;> simpa [hd] using hfirst
    have hrest : turns add diagnostics (add s d) ds = ds.map fun d => (d, (f d).toList) := by
      refine ih fun before after hsplit => ?_
      have hbefore := h (d :: before) after (by rw [hsplit, List.cons_append])
      rw [List.foldl_cons] at hbefore
      rw [hbefore, hone, List.append_assoc]
      cases hd : f d <;> simp [hd]
    rw [turns, hone, hrest, List.drop_left, List.map_cons]

/-! ## Both passes -/

namespace ImportsPass

variable {rule : AccessRule} {bs : List Binding} {b : Binding}
  {ledger : List (Binding × Verdict Binding)} {s : ImportsPass}

/-- What a binding asks of the slots. -/
def requestOf? (rule : AccessRule) (b : Binding) : Option ImportRequest :=
  ((b.fate rule).bind (·.stored?)).map fun _ => b.request

/-- The requests stay as they are unless the binding is stored. -/
theorem filterMap_requestOf?_concat (h : (b.fate rule).bind (·.stored?) = none) :
    (bs ++ [b]).filterMap (requestOf? rule) = bs.filterMap (requestOf? rule) := by
  have hrequest : requestOf? rule b = none := by rw [requestOf?, h, Option.map_none]
  rw [List.filterMap_append, List.filterMap_cons_none hrequest, List.filterMap_nil,
    List.append_nil]

/-- A binding with a new identity is settled by its fate. -/
theorem exists_fated_add
    (h : Fated (·.target) (Binding.fate rule) Binding.withoutSlot .imports bs ledger s.tree
      s.diagnostics)
    (hslots : s.slots = (({} : SlotTable).registerAll (bs.filterMap (requestOf? rule))).2)
    (hnew : b.target.id ∉ bs.map (·.target.id))
    (huniform : AreUniform (enclosingTypes ((bs ++ [b]).map (·.target)))) :
    (∃ ledger, Fated (·.target) (Binding.fate rule) Binding.withoutSlot .imports (bs ++ [b]) ledger
      (add rule s b).tree (add rule s b).diagnostics) ∧
    (add rule s b).slots =
      (({} : SlotTable).registerAll ((bs ++ [b]).filterMap (requestOf? rule))).2 := by
  have hobstacle := h.obstacle?_eq (d := b) huniform
  have hunknown := h.not_isKnown (d := b) hnew
  rw [DeclarationTree.isKnown_iff, not_or] at hunknown
  have hdeclarations : ∀ u ∈ (s.tree.ensure b.target.container).declarations,
      u ∈ s.tree.declarations ∨ u ∈ b.target.container.types ∧ u.isExtensible = true :=
    fun u hu => DeclarationTree.mem_declarations_ensure hu
  have hkept : (b.fate rule).bind (·.stored?) = none → s.slots =
      (({} : SlotTable).registerAll ((bs ++ [b]).filterMap (requestOf? rule))).2 := by
    intro hnone
    rw [hslots, filterMap_requestOf?_concat hnone]
  have hins := s.tree.insert_inserts b.target.container b.target.id Effects.report (accept rule b)
    ⟨s.slots, s.diagnostics⟩
  unfold add
  generalize s.tree.insert b.target.container b.target.id _ _ _ = r at hins
  -- one case for each way in which an insertion ends
  cases hins with
  | blocked o ho =>
    have hfate : b.fate rule =
        some (.reported (obstacleDiagnostic s.tree.pass b.target.container o)) := by
      rw [Binding.fate_of_obstacle (hobstacle.symm.trans ho), h.settling.pass_eq]
    exact ⟨⟨_, h.report hfate (by simp) (by simp) (by simp +contextual) hdeclarations⟩,
      hkept (by rw [hfate]; rfl)⟩
  | untyped hnil =>
    have hfate : b.fate rule = none := Binding.fate_of_types_eq_nil hnil
    exact ⟨⟨_, h.drop hfate (by simp) (by simp) (by simp) hdeclarations⟩,
      hkept (by rw [hfate]; rfl)⟩
  | present hholds => exact absurd hholds.mem_entries hunknown.2
  | refused _ hrefused => exact absurd hrefused hunknown.1
  | accepted value e hopen hne _ _ haccept =>
    cases hvalid : b.validate rule with
    | error error => simp [accept, hvalid] at haccept
    | ok kind =>
      simp only [accept, hvalid, Prod.mk.injEq, Option.some.injEq] at haccept
      obtain ⟨rfl, rfl⟩ := haccept
      have hfate : b.fate rule = some (.stored ({ b with kind } : Binding).withoutSlot) := by
        rw [Binding.fate_of_open (hobstacle ▸ hopen) hne, hvalid]
      have hrequest : requestOf? rule b = some b.request := by
        rw [requestOf?, hfate]
        rfl
      have hms := DeclarationTree.membersAt?_ensure_self hne hopen
      have hentries := DeclarationTree.entries_place_perm hms b.target.id
        { b with kind, slot := some (s.slots.register b.request).1 }
      rw [DeclarationTree.entries_ensure] at hentries
      refine ⟨⟨_, h.store { b with kind, slot := some (s.slots.register b.request).1 } hfate
        (by simp) hentries (by simp) fun u hu => ?_⟩, ?_⟩
      · exact hdeclarations u (DeclarationTree.mem_declarations_place hu)
      · rw [List.filterMap_append, List.filterMap_cons_some hrequest, List.filterMap_nil,
          SlotTable.registerAll_concat, ← hslots]
        rfl
  | declined e hopen hne _ _ haccept =>
    cases hvalid : b.validate rule with
    | ok kind => simp [accept, hvalid] at haccept
    | error error =>
      simp only [accept, hvalid, Prod.mk.injEq, true_and] at haccept
      obtain rfl := haccept
      have hfate : b.fate rule = some (.reported (error.diagnostic b.location)) := by
        rw [Binding.fate_of_open (hobstacle ▸ hopen) hne, hvalid]
      refine ⟨⟨_, h.report hfate (by simp) (by simp) (by simp) fun u hu => ?_⟩,
        hkept (by rw [hfate]; rfl)⟩
      rw [DeclarationTree.declarations_refuse] at hu
      exact hdeclarations u hu

/-- Bindings with identities of their own are settled by their fates. -/
theorem exists_fated (rule : AccessRule) (hids : (bs.map (·.target.id)).Nodup)
    (huniform : AreUniform (enclosingTypes (bs.map (·.target)))) :
    (∃ ledger, Fated (·.target) (Binding.fate rule) Binding.withoutSlot .imports bs ledger
      (bs.foldl (add rule) {}).tree (bs.foldl (add rule) {}).diagnostics) ∧
    (bs.foldl (add rule) {}).slots =
      (({} : SlotTable).registerAll (bs.filterMap (requestOf? rule))).2 := by
  induction bs using List.reverseRecOn with
  | nil => exact ⟨⟨[], .empty _ _ _ .imports⟩, rfl⟩
  | append_singleton bs b ih =>
    have hbefore : AreUniform (enclosingTypes (bs.map (·.target))) := huniform.subset <|
      enclosingTypes_subset (List.map_subset _ (List.subset_append_left bs [b]))
    rw [List.map_append, List.nodup_append] at hids
    obtain ⟨hids, -, hnew⟩ := hids
    obtain ⟨⟨ledger, hledger⟩, hslots⟩ := ih hids hbefore
    rw [List.foldl_concat]
    exact exists_fated_add hledger hslots (fun hmem => hnew _ hmem _ (by simp) rfl) huniform

end ImportsPass

namespace ConstantsPass

variable {cs : List Constant} {c : Constant} {ledger : List (Constant × Verdict EvaluatedConstant)}
  {s : ConstantsPass}

/-- A constant with a new identity is settled by its fate. -/
theorem exists_fated_add
    (h : Fated (·.target) Constant.fate id .constants cs ledger s.tree s.diagnostics)
    (hnew : c.target.id ∉ cs.map (·.target.id))
    (huniform : AreUniform (enclosingTypes ((cs ++ [c]).map (·.target)))) :
    ∃ ledger, Fated (·.target) Constant.fate id .constants (cs ++ [c]) ledger (s.add c).tree
      (s.add c).diagnostics := by
  have hobstacle := h.obstacle?_eq (d := c) huniform
  have hunknown := h.not_isKnown (d := c) hnew
  have hdeclarations : ∀ u ∈ (s.tree.ensure c.target.container).declarations,
      u ∈ s.tree.declarations ∨ u ∈ c.target.container.types ∧ u.isExtensible = true :=
    fun u hu => DeclarationTree.mem_declarations_ensure hu
  unfold add
  rw [if_neg hunknown]
  rw [DeclarationTree.isKnown_iff, not_or] at hunknown
  cases hvalue : c.evaluate with
  | error error =>
    have hfate : c.fate = some (.reported (error.diagnostic c.location)) := by
      rw [Constant.fate, hvalue]
    refine ⟨_, h.report hfate (by simp) (by simp) (by simp) fun u hu => .inl ?_⟩
    rwa [DeclarationTree.declarations_refuse] at hu
  | ok value =>
    have hins := s.tree.insert_inserts c.target.container c.target.id report
      (fun ds => (some value, ds)) s.diagnostics
    dsimp only
    generalize s.tree.insert c.target.container c.target.id _ _ _ = r at hins
    cases hins with
    | blocked o ho =>
      have hfate : c.fate =
          some (.reported (obstacleDiagnostic s.tree.pass c.target.container o)) := by
        simp only [Constant.fate, hvalue, ← hobstacle, ho, h.settling.pass_eq]
      exact ⟨_, h.report hfate (by simp) (by simp) (by simp +contextual) hdeclarations⟩
    | untyped hnil =>
      have hfate : c.fate = none := by
        simp only [Constant.fate, hvalue, Container.obstacle?_of_types_eq_nil hnil, if_pos hnil]
      exact ⟨_, h.drop hfate (by simp) (by simp) (by simp) hdeclarations⟩
    | present hholds => exact absurd hholds.mem_entries hunknown.2
    | refused _ hrefused => exact absurd hrefused hunknown.1
    | accepted value' ds hopen hne _ _ haccept =>
      obtain ⟨hsome, rfl⟩ := Prod.mk.inj haccept
      obtain rfl := Option.some.inj hsome
      have hfate : c.fate = some (.stored value) := by
        rw [hobstacle] at hopen
        simp only [Constant.fate, hvalue, hopen, if_neg hne]
      have hms := DeclarationTree.membersAt?_ensure_self hne hopen
      have hentries := DeclarationTree.entries_place_perm hms c.target.id value
      rw [DeclarationTree.entries_ensure] at hentries
      refine ⟨_, h.store value hfate (by simp) hentries (by simp) fun u hu => ?_⟩
      exact hdeclarations u (DeclarationTree.mem_declarations_place hu)
    | declined ds _ _ _ _ haccept => simp at haccept

/-- Constants with identities of their own are settled by their fates. -/
theorem exists_fated (hids : (cs.map (·.target.id)).Nodup)
    (huniform : AreUniform (enclosingTypes (cs.map (·.target)))) :
    ∃ ledger, Fated (·.target) Constant.fate id .constants cs ledger (cs.foldl add {}).tree
      (cs.foldl add {}).diagnostics := by
  induction cs using List.reverseRecOn with
  | nil => exact ⟨[], .empty _ _ _ .constants⟩
  | append_singleton cs c ih =>
    have hbefore : AreUniform (enclosingTypes (cs.map (·.target))) := huniform.subset <|
      enclosingTypes_subset (List.map_subset _ (List.subset_append_left cs [c]))
    rw [List.map_append, List.nodup_append] at hids
    obtain ⟨hids, -, hnew⟩ := hids
    obtain ⟨ledger, hledger⟩ := ih hids hbefore
    rw [List.foldl_concat]
    exact exists_fated_add hledger (fun hmem => hnew _ hmem _ (by simp) rfl) huniform

end ConstantsPass
end NativeBindings
