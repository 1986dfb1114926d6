import Mathlib.Data.List.Nodup
import NativeBindings.Proofs.Passes.Addition

/-!
# Settlement of declarations

A pass that is not aborted loses nothing: it settles every declaration that it has extracted, either
by a member of the tree or by a diagnostic. The ledger of a pass lists the declarations in order with
what became of them; tree and diagnostics can be read off it.

## Main definitions

- `Verdict` — what became of a declaration
- `Settling` — a ledger agrees with the tree and the diagnostics of a running pass
- `Settled` — what the ledger of a finished pass says

## Main statements

- `Settling.settled` — members with identities of their own are settled once each
- `settled_run` — both passes settle everything they have extracted
-/

namespace NativeBindings

variable {α δ : Type}

/-- What became of a declaration. -/
inductive Verdict (α : Type) where
  | stored (value : α)
  | reported (d : Diagnostic)

namespace Verdict

def stored? : Verdict α → Option α
  | stored value => some value
  | reported _ => none

def reported? : Verdict α → Option Diagnostic
  | stored _ => none
  | reported d => some d

end Verdict

/-- The diagnostic of a container with a type that cannot be extended. -/
def Container.IsBlocked (pass : Pass) (c : Container) (d : Diagnostic) : Prop :=
  ∃ o : Obstacle, c.types[o.depth]? = some o.type ∧ o.type.isExtensible = false ∧
    d = DeclarationTree.obstacleDiagnostic pass c o

/-- What may become of a binding. -/
def Binding.Settles (rule : AccessRule) (b : Binding) : Verdict Binding → Prop
  | .stored accepted => b.Accepts rule accepted
  | .reported d =>
    (∃ error, b.validate rule = .error error ∧ d = error.diagnostic b.location) ∨
      b.target.container.IsBlocked .imports d

/-- What may become of a constant. -/
def Constant.Settles (c : Constant) : Verdict EvaluatedConstant → Prop
  | .stored value => c.evaluate = .ok value
  | .reported d =>
    (∃ error, c.evaluate = .error error ∧ d = error.diagnostic c.location) ∨
      (∃ value, c.evaluate = .ok value) ∧ c.target.container.IsBlocked .constants d

/-! ## Ledgers -/

/-- The members of a ledger. -/
def storedEntries (member : δ → Symbol) (ledger : List (δ × Verdict α)) : List (Symbol × α) :=
  ledger.filterMap fun (d, v) => v.stored?.map (member d, ·)

/-- The diagnostics of a ledger. -/
def reportedDiagnostics (ledger : List (δ × Verdict α)) : List Diagnostic :=
  ledger.filterMap (·.2.reported?)

/-- A ledger agrees with the tree and the diagnostics of a running pass. -/
structure Settling (member : δ → Symbol) (settles : δ → Verdict α → Prop) (pass : Pass)
    (ledger : List (δ × Verdict α)) (t : DeclarationTree α) (diagnostics : List Diagnostic) :
    Prop where
  pass_eq : t.pass = pass
  settles : ∀ e ∈ ledger, settles e.1 e.2
  entries_perm : t.entries.Perm (storedEntries member ledger)
  diagnostics_eq : diagnostics = reportedDiagnostics ledger
  mem_of_mem_refused : ∀ m ∈ t.refused, m ∈ ledger.map (member ·.1)

/-- Every declaration was stored once or reported once, and reports stand in the order of the
declarations. -/
structure Settled (member : δ → Symbol) (settles : δ → Verdict α → Prop) (declared : List δ)
    (ledger : List (δ × Verdict α)) (t : DeclarationTree α) (diagnostics : List Diagnostic) :
    Prop where
  /-- The ledger lists the declarations in order. -/
  declared_eq : ledger.map (·.1) = declared
  /-- Nothing becomes of a declaration but what may. -/
  settles : ∀ e ∈ ledger, settles e.1 e.2
  /-- A stored declaration has one member in the tree, and a reported one has none. -/
  stored_eq : ∀ e ∈ ledger,
    (t.entries.filter (·.1 == member e.1)).map (·.2) = e.2.stored?.toList
  /-- The tree has no other members. -/
  entries_perm : t.entries.Perm (storedEntries member ledger)
  /-- A reported declaration has one diagnostic, and there are no others. -/
  diagnostics_eq : diagnostics = reportedDiagnostics ledger
  /-- Members and diagnostics together are as many as the declarations. -/
  length_eq : t.memberCount + diagnostics.length = declared.length

theorem length_storedEntries_add (member : δ → Symbol) (ledger : List (δ × Verdict α)) :
    (storedEntries member ledger).length + (reportedDiagnostics ledger).length =
      ledger.length := by
  induction ledger with
  | nil => rfl
  | cons e ledger ih =>
    obtain ⟨d, v⟩ := e
    cases v with
    | stored value =>
      simp [storedEntries, reportedDiagnostics, Verdict.stored?, Verdict.reported?] at ih ⊢
      omega
    | reported diagnostic =>
      simp [storedEntries, reportedDiagnostics, Verdict.stored?, Verdict.reported?] at ih ⊢
      omega

theorem filter_storedEntries_of_notMem {member : δ → Symbol} {ledger : List (δ × Verdict α)}
    {m : Symbol} (h : m ∉ ledger.map (member ·.1)) :
    (storedEntries member ledger).filter (·.1 == m) = [] := by
  rw [List.filter_eq_nil_iff]
  intro entry hentry hm
  obtain ⟨e, he, hvalue⟩ := List.mem_filterMap.1 hentry
  obtain ⟨value, -, rfl⟩ := Option.map_eq_some_iff.1 hvalue
  exact h (List.mem_map.2 ⟨e, he, eq_of_beq hm⟩)

/-- In a ledger without repeated members a declaration has its own entry and no other. -/
theorem filter_storedEntries {member : δ → Symbol} {ledger : List (δ × Verdict α)}
    (h : (ledger.map (member ·.1)).Nodup) {e : δ × Verdict α} (he : e ∈ ledger) :
    ((storedEntries member ledger).filter (·.1 == member e.1)).map (·.2) = e.2.stored?.toList := by
  obtain ⟨before, after, rfl⟩ := List.append_of_mem he
  rw [List.map_append, List.map_cons] at h
  -- neither side of the declaration has an entry for its member
  have hothers := (List.nodup_cons.1 (List.nodup_middle.1 h)).1
  rw [List.mem_append, not_or] at hothers
  have hbefore := filter_storedEntries_of_notMem hothers.1
  have hafter := filter_storedEntries_of_notMem hothers.2
  have hsplit : storedEntries member (before ++ e :: after) = storedEntries member before ++
      storedEntries member [e] ++ storedEntries member after := by
    simp [storedEntries, ← List.filterMap_append]
  rw [hsplit, List.filter_append, List.filter_append, hbefore, hafter, List.nil_append,
    List.append_nil]
  cases hvalue : e.2.stored? <;> simp [storedEntries, hvalue]

theorem map_filterMap_sublist {β : Type} {f : δ → Option β} {g : β → δ}
    (h : ∀ d b, f d = some b → g b = d) (ds : List δ) : ((ds.filterMap f).map g).Sublist ds := by
  induction ds with
  | nil => exact .slnil
  | cons d ds ih =>
    cases hd : f d with
    | none =>
      rw [List.filterMap_cons_none hd]
      exact ih.cons d
    | some b =>
      rw [List.filterMap_cons_some hd, List.map_cons, h d b hd]
      exact ih.cons_cons d

namespace Settling

variable {member : δ → Symbol} {settles : δ → Verdict α → Prop} {pass : Pass}
  {ledger : List (δ × Verdict α)} {t t' : DeclarationTree α} {diagnostics : List Diagnostic}

theorem empty (member : δ → Symbol) (settles : δ → Verdict α → Prop) (pass : Pass) :
    Settling member settles pass [] (.empty pass) [] where
  pass_eq := rfl
  settles := by simp
  entries_perm := .refl _
  diagnostics_eq := rfl
  mem_of_mem_refused := by simp [DeclarationTree.empty]

/-- A declaration that has not been looked at is not known. -/
theorem not_isKnown (h : Settling member settles pass ledger t diagnostics) {d : δ}
    (hd : member d ∉ ledger.map (member ·.1)) : ¬ t.isKnown (member d) = true := by
  rw [DeclarationTree.isKnown_iff, not_or]
  refine ⟨fun hrefused => hd (h.mem_of_mem_refused _ hrefused), fun hmem => ?_⟩
  rw [(h.entries_perm.map (·.1)).mem_iff] at hmem
  obtain ⟨entry, hentry, heq⟩ := List.mem_map.1 hmem
  have hnone := filter_storedEntries_of_notMem hd
  rw [List.filter_eq_nil_iff] at hnone
  exact hnone entry hentry (beq_iff_eq.2 heq)

theorem concat (h : Settling member settles pass ledger t diagnostics) (e : δ × Verdict α)
    (he : settles e.1 e.2) (hpass : t'.pass = t.pass)
    (hentries : t'.entries.Perm (t.entries ++ storedEntries member [e]))
    (hrefused : ∀ m ∈ t'.refused, m ∈ t.refused ∨ m = member e.1) :
    Settling member settles pass (ledger ++ [e]) t' (diagnostics ++ reportedDiagnostics [e]) where
  pass_eq := hpass.trans h.pass_eq
  settles := by
    intro e' he'
    rcases List.mem_append.1 he' with he' | he'
    · exact h.settles e' he'
    · rw [List.mem_singleton.1 he']
      exact he
  entries_perm := by
    rw [storedEntries, List.filterMap_append]
    exact hentries.trans (h.entries_perm.append_right _)
  diagnostics_eq := by
    rw [reportedDiagnostics, reportedDiagnostics, List.filterMap_append, h.diagnostics_eq]
    rfl
  mem_of_mem_refused := by
    intro m hm
    rw [List.map_append, List.mem_append]
    refine (hrefused m hm).imp (h.mem_of_mem_refused m) fun hd => ?_
    simp [hd]

/-- A declaration is stored: its member is one more entry. -/
theorem store (h : Settling member settles pass ledger t diagnostics) {d : δ} {value : α}
    (hvalue : settles d (.stored value)) (hpass : t'.pass = t.pass)
    (hentries : t'.entries.Perm (t.entries ++ [(member d, value)]))
    (hrefused : t'.refused = t.refused) :
    Settling member settles pass (ledger ++ [(d, .stored value)]) t' diagnostics := by
  have hconcat := h.concat (d, .stored value) hvalue hpass hentries fun m hm => .inl (hrefused ▸ hm)
  rwa [show reportedDiagnostics [(d, Verdict.stored value)] = [] from rfl,
    List.append_nil] at hconcat

/-- A declaration is reported: the members stay, and it may be remembered as wrong. -/
theorem report (h : Settling member settles pass ledger t diagnostics) {d : δ}
    {diagnostic : Diagnostic} (hreport : settles d (.reported diagnostic))
    (hpass : t'.pass = t.pass) (hentries : t'.entries = t.entries)
    (hrefused : ∀ m ∈ t'.refused, m ∈ t.refused ∨ m = member d) :
    Settling member settles pass (ledger ++ [(d, .reported diagnostic)]) t'
      (diagnostics ++ [diagnostic]) := by
  refine h.concat (d, .reported diagnostic) hreport hpass ?_ hrefused
  rw [hentries]
  exact .of_eq (List.append_nil _).symm

theorem prune (h : Settling member settles pass ledger t diagnostics) :
    Settling member settles pass ledger t.prune diagnostics :=
  ⟨h.pass_eq, h.settles, by rw [DeclarationTree.entries_prune]; exact h.entries_perm,
    h.diagnostics_eq, h.mem_of_mem_refused⟩

/-- If every addition settles a declaration, adding declarations one by one settles all of them. -/
theorem exists_foldl {σ : Type} (add : σ → δ → σ) (tree : σ → DeclarationTree α)
    (reports : σ → List Diagnostic) {ds : List δ} {s : σ}
    (hempty : Settling member settles pass [] (tree s) (reports s))
    (hids : (ds.map member).Nodup)
    (hadd : ∀ ledger s, ∀ d ∈ ds, Settling member settles pass ledger (tree s) (reports s) →
      member d ∉ ledger.map (member ·.1) →
        ∃ v, Settling member settles pass (ledger ++ [(d, v)]) (tree (add s d))
          (reports (add s d))) :
    ∃ ledger, ledger.map (·.1) = ds ∧
      Settling member settles pass ledger (tree (ds.foldl add s)) (reports (ds.foldl add s)) := by
  induction ds using List.reverseRecOn with
  | nil => exact ⟨[], rfl, hempty⟩
  | append_singleton ds d ih =>
    -- the identities before the last one are those of the ledger so far
    rw [List.map_append, List.nodup_append] at hids
    obtain ⟨hids, -, hnew⟩ := hids
    obtain ⟨ledger, hds, hledger⟩ := ih hids fun ledger s d' hd' =>
      hadd ledger s d' (List.mem_append_left _ hd')
    have hnew' : member d ∉ ledger.map (member ·.1) := by
      intro hmem
      refine hnew (member d) ?_ (member d) (by simp) rfl
      rwa [← hds, List.map_map]
    obtain ⟨v, hv⟩ := hadd ledger _ d (by simp) hledger hnew'
    refine ⟨ledger ++ [(d, v)], by simp [hds], ?_⟩
    rw [List.foldl_concat]
    exact hv

theorem settled (h : Settling member settles pass ledger t diagnostics)
    (hnodup : (ledger.map (member ·.1)).Nodup) :
    Settled member settles (ledger.map (·.1)) ledger t diagnostics where
  declared_eq := rfl
  settles := h.settles
  stored_eq := by
    intro e he
    have hperm := (h.entries_perm.filter (·.1 == member e.1)).map (·.2)
    rw [filter_storedEntries hnodup he] at hperm
    cases hvalue : e.2.stored? with
    | none => exact List.perm_nil.1 (by simpa [hvalue] using hperm)
    | some value => exact List.perm_singleton.1 (by simpa [hvalue] using hperm)
  entries_perm := h.entries_perm
  diagnostics_eq := h.diagnostics_eq
  length_eq := by
    rw [DeclarationTree.memberCount, DeclarationTree.members, List.length_map,
      h.entries_perm.length_eq, h.diagnostics_eq, length_storedEntries_add, List.length_map]

/-- If every addition settles a declaration, the declarations of members with identities of their own
are settled once each. -/
theorem exists_settled {σ : Type} (add : σ → δ → σ) (tree : σ → DeclarationTree α)
    (reports : σ → List Diagnostic) {s : σ} {of? : Member → Option δ} {target : δ → Member}
    (htarget : ∀ m d, of? m = some d → target d = m)
    (hempty : Settling (fun d => (target d).id) settles pass [] (tree s) (reports s))
    {members : List Member} (hids : (members.map (·.id)).Nodup)
    (htypes : ∀ m ∈ members, m.container.types ≠ [])
    (hadd : ∀ ledger s d, (target d).container.types ≠ [] →
      Settling (fun d => (target d).id) settles pass ledger (tree s) (reports s) →
      (target d).id ∉ ledger.map (fun e => (target e.1).id) →
        ∃ v, Settling (fun d => (target d).id) settles pass (ledger ++ [(d, v)]) (tree (add s d))
          (reports (add s d))) :
    ∃ ledger, Settled (fun d => (target d).id) settles (members.filterMap of?) ledger
      (tree ((members.filterMap of?).foldl add s)).prune
      (reports ((members.filterMap of?).foldl add s)) := by
  have htargets : ((members.filterMap of?).map target).Sublist members :=
    map_filterMap_sublist htarget members
  have hids' : ((members.filterMap of?).map fun d => (target d).id).Nodup := by
    have hsub := htargets.map (·.id)
    rw [List.map_map] at hsub
    exact hids.sublist hsub
  obtain ⟨ledger, hledger, hsettling⟩ := exists_foldl add tree reports hempty hids'
    fun ledger s d hd => hadd ledger s d (htypes _ (htargets.subset (List.mem_map_of_mem hd)))
  rw [← hledger, List.map_map] at hids'
  have hsettled := hsettling.prune.settled hids'
  rw [hledger] at hsettled
  exact ⟨ledger, hsettled⟩

end Settling

theorem DeclarationTree.isBlocked_obstacleDiagnostic {t : DeclarationTree α} {pass : Pass}
    (hpass : t.pass = pass) {c : Container} {o : Obstacle} (h : t.obstacle? c = some o) :
    c.IsBlocked pass (obstacleDiagnostic t.pass c o) := by
  obtain ⟨hget, hext⟩ := DeclarationTree.obstacle?_eq_some h
  exact ⟨o, hget, hext, by rw [hpass]⟩

/-! ## Both passes -/

theorem Binding.target_of_ofMember? {m : Member} {b : Binding} (h : ofMember? m = some b) :
    b.target = m := by
  have hsource : ∀ source kind, ofSource? m source kind = some b → b.target = m := by
    intro source kind h
    obtain ⟨library, -, rfl⟩ := Option.map_eq_some_iff.1 h
    rfl
  unfold ofMember? at h
  split at h
  · split at h
    · exact hsource _ _ h
    · exact hsource _ _ h
    · cases h
    · cases h
  · cases h

theorem Constant.target_of_ofMember? {m : Member} {c : Constant} (h : ofMember? m = some c) :
    c.target = m := by
  unfold ofMember? at h
  split at h
  · cases h
    rfl
  · cases h
  · cases h
  · cases h

namespace ImportsPass

variable {rule : AccessRule} {ledger : List (Binding × Verdict Binding)} {s : ImportsPass}

/-- A binding that has not been looked at is settled when it is added. -/
theorem exists_settling_add {b : Binding}
    (h : Settling (·.target.id) (Binding.Settles rule) .imports ledger s.tree s.diagnostics)
    (hnew : b.target.id ∉ ledger.map (·.1.target.id)) (htypes : b.target.container.types ≠ []) :
    ∃ v, Settling (·.target.id) (Binding.Settles rule) .imports (ledger ++ [(b, v)])
      (add rule s b).tree (add rule s b).diagnostics := by
  have hunknown := h.not_isKnown hnew
  have hadds := add_adds rule s b
  generalize add rule s b = s' at hadds ⊢
  cases hadds with
  | blocked o ho =>
    have hblocked := DeclarationTree.isBlocked_obstacleDiagnostic h.pass_eq ho
    exact ⟨_, h.report (.inr hblocked) (by simp) (by simp) (by simp +contextual)⟩
  | untyped hnone => exact absurd hnone htypes
  | present hholds =>
    exact absurd (DeclarationTree.isKnown_iff.2 (.inr hholds.mem_entries)) hunknown
  | refused hrefused => exact absurd (DeclarationTree.isKnown_iff.2 (.inl hrefused)) hunknown
  | accepted kind ms hvalid hms =>
    have hentries := DeclarationTree.entries_place_perm hms b.target.id
      { b with kind, slot := some (s.slots.register b.request).1 }
    rw [DeclarationTree.entries_ensure] at hentries
    exact ⟨_, h.store ⟨kind, (s.slots.register b.request).1, hvalid, rfl⟩ (by simp) hentries
      (by simp)⟩
  | declined error hinvalid =>
    exact ⟨_, h.report (.inl ⟨error, hinvalid, rfl⟩) (by simp) (by simp) (by simp)⟩

variable {c : Compilation} {members : List Member}
  {printer : DeclarationTree Binding → SlotTable → String}

/-- A pass that is not aborted settles all bindings. -/
theorem exists_settled_run (hids : (members.map (·.id)).Nodup)
    (htypes : ∀ m ∈ members, m.container.types ≠ [])
    (h : (run c members rule printer).isAborted = false) :
    ∃ ledger, Settled (·.target.id) (Binding.Settles rule) (members.filterMap Binding.ofMember?)
      ledger (run c members rule printer).tree (run c members rule printer).diagnostics := by
  obtain ⟨htree, hdiagnostics⟩ := run_of_not_isAborted h
  rw [htree, hdiagnostics]
  exact Settling.exists_settled (add rule) tree diagnostics
    (fun _ _ => Binding.target_of_ofMember?) (.empty _ _ .imports) hids htypes
    fun _ _ _ htypes hsettling hnew => exists_settling_add hsettling hnew htypes

end ImportsPass

namespace ConstantsPass

variable {ledger : List (Constant × Verdict EvaluatedConstant)} {s : ConstantsPass}

/-- A constant that has not been looked at is settled when it is added. -/
theorem exists_settling_add {c : Constant}
    (h : Settling (·.target.id) Constant.Settles .constants ledger s.tree s.diagnostics)
    (hnew : c.target.id ∉ ledger.map (·.1.target.id)) (htypes : c.target.container.types ≠ []) :
    ∃ v, Settling (·.target.id) Constant.Settles .constants (ledger ++ [(c, v)])
      (s.add c).tree (s.add c).diagnostics := by
  have hadds := add_adds s c
  generalize s.add c = s' at hadds ⊢
  cases hadds with
  | known hknown => exact absurd hknown (h.not_isKnown hnew)
  | declined error hinvalid =>
    exact ⟨_, h.report (.inl ⟨error, hinvalid, rfl⟩) (by simp) (by simp) (by simp)⟩
  | blocked value o hvalue ho =>
    have hblocked := DeclarationTree.isBlocked_obstacleDiagnostic h.pass_eq ho
    exact ⟨_, h.report (.inr ⟨⟨value, hvalue⟩, hblocked⟩) (by simp) (by simp)
      (by simp +contextual)⟩
  | untyped hnone => exact absurd hnone htypes
  | accepted value ms hvalue hms =>
    have hentries := DeclarationTree.entries_place_perm hms c.target.id value
    rw [DeclarationTree.entries_ensure] at hentries
    exact ⟨_, h.store hvalue (by simp) hentries (by simp)⟩

variable {c : Compilation} {members : List Member}
  {printer : DeclarationTree EvaluatedConstant → String}

theorem exists_settled_run (hids : (members.map (·.id)).Nodup)
    (htypes : ∀ m ∈ members, m.container.types ≠ [])
    (h : (run c members printer).isAborted = false) :
    ∃ ledger, Settled (·.target.id) Constant.Settles (members.filterMap Constant.ofMember?)
      ledger (run c members printer).tree (run c members printer).diagnostics := by
  obtain ⟨htree, hdiagnostics⟩ := run_of_not_isAborted h
  rw [htree, hdiagnostics]
  exact Settling.exists_settled add tree diagnostics
    (fun _ _ => Constant.target_of_ofMember?) (.empty _ _ .constants) hids htypes
    fun _ _ _ htypes hsettling hnew => exists_settling_add hsettling hnew htypes

end ConstantsPass

/-- Neither pass loses a declaration: whatever it has extracted is stored once or reported once. -/
theorem settled_run (c : Compilation) (members : List Member) (rule : AccessRule)
    (loader : DeclarationTree Binding → SlotTable → String)
    (printer : DeclarationTree EvaluatedConstant → String) (hids : (members.map (·.id)).Nodup)
    (htypes : ∀ m ∈ members, m.container.types ≠ []) :
    let imports := ImportsPass.run c members rule loader
    let constants := ConstantsPass.run c members printer
    (imports.isAborted = false →
      ∃ ledger, Settled (·.target.id) (Binding.Settles rule)
        (members.filterMap Binding.ofMember?) ledger imports.tree imports.diagnostics) ∧
    (constants.isAborted = false →
      ∃ ledger, Settled (·.target.id) Constant.Settles
        (members.filterMap Constant.ofMember?) ledger constants.tree constants.diagnostics) :=
  ⟨ImportsPass.exists_settled_run hids htypes, ConstantsPass.exists_settled_run hids htypes⟩

/-- A function and a constant, each in a class that can be extended and in one that cannot, and a
function that is not partial. -/
def mixedDeclarations : List Member :=
  let library : NamedType := ⟨⟨0⟩, "Demo.SdlLib", .internalAccess⟩
  let function := (TypeUse.void, Marker.function ⟨some library, none, none⟩ [])
  let constant := (TypeUse.mk "string" .string false, Marker.constant (some "SDL") [] 0)
  let method (id : Nat) (modifiers : List Modifier) (type : EnclosingType)
      (use : TypeUse × Marker) : Member :=
    { id := ⟨id⟩
      name := "Init"
      form := .method
      modifiers
      hasBody := false
      params := []
      typeParams := []
      returnType := use.1
      returnPassing := .byValue
      container := { types := [type] }
      location := none
      marker := some use.2 }
  let extensible : EnclosingType := ⟨⟨1⟩, "Sdl", .classType, [], true, none⟩
  let closed : EnclosingType := ⟨⟨2⟩, "Closed", .classType, [], false, none⟩
  [method 3 [.staticMember, .partialMember] extensible function,
    method 4 [.staticMember, .partialMember] closed function,
    method 5 [.staticMember] extensible function,
    method 6 [.staticMember, .partialMember] extensible constant,
    method 7 [.staticMember, .partialMember] closed constant]

theorem settled_mixedDeclarations :
    let imports := ImportsPass.run {} mixedDeclarations NamedType.isReachable fun _ _ => ""
    let constants := ConstantsPass.run {} mixedDeclarations fun _ => ""
    (mixedDeclarations.map (·.id)).Nodup ∧ (∀ m ∈ mixedDeclarations, m.container.types ≠ []) ∧
    imports.isAborted = false ∧ constants.isAborted = false ∧
    imports.tree.memberCount = 1 ∧ constants.tree.memberCount = 1 ∧
    (∃ ledger, Settled (·.target.id) (Binding.Settles NamedType.isReachable)
      (mixedDeclarations.filterMap Binding.ofMember?) ledger imports.tree imports.diagnostics) ∧
    (∃ ledger, Settled (·.target.id) Constant.Settles
      (mixedDeclarations.filterMap Constant.ofMember?) ledger constants.tree
      constants.diagnostics) := by
  have hids : (mixedDeclarations.map (·.id)).Nodup := by decide
  have htypes : ∀ m ∈ mixedDeclarations, m.container.types ≠ [] := by decide
  have himports : (ImportsPass.run {} mixedDeclarations NamedType.isReachable fun _ _ => "").isAborted =
      false := by
    rw [← Bool.not_eq_true, ImportsPass.isAborted_run]
    exact not_not.2 (.inr rfl)
  have hconstants : (ConstantsPass.run {} mixedDeclarations fun _ => "").isAborted = false := by
    rw [← Bool.not_eq_true, ConstantsPass.isAborted_run]
    exact not_not.2 (.inr (by decide))
  obtain ⟨hsettled, hsettled'⟩ :=
    settled_run {} mixedDeclarations NamedType.isReachable (fun _ _ => "") (fun _ => "") hids htypes
  exact ⟨hids, htypes, himports, hconstants, by decide, by decide +kernel, hsettled himports,
    hsettled' hconstants⟩

end NativeBindings
