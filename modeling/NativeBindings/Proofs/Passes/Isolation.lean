import NativeBindings.Proofs.Passes.Settlement

/-!
# Isolation of passes

A pass that stops at its gate says so once and produces nothing. Any other pass reports declarations
one by one, and it produces a unit if it accepts one of them. Nothing of the input counts besides the
gate and the members that ask the pass for something.

## Main definitions

- `Accountable` — tree and diagnostics of a running pass go back to its declarations
- `AllOrNothing` — what a finished pass has produced and reported

## Main statements

- `ImportsPass.allOrNothing_run`, `ConstantsPass.allOrNothing_run` — no pass does its work by halves
- `ImportsPass.run_eq_of_agree`, `ConstantsPass.run_eq_of_agree` — a pass sees nothing else
- `isolated_run` — both properties of both passes
-/

namespace NativeBindings

variable {α δ : Type}

/-- Every member of the tree is an accepted declaration, and no diagnostic concerns the whole pass. -/
structure Accountable (accepts : δ → α → Prop) (ds : List δ) (t : DeclarationTree α)
    (diagnostics : List Diagnostic) : Prop where
  exists_accepts : ∀ e ∈ t.entries, ∃ d ∈ ds, accepts d e.2
  not_isPassWide : ∀ d ∈ diagnostics, d.problem.isPassWide = false

/-- A pass with declarations at a closed gate has one diagnostic for all of them. Otherwise it has
none that concerns the whole pass, and it has a unit if it has accepted a declaration. -/
structure AllOrNothing (accepts : δ → α → Prop) (declared : List δ) (isOpen : Bool)
    (problem : Problem) (t : DeclarationTree α) (diagnostics : List Diagnostic)
    (output : Option String) : Prop where
  of_closed : declared ≠ [] ∧ isOpen = false →
    output = none ∧ ∃ d, diagnostics = [d] ∧ d.problem = problem
  not_isPassWide : ¬ (declared ≠ [] ∧ isOpen = false) →
    ∀ d ∈ diagnostics, d.problem.isPassWide = false
  isSome_output : ¬ (declared ≠ [] ∧ isOpen = false) →
    (output.isSome = true ↔ ∃ d ∈ declared, ∃ value ∈ t.members, accepts d value)

namespace Accountable

variable {accepts : δ → α → Prop} {ds : List δ} {d : δ} {t t' : DeclarationTree α}
  {diagnostics : List Diagnostic}

theorem empty (accepts : δ → α → Prop) (pass : Pass) : Accountable accepts [] (.empty pass) [] where
  exists_accepts := by simp [DeclarationTree.empty, DeclarationTree.entries, TypeForest.entries,
    NamespaceForest.entries]
  not_isPassWide := by simp

/-- A declaration adds no member. -/
theorem skip (h : Accountable accepts ds t diagnostics) (d : δ) (hentries : t'.entries = t.entries) :
    Accountable accepts (ds ++ [d]) t' diagnostics where
  exists_accepts := by
    intro e he
    rw [hentries] at he
    obtain ⟨d', hd', haccepts⟩ := h.exists_accepts e he
    exact ⟨d', List.mem_append_left _ hd', haccepts⟩
  not_isPassWide := h.not_isPassWide

theorem report (h : Accountable accepts ds t diagnostics) (d : δ) {diagnostic : Diagnostic}
    (hproblem : diagnostic.problem.isPassWide = false) (hentries : t'.entries = t.entries) :
    Accountable accepts (ds ++ [d]) t' (diagnostics ++ [diagnostic]) where
  exists_accepts := (h.skip d hentries).exists_accepts
  not_isPassWide := by
    intro d' hd'
    rcases List.mem_append.1 hd' with hd' | hd'
    · exact h.not_isPassWide d' hd'
    · rw [List.mem_singleton.1 hd']
      exact hproblem

theorem store (h : Accountable accepts ds t diagnostics) {member : Symbol} {value : α}
    (hvalue : accepts d value) (hentries : t'.entries.Perm (t.entries ++ [(member, value)])) :
    Accountable accepts (ds ++ [d]) t' diagnostics where
  exists_accepts := by
    intro e he
    rcases List.mem_append.1 (hentries.mem_iff.1 he) with he | he
    · exact (h.skip d rfl).exists_accepts e he
    · rw [List.mem_singleton.1 he]
      exact ⟨d, by simp, hvalue⟩
  not_isPassWide := h.not_isPassWide

theorem prune (h : Accountable accepts ds t diagnostics) :
    Accountable accepts ds t.prune diagnostics where
  exists_accepts := by
    rw [DeclarationTree.entries_prune]
    exact h.exists_accepts
  not_isPassWide := h.not_isPassWide

theorem exists_mem_members_iff (h : Accountable accepts ds t diagnostics) :
    (∃ d ∈ ds, ∃ value ∈ t.members, accepts d value) ↔ t.entries ≠ [] := by
  constructor
  · rintro ⟨d, -, value, hvalue, -⟩ hnil
    rw [DeclarationTree.members, hnil] at hvalue
    cases hvalue
  · intro hne
    obtain ⟨e, he⟩ := List.exists_mem_of_ne_nil _ hne
    obtain ⟨d, hd, haccepts⟩ := h.exists_accepts e he
    exact ⟨d, hd, e.2, List.mem_map_of_mem he, haccepts⟩

/-- The property of a pass follows from what it does behind a closed and behind an open gate. -/
theorem allOrNothing {isOpen : Bool} {problem : Problem} {output : Option String}
    (hclosed : ¬ (ds = [] ∨ isOpen = true) →
      output = none ∧ ∃ d, diagnostics = [d] ∧ d.problem = problem)
    (hopen : ds = [] ∨ isOpen = true →
      Accountable accepts ds t diagnostics ∧ (output.isSome = true ↔ t.entries ≠ [])) :
    AllOrNothing accepts ds isOpen problem t diagnostics output := by
  have hgate : ds ≠ [] ∧ isOpen = false ↔ ¬ (ds = [] ∨ isOpen = true) := by
    rw [not_or, Bool.not_eq_true]
  constructor
  · intro h
    exact hclosed (hgate.1 h)
  · intro h
    rw [hgate, not_not] at h
    exact (hopen h).1.not_isPassWide
  · intro h
    rw [hgate, not_not] at h
    obtain ⟨haccountable, houtput⟩ := hopen h
    exact houtput.trans haccountable.exists_mem_members_iff.symm

end Accountable

theorem BindingError.not_isPassWide (error : BindingError) (location : Option Location) :
    (error.diagnostic location).problem.isPassWide = false := by
  cases error <;> rfl

theorem ConstantError.not_isPassWide (error : ConstantError) (location : Option Location) :
    (error.diagnostic location).problem.isPassWide = false := by
  cases error <;> rfl

/-- The member is marked to return a constant text. -/
def Member.hasConstantMarker (m : Member) : Bool :=
  match m.marker with
  | some (.constant ..) => true
  | _ => false

theorem Constant.isSome_ofMember? (m : Member) : (ofMember? m).isSome = m.hasConstantMarker := by
  unfold ofMember? Member.hasConstantMarker
  rcases m.marker with - | (_ | _ | _) <;> rfl

/-- What is made of a list depends only on the elements that anything is made of. -/
theorem filterMap_eq_of_filter_eq {β γ : Type} {f : β → Option γ} {xs ys : List β}
    (h : xs.filter (fun x => (f x).isSome) = ys.filter fun y => (f y).isSome) :
    xs.filterMap f = ys.filterMap f := by
  have hfilter : ∀ zs : List β, (zs.filter fun z => (f z).isSome).filterMap f = zs.filterMap f := by
    intro zs
    rw [List.filterMap_filter]
    refine List.filterMap_congr fun z _ => ?_
    cases hz : f z <;> simp
  rw [← hfilter xs, h, hfilter ys]

/-! ## The imports pass -/

namespace ImportsPass

variable {rule : AccessRule} {bs : List Binding} {s : ImportsPass}

theorem accountable_add (h : Accountable (Binding.Accepts rule) bs s.tree s.diagnostics)
    (b : Binding) :
    Accountable (Binding.Accepts rule) (bs ++ [b]) (add rule s b).tree
      (add rule s b).diagnostics := by
  have hadds := add_adds rule s b
  generalize add rule s b = s' at hadds ⊢
  cases hadds with
  | blocked o ho => exact h.report b rfl (DeclarationTree.entries_ensure _ _)
  | untyped hnone => exact h.skip b (DeclarationTree.entries_ensure _ _)
  | present hholds => exact h.skip b (DeclarationTree.entries_ensure _ _)
  | refused hrefused => exact h.skip b (DeclarationTree.entries_ensure _ _)
  | accepted kind ms hvalid hms =>
    have hentries := DeclarationTree.entries_place_perm hms b.target.id
      { b with kind, slot := some (s.slots.register b.request).1 }
    rw [DeclarationTree.entries_ensure] at hentries
    exact h.store ⟨kind, (s.slots.register b.request).1, hvalid, rfl⟩ hentries
  | declined error hinvalid => exact h.report b (error.not_isPassWide _) (by simp)

variable {c c' : Compilation} {members members' : List Member}
  {printer : DeclarationTree Binding → SlotTable → String}

theorem accountable_added (rule : AccessRule) (members : List Member) :
    Accountable (Binding.Accepts rule) (members.filterMap Binding.ofMember?)
      (added rule members).tree (added rule members).diagnostics := by
  unfold added
  induction members.filterMap Binding.ofMember? using List.reverseRecOn with
  | nil => exact .empty _ .imports
  | append_singleton bs b ih =>
    rw [List.foldl_concat]
    exact accountable_add ih b

theorem output_added (rule : AccessRule) (members : List Member) :
    (added rule members).output = none := by
  unfold added
  induction members.filterMap Binding.ofMember? using List.reverseRecOn with
  | nil => rfl
  | append_singleton bs b ih =>
    rw [List.foldl_concat]
    exact ih

theorem isSome_output_print (h : s.output = none) :
    (print printer s).output.isSome = true ↔ s.tree.isEmpty ≠ true := by
  unfold print
  split
  next hempty => simp [h, hempty]
  next hempty => simp [hempty]

theorem allOrNothing_run (c : Compilation) (members : List Member) (rule : AccessRule)
    (printer : DeclarationTree Binding → SlotTable → String) :
    AllOrNothing (Binding.Accepts rule) (members.filterMap Binding.ofMember?) c.allowsUnsafeCode
      .unsafeNotAllowed (run c members rule printer).tree (run c members rule printer).diagnostics
      (run c members rule printer).output := by
  refine Accountable.allOrNothing (fun hclosed => ?_) fun hopen => ?_
  · rw [run_of_gated hclosed]
    exact ⟨rfl, _, rfl, rfl⟩
  · rw [run_eq_print hopen, build_extract, (print_eq _).1, (print_eq _).2.1]
    refine ⟨(accountable_added rule members).prune, (isSome_output_print ?_).trans (not_congr ?_)⟩
    · exact output_added rule members
    · dsimp only
      rw [DeclarationTree.isEmpty_prune_iff, DeclarationTree.entries_prune]

/-- A stopped pass has no members, and those of any other pass are declared. -/
theorem exists_accepts_of_mem_run {b : Binding} (h : b ∈ (run c members rule printer).tree.members) :
    ∃ declared ∈ members.filterMap Binding.ofMember?, declared.Accepts rule b := by
  obtain ⟨e, he, rfl⟩ := List.mem_map.1 h
  by_cases hopen : members.filterMap Binding.ofMember? = [] ∨ c.allowsUnsafeCode = true
  · rw [run_eq_print hopen, build_extract, (print_eq _).1] at he
    exact (accountable_added rule members).prune.exists_accepts e he
  · rw [run_of_gated hopen] at he
    cases he

/-- Inputs that agree on unsafe code and on the members that ask for a binding are treated alike. -/
theorem run_eq_of_agree (hgate : c.allowsUnsafeCode = c'.allowsUnsafeCode)
    (hmembers : members.filter (fun m => (Binding.ofMember? m).isSome) =
      members'.filter fun m => (Binding.ofMember? m).isSome) :
    run c members rule printer = run c' members' rule printer := by
  have hbindings := filterMap_eq_of_filter_eq hmembers
  by_cases hopen : members.filterMap Binding.ofMember? = [] ∨ c.allowsUnsafeCode = true
  · rw [run_eq_print hopen, run_eq_print (hbindings ▸ hgate ▸ hopen), extract, extract, hbindings]
  · rw [run_of_gated hopen, run_of_gated (hbindings ▸ hgate ▸ hopen), hbindings]

end ImportsPass

/-! ## The constants pass -/

namespace ConstantsPass

variable {cs : List Constant} {s : ConstantsPass}

theorem accountable_add
    (h : Accountable (fun c value => c.evaluate = .ok value) cs s.tree s.diagnostics)
    (c : Constant) :
    Accountable (fun c value => c.evaluate = .ok value) (cs ++ [c]) (s.add c).tree
      (s.add c).diagnostics := by
  have hadds := add_adds s c
  generalize s.add c = s' at hadds ⊢
  cases hadds with
  | known hknown => exact h.skip c rfl
  | declined error hinvalid => exact h.report c (error.not_isPassWide _) (by simp)
  | blocked value o hvalue ho => exact h.report c rfl (DeclarationTree.entries_ensure _ _)
  | untyped hnone => exact h.skip c (DeclarationTree.entries_ensure _ _)
  | accepted value ms hvalue hms =>
    have hentries := DeclarationTree.entries_place_perm hms c.target.id value
    rw [DeclarationTree.entries_ensure] at hentries
    exact h.store hvalue hentries

theorem accountable_added (members : List Member) :
    Accountable (fun c value => c.evaluate = .ok value) (members.filterMap Constant.ofMember?)
      (added members).tree (added members).diagnostics := by
  unfold added
  induction members.filterMap Constant.ofMember? using List.reverseRecOn with
  | nil => exact .empty _ .constants
  | append_singleton cs c ih =>
    rw [List.foldl_concat]
    exact accountable_add ih c

theorem output_added (members : List Member) : (added members).output = none := by
  unfold added
  induction members.filterMap Constant.ofMember? using List.reverseRecOn with
  | nil => rfl
  | append_singleton cs c ih =>
    rw [List.foldl_concat]
    -- an addition changes tree and diagnostics only
    have hadds := add_adds (cs.foldl add {}) c
    generalize (cs.foldl add {}).add c = s' at hadds ⊢
    cases hadds <;> exact ih

variable {c c' : Compilation} {members members' : List Member}
  {printer : DeclarationTree EvaluatedConstant → String}

theorem isSome_output_print (h : s.output = none) :
    (print printer s).output.isSome = true ↔ s.tree.isEmpty ≠ true := by
  unfold print
  split
  next hempty => simp [h, hempty]
  next hempty => simp [hempty]

theorem allOrNothing_run (c : Compilation) (members : List Member)
    (printer : DeclarationTree EvaluatedConstant → String) :
    AllOrNothing (fun c value => c.evaluate = .ok value) (members.filterMap Constant.ofMember?)
      (c.knowsType Compilation.readOnlySpan) .missingRequiredType (run c members printer).tree
      (run c members printer).diagnostics (run c members printer).output := by
  refine Accountable.allOrNothing (fun hclosed => ?_) fun hopen => ?_
  · rw [run_of_gated hclosed]
    exact ⟨rfl, _, rfl, rfl⟩
  · rw [run_eq_print hopen, build_extract, (print_eq _).1, (print_eq _).2.1]
    refine ⟨(accountable_added members).prune, (isSome_output_print ?_).trans (not_congr ?_)⟩
    · exact output_added members
    · dsimp only
      rw [DeclarationTree.isEmpty_prune_iff, DeclarationTree.entries_prune]

/-- A stopped pass has no members, and those of any other pass are declared. -/
theorem exists_evaluate_of_mem_run {value : EvaluatedConstant}
    (h : value ∈ (run c members printer).tree.members) :
    ∃ constant ∈ members.filterMap Constant.ofMember?, constant.evaluate = .ok value := by
  obtain ⟨e, he, rfl⟩ := List.mem_map.1 h
  by_cases hopen : members.filterMap Constant.ofMember? = [] ∨
      c.knowsType Compilation.readOnlySpan = true
  · rw [run_eq_print hopen, build_extract, (print_eq _).1] at he
    exact (accountable_added members).prune.exists_accepts e he
  · rw [run_of_gated hopen] at he
    cases he

/-- Inputs that agree on read-only spans and on the members with a constant marker are treated
alike. -/
theorem run_eq_of_agree
    (hgate : c.knowsType Compilation.readOnlySpan = c'.knowsType Compilation.readOnlySpan)
    (hmembers : members.filter (·.hasConstantMarker) = members'.filter (·.hasConstantMarker)) :
    run c members printer = run c' members' printer := by
  simp only [← Constant.isSome_ofMember?] at hmembers
  have hconstants := filterMap_eq_of_filter_eq hmembers
  by_cases hopen : members.filterMap Constant.ofMember? = [] ∨
      c.knowsType Compilation.readOnlySpan = true
  · rw [run_eq_print hopen, run_eq_print (hconstants ▸ hgate ▸ hopen), extract, extract, hconstants]
  · rw [run_of_gated hopen, run_of_gated (hconstants ▸ hgate ▸ hopen), hconstants]

end ConstantsPass

/-- A pass is stopped as a whole or not at all, and it sees nothing of its input but its gate and the
members that ask it for something. -/
theorem isolated_run (c c' : Compilation) (members members' : List Member) (rule : AccessRule)
    (loader : DeclarationTree Binding → SlotTable → String)
    (printer : DeclarationTree EvaluatedConstant → String) :
    let imports := ImportsPass.run c members rule loader
    let imports' := ImportsPass.run c' members' rule loader
    let constants := ConstantsPass.run c members printer
    let constants' := ConstantsPass.run c' members' printer
    AllOrNothing (Binding.Accepts rule) (members.filterMap Binding.ofMember?) c.allowsUnsafeCode
      .unsafeNotAllowed imports.tree imports.diagnostics imports.output ∧
    AllOrNothing (fun constant value => constant.evaluate = .ok value)
      (members.filterMap Constant.ofMember?) (c.knowsType Compilation.readOnlySpan)
      .missingRequiredType constants.tree constants.diagnostics constants.output ∧
    (c.allowsUnsafeCode = c'.allowsUnsafeCode →
      members.filter (fun m => (Binding.ofMember? m).isSome) =
        members'.filter (fun m => (Binding.ofMember? m).isSome) →
      imports.output = imports'.output ∧ imports.diagnostics = imports'.diagnostics) ∧
    (c.knowsType Compilation.readOnlySpan = c'.knowsType Compilation.readOnlySpan →
      members.filter (·.hasConstantMarker) = members'.filter (·.hasConstantMarker) →
      constants.output = constants'.output ∧ constants.diagnostics = constants'.diagnostics) := by
  dsimp only
  refine ⟨ImportsPass.allOrNothing_run c members rule loader,
    ConstantsPass.allOrNothing_run c members printer, fun hgate hmembers => ?_,
    fun hgate hmembers => ?_⟩
  · rw [ImportsPass.run_eq_of_agree hgate hmembers]
    exact ⟨rfl, rfl⟩
  · rw [ConstantsPass.run_eq_of_agree hgate hmembers]
    exact ⟨rfl, rfl⟩

-- The first compilation closes the gate for imports and the second the one for constants, and each
-- second list lacks the members of the pass that is stopped.
theorem isolated_run_mixedDeclarations :
    let safe : Compilation := { allowsUnsafeCode := false }
    let spanless : Compilation := { knownTypes := [] }
    let imports (c : Compilation) (members : List Member) :=
      ImportsPass.run c members NamedType.isReachable fun _ _ => "imports"
    let constants (c : Compilation) (members : List Member) :=
      ConstantsPass.run c members fun _ => "constants"
    (imports safe mixedDeclarations).output = none ∧
    (∃ d, (imports safe mixedDeclarations).diagnostics = [d] ∧ d.problem = .unsafeNotAllowed) ∧
    (constants safe mixedDeclarations).output.isSome = true ∧
    (constants safe mixedDeclarations).diagnostics =
      (constants {} (mixedDeclarations.drop 3)).diagnostics ∧
    (constants spanless mixedDeclarations).output = none ∧
    (∃ d, (constants spanless mixedDeclarations).diagnostics = [d] ∧
      d.problem = .missingRequiredType) ∧
    (∃ b ∈ mixedDeclarations.filterMap Binding.ofMember?,
      ∃ accepted ∈ (imports spanless mixedDeclarations).tree.members,
        b.Accepts NamedType.isReachable accepted) ∧
    (imports spanless mixedDeclarations).diagnostics =
      (imports {} (mixedDeclarations.take 3)).diagnostics := by
  intro safe spanless imports constants
  obtain ⟨himports, hconstants, -, hagree⟩ :=
    isolated_run safe {} mixedDeclarations (mixedDeclarations.drop 3) NamedType.isReachable
      (fun _ _ => "imports") fun _ => "constants"
  obtain ⟨himports', hconstants', hagree', -⟩ :=
    isolated_run spanless {} mixedDeclarations (mixedDeclarations.take 3) NamedType.isReachable
      (fun _ _ => "imports") fun _ => "constants"
  obtain ⟨hnone, hone⟩ := himports.of_closed (by decide)
  obtain ⟨hnone', hone'⟩ := hconstants'.of_closed (by decide)
  have hsome : (constants safe mixedDeclarations).output.isSome = true := by
    refine (hconstants.isSome_output (by decide)).2 ?_
    decide +kernel
  have haccepts := (himports'.isSome_output (by decide)).1 (by decide +kernel)
  exact ⟨hnone, hone, hsome, (hagree (by decide) (by decide)).2, hnone', hone', haccepts,
    (hagree' (by decide) (by decide)).2⟩

end NativeBindings
