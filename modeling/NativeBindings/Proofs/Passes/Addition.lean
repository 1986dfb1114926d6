import Mathlib.Data.List.Induction
import NativeBindings.Generation.ConstantsPass
import NativeBindings.Generation.ImportsPass
import NativeBindings.Proofs.DeclarationTree.Insertion

/-!
# Additions to a pass

Both passes add one declaration after the other to their trees. This file lists what one addition
can do to the state of a pass, and what is left of the phases before and after it.

## Main definitions

- `Binding.Accepts` — a binding as it is accepted
- `ImportsPass.Adds`, `ConstantsPass.Adds` — the ways in which an addition can end

## Main statements

- `ImportsPass.add_adds`, `ConstantsPass.add_adds` — an addition ends in one of these ways
- `ImportsPass.runAll_take_three`, `ConstantsPass.runAll_take_three` — the state before printing
-/

namespace NativeBindings

open DeclarationTree (obstacleDiagnostic)

/-- A declared binding, and the same binding as it is accepted. -/
def Binding.Accepts (rule : AccessRule) (declared accepted : Binding) : Prop :=
  ∃ kind slot, declared.validate rule = .ok kind ∧
    accepted = { declared with kind, slot := some slot }

theorem Phase.runAll_append {σ : Type} (isAborted : σ → Bool) (ps qs : List (Phase σ)) (s : σ) :
    Phase.runAll isAborted (ps ++ qs) s = Phase.runAll isAborted qs (Phase.runAll isAborted ps s) :=
  List.foldl_append

/-- A gate that lets a state pass is as good as none. -/
theorem Phase.runAll_of_gate {σ : Type} {isAborted : σ → Bool} {extract gate build : Phase σ} {s : σ}
    (h : isAborted s = false) (hextract : isAborted (extract.run s) = false)
    (hgate : gate.run (extract.run s) = extract.run s) :
    Phase.runAll isAborted [extract, gate, build] s = build.run (extract.run s) := by
  simp [Phase.runAll, h, hextract, hgate]

namespace ImportsPass

/-- The ways in which the addition of a binding can end. -/
inductive Adds (rule : AccessRule) (s : ImportsPass) (b : Binding) : ImportsPass → Prop where
  /-- A type around the member cannot be extended. -/
  | blocked (o : Obstacle) (h : s.tree.obstacle? b.target.container = some o) :
    Adds rule s b
      { s with
        tree := s.tree.ensure b.target.container
        diagnostics :=
          s.diagnostics ++ [obstacleDiagnostic s.tree.pass b.target.container o] }
  /-- The member stands in no type. -/
  | untyped (h : b.target.container.types = []) :
    Adds rule s b { s with tree := s.tree.ensure b.target.container }
  /-- The member has been accepted before. -/
  | present (h : s.tree.HoldsAt b.target.container b.target.id) :
    Adds rule s b { s with tree := s.tree.ensure b.target.container }
  /-- The member has been found wrong before. -/
  | refused (h : b.target.id ∈ s.tree.refused) :
    Adds rule s b { s with tree := s.tree.ensure b.target.container }
  /-- The binding is valid and gets a slot. -/
  | accepted (kind : BindingKind) (ms : List (Symbol × Binding)) (h : b.validate rule = .ok kind)
    (hms : (s.tree.ensure b.target.container).membersAt? b.target.container = some ms) :
    Adds rule s b
      { s with
        tree := (s.tree.ensure b.target.container).place b.target.container b.target.id
          { b with kind, slot := some (s.slots.register b.request).1 }
        slots := (s.slots.register b.request).2 }
  /-- The binding is not valid. -/
  | declined (error : BindingError) (h : b.validate rule = .error error) :
    Adds rule s b
      { s with
        tree := (s.tree.ensure b.target.container).refuse b.target.id
        diagnostics := s.diagnostics ++ [error.diagnostic b.location] }

theorem add_adds (rule : AccessRule) (s : ImportsPass) (b : Binding) :
    Adds rule s b (add rule s b) := by
  have hins := s.tree.insert_inserts b.target.container b.target.id Effects.report (accept rule b)
    ⟨s.slots, s.diagnostics⟩
  unfold add
  generalize s.tree.insert b.target.container b.target.id _ _ _ = r at hins
  cases hins with
  | blocked o h => exact .blocked o h
  | untyped h => exact .untyped h
  | present h => exact .present h
  | refused _ h => exact .refused h
  | accepted value e hopen hne _ _ h =>
    cases hvalid : b.validate rule with
    | error error => simp [accept, hvalid] at h
    | ok kind =>
      simp only [accept, hvalid, Prod.mk.injEq, Option.some.injEq] at h
      obtain ⟨rfl, rfl⟩ := h
      exact .accepted kind _ hvalid (DeclarationTree.membersAt?_ensure_self hne hopen)
  | declined e _ _ _ _ h =>
    cases hvalid : b.validate rule with
    | ok kind => simp [accept, hvalid] at h
    | error error =>
      simp only [accept, hvalid, Prod.mk.injEq, true_and] at h
      obtain rfl := h
      exact .declined error hvalid

theorem Adds.isAborted_eq {rule : AccessRule} {s s' : ImportsPass} {b : Binding}
    (h : Adds rule s b s') : s'.isAborted = s.isAborted := by
  cases h <;> rfl

/-- The state after all bindings of some members were added. -/
def added (rule : AccessRule) (members : List Member) : ImportsPass :=
  (members.filterMap Binding.ofMember?).foldl (add rule) {}

variable {c : Compilation} {members : List Member} {rule : AccessRule}
  {printer : DeclarationTree Binding → SlotTable → String}

theorem build_extract : build rule (extract members {}) =
    { added rule members with tree := (added rule members).tree.prune } := rfl

theorem isAborted_build : (build rule (extract members {})).isAborted = false := by
  rw [build_extract, added]
  induction members.filterMap Binding.ofMember? using List.reverseRecOn with
  | nil => rfl
  | append_singleton bs b ih =>
    rw [List.foldl_concat, (add_adds rule _ b).isAborted_eq, ih]

/-- The phases before printing add all bindings, unless there are some and unsafe code is not
allowed. -/
theorem runAll_take_three
    (h : members.filterMap Binding.ofMember? = [] ∨ c.allowsUnsafeCode = true) :
    Phase.runAll (·.isAborted) ((phases c members rule printer).take 3) {} =
      build rule (extract members {}) := by
  have hgate : gate c (extract members {}) = extract members {} := by
    rcases h with h | h <;> simp [gate, extract, h]
  exact Phase.runAll_of_gate rfl rfl hgate

theorem run_eq_print (h : members.filterMap Binding.ofMember? = [] ∨ c.allowsUnsafeCode = true) :
    run c members rule printer = print printer (build rule (extract members {})) := by
  have hsplit := Phase.runAll_append (·.isAborted) ((phases c members rule printer).take 3)
    ((phases c members rule printer).drop 3) {}
  rw [List.take_append_drop, runAll_take_three h] at hsplit
  rw [run, hsplit]
  exact if_neg (by simp [isAborted_build])

theorem print_eq (s : ImportsPass) : (print printer s).tree = s.tree ∧
    (print printer s).diagnostics = s.diagnostics ∧ (print printer s).isAborted = s.isAborted := by
  unfold print
  split <;> exact ⟨rfl, rfl, rfl⟩

/-- At a closed gate the pass ends with one diagnostic. -/
theorem run_of_gated
    (h : ¬ (members.filterMap Binding.ofMember? = [] ∨ c.allowsUnsafeCode = true)) :
    run c members rule printer =
      { pending := members.filterMap Binding.ofMember?
        diagnostics :=
          [{ pass := .imports, problem := .unsafeNotAllowed, message := unsafeNotAllowed }]
        isAborted := true } := by
  rw [not_or] at h
  -- the gate aborts, and the phases behind it are passed over
  simp [run, Phase.runAll, phases, extract, gate, h.1, h.2]

/-- The pass is aborted if there are bindings and unsafe code is not allowed. -/
theorem isAborted_run : (run c members rule printer).isAborted = true ↔
    ¬ (members.filterMap Binding.ofMember? = [] ∨ c.allowsUnsafeCode = true) := by
  by_cases h : members.filterMap Binding.ofMember? = [] ∨ c.allowsUnsafeCode = true
  · rw [run_eq_print h, (print_eq _).2.2, isAborted_build]
    exact iff_of_false Bool.false_ne_true (not_not.2 h)
  · rw [run_of_gated h]
    exact iff_of_true rfl h

/-- A pass that was not aborted has added all bindings. -/
theorem run_of_not_isAborted (h : (run c members rule printer).isAborted = false) :
    (run c members rule printer).tree = (added rule members).tree.prune ∧
      (run c members rule printer).diagnostics = (added rule members).diagnostics := by
  have hopen : members.filterMap Binding.ofMember? = [] ∨ c.allowsUnsafeCode = true := by
    by_contra hgated
    rw [isAborted_run.2 hgated] at h
    cases h
  rw [run_eq_print hopen]
  exact ⟨(print_eq _).1, (print_eq _).2.1⟩

end ImportsPass

namespace ConstantsPass

/-- The ways in which the addition of a constant can end. -/
inductive Adds (s : ConstantsPass) (c : Constant) : ConstantsPass → Prop where
  /-- The member has been accepted or found wrong before. -/
  | known (h : s.tree.isKnown c.target.id = true) : Adds s c s
  /-- The constant has no value. -/
  | declined (error : ConstantError) (h : c.evaluate = .error error) :
    Adds s c
      { s with
        tree := s.tree.refuse c.target.id
        diagnostics := s.diagnostics ++ [error.diagnostic c.location] }
  /-- A type around the member cannot be extended. -/
  | blocked (value : EvaluatedConstant) (o : Obstacle) (h : c.evaluate = .ok value)
    (ho : s.tree.obstacle? c.target.container = some o) :
    Adds s c
      { s with
        tree := s.tree.ensure c.target.container
        diagnostics :=
          s.diagnostics ++ [obstacleDiagnostic s.tree.pass c.target.container o] }
  /-- The member stands in no type. -/
  | untyped (h : c.target.container.types = []) :
    Adds s c { s with tree := s.tree.ensure c.target.container }
  /-- The constant has a value. -/
  | accepted (value : EvaluatedConstant) (ms : List (Symbol × EvaluatedConstant))
    (h : c.evaluate = .ok value)
    (hms : (s.tree.ensure c.target.container).membersAt? c.target.container = some ms) :
    Adds s c
      { s with
        tree := (s.tree.ensure c.target.container).place c.target.container c.target.id value }

theorem add_adds (s : ConstantsPass) (c : Constant) : Adds s c (s.add c) := by
  unfold add
  split
  · rename_i h
    exact .known h
  · rename_i hknown
    split
    · rename_i error h
      exact .declined error h
    · rename_i value hvalue
      have hins := s.tree.insert_inserts c.target.container c.target.id report
        (fun ds => (some value, ds)) s.diagnostics
      generalize s.tree.insert c.target.container c.target.id _ _ _ = r at hins
      cases hins with
      | blocked o h => exact .blocked value o hvalue h
      | untyped h => exact .untyped h
      | present h =>
        exact absurd (DeclarationTree.isKnown_iff.2 (.inr h.mem_entries)) hknown
      | refused _ h => exact absurd (DeclarationTree.isKnown_iff.2 (.inl h)) hknown
      | accepted value' ds hopen hne _ _ h =>
        obtain ⟨hsome, rfl⟩ := Prod.mk.inj h
        obtain rfl := Option.some.inj hsome
        exact .accepted value _ hvalue (DeclarationTree.membersAt?_ensure_self hne hopen)
      | declined ds _ _ _ _ h => simp at h

theorem Adds.isAborted_eq {s s' : ConstantsPass} {c : Constant} (h : Adds s c s') :
    s'.isAborted = s.isAborted := by
  cases h <;> rfl

/-- The state after all constants of some members were added. -/
def added (members : List Member) : ConstantsPass :=
  (members.filterMap Constant.ofMember?).foldl add {}

variable {c : Compilation} {members : List Member}
  {printer : DeclarationTree EvaluatedConstant → String}

theorem build_extract : build (extract members {}) =
    { added members with tree := (added members).tree.prune } := rfl

theorem isAborted_build : (build (extract members {})).isAborted = false := by
  rw [build_extract, added]
  induction members.filterMap Constant.ofMember? using List.reverseRecOn with
  | nil => rfl
  | append_singleton cs c ih => rw [List.foldl_concat, (add_adds _ c).isAborted_eq, ih]

/-- The phases before printing add all constants, unless there are some and read-only spans are not
known. -/
theorem runAll_take_three
    (h : members.filterMap Constant.ofMember? = [] ∨ c.knowsType Compilation.readOnlySpan = true) :
    Phase.runAll (·.isAborted) ((phases c members printer).take 3) {} =
      build (extract members {}) := by
  have hgate : gate c (extract members {}) = extract members {} := by
    rcases h with h | h <;> simp [gate, extract, h]
  exact Phase.runAll_of_gate rfl rfl hgate

theorem run_eq_print
    (h : members.filterMap Constant.ofMember? = [] ∨ c.knowsType Compilation.readOnlySpan = true) :
    run c members printer = print printer (build (extract members {})) := by
  have hsplit := Phase.runAll_append (·.isAborted) ((phases c members printer).take 3)
    ((phases c members printer).drop 3) {}
  rw [List.take_append_drop, runAll_take_three h] at hsplit
  rw [run, hsplit]
  exact if_neg (by simp [isAborted_build])

theorem print_eq (s : ConstantsPass) : (print printer s).tree = s.tree ∧
    (print printer s).diagnostics = s.diagnostics ∧ (print printer s).isAborted = s.isAborted := by
  unfold print
  split <;> exact ⟨rfl, rfl, rfl⟩

/-- At a closed gate the pass ends with one diagnostic. -/
theorem run_of_gated (h : ¬ (members.filterMap Constant.ofMember? = [] ∨
      c.knowsType Compilation.readOnlySpan = true)) :
    run c members printer =
      { pending := members.filterMap Constant.ofMember?
        diagnostics :=
          [{ pass := .constants, problem := .missingRequiredType, message := missingSpan }]
        isAborted := true } := by
  rw [not_or] at h
  simp [run, Phase.runAll, phases, extract, gate, h.1, h.2]

theorem isAborted_run : (run c members printer).isAborted = true ↔
    ¬ (members.filterMap Constant.ofMember? = [] ∨
      c.knowsType Compilation.readOnlySpan = true) := by
  by_cases h : members.filterMap Constant.ofMember? = [] ∨
    c.knowsType Compilation.readOnlySpan = true
  · rw [run_eq_print h, (print_eq _).2.2, isAborted_build]
    exact iff_of_false Bool.false_ne_true (not_not.2 h)
  · rw [run_of_gated h]
    exact iff_of_true rfl h

/-- A pass that was not aborted has added all constants. -/
theorem run_of_not_isAborted (h : (run c members printer).isAborted = false) :
    (run c members printer).tree = (added members).tree.prune ∧
      (run c members printer).diagnostics = (added members).diagnostics := by
  have hopen : members.filterMap Constant.ofMember? = [] ∨
      c.knowsType Compilation.readOnlySpan = true := by
    by_contra hgated
    rw [isAborted_run.2 hgated] at h
    cases h
  rw [run_eq_print hopen]
  exact ⟨(print_eq _).1, (print_eq _).2.1⟩

end ConstantsPass
end NativeBindings
