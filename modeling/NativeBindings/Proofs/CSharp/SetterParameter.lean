import NativeBindings.Proofs.CSharp.AccessorBody

/-!
# Parameters of setters

The body of a setter reads its parameter: the address of one that is passed by reference is pinned,
and the value of any other is taken. A parameter that is passed out has no value before the method
assigns it, but how a parameter is passed does not decide whether a binding is valid, so a setter
with such a parameter is accepted.

## Main definitions

- `Binding.passedBy` — a binding whose parameters are passed in a given way
- `Param.IsReadUnassigned` — a body reads a parameter that has no value yet

## Main statements

- `Binding.validate_passedBy` — a binding stays valid however its parameters are passed
- `Binding.reads_setterParam` — how the body of a valid setter reads its parameter
- `Binding.exists_out_setter` — not every valid setter has a parameter that can be read
-/

namespace NativeBindings

/-- A body stores the value of a parameter that is passed out, which has none yet. -/
def Param.IsReadUnassigned (p : Param) (slot : String) (body : List Fragment) : Prop :=
  p.passing = .byOut ∧
    ⟨[], storeStatement p.type.name slot p.name⟩ ∈ Fragment.linesFrom "*" [] body

theorem Param.IsStored.isReadUnassigned_iff {p : Param} {slot : String} {body : List Fragment}
    (h : p.IsStored slot body) : p.IsReadUnassigned slot body ↔ p.passing = .byOut := by
  refine and_iff_left_of_imp fun hout => ?_
  rw [IsStored, hout, if_neg (by decide)] at h
  rw [h]
  exact List.mem_singleton_self _

/-- The method with all parameters passed in the given way. -/
def Member.passedBy (m : Member) (passing : ParamPassing) : Member :=
  { m with params := m.params.map fun p => { p with passing } }

namespace Member

variable {m : Member} {passing : ParamPassing}

theorem hasGetterShape_passedBy : (m.passedBy passing).hasGetterShape = m.hasGetterShape := by
  simp [hasGetterShape, passedBy]

theorem hasSetterShape_passedBy : (m.passedBy passing).hasSetterShape = m.hasSetterShape := by
  rw [Bool.eq_iff_iff, hasSetterShape_iff, hasSetterShape_iff]
  refine and_congr_right fun _ => ?_
  simp only [passedBy, List.map_eq_singleton_iff]
  constructor
  · rintro ⟨-, ⟨p, hp, rfl⟩, hlayout⟩
    exact ⟨p, hp, hlayout⟩
  · rintro ⟨p, hp, hlayout⟩
    exact ⟨_, ⟨p, hp, rfl⟩, hlayout⟩

theorem hasFunctionShape_passedBy : (m.passedBy passing).hasFunctionShape = m.hasFunctionShape := by
  simp [hasFunctionShape, passedBy, List.all_map, Function.comp_def]

end Member

theorem Access.resolve_passedBy {m : Member} {passing : ParamPassing} {a a' : Access} :
    a.resolve (m.passedBy passing) = .ok a' ↔ a.resolve m = .ok a' := by
  have hreturn : (m.passedBy passing).returnPassing = m.returnPassing := rfl
  cases a with
  | auto =>
    simp only [resolve, Member.hasGetterShape_passedBy, Member.hasSetterShape_passedBy]
    split
    · rfl
    · split <;> simp
  | getter =>
    simp only [resolve, Member.hasGetterShape_passedBy]
    split <;> simp
  | setter =>
    simp only [resolve, Member.hasSetterShape_passedBy]
    split <;> simp
  | reference =>
    simp only [resolve, Member.hasGetterShape_passedBy, hreturn]
    split <;> simp
  | unknown raw => rfl

namespace Binding

variable {b : Binding} {rule : AccessRule}

/-- The binding with all parameters of its method passed in the given way. -/
def passedBy (b : Binding) (passing : ParamPassing) : Binding :=
  { b with target := b.target.passedBy passing }

/-- How parameters are passed does not decide whether a binding is valid. -/
theorem validate_passedBy (b : Binding) (passing : ParamPassing) (rule : AccessRule)
    (kind : BindingKind) :
    (b.passedBy passing).validate rule = .ok kind ↔ b.validate rule = .ok kind := by
  have hdeclaration : ((b.passedBy passing).target.isAbstract ||
      !(b.passedBy passing).target.isStatic || !(b.passedBy passing).target.isPartial ||
      (b.passedBy passing).target.hasBody) =
        (b.target.isAbstract || !b.target.isStatic || !b.target.isPartial ||
          b.target.hasBody) := rfl
  have hlibrary : (b.passedBy passing).library = b.library := rfl
  have hcondition : (b.passedBy passing).condition = b.condition := rfl
  have hkind : (b.passedBy passing).kind = b.kind := rfl
  have htarget : (b.passedBy passing).target = b.target.passedBy passing := rfl
  simp only [validate, hdeclaration, hlibrary, hcondition, hkind]
  split
  · simp
  split
  · rfl
  split
  · rfl
  split
  next access _ =>
    rw [htarget]
    cases hresolve : access.resolve b.target with
    | ok access' => rw [Access.resolve_passedBy.2 hresolve]
    | error e =>
      cases hpassed : access.resolve (b.target.passedBy passing) with
      | error e' => simp [Except.map]
      | ok access' =>
        rw [Access.resolve_passedBy.1 hpassed] at hresolve
        cases hresolve
  next conventions _ =>
    rw [htarget, Member.hasFunctionShape_passedBy]
    split <;> simp

/-- The body of a valid setter stores its only parameter, by its pinned address or by its value. It
reads a value that is not there exactly if the parameter is passed in none of the four ways that the
messages name, and every way of passing it is accepted. -/
theorem reads_setterParam (h : b.validate rule = .ok (.symbol .setter)) (slot : String) :
    let body := { b with kind := .symbol .setter }.body slot
    ∃ p, b.target.params = [p] ∧ p.IsStored slot body ∧
      (p.IsReadUnassigned slot body ↔
        p.passing ∉ [.byValue, .byRef, .byIn, .byRefReadonly]) ∧
      ∀ passing, (b.passedBy passing).validate rule = .ok (.symbol .setter) := by
  intro body
  cases admits_of_validate h with
  | @setter p hparams =>
    have hstored : p.IsStored slot body := Access.isStored_body_setter hparams slot
    refine ⟨p, hparams, hstored, ?_, fun passing => (validate_passedBy b passing rule _).2 h⟩
    rw [hstored.isReadUnassigned_iff]
    cases p.passing <;> decide

theorem reads_setterParam_out :
    let b := numberSetter .byOut .byValue
    let body := { b with kind := .symbol .setter }.body "slot"
    b.validate NamedType.isReachable = .ok (.symbol .setter) ∧
      ∃ p, b.target.params = [p] ∧ p.passing = .byOut ∧ p.IsReadUnassigned "slot" body := by
  intro b body
  have h : b.validate NamedType.isReachable = .ok (.symbol .setter) := by decide
  obtain ⟨p, hparams, -, hread, -⟩ := reads_setterParam h "slot"
  have hout : p.passing = .byOut := by
    obtain rfl := List.singleton_inj.1 hparams
    rfl
  refine ⟨h, p, hparams, hout, hread.2 ?_⟩
  rw [hout]
  decide

/-- A setter is accepted although its parameter is passed out. -/
theorem exists_out_setter :
    ¬ ∀ (b : Binding) (rule : AccessRule), b.validate rule = .ok (.symbol .setter) →
      ∃ p, b.target.params = [p] ∧ p.passing ∈ [.byValue, .byRef, .byIn, .byRefReadonly] := by
  intro h
  obtain ⟨p, hparams, hpassing⟩ :=
    h { numberSetter .byOut .byValue with kind := .symbol .setter } NamedType.isReachable
      (by decide)
  obtain rfl := List.singleton_inj.1 hparams
  exact absurd hpassing (by decide)

end Binding
end NativeBindings
