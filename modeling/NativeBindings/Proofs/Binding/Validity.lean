import NativeBindings.Binding.Validation

/-!
# What valid bindings look like

A binding is valid only if the signature of its method fits the way in which it is bound: a getter
has a result and no parameters, a setter has one parameter and no result, and all values have a
fixed layout.

## Main definitions

- `Member.Admits` — the kinds of binding that a signature fits

## Main statements

- `Binding.admits_of_validate` — a valid binding fits its method
-/

namespace NativeBindings

/-- The signature of the method fits the kind of binding. -/
inductive Member.Admits (m : Member) : BindingKind → Prop where
  | getter (hparams : m.params = []) (hresult : m.returnType.isVoid = false)
    (hlayout : m.returnType.isUnmanaged = true) : Admits m (.symbol .getter)
  | setter {p : Param} (hparams : m.params = [p]) (hresult : m.returnType.isVoid = true)
    (hlayout : p.type.isUnmanaged = true) : Admits m (.symbol .setter)
  | reference (hparams : m.params = []) (hresult : m.returnType.isVoid = false)
    (hlayout : m.returnType.isUnmanaged = true) (hpassing : m.returnPassing.isByRef = true) :
    Admits m (.symbol .reference)
  | function (conventions : List NamedType)
    (hresult : m.returnType.isVoid = true ∨ m.returnType.isUnmanaged = true)
    (hparams : ∀ p ∈ m.params, p.type.isUnmanaged = true) : Admits m (.function conventions)

namespace Member

variable {m : Member}

theorem hasGetterShape_iff :
    m.hasGetterShape = true ↔ m.params = [] ∧ m.returnType.isVoid = false ∧
      m.returnType.isUnmanaged = true := by
  rw [hasGetterShape, Bool.and_eq_true, Bool.and_eq_true, List.isEmpty_iff, Bool.not_eq_true',
    and_assoc]

theorem hasSetterShape_iff :
    m.hasSetterShape = true ↔ m.returnType.isVoid = true ∧
      ∃ p, m.params = [p] ∧ p.type.isUnmanaged = true := by
  rw [hasSetterShape, Bool.and_eq_true]
  refine and_congr_right fun _ => ?_
  split
  next p h => simp [h]
  next h =>
    refine iff_of_false nofun ?_
    rintro ⟨p, hp, -⟩
    exact h p hp

theorem hasFunctionShape_iff :
    m.hasFunctionShape = true ↔
      (m.returnType.isVoid = true ∨ m.returnType.isUnmanaged = true) ∧
        ∀ p ∈ m.params, p.type.isUnmanaged = true := by
  rw [hasFunctionShape, Bool.and_eq_true, Bool.or_eq_true, List.all_eq_true]

theorem admits_getter (h : m.hasGetterShape = true) : m.Admits (.symbol .getter) :=
  have ⟨hparams, hresult, hlayout⟩ := hasGetterShape_iff.1 h
  .getter hparams hresult hlayout

theorem admits_setter (h : m.hasSetterShape = true) : m.Admits (.symbol .setter) :=
  have ⟨hresult, _, hparams, hlayout⟩ := hasSetterShape_iff.1 h
  .setter hparams hresult hlayout

end Member

theorem Access.admits_of_resolve {m : Member} {a a' : Access} (h : a.resolve m = .ok a') :
    m.Admits (.symbol a') := by
  cases a with
  | auto =>
    simp only [resolve] at h
    split at h
    next hshape =>
      cases h
      exact Member.admits_getter hshape
    · split at h
      next hshape =>
        cases h
        exact Member.admits_setter hshape
      · cases h
  | getter =>
    simp only [resolve] at h
    split at h
    next hshape =>
      cases h
      exact Member.admits_getter hshape
    · cases h
  | setter =>
    simp only [resolve] at h
    split at h
    next hshape =>
      cases h
      exact Member.admits_setter hshape
    · cases h
  | reference =>
    simp only [resolve, Bool.and_eq_true] at h
    split at h
    next hshape =>
      cases h
      obtain ⟨hparams, hresult, hlayout⟩ := Member.hasGetterShape_iff.1 hshape.1
      exact .reference hparams hresult hlayout hshape.2
    · cases h
  | unknown raw => cases h

/-- A valid binding has a kind that the signature of its method fits. -/
theorem Binding.admits_of_validate {b : Binding} {rule : AccessRule} {kind : BindingKind}
    (h : b.validate rule = .ok kind) : b.target.Admits kind := by
  simp only [validate] at h
  split at h
  · cases h
  split at h
  · cases h
  split at h
  · cases h
  split at h
  next access _ =>
    cases hresolve : access.resolve b.target with
    | error e =>
      rw [hresolve] at h
      cases h
    | ok access' =>
      rw [hresolve] at h
      cases h
      exact Access.admits_of_resolve hresolve
  next conventions _ =>
    split at h
    next hshape =>
      cases h
      obtain ⟨hresult, hparams⟩ := Member.hasFunctionShape_iff.1 hshape
      exact .function conventions hresult hparams
    · cases h

end NativeBindings
