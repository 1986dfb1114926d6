import Mathlib.Data.List.Nodup
import NativeBindings.Manifest.Validation

/-!
# What valid manifests satisfy

The checks of a manifest succeed exactly if its names are names, its members can be declared by
themselves, and no two members have one signature.

## Main definitions

- `MemberEntry.IsValid` — a member that can be declared
- `Manifest.IsValid` — a manifest without faults

## Main statements

- `Manifest.checkMember_eq_ok_iff`, `Manifest.validate_eq_ok_iff` — the checks decide this
-/

namespace NativeBindings

/-! ## Checks -/

theorem bind_eq_ok_iff {first next : Check} :
    (first >>= fun _ => next) = .ok () ↔ first = .ok () ∧ next = .ok () := by
  cases first with
  | error e => exact iff_of_false nofun (fun h => nomatch h.1)
  | ok => exact (and_iff_right rfl).symm

/-- A check that is made in some cases only. -/
theorem ite_bind_eq_ok_iff {c : Prop} [Decidable c] {first next : Check} :
    (if c then first >>= fun _ => next else next) = .ok () ↔
      (c → first = .ok ()) ∧ next = .ok () := by
  split
  next h => rw [bind_eq_ok_iff, forall_prop_of_true h]
  next h => exact (and_iff_right fun hc => absurd hc h).symm

theorem forM_eq_ok_iff {α : Type} {check : α → Check} {as : List α} :
    as.forM check = .ok () ↔ ∀ a ∈ as, check a = .ok () := by
  induction as with
  | nil => exact iff_of_true rfl nofun
  | cons a as ih =>
    rw [List.forall_mem_cons, ← ih]
    exact bind_eq_ok_iff

theorem refuseIf_eq_ok_iff {condition : Bool} {fault : ManifestFault} {place : Option Span} :
    refuseIf condition fault place = .ok () ↔ condition = false := by
  cases condition
  · exact iff_of_true rfl rfl
  · exact iff_of_false nofun nofun

theorem checkName_eq_ok_iff {name : List Char} {role : NameRole} {place : Option Span} :
    checkName name role place = .ok () ↔ Identifier.isValid name = true := by
  unfold checkName Identifier.isValid
  cases Identifier.fault? name
  · exact iff_of_true rfl rfl
  · exact iff_of_false nofun nofun

/-! ## Valid members -/

/-- A property has no parameters, and it can be read or written. -/
structure MemberEntry.IsValidProperty (e : MemberEntry) : Prop where
  params_eq_nil : e.params = []
  typeParams_eq_nil : e.typeParams = []
  hasGet_or_hasSet : e.hasGet = true ∨ e.hasSet = true

/-- The member can be declared where a scope says what types mean. -/
structure MemberEntry.IsValid (scope : TypeScope) (e : MemberEntry) : Prop where
  container : ∀ part ∈ keyParts e.container.toList, Identifier.isValid part = true
  name : Identifier.isValid e.name.toList = true
  markerCount_le : e.markerCount ≤ 1
  property : e.kind = .property → e.IsValidProperty
  typeParams : ∀ p ∈ e.typeParams, Identifier.isValid p.name.toList = true
  paramNames : ∀ p ∈ e.params, Identifier.isValid p.name.toList = true
  returns : (scope.resolve? e.returns.toList).isSome = true
  paramTypes : ∀ p ∈ e.params, (scope.resolve? p.type.toList).isSome = true
  access : ∀ s ∈ e.symbol, s.access.access?.isSome = true
  culture : ∀ c ∈ e.constant, c.culture.culture?.isSome = true

/-- All names in a declared type are names. -/
def DeclaredType.IsValid (key : String) (t : DeclaredType) : Prop :=
  (∀ part ∈ keyParts key.toList, Identifier.isValid part = true) ∧
    ∀ p ∈ t.typeParams, Identifier.isValid p.toList = true

namespace Manifest

/-- The manifest has no fault. -/
structure IsValid (m : Manifest) : Prop where
  types : ∀ t ∈ m.types, t.2.IsValid t.1
  members : ∀ e ∈ m.members, e.2.IsValid (m.scope e.2)
  nodup_signatures : (m.members.map (·.2.signature)).Nodup

variable {m : Manifest}

theorem checkProperty_eq_ok_iff {place : Span} {e : MemberEntry} :
    checkProperty place e = .ok () ↔ e.IsValidProperty := by
  unfold checkProperty
  rw [bind_eq_ok_iff, refuseIf_eq_ok_iff, refuseIf_eq_ok_iff]
  constructor
  · rintro ⟨hparams, haccess⟩
    simp only [Bool.or_eq_false_iff, Bool.not_eq_false', List.isEmpty_iff] at hparams
    refine ⟨hparams.1, hparams.2, ?_⟩
    by_contra hnone
    rw [not_or, Bool.not_eq_true, Bool.not_eq_true] at hnone
    rw [hnone.1, hnone.2] at haccess
    cases haccess
  · rintro ⟨hparams, htypeParams, haccess⟩
    rw [hparams, htypeParams]
    rcases haccess with h | h <;> simp [h]

theorem checkTypeUse_eq_ok_iff {place : Span} {e : MemberEntry} {type : String} {role : TypeRole} :
    m.checkTypeUse place e type role = .ok () ↔
      ((m.scope e).resolve? type.toList).isSome = true := by
  unfold checkTypeUse
  rw [refuseIf_eq_ok_iff, Option.isNone_eq_false_iff]

theorem checkMember_eq_ok_iff {place : Span} {e : MemberEntry} :
    m.checkMember place e = .ok () ↔ e.IsValid (m.scope e) := by
  unfold checkMember
  simp only [bind_eq_ok_iff, forM_eq_ok_iff, refuseIf_eq_ok_iff, checkName_eq_ok_iff,
    ite_bind_eq_ok_iff, checkTypeUse_eq_ok_iff, checkProperty_eq_ok_iff,
    Option.isNone_eq_false_iff, decide_eq_false_iff_not, Nat.not_lt, Option.mem_toList]
  constructor
  · rintro ⟨hcontainer, hname, hmarkers, hproperty, htypeParams, hparams, hreturns, htypes, haccess,
      hculture⟩
    exact ⟨hcontainer, hname, hmarkers, hproperty, htypeParams, hparams, hreturns, htypes, haccess,
      hculture⟩
  · intro h
    exact ⟨h.container, h.name, h.markerCount_le, h.property, h.typeParams, h.paramNames, h.returns,
      h.paramTypes, h.access, h.culture⟩

theorem checkType_eq_ok_iff {key : String} {t : DeclaredType} :
    m.checkType key t = .ok () ↔ t.IsValid key := by
  unfold checkType
  rw [bind_eq_ok_iff, forM_eq_ok_iff, forM_eq_ok_iff]
  simp only [checkName_eq_ok_iff]
  rfl

theorem checkMembers_eq_ok_iff {seen : List String} {members : List (Span × MemberEntry)} :
    m.checkMembers seen members = .ok () ↔
      (∀ e ∈ members, e.2.IsValid (m.scope e.2)) ∧
        (members.map (·.2.signature)).Nodup ∧
        ∀ e ∈ members, e.2.signature ∉ seen := by
  induction members generalizing seen with
  | nil => exact iff_of_true rfl ⟨List.forall_mem_nil _, List.nodup_nil, List.forall_mem_nil _⟩
  | cons e members ih =>
    unfold checkMembers
    rw [bind_eq_ok_iff, bind_eq_ok_iff, checkMember_eq_ok_iff, refuseIf_eq_ok_iff, ih]
    rw [List.forall_mem_cons, List.forall_mem_cons, List.map_cons, List.nodup_cons]
    simp only [List.contains_eq_mem, decide_eq_false_iff_not, List.mem_cons, not_or]
    have hnew : e.2.signature ∉ members.map (·.2.signature) ↔
        ∀ e' ∈ members, e'.2.signature ≠ e.2.signature := by
      rw [List.mem_map]
      push Not
      rfl
    rw [hnew]
    constructor
    · rintro ⟨hvalid, hunseen, hmembers, hnodup, hrest⟩
      exact ⟨⟨hvalid, hmembers⟩, ⟨fun e' he' => (hrest e' he').1, hnodup⟩, hunseen,
        fun e' he' => (hrest e' he').2⟩
    · rintro ⟨⟨hvalid, hmembers⟩, ⟨hne, hnodup⟩, hunseen, hrest⟩
      exact ⟨hvalid, hunseen, hmembers, hnodup, fun e' he' => ⟨hne e' he', hrest e' he'⟩⟩

theorem validate_eq_ok_iff : m.validate = .ok () ↔ m.IsValid := by
  unfold validate
  rw [bind_eq_ok_iff, forM_eq_ok_iff, checkMembers_eq_ok_iff]
  simp only [checkType_eq_ok_iff]
  constructor
  · rintro ⟨htypes, hmembers, hnodup, -⟩
    exact ⟨htypes, hmembers, hnodup⟩
  · intro h
    exact ⟨h.types, h.members, h.nodup_signatures, fun e _ => List.not_mem_nil⟩

end Manifest
end NativeBindings
