import Mathlib
import NativeBindings.Proofs.Manifest.Declarations
import NativeBindings.Proofs.Manifest.ResolvedType
import NativeBindings.Proofs.Passes.Isolation

/-!
# Heads of constant members

A constant member is declared in parts, so its implementation has to repeat the head of the
declaration. The head is written with one of four types, whatever the declaration says: results by
reference and question marks of read-only spans or their elements are accepted and left out.

## Main definitions

- `TypeUse.IsPlain` — types that the four types can express

## Main statements

- `ConstantType.typeName_eq_iff` — when the written type is the declared one
- `Generator.head_eq_iff` — which accepted members have the head that they were declared with
- `Generator.exists_head_ne` — not all have
-/

namespace NativeBindings

/-- Neither a read-only span nor its elements are marked as nullable. -/
def TypeUse.IsPlain (t : TypeUse) : Prop :=
  ∀ element shape marked, t.shape = .span element shape marked →
    marked = false ∧ t.nullable = false

theorem TypeUse.isPlain_span_iff {name element : String} {shape : TypeShape}
    {marked nullable : Bool} :
    IsPlain ⟨name, .span element shape marked, nullable⟩ ↔ marked = false ∧ nullable = false := by
  constructor
  · intro h
    exact h element shape marked rfl
  · rintro h _ _ _ heq
    cases heq
    exact h

/-- The name of a constant's type is the declared name of a type that is passed by value, with no
question mark at a span. -/
theorem ConstantType.typeName_eq_iff {t : TypeUse} {type : ConstantType} (hnamed : t.IsNamed)
    (htype : ofTypeUse? t = some type) (passing : ReturnPassing) :
    type.typeName = passing.keyword ++ t.name ↔ passing = .byValue ∧ t.IsPlain := by
  obtain ⟨name, shape, nullable⟩ := t
  unfold ofTypeUse? at htype
  unfold TypeUse.IsNamed at hnamed
  dsimp only at htype hnamed ⊢
  split at htype
  · cases htype
    have hplain : TypeUse.IsPlain ⟨name, .string, nullable⟩ := nofun
    rw [and_iff_left hplain, show name = "string" ++ nullableMark nullable from hnamed]
    cases passing <;> cases nullable <;> decide
  next element marked =>
    cases htype
    obtain ⟨hname, helement⟩ := hnamed
    rw [TypeUse.isPlain_span_iff, hname, helement]
    cases passing <;> cases nullable <;> cases marked <;> decide
  next element marked =>
    cases htype
    obtain ⟨hname, helement⟩ := hnamed
    rw [TypeUse.isPlain_span_iff, hname, helement]
    cases passing <;> cases nullable <;> cases marked <;> decide
  · cases htype

theorem Constant.ofTypeUse?_of_validate {c : Constant} {type : ConstantType}
    (h : c.validate = .ok type) : ConstantType.ofTypeUse? c.target.returnType = some type := by
  unfold validate at h
  dsimp only at h
  split at h
  · cases hof : ConstantType.ofTypeUse? c.target.returnType with
    | none =>
      rw [hof] at h
      cases h
    | some type' =>
      rw [hof] at h
      cases h
      rfl
  · cases h

theorem Constant.exists_type_of_evaluate {c : Constant} {value : EvaluatedConstant}
    (h : c.evaluate = .ok value) :
    ∃ type, ConstantType.ofTypeUse? c.target.returnType = some type ∧
      value.constant = { c with type := some type } := by
  unfold evaluate at h
  cases hvalidate : c.validate with
  | error error =>
    rw [hvalidate] at h
    cases h
  | ok type =>
    cases hvalue : c.value with
    | error error =>
      rw [hvalidate, hvalue] at h
      cases h
    | ok text =>
      rw [hvalidate, hvalue] at h
      cases h
      exact ⟨type, ofTypeUse?_of_validate hvalidate, rfl⟩

/-- Head and declared head differ in the type at most. -/
theorem EvaluatedConstant.head_eq_head_iff (c : EvaluatedConstant) :
    c.head = c.constant.target.head ↔
      c.type.typeName =
        c.constant.target.returnPassing.keyword ++ c.constant.target.returnType.name := by
  have hdeclared : c.constant.target.head = c.constant.target.modifiersText ++ " " ++
      (c.constant.target.returnPassing.keyword ++ c.constant.target.returnType.name) ++ " " ++
      c.constant.target.name := by
    simp only [Member.head, String.append_assoc]
  unfold head
  dsimp only
  rw [hdeclared, String.append_left_inj, String.append_left_inj, String.append_right_inj]

namespace Generator

/-- The member of an accepted constant is one of the declared members, and it is implemented with its
own modifiers and name. Its head is the declared one exactly if it returns by value a type that is
written without question marks at spans. -/
theorem head_eq_iff {manifest : Manifest} (h : manifest.validate = .ok ()) :
    ∃ d, manifest.declarations = .ok d ∧
      ∀ c ∈ (ofManifest manifest d).constantsPass.tree.members,
        c.constant.target ∈ d.members ∧
        c.head = c.constant.target.modifiersText ++ " " ++ c.type.typeName ++ " " ++
          c.constant.target.name ∧
        (c.head = c.constant.target.head ↔
          c.constant.target.returnPassing = .byValue ∧ c.constant.target.returnType.IsPlain) := by
  obtain ⟨d, hd, hfaithful⟩ := (Manifest.validate_eq_ok_iff.1 h).exists_isFaithful
  refine ⟨d, hd, fun c hc => ?_⟩
  obtain ⟨constant, hconstant, hevaluate⟩ := ConstantsPass.exists_evaluate_of_mem_run hc
  obtain ⟨m, hm, hofMember⟩ := List.mem_filterMap.1 hconstant
  obtain ⟨type, htype, heq⟩ := Constant.exists_type_of_evaluate hevaluate
  have hconst : constant.target = m := Constant.target_of_ofMember? hofMember
  obtain ⟨entry, -, hdeclares⟩ := exists_of_mem_of_forall₂ hfaithful.members hm
  have hnamed := TypeScope.isNamed_of_resolve? hdeclares.returnType
  have htarget : c.constant.target = m := by
    rw [heq]
    exact hconst
  have hctype : c.type = type := by
    rw [EvaluatedConstant.type, heq]
    rfl
  rw [hconst] at htype
  rw [EvaluatedConstant.head_eq_head_iff, hctype, htarget]
  exact ⟨hm, by rw [EvaluatedConstant.head, hctype, htarget],
    ConstantType.typeName_eq_iff hnamed htype m.returnPassing⟩

/-- The heads of all constant members with those that they were declared with. -/
def heads (g : Generator) : List (String × String) :=
  g.constantsPass.tree.members.map fun c => (c.head, c.constant.target.head)

/-- A manifest with one constant; the other entries of the member stand in front of its format. -/
def constantSource (entries : String) : SourceText :=
  ⟨("[[members]]\ncontainer = \"C\"\nname = \"N\"\n" ++ entries ++ "constant.format = \"v\"\n").toList,
    "natbind.toml"⟩

/-- What such a manifest says. -/
def constantManifest (source : SourceText) (returns : String) (returnPassing : ReturnPassing) :
    Manifest where
  source
  generator := {}
  compilation := {}
  types := []
  members :=
    [(⟨0, 11⟩,
      { container := "C"
        name := "N"
        kind := .method
        modifiers := [.internalAccess, .staticMember, .partialMember]
        returns
        returnPassing
        params := []
        typeParams := []
        hasBody := false
        hasGet := true
        hasSet := false
        symbol := none
        function := none
        constant := some ⟨some "v", [], .number 0⟩ })]

/-- A span of bytes is implemented as it was declared, and it is plain. -/
theorem head_eq_iff_span :
    let manifest := constantManifest ⟨[], "natbind.toml"⟩ "ReadOnlySpan<byte>" .byValue
    manifest.validate = .ok () ∧
      ∃ d, manifest.declarations = .ok d ∧
        ∃ c ∈ (ofManifest manifest d).constantsPass.tree.members,
          c.head = c.constant.target.head ∧
          c.constant.target.returnPassing = .byValue ∧ c.constant.target.returnType.IsPlain := by
  intro manifest
  let head := "internal static partial global::System.ReadOnlySpan<byte> N"
  have hvalid : manifest.validate = .ok () := by decide +kernel
  obtain ⟨d, hd, hheads⟩ := exists_ofManifest heads manifest [(head, head)] (by decide +kernel)
  obtain ⟨d', hd', hiff⟩ := head_eq_iff hvalid
  obtain rfl := Except.ok.inj (hd.symm.trans hd')
  have hmem : (head, head) ∈ (ofManifest manifest d).heads := by
    rw [hheads]
    exact List.mem_singleton_self _
  obtain ⟨c, hc, heq⟩ := List.mem_map.1 hmem
  have hhead : c.head = c.constant.target.head :=
    (congrArg Prod.fst heq).trans (congrArg Prod.snd heq).symm
  exact ⟨hvalid, d, hd, c, hc, hhead, (hiff c hc).2.2.1 hhead⟩

/-- A string that is declared to be returned by reference is accepted and returned by value. -/
theorem exists_head_ne :
    ¬ ∀ source g, Generator.parse source = .ok g →
      ∀ c ∈ g.constantsPass.tree.members, c.head = c.constant.target.head := by
  intro h
  let source := constantSource "returns = \"string\"\nreturn_ref = \"ref\"\n"
  have hread : Manifest.read? source = some (constantManifest source "string" .byRef) := by
    unfold constantManifest source constantSource
    simp only [String.toList_append]
    rw [toList_literal rfl, toList_literal rfl, toList_literal rfl]
    cbv
  obtain ⟨g, hparse, hheads⟩ := exists_parse_of_read heads source _
    [("internal static partial string N", "internal static partial ref string N")] hread
    (by decide +kernel) (by decide +kernel)
  have hsame : ∀ pair ∈ g.heads, pair.1 = pair.2 := by
    intro pair hpair
    obtain ⟨c, hc, rfl⟩ := List.mem_map.1 hpair
    exact h source g hparse c hc
  rw [hheads] at hsame
  exact absurd (hsame _ List.mem_cons_self) (by decide)

end Generator
end NativeBindings
