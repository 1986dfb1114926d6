import Mathlib
import NativeBindings.Proofs.CSharp.AccessorBody
import NativeBindings.Proofs.Manifest.Declarations
import NativeBindings.Proofs.Passes.Isolation

/-!
# Pinned parameters

The body of a setter pins a parameter that is passed by reference, and stores its address. The local
variable for the address is named after the parameter: `p_` is put in front of its name. This is a
name again if that of the parameter has no `@` in front. Parameters may have one, and need it if
they are called like a keyword; behind `p_` it makes a text that is no name.

## Main definitions

- `Param.IsPinned` — a body pins a parameter in a local variable and stores this one

## Main statements

- `Identifier.isValid_pinned_iff` — which names are names behind `p_`
- `Generator.exists_isPinned` — the local variables of setters
- `Generator.exists_isPinned_invalid` — not every one of them is a name
-/

namespace NativeBindings

/-! ## Names behind a prefix -/

namespace Identifier

variable {name : List Char}

/-- Without an `@` in front, a name has letters, numbers and underscores only. -/
theorem isPart_of_head?_ne (h : isValid name = true) (hhead : name.head? ≠ some '@') :
    ∀ c ∈ name, isPart c = true := by
  intro c hc
  rw [isValid, Option.isNone_iff_eq_none] at h
  unfold fault? at h
  split at h
  next => exact absurd rfl hhead
  next =>
    rw [Option.or_eq_none_iff] at h
    exact isPart_of_spellingFault?_eq_none h.1 hc

theorem isValid_pinned (h : ∀ c ∈ name, isPart c = true) : isValid ('p' :: '_' :: name) = true := by
  have hstart : isStart 'p' = true := by decide +kernel
  have hunderscore : isPart '_' = true := by decide +kernel
  have hspelling : spellingFault? ('p' :: '_' :: name) = none := by
    rw [spellingFault?, hstart, List.all_cons, hunderscore, List.all_eq_true.2 h]
    rfl
  have hkeyword : String.ofList ('p' :: '_' :: name) ∉ keywords := by
    have hsecond : ∀ word ∈ keywords, word.toList[1]? ≠ some '_' := by decide +kernel
    intro hmem
    apply hsecond _ hmem
    rw [String.toList_ofList]
    rfl
  have hcontains : keywords.contains (String.ofList ('p' :: '_' :: name)) = false := by
    rw [Bool.eq_false_iff, ne_eq, List.contains_iff_mem]
    exact hkeyword
  rw [isValid, fault?, hspelling, hcontains]
  · rfl
  · rintro rest ⟨⟩

/-- A name stays one behind `p_` unless it has an `@` in front. -/
theorem isValid_pinned_iff (h : isValid name = true) :
    isValid ('p' :: '_' :: name) = true ↔ name.head? ≠ some '@' := by
  constructor
  · intro hvalid hhead
    have hat : isPart '@' = false := by decide +kernel
    have hparts := isPart_of_head?_ne hvalid (by simp) '@'
      (List.mem_cons_of_mem _ (List.mem_cons_of_mem _ (List.mem_of_head? hhead)))
    rw [hat] at hparts
    cases hparts
  · exact fun hhead => isValid_pinned (isPart_of_head?_ne h hhead)

end Identifier

/-! ## Setters -/

/-- A body pins the parameter in a local variable and stores this one through a slot, and does
nothing else. -/
def Param.IsPinned (p : Param) (slot : String) (body : List Fragment) (name : String) : Prop :=
  body = [.braced ("fixed(" ++ p.type.name ++ "* " ++ name ++ " = &" ++ p.name ++ ")")
    [.line (storeStatement (p.type.name ++ "*") slot name)]]

namespace Param

variable {p : Param} {slot : String} {body : List Fragment} {name name' : String}

/-- The header of the block tells the variable. -/
theorem IsPinned.eq (h : p.IsPinned slot body name) (h' : p.IsPinned slot body name') :
    name = name' := by
  have heq := h.symm.trans h'
  simp only [Fragment.braced, List.cons.injEq, Fragment.sequence.injEq, Fragment.line.injEq,
    Fragment.block.injEq, and_true, true_and] at heq
  have hheader := congrArg String.toList heq.1
  simp only [String.toList_append, List.append_cancel_left_eq, List.append_cancel_right_eq]
    at hheader
  exact String.toList_inj.1 hheader

theorem prefix_ne (name : String) : "p_" ++ name ≠ name := by
  intro h
  have hlength := congrArg (fun s => s.toList.length) h
  simp at hlength
  omega

end Param

theorem Access.isPinned_body_setter {m : Member} {p : Param} (hparams : m.params = [p])
    (hpassing : p.passing.isPinnable = true) (slot : String) :
    p.IsPinned slot (setter.body m slot) ("p_" ++ p.name) := by
  have hlocal : "fixed(" ++ p.type.name ++ "* p_" ++ p.name ++ " = &" ++ p.name ++ ")" =
      "fixed(" ++ p.type.name ++ "* " ++ ("p_" ++ p.name) ++ " = &" ++ p.name ++ ")" := by
    apply String.toList_inj.1
    simp
  rw [body_setter hparams, if_pos hpassing, hlocal, Param.IsPinned]

/-- The parameters of the members have names. -/
theorem Manifest.IsFaithful.isValid_param {m : Manifest} {d : Declarations} (h : m.IsFaithful d)
    (hvalid : m.IsValid) :
    ∀ a ∈ d.members, ∀ p ∈ a.params, Identifier.isValid p.name.toList = true := by
  intro a ha p hp
  obtain ⟨entry, hentry, hdeclares⟩ := exists_of_mem_of_forall₂ h.members ha
  obtain ⟨e, he, hparam⟩ := exists_of_mem_of_forall₂ hdeclares.params hp
  rw [hparam.name]
  exact (hvalid.members entry hentry).paramNames e he

namespace Generator

/-- The parameters of accepted bindings are called like those of the members. -/
theorem isValid_param_of_mem_importsPass {g : Generator} {b : Binding}
    (hnames : ∀ a ∈ g.members, ∀ p ∈ a.params, Identifier.isValid p.name.toList = true)
    (hb : b ∈ g.importsPass.tree.members) :
    ∀ p ∈ b.target.params, Identifier.isValid p.name.toList = true := by
  obtain ⟨declared, hdeclared, kind, slot, -, rfl⟩ := ImportsPass.exists_accepts_of_mem_run hb
  obtain ⟨member, hmember, hof⟩ := List.mem_filterMap.1 hdeclared
  obtain rfl := Binding.target_of_ofMember? hof
  exact hnames _ hmember

/-- A setter whose parameter can be pinned pins it in one local variable, which is not called like
the parameter. It has a name exactly if there is no `@` in front of the name of the parameter. -/
theorem exists_isPinned {m : Manifest} (h : m.validate = .ok ()) :
    ∃ d, m.declarations = .ok d ∧
      ∀ b ∈ (ofManifest m d).importsPass.tree.members, b.kind = .symbol .setter →
        ∃ p slot, b.target.params = [p] ∧ b.slot = some slot ∧
          (p.passing.isPinnable = true → ∃! name, p.IsPinned slot.path (b.body slot.path) name ∧
            name ≠ p.name ∧
            (Identifier.isValid name.toList = true ↔ p.name.toList.head? ≠ some '@')) := by
  have hvalid := Manifest.validate_eq_ok_iff.1 h
  obtain ⟨d, hd, hfaithful⟩ := hvalid.exists_isFaithful
  refine ⟨d, hd, fun b hb hkind => ?_⟩
  have hnames := isValid_param_of_mem_importsPass (hfaithful.isValid_param hvalid) hb
  obtain ⟨declared, -, kind, slot, haccepted, rfl⟩ := ImportsPass.exists_accepts_of_mem_run hb
  obtain rfl : kind = .symbol .setter := hkind
  obtain ⟨p, hparams⟩ : ∃ p, declared.target.params = [p] := by
    cases Binding.admits_of_validate haccepted with
    | @setter p hparams => exact ⟨p, hparams⟩
  refine ⟨p, slot, hparams, rfl, fun hpassing => ?_⟩
  have hpinned := Access.isPinned_body_setter hparams hpassing slot.path
  have hname := hnames p (hparams ▸ List.mem_singleton_self p)
  refine ⟨"p_" ++ p.name, ⟨hpinned, Param.prefix_ne _, ?_⟩, fun name hother => ?_⟩
  · rw [String.toList_append]
    exact Identifier.isValid_pinned_iff hname
  · exact hother.1.eq hpinned

end Generator

/-- One setter, whose parameter is passed by reference; the name of the parameter is given. -/
def Manifest.setterSource (param : String) : SourceText :=
  ⟨("types.L=\x7b\x7d\n[[members]]\ncontainer=\"C\"\nname=\"S\"\nparams=[\x7bname=\"" ++ param ++
    "\",type=\"int\",ref=\"ref\"\x7d]\nsymbol=\x7blibrary=\"L\",kind=\"setter\"\x7d\n").toList,
    "natbind.toml"⟩

/-- What such a manifest says. -/
def Manifest.setterManifest (param : String) : Manifest :=
  { source := setterSource param
    generator := {}
    compilation := {}
    types := [("L", {})]
    members := [(⟨11, 22⟩,
      { container := "C"
        name := "S"
        kind := .method
        modifiers := [.internalAccess, .staticMember, .partialMember]
        returns := "void"
        returnPassing := .byValue
        params := [⟨param, "int", .byRef, none⟩]
        typeParams := []
        hasBody := false
        hasGet := true
        hasSet := false
        symbol := some ⟨⟨"L", none, none⟩, .name "setter"⟩
        function := none
        constant := none })] }

namespace Generator

/-- A setter is accepted, and its parameter has the given name and is passed by reference. -/
def AcceptsSetter (g : Generator) (param : String) : Prop :=
  ∃ b ∈ g.importsPass.tree.members, b.kind = .symbol .setter ∧
    b.target.params.map (fun p => (p.name, p.passing)) = [(param, .byRef)]

instance (g : Generator) (param : String) : Decidable (g.AcceptsSetter param) :=
  inferInstanceAs (Decidable (∃ b ∈ g.importsPass.tree.members, b.kind = .symbol .setter ∧
    b.target.params.map (fun p => (p.name, p.passing)) = [(param, .byRef)]))

/-- What is accepted is one setter with one parameter that can be pinned. -/
theorem AcceptsSetter.exists_binding {g : Generator} {param : String} (h : g.AcceptsSetter param) :
    ∃ b ∈ g.importsPass.tree.members, b.kind = .symbol .setter ∧
      ∃ p, b.target.params = [p] ∧ p.name = param ∧ p.passing.isPinnable = true := by
  obtain ⟨b, hb, hkind, hparams⟩ := h
  obtain ⟨p, hp, hparam⟩ := List.map_eq_singleton_iff.1 hparams
  obtain ⟨rfl, hpassing⟩ := Prod.mk.inj hparam
  exact ⟨b, hb, hkind, p, hp, rfl, by rw [hpassing]; rfl⟩

/-- The parameter `value` is pinned in `p_value`. -/
theorem exists_isPinned_value :
    let m := Manifest.setterManifest "value"
    m.validate = .ok () ∧ ∃ d, m.declarations = .ok d ∧
      ∃ b ∈ (ofManifest m d).importsPass.tree.members, b.kind = .symbol .setter ∧
        ∃ p slot, b.target.params = [p] ∧ p.name = "value" ∧ p.passing.isPinnable = true ∧
          b.slot = some slot ∧ ∃ name, p.IsPinned slot.path (b.body slot.path) name ∧
            Identifier.isValid name.toList = true := by
  intro m
  have hvalid : m.validate = .ok () := by decide +kernel
  obtain ⟨d, hd, hsaid⟩ := exists_ofManifest (fun g => decide (g.AcceptsSetter "value")) m true
    (by decide +kernel)
  have haccepts : (ofManifest m d).AcceptsSetter "value" := of_decide_eq_true hsaid
  obtain ⟨b, hb, hkind, p, hparams, hname, hpassing⟩ := haccepts.exists_binding
  obtain ⟨d', hd', hpinned⟩ := exists_isPinned hvalid
  obtain rfl := Except.ok.inj (hd.symm.trans hd')
  obtain ⟨p', slot, hparams', hslot, hpinned⟩ := hpinned b hb hkind
  obtain rfl := List.singleton_inj.1 (hparams.symm.trans hparams')
  obtain ⟨name, ⟨hbody, -, hnamed⟩, -⟩ := hpinned hpassing
  exact ⟨hvalid, d, hd, b, hb, hkind, p, slot, hparams, hname, hpassing, hslot, name, hbody,
    hnamed.2 (by rw [hname]; decide)⟩

/-- A parameter that is called like a keyword, with an `@` in front, is pinned in a local variable
without a name. -/
theorem exists_isPinned_invalid :
    ¬ ∀ source g b p slot name, Generator.parse source = .ok g →
      b ∈ g.importsPass.tree.members → b.kind = .symbol .setter → b.target.params = [p] →
      p.passing.isPinnable = true → b.slot = some slot →
      p.IsPinned slot.path (b.body slot.path) name → Identifier.isValid name.toList = true := by
  intro h
  have hread : Manifest.read? (Manifest.setterSource "@class") =
      some (Manifest.setterManifest "@class") := by
    unfold Manifest.setterManifest Manifest.setterSource
    simp only [String.toList_append]
    rw [toList_literal rfl, toList_literal rfl, toList_literal rfl]
    cbv
  obtain ⟨g, hparse, hsaid⟩ := exists_parse_of_read (fun g => decide (g.AcceptsSetter "@class"))
    _ _ true hread (by decide +kernel) (by decide +kernel)
  have haccepts : g.AcceptsSetter "@class" := of_decide_eq_true hsaid
  obtain ⟨b, hb, hkind, p, hparams, hname, hpassing⟩ := haccepts.exists_binding
  obtain ⟨declared, -, kind, slot, -, rfl⟩ := ImportsPass.exists_accepts_of_mem_run hb
  obtain rfl : kind = .symbol .setter := hkind
  have hvalid := h _ g _ p slot ("p_" ++ p.name) hparse hb rfl hparams hpassing rfl
    (Access.isPinned_body_setter hparams hpassing slot.path)
  rw [hname] at hvalid
  exact absurd hvalid (by decide +kernel)

end Generator
end NativeBindings
