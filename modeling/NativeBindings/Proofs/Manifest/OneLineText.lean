import NativeBindings.Proofs.CSharp.BlockHeader
import NativeBindings.Proofs.CSharp.SourceLine
import NativeBindings.Proofs.Manifest.Overloads
import NativeBindings.Proofs.Manifest.TypeLinks

/-!
# Texts without line ends

Names in a valid manifest are names of the language, so no line ends in what is made of them: in the
names of types, in the signatures of members, and in the names of conditions that generated code can
reach, as these have been declared.

## Main definitions

- `NamedType.IsKeyed` — a type that a marker of a manifest names
- `Marker.condition?` — the condition of an import
- `Member.IsPlain` — a member with such texts

## Main statements

- `Manifest.Declares.isOneLine_signature` — signatures
- `NamedType.IsKeyed.isOneLine_name` — names of reachable conditions
- `Manifest.IsValid.exists_isPlain` — both for the members of a run
-/

namespace NativeBindings

open TypeScope (IsKeyCharacter)

/-! ## Characters -/

theorem isBlank_of_isLineTerminator {c : Char} (h : Literal.isLineTerminator c = true) :
    isBlank c = true := by
  simp only [Literal.isLineTerminator, List.mem_cons, List.not_mem_nil, or_false,
    decide_eq_true_eq] at h
  simp only [isBlank, Bool.or_eq_true, Bool.and_eq_true, decide_eq_true_eq, beq_iff_eq]
  omega

theorem isOneLine_of_isKeyCharacter {s : List Char} (h : ∀ c ∈ s, IsKeyCharacter c) :
    IsOneLine s := by
  intro c hc
  by_contra hline
  have hblank := isBlank_of_isLineTerminator (Bool.not_eq_false _ ▸ hline)
  rw [TypeScope.isBlank_eq_false_of_isKeyCharacter (h c hc)] at hblank
  cases hblank

theorem isOneLine_of_isValid {name : List Char} (h : Identifier.isValid name = true) :
    IsOneLine name :=
  isOneLine_of_isKeyCharacter (TypeScope.isKeyCharacter_of_isValid h)

theorem isOneLine_joined {sep : String} (hsep : IsOneLine sep.toList) {ss : List String}
    (h : ∀ s ∈ ss, IsOneLine s.toList) : IsOneLine (joined sep ss).toList := by
  induction ss with
  | nil => exact List.forall_mem_nil _
  | cons s ss ih =>
    obtain ⟨hs, hss⟩ := List.forall_mem_cons.1 h
    by_cases hnil : ss = []
    · subst hnil
      exact hs
    · rw [joined_cons_of_ne_nil sep s hnil, isOneLine_toList_append, isOneLine_toList_append]
      exact ⟨⟨hs, hsep⟩, ih hss⟩

/-- Joined names are one line only if each of them is. -/
theorem isOneLine_of_joined {sep : String} {ss : List String}
    (h : IsOneLine (joined sep ss).toList) : ∀ s ∈ ss, IsOneLine s.toList := by
  induction ss with
  | nil => exact List.forall_mem_nil _
  | cons s ss ih =>
    by_cases hnil : ss = []
    · subst hnil
      exact List.forall_mem_singleton.2 h
    · rw [joined_cons_of_ne_nil sep s hnil, isOneLine_toList_append, isOneLine_toList_append] at h
      exact List.forall_mem_cons.2 ⟨h.1.1, ih h.2⟩

theorem mem_of_mem_withoutFrom {pattern s : List Char} {skip : Nat} {c : Char}
    (h : c ∈ withoutFrom pattern skip s) : c ∈ s := by
  fun_induction withoutFrom pattern skip s with
  | case1 => exact h
  | case2 skip d cs ih => exact List.mem_cons_of_mem d (ih h)
  | case3 d cs hpattern ih => exact List.mem_cons_of_mem d (ih h)
  | case4 d cs hpattern ih =>
    rcases List.mem_cons.1 h with rfl | h
    · exact List.mem_cons_self
    · exact List.mem_cons_of_mem d (ih h)

/-! ## Names of types -/

theorem WrittenType.isOneLine_name {types : TypeTable} {t : WrittenType}
    (hkeys : ∀ key ∈ types.map (·.1), ∀ c ∈ key.toList, IsKeyCharacter c) (h : t.IsKnown types) :
    IsOneLine t.name.toList := by
  induction t with
  | named name => exact isOneLine_of_isKeyCharacter h
  | declared key =>
    have hname := isOneLine_of_isKeyCharacter (isKeyCharacter_of_mem_nameOfKey (hkeys key h))
    rw [← String.toList_ofList (l := nameOfKey key.toList)] at hname
    exact isOneLine_toList_append.2 ⟨by decide, hname⟩
  | nullable t ih => exact isOneLine_toList_append.2 ⟨ih h, by decide⟩
  | pointer t ih => exact isOneLine_toList_append.2 ⟨ih h, by decide⟩
  | span element ih =>
    exact isOneLine_toList_append.2 ⟨by decide, isOneLine_toList_append.2 ⟨ih h, by decide⟩⟩

theorem TypeScope.IsValid.isOneLine_shortName {scope : TypeScope} (hscope : scope.IsValid)
    {text : List Char} {use : TypeUse} (h : scope.resolve? text = some use) :
    IsOneLine use.shortName.toList := by
  obtain ⟨t, hwrites, hdescribes⟩ := exists_writes_of_resolve? h
  have hname := WrittenType.isOneLine_name (fun key hkey => (hscope.isKeyCharacter hkey).2)
    (hwrites.isKnown hscope)
  rw [← hdescribes.name] at hname
  intro c hc
  rw [TypeUse.shortName, String.toList_ofList] at hc
  exact hname c (mem_of_mem_withoutFrom hc)

/-! ## Signatures -/

theorem isOneLine_of_qualifier {names : List String} (h : IsOneLine (qualifier names).toList) :
    ∀ name ∈ names, IsOneLine name.toList := by
  unfold qualifier at h
  split at h
  next hnil =>
    subst hnil
    exact List.forall_mem_nil _
  next => exact isOneLine_of_joined (isOneLine_toList_append.1 h).1

theorem EnclosingType.isOneLine_header {t : EnclosingType} (hname : IsOneLine t.name.toList)
    (hparams : ∀ p ∈ t.typeParams, IsOneLine p.toList) : IsOneLine t.header.toList := by
  unfold header
  split
  · exact hname
  · simp only [isOneLine_toList_append, and_assoc]
    exact ⟨hname, by decide, isOneLine_joined (by decide) hparams, by decide⟩

namespace Manifest

variable {m : Manifest} {symbols : SymbolTable} {entry : Span × MemberEntry} {a : Member}

theorem IsValid.isOneLine_containerName (hvalid : m.IsValid) {c : Container}
    (hparts : ∀ part ∈ keyParts c.key.toList, Identifier.isValid part = true)
    (hnamed : c.IsNamedBy m (.ofKey c.key.toList)) : IsOneLine c.name.toList := by
  have hkey : IsOneLine c.key.toList :=
    isOneLine_of_isKeyCharacter (TypeScope.isKeyCharacter_of_keyParts hparts)
  rw [Container.key, isOneLine_toList_append] at hkey
  rw [Container.name, Container.qualifiedName, List.take_length]
  refine isOneLine_joined (by decide) (List.forall_mem_append.2 ⟨?_, ?_⟩)
  · exact isOneLine_of_qualifier hkey.1
  · rintro _ hheader
    obtain ⟨type, htype, rfl⟩ := List.mem_map.1 hheader
    obtain ⟨typeKey, hparams⟩ := hnamed.typeParams type htype
    refine EnclosingType.isOneLine_header ?_ fun p hp => ?_
    · exact isOneLine_of_joined hkey.2 _ (List.mem_map_of_mem htype)
    · exact isOneLine_of_isValid (hvalid.typeParams typeKey p (hparams ▸ hp))

/-- The signature of a member is one line. -/
theorem Declares.isOneLine_signature (h : m.Declares symbols entry a) (hvalid : m.IsValid)
    (hentry : entry ∈ m.members) (hnamed : a.container.IsNamedBy m (.ofKey entry.2.container.toList)) :
    IsOneLine a.signature.toList := by
  have hmember := hvalid.members entry hentry
  have hscope := hvalid.isValid_scope hmember
  have hcontainer : IsOneLine a.container.name.toList := by
    rw [← h.container.key_eq] at hnamed
    refine hvalid.isOneLine_containerName ?_ hnamed
    rw [h.container.key_eq]
    exact hmember.container
  have hname : IsOneLine a.name.toList := h.name ▸ isOneLine_of_isValid hmember.name
  have hreturn : IsOneLine a.returnType.shortName.toList := hscope.isOneLine_shortName h.returnType
  have htypeParams : IsOneLine a.typeParamList.toList := by
    have hnames : ∀ s ∈ a.typeParams.map (·.name), IsOneLine s.toList := by
      rw [h.typeParams]
      rintro _ hs
      obtain ⟨p, hp, rfl⟩ := List.mem_map.1 hs
      exact isOneLine_of_isValid (hmember.typeParams p hp)
    unfold Member.typeParamList
    split
    · decide
    · simp only [isOneLine_toList_append, and_assoc]
      exact ⟨by decide, isOneLine_joined (by decide) hnames, by decide⟩
  have hparams : ∀ s ∈ a.params.map (fun p => p.passing.keyword ++ p.type.shortName),
      IsOneLine s.toList := by
    rintro _ hs
    obtain ⟨p, hp, rfl⟩ := List.mem_map.1 hs
    obtain ⟨e, -, hparam⟩ := exists_of_mem_of_forall₂ h.params hp
    refine isOneLine_toList_append.2 ⟨?_, hscope.isOneLine_shortName hparam.type⟩
    cases p.passing <;> decide
  have hpassing : IsOneLine a.returnPassing.keyword.toList := by
    cases a.returnPassing <;> decide
  have hdisplay : IsOneLine a.displayName.toList := by
    unfold Member.displayName
    cases a.form with
    | method =>
      simp only [isOneLine_toList_append, and_assoc]
      exact ⟨hcontainer, by decide, hname, htypeParams, by decide,
        isOneLine_joined (by decide) hparams, by decide⟩
    | property =>
      simp only [isOneLine_toList_append, and_assoc]
      exact ⟨hcontainer, by decide, hname, htypeParams⟩
  rw [Member.signature]
  simp only [isOneLine_toList_append, and_assoc]
  exact ⟨hpassing, hreturn, by decide, hdisplay⟩

end Manifest

/-! ## Conditions -/

/-- The type has the name and the accessibility of a key. -/
def NamedType.IsKeyed (m : Manifest) (t : NamedType) : Prop :=
  ∃ key, t.name = .ofList (nameOfKey key) ∧ t.access = m.accessOfKey key

/-- The condition of an import. -/
def Marker.condition? : Marker → Option NamedType
  | symbol source _ | function source _ => source.condition
  | constant .. => none

theorem Marker.condition?_eq (marker : Marker) :
    marker.condition? = marker.source?.bind (·.condition) := by
  cases marker <;> rfl

namespace Manifest

variable {m : Manifest}

theorem NamesType.isKeyed {symbols : SymbolTable} {key : List Char} {t : NamedType}
    (h : m.NamesType symbols key t) : t.IsKeyed m :=
  ⟨key, h.name, h.access⟩

/-- Conditions are named by their keys. -/
theorem NamesMarker.isKeyed_condition {symbols : SymbolTable} {e : MemberEntry}
    {marker : Option Marker} (h : m.NamesMarker symbols e marker) :
    ∀ t ∈ marker.bind Marker.condition?, t.IsKeyed m := by
  intro t ht
  obtain ⟨marker, rfl, hcondition⟩ := Option.bind_eq_some_iff.1 ht
  rw [Marker.condition?_eq] at hcondition
  obtain ⟨source, hsource, hcondition⟩ := Option.bind_eq_some_iff.1 hcondition
  obtain ⟨s, -, hnames⟩ := exists_of_mem_of_forall₂ h.source (Option.mem_toList.2 hsource)
  obtain ⟨key, -, htype⟩ := exists_of_mem_of_forall₂ hnames.condition
    (Option.mem_toList.2 hcondition)
  exact htype.isKeyed

end Manifest

/-- The name of a reachable type is one line. -/
theorem NamedType.IsKeyed.isOneLine_name {m : Manifest} {t : NamedType} (h : t.IsKeyed m)
    (hvalid : m.IsValid) (hreachable : t.isReachable = true) : IsOneLine t.name.toList := by
  obtain ⟨key, hname, haccess⟩ := h
  rw [isReachable, haccess, (hvalid.isNarrowest_accessOfKey key).isGlobal_iff] at hreachable
  obtain ⟨type, htype, -⟩ := hreachable key (.inl rfl)
  obtain ⟨entry, hentry, hkey⟩ := List.mem_map.1
    (TypeScope.get?_isSome_iff.1 (Option.isSome_of_eq_some htype))
  have hparts := (hvalid.types entry hentry).1
  rw [hkey, String.toList_ofList] at hparts
  rw [hname, String.toList_ofList]
  exact isOneLine_of_isKeyCharacter (WrittenType.isKeyCharacter_of_mem_nameOfKey
    (TypeScope.isKeyCharacter_of_keyParts hparts))

/-! ## Members of a run -/

/-- The signature and the name of a reachable condition are one line for each member of a run. -/
structure Member.IsPlain (a : Member) : Prop where
  signature : IsOneLine a.signature.toList
  condition : ∀ t ∈ a.marker.bind Marker.condition?, t.isReachable = true → IsOneLine t.name.toList

theorem Manifest.IsValid.exists_isPlain {m : Manifest} (hvalid : m.IsValid) :
    ∃ d, m.declarations = .ok d ∧ ∀ a ∈ d.members, a.IsPlain := by
  let R (symbols : SymbolTable) (entry : Span × MemberEntry) (a : Member) : Prop :=
    m.Declares symbols entry a ∧ a.container.IsNamedBy m (.ofKey entry.2.container.toList) ∧
      ∀ t ∈ a.marker.bind Marker.condition?, t.IsKeyed m
  have hR : m.HoldsOfMembers R := by
    intro place e returnType params hreturns hparams _
    refine (Manifest.interns_member place hreturns hparams).and ?_
    exact (interns_containerOf_named m e.container).bind fun container =>
      (Manifest.interns_markerOf m e).bind fun marker =>
        (Interns.internKey (Manifest.memberKey e)).bind fun id =>
          Interns.pure fun t _ hmarker hcontainer => ⟨hcontainer, hmarker.isKeyed_condition⟩
  obtain ⟨d, hd, -, hmembers⟩ := hvalid.exists_declarations hR
  refine ⟨d, hd, fun a ha => ?_⟩
  obtain ⟨entry, hentry, hdeclares, hnamed, hkeyed⟩ := exists_of_mem_of_forall₂ hmembers ha
  exact ⟨hdeclares.isOneLine_signature hvalid hentry hnamed,
    fun t ht => (hkeyed t ht).isOneLine_name hvalid⟩

end NativeBindings
