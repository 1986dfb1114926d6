import Mathlib
import NativeBindings.Proofs.Manifest.Declarations
import NativeBindings.Proofs.Manifest.TypeLinks
import NativeBindings.Proofs.Passes.Isolation
import NativeBindings.Proofs.Passes.Settlement

/-!
# Access to nested types

Generated code may name a library or a condition exactly if all links of its key are declared and
can be seen in the whole assembly. A method with another library or condition is not bound, however
far the other links can be seen.

## Main definitions

- `MemberEntry.importKeys` — the keys of the library and the condition of a member

## Main statements

- `Manifest.NamesMarker.isGlobal_of_validate` — what valid bindings name can be seen
- `Manifest.isReachable_iff_declaresGlobal` — both for a manifest
-/

namespace NativeBindings

/-- The keys of the types that generated code must be able to name for an import. -/
def MemberEntry.importKeys (e : MemberEntry) : List (List Char) :=
  e.source?.elim [] fun s =>
    (s.library.toList ++ s.condition.toList).map fun key => withoutQualifier key.toList

/-- A method without parameters that calls a function. -/
def MemberEntry.ofFunction (f : FunctionEntry) : MemberEntry where
  container := "C"
  name := "F"
  kind := .method
  modifiers := [.internalAccess, .staticMember, .partialMember]
  returns := "void"
  returnPassing := .byValue
  params := []
  typeParams := []
  hasBody := false
  hasGet := true
  hasSet := false
  symbol := none
  function := some f
  constant := none

namespace Manifest

variable {m : Manifest} {symbols : SymbolTable} {e : MemberEntry} {a : Member} {b : Binding}
  {kind : BindingKind}

/-- Library and condition of a valid binding are seen in the whole assembly. -/
theorem NamesMarker.isGlobal_of_validate (h : m.NamesMarker symbols e a.marker)
    (hof : Binding.ofMember? a = some b) (hvalid : b.validate NamedType.isReachable = .ok kind) :
    ∀ key ∈ e.importKeys, (m.accessOfKey key).isGlobal = true := by
  obtain ⟨marker, source, hmarker, hsource, hlibrary, hcondition, -⟩ :=
    Binding.exists_marker_of_ofMember? hof
  have hsources := h.source
  rw [hmarker, Option.bind_some, hsource, Option.toList_some] at hsources
  intro key hkey
  unfold MemberEntry.importKeys at hkey
  cases hs : e.source? with
  | none =>
    rw [hs] at hkey
    cases hkey
  | some s =>
    rw [hs, Option.elim_some] at hkey
    rw [hs] at hsources
    obtain ⟨source', hsource', hnames⟩ := exists_of_mem_of_forall₂ hsources.flip
      (Option.mem_toList.2 rfl)
    obtain rfl := List.mem_singleton.1 hsource'
    obtain ⟨text, htext, rfl⟩ := List.mem_map.1 hkey
    rcases List.mem_append.1 htext with htext | htext
    · obtain ⟨t, ht, htype⟩ := exists_of_mem_of_forall₂ hnames.library.flip htext
      rw [hlibrary, Option.toList_some, List.mem_singleton] at ht
      rw [← htype.access, ht]
      exact Binding.rule_library_of_validate hvalid
    · obtain ⟨t, ht, htype⟩ := exists_of_mem_of_forall₂ hnames.condition.flip htext
      rw [hcondition, Option.mem_toList] at ht
      rw [← htype.access]
      exact Binding.rule_condition_of_validate hvalid t ht

/-- The names of the types in markers are those of the entries. -/
theorem IsValid.exists_namesMarker (hvalid : m.IsValid) :
    ∃ d, m.declarations = .ok d ∧ m.IsFaithful d ∧
      ∀ (i : ℕ) (entry : Span × MemberEntry) (declared : Member),
        m.members[i]? = some entry → d.members[i]? = some declared →
        m.NamesMarker d.symbols entry.2 declared.marker := by
  have hR : m.HoldsOfMembers fun t entry declared => m.NamesMarker t entry.2 declared.marker :=
    fun _ e _ _ _ _ _ => (interns_containerOf m e.container).bind fun _ =>
      (interns_markerOf m e).bind fun _ => (Interns.internKey (memberKey e)).bind fun _ =>
        Interns.pure fun _ _ hmarker _ => hmarker
  obtain ⟨d, hd, hfaithful⟩ := hvalid.exists_isFaithful
  obtain ⟨d', hd', -, hmarkers⟩ := hvalid.exists_declarations hR
  obtain rfl := Except.ok.inj (hd.symm.trans hd')
  refine ⟨d, hd, hfaithful, fun i entry declared hentry hdeclared => ?_⟩
  obtain ⟨entry', hentry', hmarker⟩ := exists_of_forall₂ hmarkers hdeclared
  rwa [Option.some.inj (hentry.symm.trans hentry')]

/-- Members with different symbols are different. -/
theorem IsFaithful.eq_of_id_eq {d : Declarations} (h : m.IsFaithful d) {a a' : Member}
    (ha : a ∈ d.members) (ha' : a' ∈ d.members) (hid : a.id = a'.id) : a = a' :=
  List.inj_on_of_nodup_map h.nodup_ids ha ha' hid

/-- An accepted binding is that of the member with its symbol. -/
theorem IsFaithful.exists_accepts {d : Declarations} (h : m.IsFaithful d) (ha : a ∈ d.members)
    (hb : b ∈ (Generator.ofManifest m d).importsPass.tree.members) (hid : b.target.id = a.id) :
    ∃ declared, Binding.ofMember? a = some declared ∧
      declared.Accepts NamedType.isReachable b := by
  obtain ⟨declared, hdeclared, haccepts⟩ := ImportsPass.exists_accepts_of_mem_run hb
  obtain ⟨member, hmember, hof⟩ := List.mem_filterMap.1 hdeclared
  have htarget : b.target = member := by
    obtain ⟨kind, slot, -, hb⟩ := haccepts
    rw [hb, ← Binding.target_of_ofMember? hof]
  obtain rfl : member = a := h.eq_of_id_eq hmember ha (htarget ▸ hid)
  exact ⟨declared, hof, haccepts⟩

/-- A type can be named exactly if all of its links are declared and can be seen in the whole
assembly, and it can be seen as far as the link that reaches least. Where a link of the library or
the condition of a member is not declared, or cannot be seen, the member is not bound. -/
theorem isReachable_iff_declaresGlobal (h : m.validate = .ok ()) :
    (∀ key symbols, ∀ t : NamedType, (m.namedType key symbols).1 = t →
      (t.isReachable = true ↔ ∀ link, IsLink link (withoutQualifier key) → m.DeclaresGlobal link) ∧
      m.IsNarrowest (withoutQualifier key) t.access ∧
      ∀ link, IsLink link (withoutQualifier key) → m.types.get? (.ofList link) = none →
        t.access = .unresolved) ∧
    ∃ d, m.declarations = .ok d ∧ m.IsFaithful d ∧
      ∀ (i : ℕ) (entry : Span × MemberEntry) (declared : Member),
        m.members[i]? = some entry → d.members[i]? = some declared →
        ∀ key ∈ entry.2.importKeys, ∀ link, IsLink link key → ¬ m.DeclaresGlobal link →
          (∀ b, Binding.ofMember? declared = some b →
            ∀ kind, b.validate NamedType.isReachable ≠ .ok kind) ∧
          ∀ b ∈ (Generator.ofManifest m d).importsPass.tree.members,
            b.target.id ≠ declared.id := by
  have hvalid := validate_eq_ok_iff.1 h
  refine ⟨?_, ?_⟩
  · rintro key symbols t rfl
    have hnarrowest := hvalid.isNarrowest_accessOfKey (withoutQualifier key)
    exact ⟨hnarrowest.isGlobal_iff, hnarrowest, fun link => hnarrowest.eq_unresolved⟩
  obtain ⟨d, hd, hfaithful, hmarkers⟩ := hvalid.exists_namesMarker
  refine ⟨d, hd, hfaithful, fun i entry declared hentry hdeclared key hkey link hlink hglobal => ?_⟩
  have hinvalid : ∀ b, Binding.ofMember? declared = some b →
      ∀ kind, b.validate NamedType.isReachable ≠ .ok kind := by
    intro b hof kind hok
    have hkeyGlobal :=
      (hmarkers i entry declared hentry hdeclared).isGlobal_of_validate hof hok key hkey
    rw [(hvalid.isNarrowest_accessOfKey key).isGlobal_iff] at hkeyGlobal
    exact hglobal (hkeyGlobal link hlink)
  refine ⟨hinvalid, fun b hb hid => ?_⟩
  obtain ⟨declaredBinding, hof, kind, -, hok, -⟩ :=
    hfaithful.exists_accepts (List.mem_of_getElem? hdeclared) hb hid
  exact hinvalid declaredBinding hof kind hok

/-- One function of a library which is nested in a private type. -/
def nestedManifest : Manifest :=
  { source := ⟨[], "natbind.toml"⟩
    generator := {}
    compilation := {}
    types := [("A", { access := .privateAccess }), ("A+B", {})]
    members := [(⟨0, 0⟩, .ofFunction ⟨⟨"global::A+B", none, none⟩, []⟩)] }

/-- The library can be seen in the whole assembly, but not the type around it. -/
theorem isReachable_iff_declaresGlobal_nested :
    nestedManifest.validate = .ok () ∧
      nestedManifest.DeclaresGlobal "A+B".toList ∧
      (∀ symbols, (nestedManifest.namedType "global::A+B".toList symbols).1.isReachable = false) ∧
      ∃ d, nestedManifest.declarations = .ok d ∧
        ∀ declared, d.members[0]? = some declared →
          ∀ b ∈ (Generator.ofManifest nestedManifest d).importsPass.tree.members,
            b.target.id ≠ declared.id := by
  have hvalid : nestedManifest.validate = .ok () := by decide +kernel
  have hlink : IsLink "A".toList "A+B".toList := .inr ⟨"B".toList, rfl⟩
  have hprivate : ¬ nestedManifest.DeclaresGlobal "A".toList := by
    rw [← isGlobal_linkAccess_iff]
    decide
  obtain ⟨htypes, d, hd, -, hmembers⟩ := isReachable_iff_declaresGlobal hvalid
  refine ⟨hvalid, isGlobal_linkAccess_iff.1 (by decide), fun symbols => ?_, d, hd, ?_⟩
  · obtain ⟨hreachable, -, -⟩ := htypes "global::A+B".toList symbols _ rfl
    refine Bool.eq_false_iff.2 fun h => hprivate (hreachable.1 h _ ?_)
    exact hlink
  · intro declared hdeclared
    exact (hmembers 0 _ declared rfl hdeclared "A+B".toList (by decide) _ hlink hprivate).2

end Manifest
end NativeBindings
