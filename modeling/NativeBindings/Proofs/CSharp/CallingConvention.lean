import NativeBindings.CSharp.Accessor
import NativeBindings.Proofs.Manifest.NestedAccess
import NativeBindings.Proofs.Text.Segments

/-!
# Names of calling conventions

A calling convention can be written with or without the start `CallConv` of its name, and with or
without a namespace: only the bare name behind the last point and behind this start counts. It is
the name in the type of a function pointer again, unless a manifest declares a nested type by it. No
check looks at the texts of calling conventions, so they are names only where their bare names
are.

## Main definitions

- `bareName` — what counts of the text of a calling convention
- `Manifest.conventionText` — what is written for it
- `spellings` — the ways to write one name

## Main statements

- `conventionKey_eq` — the key of a calling convention
- `Manifest.NamesConvention.conventionName_eq` — its name in the type of a function pointer
- `Manifest.namesConventions_of_validate` — both for a manifest, and which names are names
-/

namespace NativeBindings

/-! ## Bare names -/

variable {sep : Char} {s t : List Char}

/-- What counts of the text of a calling convention: the part behind the last separator, and of this
what stands behind `CallConv`. -/
def bareName (sep : Char) (s : List Char) : List Char :=
  (dropStart? "CallConv".toList (lastPart sep s)).getD (lastPart sep s)

theorem bareName_of_lastPart_eq (h : lastPart sep s = "CallConv".toList ++ t) :
    bareName sep s = t := by
  rw [bareName, h, dropStart?_append, Option.getD_some]

theorem bareName_eq_lastPart (h : ¬ "CallConv".toList <+: lastPart sep s) :
    bareName sep s = lastPart sep s := by
  unfold bareName
  cases hdrop : dropStart? "CallConv".toList (lastPart sep s) with
  | none => rfl
  | some rest => exact absurd ⟨rest, (append_of_dropStart? hdrop).symm⟩ h

/-- A bare name is a part. -/
theorem notMem_bareName (sep : Char) (s : List Char) : sep ∉ bareName sep s := by
  have hpart := notMem_lastPart sep s
  by_cases h : "CallConv".toList <+: lastPart sep s
  · obtain ⟨rest, hrest⟩ := h
    rw [bareName_of_lastPart_eq hrest.symm]
    exact fun hmem => hpart (hrest ▸ List.mem_append_right _ hmem)
  · rwa [bareName_eq_lastPart h]

/-- The key of a calling convention has the namespace, the start and the bare name. -/
theorem conventionKey_eq (name : List Char) :
    conventionKey name =
      conventionNamespace.toList ++ '.' :: ("CallConv".toList ++ bareName '.' name) := by
  have hsimple : (cutLast? '.' name).elim name Prod.snd = lastPart '.' name := rfl
  unfold conventionKey
  dsimp only
  rw [hsimple]
  by_cases h : "CallConv".toList <+: lastPart '.' name
  · obtain ⟨rest, hrest⟩ := h
    have hstart : "CallConv".toList.isPrefixOf (lastPart '.' name) = true :=
      List.isPrefixOf_iff_prefix.2 ⟨rest, hrest⟩
    rw [if_pos hstart, bareName_of_lastPart_eq hrest.symm, hrest]
  · rw [if_neg (mt List.isPrefixOf_iff_prefix.1 h), bareName_eq_lastPart h]

/-- The ways to write a calling convention. -/
def spellings (x : List Char) : List (List Char) :=
  [x, "CallConv".toList ++ x, conventionNamespace.toList ++ '.' :: ("CallConv".toList ++ x)]

/-- However it is written, a name is the bare name. -/
theorem bareName_of_mem_spellings {x : List Char} (hpoint : '.' ∉ x)
    (hstart : ¬ "CallConv".toList <+: x) (h : s ∈ spellings x) : bareName '.' s = x := by
  have hlong : '.' ∉ "CallConv".toList ++ x := by
    rw [List.mem_append, not_or]
    exact ⟨by decide, hpoint⟩
  simp only [spellings, List.mem_cons, List.not_mem_nil, or_false] at h
  rcases h with rfl | rfl | rfl
  · have hpart := lastPart_of_notMem hpoint
    rw [← hpart] at hstart
    rw [bareName_eq_lastPart hstart, hpart]
  · exact bareName_of_lastPart_eq (lastPart_of_notMem hlong)
  · exact bareName_of_lastPart_eq (lastPart_append_cons hlong _)

/-! ## Written names -/

theorem NamedType.conventionName_eq (t : NamedType) :
    t.conventionName = .ofList (bareName '.' t.name.toList) := by
  have hsimple : t.simpleName.toList = lastPart '.' t.name.toList := String.toList_ofList
  rw [conventionName, hsimple]
  rfl

/-- The last plus sign of a key stands for the last point of the dotted name. -/
theorem nameOfKey_append_plus (h : '+' ∉ t) (s : List Char) :
    nameOfKey (s ++ '+' :: t) = nameOfKey s ++ '.' :: t := by
  have happend : nameOfKey (s ++ '+' :: t) = nameOfKey s ++ '.' :: nameOfKey t := List.map_append
  rw [happend, nameOfKey_of_notMem h]

namespace Manifest

variable {m : Manifest} {symbols : SymbolTable} {name : String} {type : NamedType}

/-- What is written for a calling convention: of a nested type that is declared, only the last part
counts. -/
def conventionText (m : Manifest) (name : List Char) : List Char :=
  if '+' ∈ bareName '.' name ∧ (m.types.get? (.ofList (conventionKey name))).isSome = true then
    bareName '+' (bareName '.' name)
  else bareName '.' name

theorem conventionText_of_plus (hplus : '+' ∈ bareName '.' s)
    (hdeclared : (m.types.get? (.ofList (conventionKey s))).isSome = true) :
    m.conventionText s = bareName '+' (bareName '.' s) := if_pos ⟨hplus, hdeclared⟩

theorem conventionText_of_notMem (hplus : '+' ∉ bareName '.' s) :
    m.conventionText s = bareName '.' s := if_neg fun h => hplus h.1

theorem conventionText_of_undeclared (hnone : m.types.get? (.ofList (conventionKey s)) = none) :
    m.conventionText s = bareName '.' s := by
  refine if_neg fun h => ?_
  rw [hnone] at h
  cases h.2

/-- The bare name of a key is the one that it has been made from. -/
theorem bareName_conventionKey (name : List Char) :
    bareName '.' (conventionKey name) = bareName '.' name := by
  have hpoint : '.' ∉ "CallConv".toList ++ bareName '.' name := by
    rw [List.mem_append, not_or]
    exact ⟨by decide, notMem_bareName '.' name⟩
  rw [conventionKey_eq]
  exact bareName_of_lastPart_eq (lastPart_append_cons hpoint _)

/-- Without plus signs in the bare name there are none in the key. -/
theorem plus_notMem_conventionKey (hplus : '+' ∉ bareName '.' s) : '+' ∉ conventionKey s := by
  rw [conventionKey_eq, List.mem_append, List.mem_cons, List.mem_append]
  rintro (h | h | h | h)
  · exact absurd h (by decide)
  · cases h
  · exact absurd h (by decide)
  · exact hplus h

/-- The dotted name of a nested type ends with the last part of the bare name. -/
theorem bareName_nameOfKey_conventionKey (hplus : '+' ∈ bareName '.' s) :
    bareName '.' (nameOfKey (conventionKey s)) = bareName '+' (bareName '.' s) := by
  obtain ⟨front, hbare⟩ := exists_append_lastPart hplus
  have hpoint : '.' ∉ lastPart '+' (bareName '.' s) := fun h =>
    notMem_bareName '.' s (hbare ▸ List.mem_append_right _ (List.mem_cons_of_mem _ h))
  have hkey : conventionKey s = conventionNamespace.toList ++ '.' :: ("CallConv".toList ++ front) ++
      '+' :: lastPart '+' (bareName '.' s) := by
    rw [conventionKey_eq, List.append_assoc, List.cons_append, List.append_assoc, ← hbare]
  rw [hkey, nameOfKey_append_plus (notMem_lastPart '+' _), bareName, lastPart_append_cons hpoint]
  rfl

/-- The name that is written for a calling convention goes by its text. -/
theorem NamesConvention.conventionName_eq (h : m.NamesConvention symbols name type) :
    type.conventionName = .ofList (m.conventionText name.toList) := by
  rw [NamedType.conventionName_eq]
  congr 1
  cases hdeclared : m.types.get? (.ofList (conventionKey name.toList)) with
  | none =>
    rw [(h.undeclared hdeclared).1, String.toList_ofList, bareName_conventionKey,
      conventionText_of_undeclared hdeclared]
  | some t =>
    have hsome := Option.isSome_of_eq_some hdeclared
    rw [(h.declared hsome).1, String.toList_ofList]
    by_cases hplus : '+' ∈ bareName '.' name.toList
    · rw [bareName_nameOfKey_conventionKey hplus, conventionText_of_plus hplus hsome]
    · rw [nameOfKey_of_notMem (plus_notMem_conventionKey hplus), bareName_conventionKey,
        conventionText_of_notMem hplus]

/-- What is written is a name exactly if what counts is one. -/
theorem isValid_conventionText_iff :
    Identifier.isValid (m.conventionText s) = true ↔
      Identifier.isValid (bareName '.' s) = true ∨
        '+' ∈ bareName '.' s ∧ (m.types.get? (.ofList (conventionKey s))).isSome = true ∧
          Identifier.isValid (bareName '+' (bareName '.' s)) = true := by
  by_cases hplus : '+' ∈ bareName '.' s
  · have hbare : ¬ Identifier.isValid (bareName '.' s) = true := fun h =>
      Identifier.plus_notMem h hplus
    rw [or_iff_right hbare, and_iff_right hplus]
    cases hdeclared : m.types.get? (.ofList (conventionKey s)) with
    | none => simp [conventionText_of_undeclared hdeclared, hbare]
    | some t =>
      rw [conventionText_of_plus hplus (Option.isSome_of_eq_some hdeclared)]
      exact (and_iff_right rfl).symm
  · rw [conventionText_of_notMem hplus, or_iff_left fun h => hplus h.1]

/-- However a name is written, the same type is named, and this name is written for it. -/
theorem NamesConvention.of_mem_spellings {x : List Char} (h : m.NamesConvention symbols name type)
    (hvalid : Identifier.isValid x = true) (hstart : ¬ "CallConv".toList <+: x)
    (hname : name.toList ∈ spellings x) :
    type.conventionName.toList = x ∧
      ∀ name' type', m.NamesConvention symbols name' type' → name'.toList ∈ spellings x →
        type'.id = type.id := by
  have hpoint : '.' ∉ x :=
    Identifier.notMem_of_isPart_eq_false hvalid (by decide) (by decide +kernel)
  have hbare := bareName_of_mem_spellings hpoint hstart hname
  refine ⟨?_, fun name' type' h' hname' => ?_⟩
  · rw [h.conventionName_eq, String.toList_ofList,
      conventionText_of_notMem (hbare ▸ Identifier.plus_notMem hvalid), hbare]
  · have hid := h'.id
    rw [conventionKey_eq, bareName_of_mem_spellings hpoint hstart hname', ← hbare,
      ← conventionKey_eq, h.id] at hid
    exact (Option.some.inj hid).symm

end Manifest

/-- The texts in the brackets of a function pointer. -/
theorem Binding.exists_functionPointer_eq (m : Member) {conventions : List NamedType}
    (h : conventions ≠ []) :
    ∃ types, functionPointer m conventions = "delegate* unmanaged[" ++
      joined ", " (conventions.map (·.conventionName)) ++ "]<" ++ types ++ ">" := by
  have hempty : conventions.isEmpty = false := by rwa [List.isEmpty_eq_false_iff]
  refine ⟨joined ", " (m.params.map (fun p => p.passing.keyword ++ p.type.name) ++
    [m.returnPassing.keyword ++ m.returnType.name]), ?_⟩
  have hopening : "delegate* unmanaged[" = "delegate* " ++ "unmanaged[" := by decide
  have hclosing : "]<" = "]" ++ "<" := by decide
  rw [functionPointer, hempty, hopening, hclosing]
  simp only [Bool.false_eq_true, if_false, String.append_assoc]

namespace Manifest

variable {m : Manifest}

/-- A valid member with a function has no symbol. -/
theorem conventions_eq_of_isValid {scope : TypeScope} {e : MemberEntry} {f : FunctionEntry}
    (h : e.IsValid scope) (hf : e.function = some f) : e.conventions = f.conventions := by
  have hsymbol : e.symbol = none := by
    cases hs : e.symbol with
    | none => rfl
    | some s =>
      have hcount := h.markerCount_le
      rw [MemberEntry.markerCount, hs, hf, Option.toList_some, Option.toList_some,
        List.length_singleton, List.length_singleton] at hcount
      omega
  rw [MemberEntry.conventions, hsymbol, hf]
  rfl

/-- The function pointer of a valid binding names the calling conventions of its entry. -/
theorem NamesMarker.exists_functionPointer_eq {symbols : SymbolTable} {e : MemberEntry}
    {a : Member} {b : Binding} {kind : BindingKind} (h : m.NamesMarker symbols e a.marker)
    (hof : Binding.ofMember? a = some b) (hvalid : b.validate NamedType.isReachable = .ok kind)
    (hne : e.conventions ≠ []) :
    ∃ conventions types, kind = .function conventions ∧
      Binding.functionPointer b.target conventions = "delegate* unmanaged[" ++
        joined ", " (e.conventions.map fun name => .ofList (m.conventionText name.toList)) ++
        "]<" ++ types ++ ">" := by
  obtain ⟨marker, -, hmarker, -, -, -, hkind⟩ := Binding.exists_marker_of_ofMember? hof
  have hconventions := h.conventions
  rw [hmarker, Option.elim_some] at hconventions
  have hsome : marker.conventions ≠ [] := by
    rw [← List.length_pos_iff, ← hconventions.length_eq]
    exact List.length_pos_iff.2 hne
  rw [Marker.kind?_of_conventions_ne_nil hsome, Option.some_inj] at hkind
  have hnames := map_eq_map_of_forall₂ (hconventions.imp fun _ _ hnames =>
    hnames.conventionName_eq.symm)
  obtain ⟨types, htypes⟩ := Binding.exists_functionPointer_eq b.target hsome
  rw [← hnames] at htypes
  exact ⟨marker.conventions, types, Binding.kind_eq_of_validate hvalid hkind.symm, htypes⟩

/-- Each calling convention of an entry is one of the member, and of the function pointer of its
binding. Its name there is a name exactly if what counts of its text is one. The three ways to write
one name stand for one type, which is written by this name. -/
theorem namesConventions_of_validate (h : m.validate = .ok ()) :
    (∃ d, m.declarations = .ok d ∧ m.IsFaithful d ∧
      ∀ (i : ℕ) (entry : Span × MemberEntry) (declared : Member) (f : FunctionEntry),
        m.members[i]? = some entry → d.members[i]? = some declared → entry.2.function = some f →
        List.Forall₂ (m.NamesConvention d.symbols) f.conventions
          (declared.marker.elim [] Marker.conventions) ∧
        ∀ b ∈ (Generator.ofManifest m d).importsPass.tree.members, b.target.id = declared.id →
          f.conventions ≠ [] → ∃ conventions types, b.kind = .function conventions ∧
            Binding.functionPointer b.target conventions = "delegate* unmanaged[" ++
              joined ", " (f.conventions.map fun name => .ofList (m.conventionText name.toList)) ++
              "]<" ++ types ++ ">") ∧
    ∀ symbols name type, m.NamesConvention symbols name type →
      (Identifier.isValid type.conventionName.toList = true ↔
        Identifier.isValid (bareName '.' name.toList) = true ∨
          '+' ∈ bareName '.' name.toList ∧
            (m.types.get? (.ofList (conventionKey name.toList))).isSome = true ∧
            Identifier.isValid (bareName '+' (bareName '.' name.toList)) = true) ∧
      ∀ x, Identifier.isValid x = true → ¬ "CallConv".toList <+: x → name.toList ∈ spellings x →
        type.conventionName.toList = x ∧
          ∀ name' type', m.NamesConvention symbols name' type' → name'.toList ∈ spellings x →
            type'.id = type.id := by
  have hvalid := validate_eq_ok_iff.1 h
  refine ⟨?_, fun symbols name type hnames => ⟨?_, fun x => hnames.of_mem_spellings⟩⟩
  · obtain ⟨d, hd, hfaithful, hmarkers⟩ := hvalid.exists_namesMarker
    refine ⟨d, hd, hfaithful, fun i entry declared f hentry hdeclared hf => ?_⟩
    have hmarker := hmarkers i entry declared hentry hdeclared
    rw [← conventions_eq_of_isValid (hvalid.members entry (List.mem_of_getElem? hentry)) hf]
    refine ⟨hmarker.conventions, fun b hb hid hne => ?_⟩
    obtain ⟨declaredBinding, hof, kind, slot, hok, rfl⟩ :=
      hfaithful.exists_accepts (List.mem_of_getElem? hdeclared) hb hid
    have hpointer := hmarker.exists_functionPointer_eq hof hok hne
    exact hpointer
  · rw [hnames.conventionName_eq, String.toList_ofList]
    exact isValid_conventionText_iff

/-- One function; its calling conventions are given as they are written. -/
def conventionSource (written : String) : SourceText :=
  ⟨("types.L=\x7b\x7d\n[[members]]\ncontainer=\"C\"\nname=\"F\"\n" ++
    "function=\x7blibrary=\"L\",call_convs=[" ++ written ++ "]\x7d\n").toList, "natbind.toml"⟩

/-- What such a manifest says. -/
def conventionManifest (written : String) (conventions : List String) : Manifest :=
  { source := conventionSource written
    generator := {}
    compilation := {}
    types := [("L", {})]
    members := [(⟨11, 22⟩, .ofFunction ⟨⟨"L", none, none⟩, conventions⟩)] }

/-- One calling convention, with the start of its name and without. -/
theorem namesConventions_of_validate_spellings :
    let m := conventionManifest "\"Cdecl\",\"CallConvCdecl\"" ["Cdecl", "CallConvCdecl"]
    m.validate = .ok () ∧
      ∃ d, m.declarations = .ok d ∧ ∀ declared, d.members[0]? = some declared →
        ∃ type type', declared.marker.elim [] Marker.conventions = [type, type'] ∧
          type'.id = type.id ∧ type.conventionName.toList = "Cdecl".toList := by
  intro m
  have hvalid : m.validate = .ok () := by decide +kernel
  obtain ⟨⟨d, hd, -, hmembers⟩, hnames⟩ := namesConventions_of_validate hvalid
  refine ⟨hvalid, d, hd, fun declared hdeclared => ?_⟩
  obtain ⟨htypes, -⟩ := hmembers 0 _ declared _ rfl hdeclared rfl
  generalize declared.marker.elim [] Marker.conventions = types at htypes ⊢
  obtain _ | ⟨htype, hrest⟩ := htypes
  obtain _ | ⟨htype', hnil⟩ := hrest
  cases hnil
  obtain ⟨hname, hid⟩ := (hnames _ _ _ htype).2 "Cdecl".toList (by decide +kernel) (by decide)
    (by decide)
  exact ⟨_, _, rfl, hid _ _ htype' (by decide), hname⟩

end Manifest

namespace Generator

/-- The names of all calling conventions in the types of function pointers. -/
def conventionNames (g : Generator) : List String :=
  g.importsPass.tree.members.flatMap fun b =>
    match b.kind with
    | .function conventions => conventions.map (·.conventionName)
    | .symbol _ => []

/-- A calling convention can be written by something that is no name. -/
theorem exists_not_isValid_conventionName :
    ¬ ∀ source g, Generator.parse source = .ok g → ∀ name ∈ g.conventionNames,
      Identifier.isValid name.toList = true := by
  intro h
  have hread : Manifest.read? (Manifest.conventionSource "\"C-decl\"") =
      some (Manifest.conventionManifest "\"C-decl\"" ["C-decl"]) := by
    unfold Manifest.conventionManifest Manifest.conventionSource
    simp only [String.toList_append]
    rw [toList_literal rfl, toList_literal rfl, toList_literal rfl, toList_literal rfl]
    cbv
  obtain ⟨g, hparse, hnames⟩ := exists_parse_of_read conventionNames _ _ ["C-decl"] hread
    (by decide +kernel) (by decide +kernel)
  have hvalid := h _ g hparse "C-decl" (by rw [hnames]; exact List.mem_singleton_self _)
  exact absurd hvalid (by decide +kernel)

end Generator
end NativeBindings
