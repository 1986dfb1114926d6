import NativeBindings.Proofs.Binding.Marker
import NativeBindings.Proofs.Symbol.Interning

/-!
# Types that markers name

A library, a condition or a calling convention has the symbol, the name and the accessibility of the
key that an entry gives for it. A calling convention which is not declared is named by its key as it
is, and is taken for public.

## Main definitions

- `MemberEntry.source?`, `MemberEntry.conventions` — what an entry says about an import
- `Manifest.NamesType`, `Manifest.NamesConvention` — the type of a key, and of a calling convention
- `Manifest.NamesMarker` — a marker whose types are those of an entry

## Main statements

- `Manifest.interns_markerOf` — the marker of an entry
-/

namespace NativeBindings

namespace MemberEntry

/-- The source of the import that an entry asks for; a symbol comes before a function. -/
def source? (e : MemberEntry) : Option SourceEntry :=
  (e.symbol.map (·.source)).or (e.function.map (·.source))

/-- The calling conventions of a function. -/
def conventions (e : MemberEntry) : List String :=
  if e.symbol.isSome then [] else e.function.elim [] (·.conventions)

end MemberEntry

namespace Manifest

/-- The type has the symbol, the name and the accessibility of a key. -/
structure NamesType (m : Manifest) (symbols : SymbolTable) (key : List Char) (t : NamedType) :
    Prop where
  id : symbols.get? ("T:" ++ .ofList key) = some t.id
  name : t.name = .ofList (nameOfKey key)
  access : t.access = m.accessOfKey key

/-- The type of a calling convention is the declared one, or else a public one. -/
structure NamesConvention (m : Manifest) (symbols : SymbolTable) (name : String) (t : NamedType) :
    Prop where
  id : symbols.get? ("T:" ++ .ofList (conventionKey name.toList)) = some t.id
  declared : (m.types.get? (.ofList (conventionKey name.toList))).isSome = true →
    t.name = .ofList (nameOfKey (conventionKey name.toList)) ∧
      t.access = m.accessOfKey (conventionKey name.toList)
  undeclared : m.types.get? (.ofList (conventionKey name.toList)) = none →
    t.name = .ofList (conventionKey name.toList) ∧ t.access = .publicAccess

/-- Library and condition are the types of their keys. -/
structure NamesSource (m : Manifest) (symbols : SymbolTable) (s : SourceEntry)
    (source : ImportSource) : Prop where
  library : List.Forall₂ (fun key => m.NamesType symbols (withoutQualifier key.toList))
    s.library.toList source.library.toList
  condition : List.Forall₂ (fun key => m.NamesType symbols (withoutQualifier key.toList))
    s.condition.toList source.condition.toList
  name : source.name = s.name

/-- The types in the marker are those that the entry names. -/
structure NamesMarker (m : Manifest) (symbols : SymbolTable) (e : MemberEntry)
    (marker : Option Marker) : Prop where
  source : List.Forall₂ (m.NamesSource symbols) e.source?.toList
    (marker.bind Marker.source?).toList
  conventions : List.Forall₂ (m.NamesConvention symbols) e.conventions
    (marker.elim [] Marker.conventions)

/-! ## Interned types -/

theorem interns_namedType (m : Manifest) (key : List Char) :
    Interns (m.namedType key) fun t type => m.NamesType t (withoutQualifier key) type :=
  (Interns.internKey _).bind fun _ => Interns.pure fun _ hid => ⟨hid, rfl, rfl⟩

theorem interns_namedType? (m : Manifest) (key : Option String) :
    Interns (m.namedType? key) fun t type =>
      List.Forall₂ (fun key => m.NamesType t (withoutQualifier key.toList)) key.toList
        type.toList := by
  cases key with
  | none => exact Interns.pure fun _ => .nil
  | some key =>
    exact (interns_namedType m key.toList).bind fun _ => Interns.pure fun _ h => .cons h .nil

/-- A key with the namespace of the calling conventions has no qualifier. -/
theorem withoutQualifier_conventionKey (name : List Char) :
    withoutQualifier (conventionKey name) = conventionKey name := by
  unfold withoutQualifier conventionKey conventionNamespace
  rfl

theorem interns_convention (m : Manifest) (name : String) :
    Interns (m.convention name) fun t type => m.NamesConvention t name type := by
  unfold convention
  dsimp only
  split
  next hdeclared =>
    refine (interns_namedType m _).mono fun t type htype => ?_
    rw [withoutQualifier_conventionKey] at htype
    refine ⟨htype.id, fun _ => ⟨htype.name, htype.access⟩, fun hnone => ?_⟩
    rw [hnone] at hdeclared
    cases hdeclared
  next hundeclared =>
    exact (Interns.internKey _).bind fun _ => Interns.pure fun _ hid =>
      ⟨hid, fun hdeclared => absurd hdeclared hundeclared, fun _ => ⟨rfl, rfl⟩⟩

theorem interns_importSource (m : Manifest) (s : SourceEntry) :
    Interns (m.importSource s) fun t source => m.NamesSource t s source :=
  (interns_namedType? m _).bind fun _ => (interns_namedType? m _).bind fun _ =>
    Interns.pure fun _ hcondition hlibrary => ⟨hlibrary, hcondition, rfl⟩

/-- Without a symbol and a function nothing is named. -/
theorem namesMarker_of_none {m : Manifest} {symbols : SymbolTable} {e : MemberEntry}
    {marker : Option Marker} (hsymbol : e.symbol = none) (hfunction : e.function = none)
    (hsource : marker.bind Marker.source? = none)
    (hconventions : marker.elim [] Marker.conventions = []) : m.NamesMarker symbols e marker := by
  refine ⟨?_, ?_⟩
  · rw [MemberEntry.source?, hsymbol, hfunction, hsource]
    exact .nil
  · rw [MemberEntry.conventions, hsymbol, hfunction, hconventions]
    exact .nil

/-- The types of a marker are interned in the order in which its entry names them. -/
theorem interns_markerOf (m : Manifest) (e : MemberEntry) :
    Interns (m.markerOf e) fun t marker => m.NamesMarker t e marker := by
  unfold markerOf
  split
  next _ _ s hsymbol =>
    refine (interns_importSource m s.source).bind fun source => Interns.pure fun _ h => ⟨?_, ?_⟩
    · rw [MemberEntry.source?, hsymbol]
      exact .cons h .nil
    · rw [MemberEntry.conventions, hsymbol]
      exact .nil
  next _ f hsymbol hfunction =>
    refine (interns_importSource m f.source).bind fun source =>
      (Interns.mapM (interns_convention m) f.conventions).bind fun conventions =>
        Interns.pure fun _ hconventions h => ⟨?_, ?_⟩
    · rw [MemberEntry.source?, hsymbol, hfunction]
      exact .cons h .nil
    · rw [MemberEntry.conventions, hsymbol, hfunction]
      exact hconventions
  next hsymbol hfunction _ =>
    exact Interns.pure fun _ => namesMarker_of_none hsymbol hfunction rfl rfl
  next hsymbol hfunction _ =>
    exact Interns.pure fun _ => namesMarker_of_none hsymbol hfunction rfl rfl

end Manifest
end NativeBindings
