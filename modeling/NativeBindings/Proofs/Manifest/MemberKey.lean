import NativeBindings.Manifest.Declarations
import NativeBindings.Proofs.Manifest.Validity
import NativeBindings.Proofs.Text.Joined

/-!
# Keys of members

The key of a member and the signature by which members are told apart are written differently, but no
two valid members with different signatures have one key.

## Main statements

- `Identifier.eq_or_isPart` — what names consist of
- `MemberEntry.IsValid.signature_eq` — the key of a valid member determines its signature
-/

namespace NativeBindings

namespace Identifier

variable {name : List Char} {c : Char}

theorem isPart_of_spellingFault?_eq_none (h : spellingFault? name = none) (hc : c ∈ name) :
    isPart c = true := by
  cases name with
  | nil => cases hc
  | cons d ds =>
    rw [spellingFault?] at h
    split at h
    · cases h
    next hstart =>
      split at h
      · cases h
      next hrest =>
        rw [Bool.not_eq_true, Bool.not_eq_false'] at hstart hrest
        rcases List.mem_cons.1 hc with rfl | hc
        · rw [isStart, Bool.or_eq_true] at hstart
          rw [isPart, Bool.or_eq_true, Bool.or_eq_true]
          exact hstart.imp_left .inl
        · exact List.all_eq_true.1 hrest c hc

/-- Names consist of letters, numbers and underscores, with an `@` that may stand in front. -/
theorem eq_or_isPart (h : isValid name = true) (hc : c ∈ name) : c = '@' ∨ isPart c = true := by
  rw [isValid, Option.isNone_iff_eq_none] at h
  unfold fault? at h
  split at h
  next rest =>
    rcases List.mem_cons.1 hc with rfl | hc
    · exact .inl rfl
    · exact .inr (isPart_of_spellingFault?_eq_none h hc)
  next =>
    rw [Option.or_eq_none_iff] at h
    exact .inr (isPart_of_spellingFault?_eq_none h.1 hc)

theorem notMem_of_isPart_eq_false (h : isValid name = true) (hne : c ≠ '@')
    (hpart : isPart c = false) : c ∉ name := by
  intro hc
  rcases eq_or_isPart h hc with rfl | hc
  · exact hne rfl
  · rw [hpart] at hc
    cases hc

theorem plus_notMem (h : isValid name = true) : '+' ∉ name :=
  notMem_of_isPart_eq_false h (by decide) (by decide +kernel)

end Identifier

/-- Without plus signs a key is a dotted name. -/
theorem nameOfKey_of_notMem {key : List Char} (h : '+' ∉ key) : nameOfKey key = key := by
  unfold nameOfKey
  refine (List.map_congr_left fun c hc => if_neg ?_).trans (List.map_id _)
  rintro rfl
  exact h hc

theorem eq_or_mem_of_mem_segments (sep : Char) {c : Char} {s : List Char} (hc : c ∈ s) :
    c = sep ∨ ∃ part ∈ segments sep s, c ∈ part := by
  rw [← joinSegments_segments sep s] at hc
  generalize segments sep s = parts at hc
  induction parts with
  | nil => cases hc
  | cons part parts ih =>
    cases parts with
    | nil => exact .inr ⟨part, List.mem_singleton_self _, hc⟩
    | cons next parts =>
      rw [joinSegments_cons_cons, List.mem_append, List.mem_cons] at hc
      rcases hc with hc | hc | hc
      · exact .inr ⟨part, List.mem_cons_self, hc⟩
      · exact .inl hc
      · exact (ih hc).imp_right fun ⟨part', hpart', hc'⟩ =>
          ⟨part', List.mem_cons_of_mem _ hpart', hc'⟩

/-- Besides its parts a key has points and plus signs only. -/
theorem eq_or_mem_of_mem_keyParts {c : Char} {key : List Char} (hc : c ∈ key) :
    c = '.' ∨ c = '+' ∨ ∃ part ∈ keyParts key, c ∈ part := by
  rcases eq_or_mem_of_mem_segments '.' hc with hc | ⟨segment, hsegment, hc⟩
  · exact .inl hc
  · rcases eq_or_mem_of_mem_segments '+' hc with hc | ⟨part, hpart, hc⟩
    · exact .inr (.inl hc)
    · exact .inr (.inr ⟨part, List.mem_flatMap.2 ⟨segment, hsegment, hpart⟩, hc⟩)

/-- The container and the name, as they stand in the key of a member. -/
def MemberEntry.path (e : MemberEntry) : String := e.container ++ "." ++ e.name

theorem Manifest.memberKey_of_method {e : MemberEntry} (h : e.kind = .method) :
    memberKey e = "M:" ++ (e.path ++ ("(" ++ (joined "," e.paramTypes ++ ")"))) := by
  simp only [memberKey, h, MemberEntry.path, String.append_assoc]

theorem Manifest.memberKey_of_property {e : MemberEntry} (h : e.kind = .property) :
    memberKey e = "P:" ++ e.path := by
  simp only [memberKey, h, MemberEntry.path, String.append_assoc]

namespace MemberEntry.IsValid

variable {scope scope' : TypeScope} {e e' : MemberEntry}

theorem parenthesis_notMem_path (h : e.IsValid scope) : '(' ∉ e.path.toList := by
  have hpart : Identifier.isPart '(' = false := by decide +kernel
  intro hmem
  rw [path, String.toList_append, String.toList_append, List.mem_append, List.mem_append] at hmem
  rcases hmem with (hmem | hmem) | hmem
  · rcases eq_or_mem_of_mem_keyParts hmem with heq | heq | ⟨part, hpartMem, hmem⟩
    · cases heq
    · cases heq
    · exact Identifier.notMem_of_isPart_eq_false (h.container part hpartMem) (by decide) hpart hmem
  · cases List.mem_singleton.1 hmem
  · exact Identifier.notMem_of_isPart_eq_false h.name (by decide) hpart hmem

/-- In messages a point stands for every plus sign of the key. -/
theorem display_eq (h : e.IsValid scope) : e.display = .ofList (nameOfKey e.path.toList) := by
  have hname : nameOfKey e.name.toList = e.name.toList :=
    nameOfKey_of_notMem (Identifier.plus_notMem h.name)
  rw [display, path, ← String.toList_inj]
  unfold nameOfKey at hname ⊢
  simp [hname]

theorem paramTypes_of_property (h : e.IsValid scope) (hkind : e.kind = .property) :
    e.paramTypes = [] := by
  rw [MemberEntry.paramTypes, (h.property hkind).params_eq_nil, List.map_nil]

/-- The path of a method ends in front of the first parenthesis of its key. -/
theorem path_eq_of_append (h : e.IsValid scope) (h' : e'.IsValid scope') {s s' : String}
    (heq : e.path ++ ("(" ++ s) = e'.path ++ ("(" ++ s')) : e.path = e'.path := by
  rw [← String.toList_inj] at heq ⊢
  simp only [String.toList_append] at heq
  -- the types of parameters may hold parentheses, so only the first one is a boundary
  have hsegments : segments '(' (e.path.toList ++ '(' :: s.toList) =
      segments '(' (e'.path.toList ++ '(' :: s'.toList) := congrArg _ heq
  rw [segments_append_cons h.parenthesis_notMem_path,
    segments_append_cons h'.parenthesis_notMem_path] at hsegments
  exact (List.cons.inj hsegments).1

/-- The key of a valid member determines its signature. -/
theorem signature_eq (h : e.IsValid scope) (h' : e'.IsValid scope')
    (hkey : Manifest.memberKey e = Manifest.memberKey e') : e.signature = e'.signature := by
  have hsignature (hpath : e.path = e'.path)
      (htypes : joined "," e.paramTypes = joined "," e'.paramTypes) :
      e.signature = e'.signature := by
    rw [signature, signature, h.display_eq, h'.display_eq, hpath, htypes]
  cases hkind : e.kind with
  | method =>
    rw [Manifest.memberKey_of_method hkind] at hkey
    cases hkind' : e'.kind with
    | method =>
      rw [Manifest.memberKey_of_method hkind', String.append_right_inj] at hkey
      have hpath := h.path_eq_of_append h' hkey
      rw [hpath, String.append_right_inj, String.append_right_inj, String.append_left_inj] at hkey
      exact hsignature hpath hkey
    | property =>
      rw [Manifest.memberKey_of_property hkind'] at hkey
      exact absurd hkey
        (append_ne_append_of_length_eq (p := "M:") (q := "P:") (by decide) (by decide) _ _)
  | property =>
    rw [Manifest.memberKey_of_property hkind] at hkey
    cases hkind' : e'.kind with
    | method =>
      rw [Manifest.memberKey_of_method hkind'] at hkey
      exact absurd hkey
        (append_ne_append_of_length_eq (p := "P:") (q := "M:") (by decide) (by decide) _ _)
    | property =>
      rw [Manifest.memberKey_of_property hkind', String.append_right_inj] at hkey
      refine hsignature hkey ?_
      rw [h.paramTypes_of_property hkind, h'.paramTypes_of_property hkind']

end MemberEntry.IsValid
end NativeBindings
