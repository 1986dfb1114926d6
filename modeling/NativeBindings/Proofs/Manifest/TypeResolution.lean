import NativeBindings.Proofs.Manifest.MemberKey
import NativeBindings.Proofs.Manifest.TypeSpelling

/-!
# Resolution of types

Where all names are names of the language, no text that writes a type can be taken for anything
else: each form can be told from its last character, and a text that writes a type stands for one
with the same name.

## Main definitions

- `TypeScope.IsValid` — a scope in which all names are names of the language
- `TypeScope.IsUnmarked` — a text without white space and the ends of the other forms

## Main statements

- `TypeScope.Writes.resolve?_eq_some` — a text that writes a type stands for it
-/

namespace NativeBindings
namespace TypeScope

open WrittenType

variable {scope : TypeScope} {text inner : List Char}

/-! ## Texts of types -/

/-- The names in the scope are names of the language. -/
structure IsValid (scope : TypeScope) : Prop where
  typeParams : ∀ p ∈ scope.typeParams, Identifier.isValid p.name.toList = true
  keys : ∀ t ∈ scope.types, ∀ part ∈ keyParts t.1.toList, Identifier.isValid part = true

/-- There is something, without white space and the ends of the other forms. -/
structure IsUnmarked (s : List Char) : Prop where
  ne_nil : s ≠ []
  not_isBlank : ∀ c ∈ s, isBlank c = false
  notMem : ∀ c ∈ ['?', '*', '>'], c ∉ s

/-- The characters in keys and names. -/
def IsKeyCharacter (c : Char) : Prop := c ∈ ['@', '.', '+'] ∨ Identifier.isPart c = true

theorem notMem_of_isKeyCharacter {s : List Char} {c : Char} (h : ∀ c ∈ s, IsKeyCharacter c)
    (hc : c ∉ ['@', '.', '+']) (hpart : Identifier.isPart c = false) : c ∉ s := by
  intro hmem
  rcases h c hmem with hsign | hletter
  · exact hc hsign
  · rw [hpart] at hletter
    cases hletter

theorem isBlank_eq_false_of_isKeyCharacter {c : Char} (h : IsKeyCharacter c) :
    isBlank c = false := by
  rcases h with hsign | hletter
  · simp only [List.mem_cons, List.not_mem_nil, or_false] at hsign
    rcases hsign with rfl | rfl | rfl <;> rfl
  · by_contra hblank
    rw [isPart_eq_false_of_isBlank (Bool.not_eq_false _ ▸ hblank)] at hletter
    cases hletter

theorem not_isKeyCharacter_of_mark {c : Char} (h : c ∈ ['?', '*', '>']) : ¬ IsKeyCharacter c := by
  unfold IsKeyCharacter
  simp only [List.mem_cons, List.not_mem_nil, or_false] at h
  rcases h with rfl | rfl | rfl <;> decide +kernel

theorem isUnmarked_of_isKeyCharacter {s : List Char} (hne : s ≠ [])
    (h : ∀ c ∈ s, IsKeyCharacter c) : IsUnmarked s where
  ne_nil := hne
  not_isBlank := fun c hc => isBlank_eq_false_of_isKeyCharacter (h c hc)
  notMem := fun _ hc hmem => not_isKeyCharacter_of_mark hc (h _ hmem)

theorem isKeyCharacter_of_isValid {name : List Char} (h : Identifier.isValid name = true) :
    ∀ c ∈ name, IsKeyCharacter c := by
  intro c hc
  rcases Identifier.eq_or_isPart h hc with rfl | hpart
  · exact .inl (by decide)
  · exact .inr hpart

/-- The characters of a key whose parts are names. -/
theorem isKeyCharacter_of_keyParts {key : List Char}
    (h : ∀ part ∈ keyParts key, Identifier.isValid part = true) : ∀ c ∈ key, IsKeyCharacter c := by
  intro c hc
  rcases eq_or_mem_of_mem_keyParts hc with rfl | rfl | ⟨part, hpart, hc⟩
  · exact .inl (by decide)
  · exact .inl (by decide)
  · exact isKeyCharacter_of_isValid (h part hpart) c hc

theorem ne_nil_of_isValid {name : List Char} (h : Identifier.isValid name = true) : name ≠ [] := by
  rintro rfl
  cases h

theorem IsValid.isKeyCharacter (hscope : scope.IsValid) {key : String}
    (h : key ∈ scope.types.map (·.1)) : key.toList ≠ [] ∧ ∀ c ∈ key.toList, IsKeyCharacter c := by
  obtain ⟨t, ht, rfl⟩ := List.mem_map.1 h
  have hparts := hscope.keys t ht
  refine ⟨fun hnil => ?_, isKeyCharacter_of_keyParts hparts⟩
  rw [hnil] at hparts
  exact ne_nil_of_isValid (hparts [] (by decide)) rfl

/-! ## Resolution of the forms -/

theorem dropEnd?_eq_none {c : Char} {s : List Char} (h : ∀ d ∈ s.getLast?, d ≠ c) :
    dropEnd? [c] s = none := by
  cases hdrop : dropEnd? [c] s with
  | none => rfl
  | some inner =>
    rw [append_of_dropEnd? hdrop] at h
    exact absurd rfl (h c List.getLast?_concat)

/-- The forms are looked for one after the other. -/
theorem resolve?_eq (hne : trimBlank text ≠ []) :
    scope.resolve? text =
      (dropEnd? ['?'] (trimBlank text)).elim
        ((dropEnd? ['*'] (trimBlank text)).elim
          ((spanElement? (trimBlank text)).elim (scope.base? (trimBlank text))
            fun inner => (scope.resolve? inner).map spanOf)
          fun inner => (scope.resolve? inner).map (·.pointer))
        fun inner => (scope.resolve? inner).map (·.asNullable) := by
  rw [TypeScope.resolve?, if_neg (by rwa [List.isEmpty_iff])]
  split
  next inner hinner => simp only [hinner, Option.elim_some]
  next hnullable =>
    rw [hnullable, Option.elim_none]
    split
    next inner hinner => simp only [hinner, Option.elim_some]
    next hpointer =>
      rw [hpointer, Option.elim_none]
      split
      next inner hinner => simp only [hinner, Option.elim_some]
      next hspan => rw [hspan, Option.elim_none, base?]

theorem resolve?_of_nullable (h : trimBlank text = inner ++ ['?']) :
    scope.resolve? text = (scope.resolve? inner).map (·.asNullable) := by
  rw [resolve?_eq (by simp [h]), h, dropEnd?_append, Option.elim_some]

theorem resolve?_of_pointer (h : trimBlank text = inner ++ ['*']) :
    scope.resolve? text = (scope.resolve? inner).map (·.pointer) := by
  have hnullable : dropEnd? ['?'] (inner ++ ['*']) = none := dropEnd?_eq_none (by simp)
  rw [resolve?_eq (by simp [h]), h, hnullable, Option.elim_none, dropEnd?_append, Option.elim_some]

theorem spanElement?_append {start : String} (hstart : start ∈ spanStarts) (s : List Char) :
    spanElement? (start.toList ++ s ++ ['>']) = some s := by
  unfold spanElement?
  rw [dropEnd?_append]
  -- no start of a span is the beginning of another one
  simp only [spanStarts, List.mem_cons, List.not_mem_nil, or_false] at hstart
  rcases hstart with rfl | rfl | rfl <;> rfl

theorem resolve?_of_span {start : String} (hstart : start ∈ spanStarts)
    (h : trimBlank text = start.toList ++ inner ++ ['>']) :
    scope.resolve? text = (scope.resolve? inner).map spanOf := by
  have hnullable : dropEnd? ['?'] (start.toList ++ inner ++ ['>']) = none :=
    dropEnd?_eq_none (by simp)
  have hpointer : dropEnd? ['*'] (start.toList ++ inner ++ ['>']) = none :=
    dropEnd?_eq_none (by simp)
  rw [resolve?_eq (by simp [h]), h, hnullable, Option.elim_none, hpointer, Option.elim_none,
    spanElement?_append hstart, Option.elim_some]

theorem resolve?_of_isUnmarked {s : List Char} (hs : IsUnmarked s) (h : trimBlank text = s) :
    scope.resolve? text = scope.base? s := by
  have hlast (c : Char) (hc : c ∈ ['?', '*', '>']) : dropEnd? [c] s = none := by
    refine dropEnd?_eq_none fun d hd hdc => hs.notMem c hc ?_
    exact hdc ▸ List.mem_of_mem_getLast? hd
  have hspan : spanElement? s = none := by
    rw [spanElement?, hlast '>' (by decide)]
    rfl
  rw [resolve?_eq (h ▸ hs.ne_nil), h, hlast '?' (by decide), Option.elim_none,
    hlast '*' (by decide), Option.elim_none, hspan, Option.elim_none]

theorem isKeyCharacter_of_mem_builtins {name : String} (h : name ∈ builtins) :
    name.toList ≠ [] ∧ ∀ c ∈ name.toList, IsKeyCharacter c := by
  have hall : ∀ name ∈ builtins, name.toList ≠ [] ∧ name.toList.all Identifier.isPart = true := by
    decide +kernel
  exact ⟨(hall name h).1, fun c hc => .inr (List.all_eq_true.1 (hall name h).2 c hc)⟩

theorem of_mem_qualifier {c : Char} (h : c ∈ "global::".toList) :
    isBlank c = false ∧ c ∉ ['?', '*', '>'] := by
  have hall : ("global::".toList.all fun c =>
      decide (isBlank c = false ∧ c ∉ ['?', '*', '>'])) = true := by decide
  exact of_decide_eq_true (List.all_eq_true.1 hall c h)

theorem IsUnmarked.qualified {s : List Char} (h : IsUnmarked s) :
    IsUnmarked ("global::".toList ++ s) where
  ne_nil := List.append_ne_nil_of_right_ne_nil _ h.ne_nil
  not_isBlank := List.forall_mem_append.2 ⟨fun _ hc => (of_mem_qualifier hc).1, h.not_isBlank⟩
  notMem := by
    intro c hc
    rw [List.mem_append, not_or]
    exact ⟨fun hmem => (of_mem_qualifier hmem).2 hc, h.notMem c hc⟩

theorem IsUnmarked.trimBlank_eq {s : List Char} (h : IsUnmarked s) : trimBlank s = s :=
  trimBlank_eq_self (fun c hc => h.not_isBlank c (List.mem_of_mem_head? hc))
    fun c hc => h.not_isBlank c (List.mem_of_mem_getLast? hc)

theorem exists_base?_of_builtin {name : String} (h : name ∈ builtins) :
    ∃ use, scope.base? name.toList = some use ∧ (WrittenType.named name).Describes use := by
  obtain ⟨use, huse, hdescribes⟩ := exists_builtin? h
  refine ⟨use, ?_, hdescribes⟩
  rw [base?, String.ofList_toList, huse]
  rfl

theorem exists_base?_of_typeParam {p : TypeParam} (h : p ∈ scope.typeParams) :
    ∃ use, scope.base? p.name.toList = some use ∧ (WrittenType.named p.name).Describes use := by
  by_cases hbuiltin : p.name ∈ builtins
  · exact exists_base?_of_builtin hbuiltin
  · obtain ⟨use, huse, hdescribes⟩ := exists_typeParam? (List.mem_map_of_mem h)
    refine ⟨use, ?_, hdescribes⟩
    rw [base?, String.ofList_toList, builtin?_eq_none hbuiltin, huse]
    rfl

theorem exists_base?_of_declared {key : String} (hkey : withoutQualifier text = key.toList)
    (h : key ∈ scope.types.map (·.1)) (hbuiltin : String.ofList text ∉ builtins)
    (hparam : String.ofList text ∉ scope.typeParams.map (·.name)) :
    ∃ use, scope.base? text = some use ∧ (WrittenType.declared key).Describes use := by
  have hget : (scope.types.get? (.ofList (withoutQualifier text))).isSome := by
    rw [get?_isSome_iff, hkey, String.ofList_toList]
    exact h
  obtain ⟨use, huse, hdescribes⟩ := exists_declared? hget
  rw [hkey, String.ofList_toList] at hdescribes
  refine ⟨use, ?_, hdescribes⟩
  rw [base?, builtin?_eq_none hbuiltin, typeParam?_eq_none hparam]
  exact huse

/-- A text with a qualifier is no name. -/
theorem ofList_qualified_notMem {names : List String}
    (h : ∀ name ∈ names, ∀ c ∈ name.toList, IsKeyCharacter c) (key : List Char) :
    String.ofList ("global::".toList ++ key) ∉ names := by
  intro hmem
  have hcolon : ':' ∈ (String.ofList ("global::".toList ++ key)).toList := by
    rw [String.toList_ofList]
    exact List.mem_append_left _ (by decide)
  exact notMem_of_isKeyCharacter (h _ hmem) (by decide) (by decide +kernel) hcolon

theorem withoutQualifier_eq_self {s : List Char} (h : ':' ∉ s) : withoutQualifier s = s := by
  unfold withoutQualifier
  cases hdrop : dropStart? "global::".toList s with
  | none => rfl
  | some rest =>
    rw [append_of_dropStart? hdrop] at h
    exact absurd (List.mem_append_left rest (by decide)) h

theorem IsValid.exists_base?_of_key (hscope : scope.IsValid) {key : String}
    (hkey : key ∈ scope.types.map (·.1)) (hbuiltin : key ∉ builtins)
    (hparam : key ∉ scope.typeParams.map (·.name)) :
    ∃ use, scope.base? key.toList = some use ∧ (WrittenType.declared key).Describes use := by
  have hcolon := notMem_of_isKeyCharacter (hscope.isKeyCharacter hkey).2 (c := ':') (by decide)
    (by decide +kernel)
  refine exists_base?_of_declared (withoutQualifier_eq_self hcolon) hkey ?_ ?_
  · rwa [String.ofList_toList]
  · rwa [String.ofList_toList]

theorem IsValid.exists_base?_of_qualified (hscope : scope.IsValid) {key : String}
    (hkey : key ∈ scope.types.map (·.1)) :
    ∃ use, scope.base? ("global::".toList ++ key.toList) = some use ∧
      (WrittenType.declared key).Describes use := by
  have hqualifier : withoutQualifier ("global::".toList ++ key.toList) = key.toList := by
    rw [withoutQualifier, dropStart?_append]
    rfl
  refine exists_base?_of_declared hqualifier hkey (ofList_qualified_notMem ?_ _)
    (ofList_qualified_notMem ?_ _)
  · exact fun name hname => (isKeyCharacter_of_mem_builtins hname).2
  · intro name hname
    obtain ⟨p, hp, rfl⟩ := List.mem_map.1 hname
    exact isKeyCharacter_of_isValid (hscope.typeParams p hp)

/-- An unmarked text stands for what it names, whatever white space is around it. -/
theorem IsUnmarked.exists_resolve? {s text : List Char} {t : WrittenType} (hs : IsUnmarked s)
    (htext : trimBlank text = trimBlank s)
    (h : ∃ use, scope.base? s = some use ∧ t.Describes use) :
    ∃ use, scope.resolve? text = some use ∧ t.Describes use := by
  rwa [resolve?_of_isUnmarked hs (htext.trans hs.trimBlank_eq)]

theorem trimBlank_span {start : String} (hstart : start ∈ spanStarts) (s : List Char) :
    trimBlank (start.toList ++ s ++ ['>']) = start.toList ++ s ++ ['>'] := by
  refine trimBlank_eq_self (fun c hc => ?_) fun c hc => ?_
  · simp only [spanStarts, List.mem_cons, List.not_mem_nil, or_false] at hstart
    rcases hstart with rfl | rfl | rfl <;> cases hc <;> decide
  · rw [List.getLast?_concat] at hc
    cases hc
    decide

/-- A text that writes a type stands for it, and so does any text with the same inside. -/
theorem Writes.resolve?_eq_some {t : WrittenType} (hscope : scope.IsValid) {s : List Char}
    (h : scope.Writes s t) :
    ∀ text, trimBlank text = trimBlank s →
      ∃ use, scope.resolve? text = some use ∧ t.Describes use := by
  induction h with
  | builtin hname =>
    intro text htext
    obtain ⟨hne, hcharacters⟩ := isKeyCharacter_of_mem_builtins hname
    exact (isUnmarked_of_isKeyCharacter hne hcharacters).exists_resolve? htext
      (exists_base?_of_builtin hname)
  | typeParam hp =>
    intro text htext
    have hvalid := hscope.typeParams _ hp
    exact (isUnmarked_of_isKeyCharacter (ne_nil_of_isValid hvalid)
      (isKeyCharacter_of_isValid hvalid)).exists_resolve? htext (exists_base?_of_typeParam hp)
  | declared hkey hbuiltin hparam =>
    intro text htext
    obtain ⟨hne, hcharacters⟩ := hscope.isKeyCharacter hkey
    exact (isUnmarked_of_isKeyCharacter hne hcharacters).exists_resolve? htext
      (hscope.exists_base?_of_key hkey hbuiltin hparam)
  | qualified hkey =>
    intro text htext
    obtain ⟨hne, hcharacters⟩ := hscope.isKeyCharacter hkey
    exact (isUnmarked_of_isKeyCharacter hne hcharacters).qualified.exists_resolve? htext
      (hscope.exists_base?_of_qualified hkey)
  | @nullable s t _ ih =>
    intro text htext
    rw [trimBlank_concat (by decide)] at htext
    obtain ⟨use, huse, hdescribes⟩ := ih _ (trimBlank_dropWhile s)
    rw [resolve?_of_nullable htext, huse]
    exact ⟨_, rfl, hdescribes.asNullable⟩
  | @pointer s t _ ih =>
    intro text htext
    rw [trimBlank_concat (by decide)] at htext
    obtain ⟨use, huse, hdescribes⟩ := ih _ (trimBlank_dropWhile s)
    rw [resolve?_of_pointer htext, huse]
    exact ⟨_, rfl, hdescribes.pointer⟩
  | @span start s t hstart _ ih =>
    intro text htext
    obtain ⟨use, huse, hdescribes⟩ := ih s rfl
    rw [resolve?_of_span hstart (htext.trans (trimBlank_span hstart s)), huse]
    exact ⟨_, rfl, hdescribes.span⟩
  | blank hbefore hafter _ ih =>
    intro text htext
    rw [trimBlank_append_append hbefore hafter] at htext
    exact ih text htext

end TypeScope
end NativeBindings
