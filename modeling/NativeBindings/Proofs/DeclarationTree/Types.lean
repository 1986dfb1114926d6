import Mathlib.Data.List.Basic
import NativeBindings.DeclarationTree

/-!
# Forests of types

What growing, filling and pruning a forest of types does to its entries and to the members at the end
of a path. A path is known by the identities of its types alone: two declarations of one type lead
to the same node.

## Main statements

- `TypeForest.membersAt?_ensure_self` — a path without an obstacle has a node after it was ensured
- `TypeForest.exists_entries_of_membersAt?` — a placed member is one more entry behind those of its type
- `TypeForest.membersAt?_place` — a placed member shows at its own path and nowhere else
- `TypeForest.entries_prune`, `TypeForest.membersAt?_prune` — pruning loses no member
-/

namespace NativeBindings.TypeForest

variable {α : Type}

theorem isNone_iff {f : TypeForest α} : f.isNone = true ↔ f = none := by
  cases f <;> simp [isNone]

/-! ## Growing -/

@[simp] theorem entries_grow (next : Nat) (ts : List EnclosingType) :
    (grow next ts : TypeForest α × Nat).1.entries = [] := by
  induction ts generalizing next with
  | nil => rfl
  | cons t ts ih =>
    simp only [grow]
    split
    · simp [entries, ih]
    · rfl

/-- New nodes hold no members. -/
@[simp] theorem entries_ensure (next : Nat) (ts : List EnclosingType) (f : TypeForest α) :
    (f.ensure next ts).1.entries = f.entries := by
  induction f generalizing next ts with
  | none => cases ts <;> simp [ensure, entries]
  | node number type members nested siblings ihNested ihSiblings =>
    cases ts with
    | nil => rfl
    | cons t ts =>
      simp only [ensure]
      split
      · simp [entries, ihNested]
      · simp [entries, ihSiblings]

/-! ## Members at the end of a path -/

@[simp] theorem membersAt?_nil (f : TypeForest α) : f.membersAt? [] = Option.none := by
  cases f <;> rfl

@[simp] theorem membersAt?_none (ts : List EnclosingType) :
    (none : TypeForest α).membersAt? ts = Option.none := by
  cases ts <;> rfl

/-- Only the identities of a path count. -/
theorem membersAt?_congr {ts us : List EnclosingType} (f : TypeForest α)
    (h : ts.map (·.id) = us.map (·.id)) : f.membersAt? ts = f.membersAt? us := by
  induction f generalizing ts us with
  | none => simp
  | node number type members nested siblings ihNested ihSiblings =>
    cases ts with
    | nil =>
      have hus : us = [] := by simpa using h.symm
      rw [hus]
    | cons t ts =>
      cases us with
      | nil => simp at h
      | cons u us =>
        obtain ⟨hid, hrest⟩ : t.id = u.id ∧ ts.map (·.id) = us.map (·.id) := by simpa using h
        have hempty : ts.isEmpty = us.isEmpty := by
          simpa using congrArg List.isEmpty hrest
        simp only [membersAt?, hid, hempty, ihNested hrest, ihSiblings h]

/-- The members of a node stand together among the entries. -/
theorem exists_entries_of_membersAt? {ts : List EnclosingType} {f : TypeForest α}
    {ms : List (Symbol × α)} (h : f.membersAt? ts = some ms) :
    ∃ before after, f.entries = before ++ ms ++ after ∧
      ∀ member value, (f.place member value ts).entries =
        before ++ (ms ++ [(member, value)]) ++ after := by
  induction f generalizing ts with
  | none => simp at h
  | node number type members nested siblings ihNested ihSiblings =>
    cases ts with
    | nil => simp at h
    | cons t ts =>
      by_cases hid : type.id = t.id
      · by_cases hts : ts.isEmpty
        · have hms : members = ms := by simpa [membersAt?, hid, hts] using h
          subst hms
          exact ⟨[], nested.entries ++ siblings.entries, by simp [entries], fun member value => by
            simp [place, hid, hts, entries]⟩
        · simp only [membersAt?, hid, if_true, hts] at h
          obtain ⟨before, after, hentries, hplace⟩ := ihNested h
          refine ⟨members ++ before, after ++ siblings.entries, ?_, fun member value => ?_⟩
          · simp [entries, hentries]
          · simp [place, hid, hts, entries, hplace]
      · simp only [membersAt?, hid, if_false] at h
        obtain ⟨before, after, hentries, hplace⟩ := ihSiblings h
        refine ⟨members ++ nested.entries ++ before, after, ?_, fun member value => ?_⟩
        · simp [entries, hentries]
        · simp [place, hid, entries, hplace]

/-! ## Obstacles -/

/-- A path with a node has no obstacle, whatever its types declare. -/
theorem obstacle?_eq_none_of_membersAt? {depth : Nat} {ts : List EnclosingType} {f : TypeForest α}
    {ms : List (Symbol × α)} (h : f.membersAt? ts = some ms) : f.obstacle? depth ts = Option.none := by
  induction f generalizing depth ts with
  | none => simp at h
  | node number type members nested siblings ihNested ihSiblings =>
    cases ts with
    | nil => simp at h
    | cons t ts =>
      simp only [membersAt?, obstacle?] at h ⊢
      split
      · rename_i hid
        by_cases hts : ts.isEmpty
        · rw [List.isEmpty_iff.1 hts]
          cases nested <;> rfl
        · simp only [hid, if_true, hts] at h
          exact ihNested h
      · rename_i hid
        simp only [hid, if_false] at h
        exact ihSiblings h

/-- An obstacle is a type of the path that cannot be extended. -/
theorem obstacle?_eq_some {depth : Nat} {ts : List EnclosingType} {f : TypeForest α} {o : Obstacle}
    (h : f.obstacle? depth ts = some o) :
    depth ≤ o.depth ∧ ts[o.depth - depth]? = some o.type ∧ o.type.isExtensible = false := by
  induction f generalizing depth ts with
  | none =>
    cases ts with
    | nil => simp [obstacle?] at h
    | cons t ts =>
      simp only [obstacle?] at h
      obtain ⟨⟨type, i⟩, hmem, hsome⟩ := List.exists_of_findSome?_eq_some h
      obtain ⟨hle, -, hget⟩ := List.mem_zipIdx hmem
      split at hsome
      · simp at hsome
      · rename_i hext
        cases hsome
        exact ⟨hle, by simp [hget], by simpa using hext⟩
  | node number type members nested siblings ihNested ihSiblings =>
    cases ts with
    | nil => simp [obstacle?] at h
    | cons t ts =>
      simp only [obstacle?] at h
      split at h
      · obtain ⟨hle, hget, hext⟩ := ihNested h
        refine ⟨by omega, ?_, hext⟩
        -- below this type the depth is one larger and the path one shorter
        obtain ⟨i, hi⟩ : ∃ i, o.depth - depth = i + 1 := ⟨o.depth - (depth + 1), by omega⟩
        rw [hi, List.getElem?_cons_succ]
        rwa [show o.depth - (depth + 1) = i by omega] at hget
      · exact ihSiblings h

/-! ## Ensured paths -/

theorem membersAt?_grow {ts : List EnclosingType} (next : Nat) (hne : ts ≠ [])
    (hext : ∀ t ∈ ts, t.isExtensible = true) :
    (grow next ts : TypeForest α × Nat).1.membersAt? ts = some [] := by
  induction ts generalizing next with
  | nil => exact absurd rfl hne
  | cons t ts ih =>
    simp only [grow, hext t List.mem_cons_self, if_true, membersAt?]
    by_cases hts : ts.isEmpty
    · simp [hts]
    · have hts' : ts ≠ [] := by simpa using hts
      simpa [hts'] using ih (next + 1) hts' fun u hu => hext u (List.mem_cons_of_mem _ hu)

/-- After a path without an obstacle was ensured it has a node, with the members it had before. -/
theorem membersAt?_ensure_self {depth : Nat} {ts : List EnclosingType} {f : TypeForest α}
    (next : Nat) (hne : ts ≠ []) (h : f.obstacle? depth ts = Option.none) :
    (f.ensure next ts).1.membersAt? ts = some ((f.membersAt? ts).getD []) := by
  induction f generalizing depth next ts with
  | none =>
    obtain ⟨t, us, rfl⟩ := List.exists_cons_of_ne_nil hne
    simp only [obstacle?, List.findSome?_eq_none_iff] at h
    -- no part of the path is there, so all of it has to be extensible
    have hext : ∀ u ∈ t :: us, u.isExtensible = true := by
      intro u hu
      obtain ⟨i, hget⟩ := List.mem_iff_getElem?.1 hu
      have hu' := h (u, depth + i) (List.mk_add_mem_zipIdx_iff_getElem?.2 hget)
      by_contra hcon
      simp [hcon] at hu'
    simpa [ensure] using membersAt?_grow next hne hext
  | node number type members nested siblings ihNested ihSiblings =>
    obtain ⟨t, us, rfl⟩ := List.exists_cons_of_ne_nil hne
    by_cases hid : type.id = t.id
    · simp only [obstacle?, hid, if_true] at h
      by_cases hus : us.isEmpty
      · simp [ensure, membersAt?, hid, hus]
      · have hus' : us ≠ [] := by simpa using hus
        simpa [ensure, membersAt?, hid, hus'] using ihNested next hus' h
    · simp only [obstacle?, hid, if_false] at h
      simpa [ensure, membersAt?, hid] using ihSiblings next hne h

theorem membersAt?_ensure_of_some {us : List EnclosingType} {f : TypeForest α}
    {ms : List (Symbol × α)} (next : Nat) (ts : List EnclosingType) (h : f.membersAt? us = some ms) :
    (f.ensure next ts).1.membersAt? us = some ms := by
  induction f generalizing next ts us with
  | none => simp at h
  | node number type members nested siblings ihNested ihSiblings =>
    cases ts with
    | nil => exact h
    | cons t ts =>
      cases us with
      | nil => simp at h
      | cons u us =>
        simp only [membersAt?] at h
        simp only [ensure]
        by_cases hu : type.id = u.id
        · simp only [hu, if_true] at h
          split
          · by_cases hus : us.isEmpty
            · simpa [membersAt?, hu, hus] using h
            · simp only [hus] at h
              simpa [membersAt?, hu, hus] using ihNested next ts h
          · simpa [membersAt?, hu] using h
        · simp only [hu, if_false] at h
          split
          · simpa [membersAt?, hu] using h
          · simpa [membersAt?, hu] using ihSiblings next (t :: ts) h

/-! ## Placing -/

/-- A placed member shows at the end of its own path and nowhere else. -/
theorem membersAt?_place (member : Symbol) (value : α) (ts us : List EnclosingType)
    (f : TypeForest α) :
    (f.place member value ts).membersAt? us =
      if ts.map (·.id) = us.map (·.id) then (f.membersAt? us).map (· ++ [(member, value)])
      else f.membersAt? us := by
  induction f generalizing ts us with
  | none => cases ts <;> simp [place]
  | node number type members nested siblings ihNested ihSiblings =>
    cases ts with
    | nil => cases us <;> simp [place]
    | cons t ts =>
      cases us with
      | nil => simp
      | cons u us =>
        -- both paths lead to this type, one of them does, or neither
        by_cases ht : type.id = t.id
        · by_cases hts : ts.isEmpty
          · have hnil := List.isEmpty_iff.1 hts
            subst hnil
            by_cases hu : type.id = u.id
            · by_cases hus : us.isEmpty <;>
                simp_all [place, membersAt?]
            · have htu : t.id ≠ u.id := fun e => hu (ht.trans e)
              simp [place, membersAt?, ht, htu]
          · by_cases hu : type.id = u.id
            · have htu : t.id = u.id := ht.symm.trans hu
              by_cases hus : us.isEmpty
              · have hnil := List.isEmpty_iff.1 hus
                subst hnil
                have hts' : ts ≠ [] := by simpa using hts
                simp [place, membersAt?, ht, hts', htu]
              · simpa [place, membersAt?, ht, hts, htu, hus] using ihNested ts us
            · have htu : t.id ≠ u.id := fun e => hu (ht.trans e)
              simp [place, membersAt?, ht, hts, htu]
        · by_cases hu : type.id = u.id
          · have htu : t.id ≠ u.id := fun e => ht (hu.trans e.symm)
            simp [place, membersAt?, hu, htu, htu.symm]
          · simpa [place, membersAt?, ht, hu] using ihSiblings (t :: ts) (u :: us)

/-! ## Pruning -/

@[simp] theorem entries_prune (f : TypeForest α) : f.prune.entries = f.entries := by
  induction f with
  | none => rfl
  | node number type members nested siblings ihNested ihSiblings =>
    simp only [prune]
    split
    · rename_i h
      obtain ⟨hmembers, hnested⟩ : members = [] ∧ nested.prune = none := by
        simpa [isNone_iff] using h
      have hentries : nested.entries = [] := by rw [← ihNested, hnested]; rfl
      simp [entries, hmembers, hentries, ihSiblings]
    · simp [entries, ihNested, ihSiblings]

/-- Nothing is left of types without members. -/
theorem prune_eq_none_iff {f : TypeForest α} : f.prune = none ↔ f.entries = [] := by
  constructor
  · intro h
    rw [← entries_prune, h]
    rfl
  · intro h
    induction f with
    | none => rfl
    | node number type members nested siblings ihNested ihSiblings =>
      simp only [entries, List.append_eq_nil_iff] at h
      obtain ⟨⟨rfl, hnested⟩, hsiblings⟩ := h
      rw [prune, ihNested hnested, ihSiblings hsiblings]
      rfl

theorem membersAt?_prune {ts : List EnclosingType} {f : TypeForest α} {ms : List (Symbol × α)}
    (h : f.membersAt? ts = some ms) (hne : ms ≠ []) : f.prune.membersAt? ts = some ms := by
  induction f generalizing ts with
  | none => simp at h
  | node number type members nested siblings ihNested ihSiblings =>
    cases ts with
    | nil => simp at h
    | cons t ts =>
      simp only [prune]
      by_cases hid : type.id = t.id
      · by_cases hts : ts.isEmpty
        · have hms : members = ms := by simpa [membersAt?, hid, hts] using h
          subst hms
          simp [hne, membersAt?, hid, hts]
        · simp only [membersAt?, hid, if_true, hts] at h
          have hfound := ihNested h
          -- the type is kept for what is found below it
          have hkept : nested.prune ≠ none := by
            intro hnone
            simp [hnone] at hfound
          simpa [isNone_iff, hkept, membersAt?, hid, hts] using hfound
      · simp only [membersAt?, hid, if_false] at h
        have hfound := ihSiblings h
        split
        · exact hfound
        · simpa [membersAt?, hid] using hfound

end NativeBindings.TypeForest
