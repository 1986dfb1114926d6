import NativeBindings.Proofs.DeclarationTree.Nodes

/-!
# Repeated insertions

Once a member was inserted, its container is covered and the member is either there or known to be
wrong, unless its container has an obstacle. Further insertions keep it that way. Inserting the
member again then changes nothing in the tree and asks nobody; only an obstacle is reported again.

## Main definitions

- `DeclarationTree.Extends` — what all operations but pruning preserve
- `DeclarationTree.Finished` — there is nothing left to be done for a member

## Main statements

- `DeclarationTree.finished_insert` — an insertion finishes its member
- `DeclarationTree.Finished.mono` — finished members stay finished
- `DeclarationTree.Finished.insert` — a finished member is not inserted again
-/

namespace NativeBindings.DeclarationTree

variable {α σ : Type}

/-! ## Extensions -/

/-- A tree has grown by nodes for types among `ts`, by members and by refusals. -/
structure Extends (ts : List EnclosingType) (t t' : DeclarationTree α) : Prop where
  pass_eq : t'.pass = t.pass
  mem_declarations : ∀ u ∈ t'.declarations,
    u ∈ t.declarations ∨ u.isExtensible = true ∧ u ∈ ts
  covers : ∀ c : Container, c.types ⊆ ts → t.Covers c → t'.Covers c
  holdsAt : ∀ c member, t.HoldsAt c member → t'.HoldsAt c member
  isKnown : ∀ member, t.isKnown member = true → t'.isKnown member = true
  refused_subset : t.refused ⊆ t'.refused

namespace Extends

variable {ts : List EnclosingType} {t t' t'' : DeclarationTree α}

theorem refl (ts : List EnclosingType) (t : DeclarationTree α) : Extends ts t t where
  pass_eq := rfl
  mem_declarations := fun _ hu => .inl hu
  covers := fun _ _ h => h
  holdsAt := fun _ _ h => h
  isKnown := fun _ h => h
  refused_subset := List.Subset.refl _

theorem trans (h : Extends ts t t') (h' : Extends ts t' t'') : Extends ts t t'' where
  pass_eq := h'.pass_eq.trans h.pass_eq
  mem_declarations := by
    intro u hu
    rcases h'.mem_declarations u hu with hu | hnew
    · exact h.mem_declarations u hu
    · exact .inr hnew
  covers := fun c hc hcovers => h'.covers c hc (h.covers c hc hcovers)
  holdsAt := fun c member hholds => h'.holdsAt c member (h.holdsAt c member hholds)
  isKnown := fun member hknown => h'.isKnown member (h.isKnown member hknown)
  refused_subset := List.Subset.trans h.refused_subset h'.refused_subset

theorem ensure (hagree : AgreeOnExtension ts ts) {c : Container} (hc : c.types ⊆ ts) :
    Extends ts t (t.ensure c) where
  pass_eq := pass_ensure t c
  mem_declarations := by
    intro u hu
    rcases mem_declarations_ensure hu with hold | ⟨hmem, hext⟩
    · exact .inl hold
    · exact .inr ⟨hext, hc hmem⟩
  covers := by
    intro d hd hcovers
    exact hcovers.ensure fun u hu v hv => hagree u (hd hu) v (hc hv)
  holdsAt := fun d member hholds => hholds.ensure c
  isKnown := by
    intro member hknown
    rw [isKnown_iff] at hknown ⊢
    rwa [refused_ensure, entries_ensure]
  refused_subset := by rw [refused_ensure]; exact List.Subset.refl _

theorem place {c : Container} {ms : List (Symbol × α)} (hms : t.membersAt? c = some ms)
    (member : Symbol) (value : α) : Extends ts t (t.place c member value) where
  pass_eq := pass_place t c member value
  mem_declarations := fun _ hu => .inl (mem_declarations_place hu)
  covers := fun d _ hcovers => hcovers.place hms member value
  holdsAt := fun d other hholds => hholds.place hms member value
  isKnown := by
    intro other hknown
    rw [isKnown_iff] at hknown ⊢
    rw [refused_place, ((entries_place_perm hms member value).map _).mem_iff, List.map_append,
      List.mem_append]
    exact hknown.imp_right .inl
  refused_subset := by rw [refused_place]; exact List.Subset.refl _

theorem refuse (t : DeclarationTree α) (member : Symbol) : Extends ts t (t.refuse member) where
  pass_eq := pass_refuse t member
  mem_declarations := by
    intro u hu
    rw [declarations_refuse] at hu
    exact .inl hu
  covers := fun c _ hcovers => hcovers.refuse member
  holdsAt := fun c other hholds => hholds.refuse member
  isKnown := by
    intro other hknown
    rw [isKnown_iff] at hknown ⊢
    rw [mem_refused_refuse, entries_refuse]
    exact hknown.imp_left .inl
  refused_subset := fun _ hmem => mem_refused_refuse.2 (.inl hmem)

end Extends

variable {ts : List EnclosingType} {t : DeclarationTree α} {c : Container} {member : Symbol}
  {report : Diagnostic → σ → σ} {accept : σ → Option α × σ} {s : σ}

/-- Whatever an insertion does, it extends the tree. -/
theorem extends_insert (hagree : AgreeOnExtension ts ts) (hc : c.types ⊆ ts) :
    Extends ts t (t.insert c member report accept s).2.1 := by
  have hensure : Extends ts t (t.ensure c) := .ensure hagree hc
  have hins := t.insert_inserts c member report accept s
  generalize t.insert c member report accept s = r at hins ⊢
  cases hins with
  | blocked o h => exact hensure
  | untyped h => exact hensure
  | present h => exact hensure
  | refused habsent h => exact hensure
  | accepted value s' hopen hne habsent hnew h =>
    exact hensure.trans (.place (membersAt?_ensure_self hne hopen) member value)
  | declined s' hopen hne habsent hnew h => exact hensure.trans (.refuse _ member)

/-- A tree that has grown from nothing finds the obstacles of containers by themselves. -/
theorem Extends.obstacle?_eq {pass : Pass} (h : Extends ts (.empty pass) t)
    (hagree : AgreeOnExtension ts ts) (hc : c.types ⊆ ts) : t.obstacle? c = c.obstacle? := by
  refine DeclarationTree.obstacle?_eq fun u hu v hv hid => ?_
  rcases h.mem_declarations u hu with hnone | ⟨hext, hmem⟩
  · cases hnone
  · rw [← hagree u hmem v (hc hv) hid]
    exact hext

/-! ## Finished members -/

/-- There is nothing left to be done for a member: its container is covered, and an obstacle has
been reported or the member has been decided. -/
structure Finished (t : DeclarationTree α) (diagnostics : List Diagnostic) (c : Container)
    (member : Symbol) : Prop where
  covers : t.Covers c
  reported : ∀ o, c.obstacle? = some o → obstacleDiagnostic t.pass c o ∈ diagnostics
  decided : c.obstacle? = none → c.types ≠ [] → t.HoldsAt c member ∨ member ∈ t.refused

theorem Finished.mono {t' : DeclarationTree α} {diagnostics diagnostics' : List Diagnostic}
    (h : t.Finished diagnostics c member) (ht : Extends ts t t') (hc : c.types ⊆ ts)
    (hdiagnostics : diagnostics ⊆ diagnostics') : t'.Finished diagnostics' c member where
  covers := ht.covers c hc h.covers
  reported := by
    intro o ho
    rw [ht.pass_eq]
    exact hdiagnostics (h.reported o ho)
  decided := by
    intro hopen hne
    exact (h.decided hopen hne).imp (ht.holdsAt c member) fun hmem => ht.refused_subset hmem

theorem insert_of_obstacle {o : Obstacle} (h : t.obstacle? c = some o) :
    t.insert c member report accept s =
      (.rejected, t.ensure c, report (obstacleDiagnostic t.pass c o) s) := by
  simp only [insert, h]

/-- An insertion finishes its member. -/
theorem finished_insert (hobstacle : t.obstacle? c = c.obstacle?)
    (diagnostics : σ → List Diagnostic)
    (hreport : ∀ d s, diagnostics (report d s) = diagnostics s ++ [d]) :
    (t.insert c member report accept s).2.1.Finished
      (diagnostics (t.insert c member report accept s).2.2) c member := by
  have hcovers : (t.ensure c).Covers c := covers_ensure_self t c
  cases hopen : c.obstacle? with
  | some o =>
    rw [hopen] at hobstacle
    rw [insert_of_obstacle hobstacle]
    refine ⟨hcovers, ?_, ?_⟩
    · intro o' ho'
      rw [hopen] at ho'
      cases ho'
      rw [hreport, pass_ensure]
      exact List.mem_append_right _ (List.mem_singleton_self _)
    · intro hnone
      rw [hopen] at hnone
      cases hnone
  | none =>
    -- without an obstacle there is nothing to report, whatever the tree
    have hreported : ∀ (t' : DeclarationTree α) (ds : List Diagnostic) o, c.obstacle? = some o →
        obstacleDiagnostic t'.pass c o ∈ ds := by
      intro t' ds o ho
      rw [hopen] at ho
      cases ho
    have hins := t.insert_inserts c member report accept s
    generalize t.insert c member report accept s = r at hins ⊢
    cases hins with
    | blocked o h =>
      rw [hobstacle, hopen] at h
      cases h
    | untyped h => exact ⟨hcovers, hreported _ _, fun _ hne => absurd h hne⟩
    | present h => exact ⟨hcovers, hreported _ _, fun _ _ => .inl (h.ensure c)⟩
    | refused habsent h =>
      refine ⟨hcovers, hreported _ _, fun _ _ => .inr ?_⟩
      rwa [refused_ensure]
    | accepted value s' hopen' hne habsent hnew h =>
      have hms := membersAt?_ensure_self hne hopen'
      exact ⟨hcovers.place hms member value, hreported _ _,
        fun _ _ => .inl (holdsAt_place hms member value)⟩
    | declined s' hopen' hne habsent hnew h =>
      exact ⟨hcovers.refuse member, hreported _ _,
        fun _ _ => .inr (mem_refused_refuse.2 (.inr rfl))⟩

/-- The insertion of a finished member changes nothing, and only an obstacle is reported. -/
theorem Finished.insert {diagnostics : List Diagnostic} (h : t.Finished diagnostics c member)
    (hobstacle : t.obstacle? c = c.obstacle?) (report : Diagnostic → σ → σ)
    (accept : σ → Option α × σ) (s : σ) :
    ∃ outcome, t.insert c member report accept s =
      (outcome, t, c.obstacle?.elim s fun o => report (obstacleDiagnostic t.pass c o) s) := by
  have hensure : t.ensure c = t := ensure_of_covers h.covers
  cases hopen : c.obstacle? with
  | some o =>
    rw [hopen] at hobstacle
    rw [insert_of_obstacle hobstacle, hensure]
    exact ⟨_, rfl⟩
  | none =>
    have hins := t.insert_inserts c member report accept s
    generalize t.insert c member report accept s = r at hins ⊢
    cases hins with
    | blocked o ho =>
      rw [hobstacle, hopen] at ho
      cases ho
    | untyped _ => exact ⟨_, by rw [hensure]; rfl⟩
    | present _ => exact ⟨_, by rw [hensure]; rfl⟩
    | refused _ _ => exact ⟨_, by rw [hensure]; rfl⟩
    -- the callback is asked about undecided members only
    | accepted value s' hopen' hne habsent hnew _ =>
      exact absurd (h.decided hopen hne) (not_or.2 ⟨habsent, hnew⟩)
    | declined s' hopen' hne habsent hnew _ =>
      exact absurd (h.decided hopen hne) (not_or.2 ⟨habsent, hnew⟩)

end NativeBindings.DeclarationTree
