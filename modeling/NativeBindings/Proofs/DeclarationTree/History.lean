import Mathlib.Data.List.Count
import Mathlib.Data.List.Nodup
import NativeBindings.Proofs.DeclarationTree.Insertion

/-!
# Histories of a declaration tree

A tree is used through three operations: a member is inserted, marked as wrong, or the tree is
pruned. A history lists what could be seen of a run of such operations: the outcome of every
insertion, and what its callback said if it was asked. As long as a member is always inserted into
the same container, its history is that of one decision: it is inserted or refused once, and every
later insertion repeats that without asking again.

## Main definitions

- `TreeOperation.runAll` — a run of operations, with its history
- `TreeEvent.Lawful` — a history in which every member is decided once
- `DeclarationTree.Reflects` — a tree holds what its history inserted

## Main statements

- `DeclarationTree.reflects_runAll` — runs have lawful histories, which their trees reflect
- `DeclarationTree.decidedOnce_runAll` — what this means for callers
-/

namespace NativeBindings

variable {α σ : Type}

/-- An operation on a declaration tree. -/
inductive TreeOperation (α σ : Type) where
  /-- Inserts a member; the callback works on a state of its own. -/
  | insert (container : Container) (member : Symbol) (accept : σ → Option α × σ)
  /-- Marks a member as wrong. -/
  | refuse (member : Symbol)
  | prune

/-- What can be seen of an operation. -/
inductive TreeEvent (α : Type) where
  /-- A member was to be inserted. There is an answer if the callback was asked. -/
  | insertion (member : Symbol) (outcome : Insertion) (answer : Option (Option α))
  | refusal (member : Symbol)
  | pruning

/-! ## Observed runs -/

/-- An insertion whose callback writes down its answer. -/
def DeclarationTree.observe (t : DeclarationTree α) (c : Container) (member : Symbol)
    (report : Diagnostic → σ → σ) (accept : σ → Option α × σ) (s : σ) :
    TreeEvent α × DeclarationTree α × σ :=
  let (outcome, t', s', answer) := t.insert c member
    (fun d (s, answer) => (report d s, answer))
    (fun (s, _) => ((accept s).1, (accept s).2, some (accept s).1)) (s, none)
  (.insertion member outcome answer, t', s')

/-- One operation, with what can be seen of it. -/
def TreeOperation.run (report : Diagnostic → σ → σ) (t : DeclarationTree α) (s : σ) :
    TreeOperation α σ → TreeEvent α × DeclarationTree α × σ
  | insert c member accept => t.observe c member report accept s
  | refuse member => (.refusal member, t.refuse member, s)
  | prune => (.pruning, t.prune, s)

/-- Operations in order, with their history. -/
def TreeOperation.runAll (report : Diagnostic → σ → σ) (t : DeclarationTree α) (s : σ) :
    List (TreeOperation α σ) → List (TreeEvent α) × DeclarationTree α × σ
  | [] => ([], t, s)
  | op :: ops =>
    let (e, t', s') := op.run report t s
    let (es, r) := runAll report t' s' ops
    (e :: es, r)

namespace TreeEvent

/-- The member was to be inserted. -/
def concerns (member : Symbol) : TreeEvent α → Bool
  | insertion m _ _ => member == m
  | refusal _ | pruning => false

/-- A member was inserted. -/
def isInserted : TreeEvent α → Bool
  | insertion _ outcome _ => outcome == .inserted
  | refusal _ | pruning => false

/-- The member was inserted. -/
def inserts (member : Symbol) (e : TreeEvent α) : Bool := e.isInserted && e.concerns member

/-- The callback was asked about the member. -/
def asks (member : Symbol) : TreeEvent α → Bool
  | insertion m _ answer => member == m && answer.isSome
  | refusal _ | pruning => false

/-- The callback had no value for the member. -/
def declines (member : Symbol) : TreeEvent α → Bool
  | insertion m _ (some none) => member == m
  | insertion _ _ (some (some _)) | insertion _ _ none | refusal _ | pruning => false

/-- The member was marked as wrong. -/
def refuses (member : Symbol) : TreeEvent α → Bool
  | refusal m => member == m
  | insertion .. | pruning => false

/-- The member that was inserted, with its value. -/
def entry? : TreeEvent α → Option (Symbol × α)
  | insertion m .inserted (some (some value)) => some (m, value)
  | _ => none

/-- The history has inserted the member. -/
def Inserted (es : List (TreeEvent α)) (member : Symbol) : Prop := ∃ e ∈ es, e.inserts member = true

/-- The history has found the member wrong. -/
def Barred (es : List (TreeEvent α)) (member : Symbol) : Prop :=
  ∃ e ∈ es, e.declines member = true ∨ e.refuses member = true

@[simp] theorem not_inserted_nil (member : Symbol) : ¬ Inserted ([] : List (TreeEvent α)) member := by
  simp [Inserted]

@[simp] theorem not_barred_nil (member : Symbol) : ¬ Barred ([] : List (TreeEvent α)) member := by
  simp [Barred]

@[simp] theorem inserted_concat {es : List (TreeEvent α)} {e : TreeEvent α} {member : Symbol} :
    Inserted (es ++ [e]) member ↔ Inserted es member ∨ e.inserts member = true := by
  simp only [Inserted, List.mem_append, List.mem_singleton, or_and_right, exists_or, exists_eq_left]

@[simp] theorem barred_concat {es : List (TreeEvent α)} {e : TreeEvent α} {member : Symbol} :
    Barred (es ++ [e]) member ↔
      Barred es member ∨ e.declines member = true ∨ e.refuses member = true := by
  simp only [Barred, List.mem_append, List.mem_singleton, or_and_right, exists_or, exists_eq_left]

theorem inserts_of_entry? {e : TreeEvent α} {entry : Symbol × α} (h : e.entry? = some entry) :
    e.inserts entry.1 = true := by
  unfold entry? at h
  split at h
  · cases h
    simp [inserts, isInserted, concerns]
  · cases h

theorem inserted_of_mem_entries {es : List (TreeEvent α)} {member : Symbol}
    (h : member ∈ (es.filterMap entry?).map (·.1)) : Inserted es member := by
  obtain ⟨entry, hentry, rfl⟩ := List.mem_map.1 h
  obtain ⟨e, hmem, he⟩ := List.mem_filterMap.1 hentry
  exact ⟨e, hmem, inserts_of_entry? he⟩

/-! ## Lawful histories -/

/-- What may be seen after a history. -/
inductive Follows (es : List (TreeEvent α)) : TreeEvent α → Prop where
  | duplicate (m : Symbol) (h : Inserted es m) : Follows es (.insertion m .duplicate none)
  | rejected (m : Symbol) (h : ¬ Inserted es m) : Follows es (.insertion m .rejected none)
  | inserted (m : Symbol) (value : α) (h : ¬ Inserted es m) (hnew : ¬ Barred es m) :
    Follows es (.insertion m .inserted (some (some value)))
  | declined (m : Symbol) (h : ¬ Inserted es m) (hnew : ¬ Barred es m) :
    Follows es (.insertion m .rejected (some none))
  | refusal (m : Symbol) : Follows es (.refusal m)
  | pruning : Follows es .pruning

/-- A history in which every member is decided once. -/
inductive Lawful : List (TreeEvent α) → Prop where
  | nil : Lawful []
  | concat {es : List (TreeEvent α)} {e : TreeEvent α} (h : Lawful es) (he : Follows es e) :
    Lawful (es ++ [e])

namespace Follows

variable {es : List (TreeEvent α)} {e : TreeEvent α} {m : Symbol}

theorem eq_duplicate (h : Follows es e) (hm : Inserted es m) (he : e.concerns m = true) :
    e = .insertion m .duplicate none := by
  cases h <;> simp_all [concerns]

theorem eq_rejected (h : Follows es e) (hm : ¬ Inserted es m) (hbarred : Barred es m)
    (he : e.concerns m = true) : e = .insertion m .rejected none := by
  cases h <;> simp_all [concerns]

theorem not_inserted_of_inserts (h : Follows es e) (he : e.inserts m = true) : ¬ Inserted es m := by
  cases h <;> simp_all [inserts, isInserted, concerns]

theorem not_barred_of_inserts (h : Follows es e) (he : e.inserts m = true) : ¬ Barred es m := by
  cases h <;> simp_all [inserts, isInserted, concerns]

theorem not_inserted_of_declines (h : Follows es e) (he : e.declines m = true) :
    ¬ Inserted es m := by
  cases h <;> simp_all [declines]

theorem new_of_asks (h : Follows es e) (he : e.asks m = true) :
    ¬ Inserted es m ∧ ¬ Barred es m := by
  cases h <;> simp_all [asks]

/-- A callback that was asked has inserted or barred the member. -/
theorem inserts_or_declines_of_asks (h : Follows es e) (he : e.asks m = true) :
    e.inserts m = true ∨ e.declines m = true := by
  cases h <;> simp_all [asks, inserts, isInserted, concerns, declines]

theorem isSome_entry? (h : Follows es e) : e.entry?.isSome = e.isInserted := by
  cases h <;> rfl

end Follows

namespace Lawful

variable {es : List (TreeEvent α)} {m : Symbol}

theorem inserted_once (h : Lawful es) (m : Symbol) : es.countP (·.inserts m) ≤ 1 := by
  induction h with
  | nil => simp
  | @concat es e _ he ih =>
    rw [List.countP_append, List.countP_singleton]
    split
    · rename_i hins
      have hzero : es.countP (·.inserts m) = 0 :=
        List.countP_eq_zero.2 fun e' he' hins' => he.not_inserted_of_inserts hins ⟨e', he', hins'⟩
      omega
    · omega

theorem asked_once (h : Lawful es) (m : Symbol) : es.countP (·.asks m) ≤ 1 := by
  -- a callback that was asked decides the member, and is not asked about a decided member
  have hdecided : ∀ {es : List (TreeEvent α)}, Lawful es → ∀ e ∈ es, e.asks m = true →
      Inserted es m ∨ Barred es m := by
    intro es hes
    induction hes with
    | nil => simp
    | @concat es e _ he ih =>
      intro e' hmem hasks
      rw [inserted_concat, barred_concat]
      rcases List.mem_append.1 hmem with hmem | hmem
      · rcases ih e' hmem hasks with hins | hbar
        · exact .inl (.inl hins)
        · exact .inr (.inl hbar)
      · obtain rfl : e' = e := by simpa using hmem
        rcases he.inserts_or_declines_of_asks hasks with hins | hdec
        · exact .inl (.inr hins)
        · exact .inr (.inr (.inl hdec))
  induction h with
  | nil => simp
  | @concat es e hes he ih =>
    rw [List.countP_append, List.countP_singleton]
    split
    · rename_i hasks
      obtain ⟨hins, hbar⟩ := he.new_of_asks hasks
      have hzero : es.countP (·.asks m) = 0 :=
        List.countP_eq_zero.2 fun e' he' hasks' =>
          (hdecided hes e' he' hasks').elim hins hbar
      omega
    · omega

/-- After a member was inserted, every later insertion finds it there. -/
theorem pairwise_duplicate (h : Lawful es) :
    es.Pairwise fun earlier later => ∀ m, earlier.inserts m = true → later.concerns m = true →
      later = .insertion m .duplicate none := by
  induction h with
  | nil => exact .nil
  | concat _ he ih =>
    refine List.pairwise_append.2 ⟨ih, List.pairwise_singleton _ _, fun e' he' e'' he'' => ?_⟩
    obtain rfl := List.mem_singleton.1 he''
    exact fun m hins hcon => he.eq_duplicate ⟨e', he', hins⟩ hcon

/-- A member that a callback has declined is never inserted. -/
theorem not_inserted_of_declines (h : Lawful es) :
    ∀ e ∈ es, e.declines m = true → ¬ Inserted es m := by
  induction h with
  | nil => simp
  | @concat es e _ he ih =>
    intro e' hmem hdec
    rw [inserted_concat, not_or]
    rcases List.mem_append.1 hmem with hmem | hmem
    · exact ⟨ih e' hmem hdec, fun hins => he.not_barred_of_inserts hins ⟨e', hmem, .inl hdec⟩⟩
    · obtain rfl : e' = e := by simpa using hmem
      refine ⟨he.not_inserted_of_declines hdec, fun hins => ?_⟩
      cases he <;> simp_all [inserts, isInserted, declines]

/-- After a callback has declined a member, every later insertion of it is rejected unasked. -/
theorem pairwise_rejected (h : Lawful es) :
    es.Pairwise fun earlier later => ∀ m, earlier.declines m = true → later.concerns m = true →
      later = .insertion m .rejected none := by
  induction h with
  | nil => exact .nil
  | @concat es e hes he ih =>
    refine List.pairwise_append.2 ⟨ih, List.pairwise_singleton _ _, fun e' he' e'' he'' => ?_⟩
    obtain rfl := List.mem_singleton.1 he''
    intro m hdec hcon
    exact he.eq_rejected (hes.not_inserted_of_declines e' he' hdec) ⟨e', he', .inl hdec⟩ hcon

/-- After a member was marked as wrong before it was inserted, every insertion of it is rejected
unasked. -/
theorem rejected_of_refusal (h : Lawful es) {before after : List (TreeEvent α)}
    (hes : es = before ++ .refusal m :: after) (hbefore : ¬ Inserted before m) :
    ¬ Inserted es m ∧ ∀ e ∈ after, e.concerns m = true → e = .insertion m .rejected none := by
  induction h generalizing after with
  | nil => simp at hes
  | @concat es e _ he ih =>
    -- the refusal is the last event, or one of the earlier ones
    rcases List.eq_nil_or_concat' after with rfl | ⟨after', e', rfl⟩
    · obtain ⟨rfl, hlast⟩ := List.append_inj' hes rfl
      obtain rfl : e = .refusal m := by simpa using hlast
      exact ⟨by simpa [inserts, isInserted] using hbefore, by simp⟩
    · have hsplit : es ++ [e] = (before ++ .refusal m :: after') ++ [e'] := by simpa using hes
      obtain ⟨hinit, hlast⟩ := List.append_inj' hsplit rfl
      obtain rfl : e = e' := by simpa using hlast
      obtain ⟨hins, hafter⟩ := ih hinit
      have hbarred : Barred es m := ⟨.refusal m, by simp [hinit], .inr (by simp [refuses])⟩
      refine ⟨?_, fun e' he' hcon => ?_⟩
      · rw [inserted_concat, not_or]
        exact ⟨hins, fun hins' => he.not_barred_of_inserts hins' hbarred⟩
      · rcases List.mem_append.1 he' with he' | he'
        · exact hafter e' he' hcon
        · obtain rfl : e' = e := by simpa using he'
          exact he.eq_rejected hins hbarred hcon

theorem nodup_entries (h : Lawful es) : ((es.filterMap entry?).map (·.1)).Nodup := by
  induction h with
  | nil => simp
  | @concat es e _ he ih =>
    cases hentry : e.entry? with
    | none => simpa [hentry] using ih
    | some entry =>
      have hinserts := inserts_of_entry? hentry
      have hfresh : entry.1 ∉ (es.filterMap entry?).map (·.1) := fun hmem =>
        he.not_inserted_of_inserts hinserts (inserted_of_mem_entries hmem)
      rw [List.filterMap_append, List.map_append, List.filterMap_cons_some hentry]
      refine List.nodup_append.2 ⟨ih, List.nodup_singleton _, fun m hm m' hm' => ?_⟩
      obtain rfl := List.mem_singleton.1 hm'
      rintro rfl
      exact hfresh hm

theorem exists_value (h : Lawful es) {answer : Option (Option α)}
    (hmem : .insertion m .inserted answer ∈ es) : ∃ value, answer = some (some value) := by
  induction h with
  | nil => simp at hmem
  | concat _ he ih =>
    rcases List.mem_append.1 hmem with hmem | hmem
    · exact ih hmem
    · obtain rfl := List.mem_singleton.1 hmem
      cases he
      exact ⟨_, rfl⟩

theorem length_entries (h : Lawful es) : (es.filterMap entry?).length = es.countP (·.isInserted) := by
  induction h with
  | nil => rfl
  | @concat es e _ he ih =>
    rw [List.filterMap_append, List.length_append, List.countP_append, ih, List.countP_singleton,
      ← he.isSome_entry?]
    cases hentry : e.entry? <;> simp [hentry]

end Lawful
end TreeEvent

namespace DeclarationTree

open TreeEvent

/-! ## Trees and their histories -/

/-- What an observed insertion shows, and what it does to the tree. -/
theorem observe_cases (t : DeclarationTree α) (c : Container) (member : Symbol)
    (report : Diagnostic → σ → σ) (accept : σ → Option α × σ) (s : σ) :
    let (e, t', _) := t.observe c member report accept s
    (e = .insertion member .duplicate none ∧ t.HoldsAt c member ∧ t' = t.ensure c) ∨
    (e = .insertion member .rejected none ∧ ¬ t.HoldsAt c member ∧ t' = t.ensure c) ∨
    (∃ value ms, e = .insertion member .inserted (some (some value)) ∧
      ¬ t.HoldsAt c member ∧ member ∉ t.refused ∧ (t.ensure c).membersAt? c = some ms ∧
      t' = (t.ensure c).place c member value) ∨
    (e = .insertion member .rejected (some none) ∧ ¬ t.HoldsAt c member ∧ member ∉ t.refused ∧
      t' = (t.ensure c).refuse member) := by
  have hins := insert_inserts t c member
    (fun d (s, answer) => (report d s, answer))
    (fun (s, _) => ((accept s).1, (accept s).2, some (accept s).1)) (s, (none : Option (Option α)))
  unfold observe
  generalize t.insert c member _ _ _ = r at hins
  cases hins with
  | blocked o h =>
    have habsent : ¬ t.HoldsAt c member := fun hholds => by
      rw [hholds.obstacle?_eq_none] at h
      cases h
    exact .inr (.inl ⟨rfl, habsent, rfl⟩)
  | untyped h =>
    have habsent : ¬ t.HoldsAt c member := fun ⟨_, hms, _⟩ => types_ne_nil_of_membersAt? hms h
    exact .inr (.inl ⟨rfl, habsent, rfl⟩)
  | present h => exact .inl ⟨rfl, h, rfl⟩
  | refused habsent h => exact .inr (.inl ⟨rfl, habsent, rfl⟩)
  | accepted value s' hopen hne habsent hnew h =>
    obtain ⟨hvalue, rfl⟩ := Prod.mk.inj h
    refine .inr (.inr (.inl ⟨value, _, ?_, habsent, hnew, membersAt?_ensure_self hne hopen, rfl⟩))
    simp [hvalue]
  | declined s' hopen hne habsent hnew h =>
    obtain ⟨hvalue, rfl⟩ := Prod.mk.inj h
    refine .inr (.inr (.inr ⟨?_, habsent, hnew, rfl⟩))
    simp [hvalue]

/-- A tree holds what its history inserted, each member at its home, and remembers what its history
found wrong. -/
structure Reflects (home : Symbol → Container → Prop) (es : List (TreeEvent α))
    (t : DeclarationTree α) : Prop where
  entries_perm : t.entries.Perm (es.filterMap entry?)
  mem_entries_iff : ∀ m, m ∈ t.entries.map (·.1) ↔ Inserted es m
  holdsAt : ∀ m c, Inserted es m → home m c → t.HoldsAt c m
  mem_refused_iff : ∀ m, m ∈ t.refused ↔ Barred es m

theorem reflects_empty (home : Symbol → Container → Prop) (pass : Pass) :
    (empty pass : DeclarationTree α).Reflects home [] where
  entries_perm := .refl _
  mem_entries_iff := by simp [empty, entries, TypeForest.entries, NamespaceForest.entries]
  holdsAt := by simp
  mem_refused_iff := by simp [empty]

namespace Reflects

variable {home : Symbol → Container → Prop} {es : List (TreeEvent α)} {t : DeclarationTree α}

theorem holdsAt_iff (h : t.Reflects home es) {m : Symbol} {c : Container} (hhome : home m c) :
    t.HoldsAt c m ↔ Inserted es m :=
  ⟨fun hholds => (h.mem_entries_iff m).1 hholds.mem_entries, fun hins => h.holdsAt m c hins hhome⟩

/-- An event that decides nothing leaves the record as it is. -/
theorem concat_of_same (h : t.Reflects home es) {e : TreeEvent α} {t' : DeclarationTree α}
    (hentries : t'.entries = t.entries) (hrefused : t'.refused = t.refused)
    (hholds : ∀ c m, t.HoldsAt c m → t'.HoldsAt c m) (hins : ∀ m, e.inserts m = false)
    (hentry : e.entry? = none) (hbar : ∀ m, e.declines m = false ∧ e.refuses m = false) :
    t'.Reflects home (es ++ [e]) where
  entries_perm := by simpa [hentries, hentry] using h.entries_perm
  mem_entries_iff := by simpa [hentries, hins] using h.mem_entries_iff
  holdsAt := by
    intro m c hm hhome
    exact hholds c m (h.holdsAt m c (by simpa [hins] using hm) hhome)
  mem_refused_iff := by simpa [hrefused, hbar] using h.mem_refused_iff

/-- An event that only bars a member adds it to the refused ones. -/
theorem concat_of_barred (h : t.Reflects home es) {e : TreeEvent α} {t' : DeclarationTree α}
    {member : Symbol} (hentries : t'.entries = t.entries)
    (hrefused : ∀ m, m ∈ t'.refused ↔ m ∈ t.refused ∨ m = member)
    (hholds : ∀ c m, t.HoldsAt c m → t'.HoldsAt c m) (hins : ∀ m, e.inserts m = false)
    (hentry : e.entry? = none)
    (hbar : ∀ m, e.declines m = true ∨ e.refuses m = true ↔ m = member) :
    t'.Reflects home (es ++ [e]) where
  entries_perm := by simpa [hentries, hentry] using h.entries_perm
  mem_entries_iff := by simpa [hentries, hins] using h.mem_entries_iff
  holdsAt := by
    intro m c hm hhome
    exact hholds c m (h.holdsAt m c (by simpa [hins] using hm) hhome)
  mem_refused_iff := by simp [hrefused, hbar, h.mem_refused_iff]

/-- An insertion adds the member at its home. -/
theorem concat_of_inserted (h : t.Reflects home es) {c : Container} {ms : List (Symbol × α)}
    {member : Symbol} (hhome : ∀ c', home member c' → c.SamePlace c')
    (hms : (t.ensure c).membersAt? c = some ms) (value : α) :
    ((t.ensure c).place c member value).Reflects home
      (es ++ [.insertion member .inserted (some (some value))]) where
  entries_perm := by
    refine (entries_place_perm hms member value).trans ?_
    rw [entries_ensure, List.filterMap_append]
    exact h.entries_perm.append_right _
  mem_entries_iff := by
    intro m
    have hperm := (entries_place_perm hms member value).map (·.1)
    rw [hperm.mem_iff, inserted_concat, ← h.mem_entries_iff m]
    simp [inserts, isInserted, concerns]
  holdsAt := by
    intro m c' hm hhome'
    rcases inserted_concat.1 hm with hm | hm
    · exact ((h.holdsAt m c' hm hhome').ensure c).place hms member value
    · obtain rfl : m = member := by simpa [inserts, isInserted, concerns] using hm
      exact (holdsAt_place hms m value).congr (hhome c' hhome')
  mem_refused_iff := by
    intro m
    simpa [declines, refuses] using h.mem_refused_iff m

/-- Every operation continues the history lawfully. -/
theorem step (h : t.Reflects home es)
    (hhome : ∀ m c c', home m c → home m c' → c.SamePlace c')
    (report : Diagnostic → σ → σ) (s : σ) (op : TreeOperation α σ)
    (hop : ∀ c m accept, op = .insert c m accept → home m c) :
    Follows es (op.run report t s).1 ∧
      (op.run report t s).2.1.Reflects home (es ++ [(op.run report t s).1]) := by
  cases op with
  | refuse member =>
    refine ⟨.refusal member, h.concat_of_barred (entries_refuse t member)
      (fun m => mem_refused_refuse) (fun c m hm => hm.refuse member) ?_ rfl ?_⟩
    · exact fun m => rfl
    · simp [TreeOperation.run, declines, refuses]
  | prune =>
    refine ⟨.pruning, h.concat_of_same (entries_prune t) rfl (fun c m hm => hm.prune) ?_ rfl ?_⟩
    · exact fun m => rfl
    · exact fun m => ⟨rfl, rfl⟩
  | insert c member accept =>
    have hc : home member c := hop c member accept rfl
    have hcases := observe_cases t c member report accept s
    simp only [TreeOperation.run]
    generalize t.observe c member report accept s = r at hcases
    obtain ⟨e, t', s'⟩ := r
    rcases hcases with ⟨rfl, hholds, rfl⟩ | ⟨rfl, hholds, rfl⟩ |
      ⟨value, ms, rfl, hholds, hnew, hms, rfl⟩ | ⟨rfl, hholds, hnew, rfl⟩
    · refine ⟨.duplicate member ((h.holdsAt_iff hc).1 hholds), ?_⟩
      exact h.concat_of_same (entries_ensure t c) (refused_ensure t c) (fun _ _ hm => hm.ensure c)
        (fun _ => rfl) rfl (fun _ => ⟨rfl, rfl⟩)
    · refine ⟨.rejected member (mt (h.holdsAt_iff hc).2 hholds), ?_⟩
      exact h.concat_of_same (entries_ensure t c) (refused_ensure t c) (fun _ _ hm => hm.ensure c)
        (fun _ => rfl) rfl (fun _ => ⟨rfl, rfl⟩)
    · refine ⟨.inserted member value (mt (h.holdsAt_iff hc).2 hholds)
        (mt (h.mem_refused_iff member).2 hnew), ?_⟩
      exact h.concat_of_inserted (fun c' hc' => hhome member c c' hc hc') hms value
    · refine ⟨.declined member (mt (h.holdsAt_iff hc).2 hholds)
        (mt (h.mem_refused_iff member).2 hnew), ?_⟩
      have hrefused : ∀ m, m ∈ ((t.ensure c).refuse member).refused ↔ m ∈ t.refused ∨ m = member :=
        by simp
      refine h.concat_of_barred ?_ hrefused ?_ (fun _ => rfl) rfl ?_
      · rw [entries_refuse, entries_ensure]
      · exact fun _ _ hm => (hm.ensure c).refuse member
      · simp [declines, refuses]

/-- Every run of operations continues the history lawfully. -/
theorem runAll (h : t.Reflects home es) (hes : Lawful es)
    (hhome : ∀ m c c', home m c → home m c' → c.SamePlace c')
    (report : Diagnostic → σ → σ) (s : σ) (ops : List (TreeOperation α σ))
    (hops : ∀ c m accept, .insert c m accept ∈ ops → home m c) :
    let r := TreeOperation.runAll report t s ops
    Lawful (es ++ r.1) ∧ r.2.1.Reflects home (es ++ r.1) := by
  induction ops generalizing es t s with
  | nil => simpa [TreeOperation.runAll] using ⟨hes, h⟩
  | cons op ops ih =>
    obtain ⟨hfollows, hreflects⟩ := h.step hhome report s op
      fun c m accept e => hops c m accept (e ▸ List.mem_cons_self)
    have hrest := ih hreflects (hes.concat hfollows) (op.run report t s).2.2
      fun c m accept hmem => hops c m accept (List.mem_cons_of_mem op hmem)
    simpa [TreeOperation.runAll] using hrest

end Reflects

/-! ## What callers see -/

/-- Every member is decided once in a history, and the tree at its end holds the inserted ones. -/
structure DecidedOnce (es : List (TreeEvent α)) (t : DeclarationTree α) : Prop where
  /-- A member is inserted at most once. -/
  inserted_once : ∀ m, es.countP (·.inserts m) ≤ 1
  /-- A callback is asked about a member at most once. -/
  asked_once : ∀ m, es.countP (·.asks m) ≤ 1
  /-- After a member was inserted, every later insertion is a duplicate and asks nobody. -/
  duplicate_after : es.Pairwise fun earlier later => ∀ m, earlier.inserts m = true →
    later.concerns m = true → later = .insertion m .duplicate none
  /-- After a callback has declined a member, every later insertion is rejected and asks nobody. -/
  rejected_after_declined : es.Pairwise fun earlier later => ∀ m, earlier.declines m = true →
    later.concerns m = true → later = .insertion m .rejected none
  /-- After a member that was not inserted was marked as wrong, every later insertion is rejected
  and asks nobody. -/
  rejected_after_refusal : ∀ before m after, es = before ++ .refusal m :: after →
    ¬ Inserted before m → ∀ e ∈ after, e.concerns m = true → e = .insertion m .rejected none
  /-- A member keeps the value of its insertion. -/
  value_kept : ∀ m answer, .insertion m .inserted answer ∈ es →
    ∃ value, answer = some (some value) ∧ ∀ other, (m, other) ∈ t.entries ↔ other = value
  /-- The tree holds the inserted members with the values of their insertions. -/
  entries_perm : t.entries.Perm (es.filterMap entry?)
  /-- The values are listed once each. -/
  members_perm : t.members.Perm ((es.filterMap entry?).map (·.2))
  /-- There are as many members as insertions that went through. -/
  memberCount_eq : t.memberCount = es.countP (·.isInserted)
  /-- A member is known if it was inserted, declined or marked as wrong. -/
  isKnown_iff : ∀ m, t.isKnown m = true ↔
    ∃ e ∈ es, e.inserts m = true ∨ e.declines m = true ∨ e.refuses m = true

/-- In a run from the empty tree in which every member keeps its container, every member is decided
once. -/
theorem decidedOnce_runAll (pass : Pass) (report : Diagnostic → σ → σ) (s : σ)
    (ops : List (TreeOperation α σ))
    (hplaces : ∀ m c c' accept accept', .insert c m accept ∈ ops → .insert c' m accept' ∈ ops →
      c.SamePlace c') :
    let r := TreeOperation.runAll report (empty pass) s ops
    DecidedOnce r.1 r.2.1 := by
  let home : Symbol → Container → Prop := fun m c => ∃ accept, .insert c m accept ∈ ops
  have hhome : ∀ m c c', home m c → home m c' → c.SamePlace c' :=
    fun m c c' ⟨accept, h⟩ ⟨accept', h'⟩ => hplaces m c c' accept accept' h h'
  obtain ⟨hes, ht⟩ := (reflects_empty home pass).runAll .nil hhome report s ops
    fun c m accept h => ⟨accept, h⟩
  generalize TreeOperation.runAll report (empty pass) s ops = r at hes ht
  obtain ⟨es, t, s'⟩ := r
  simp only [List.nil_append] at hes ht
  have hmembers : t.members.Perm ((es.filterMap entry?).map (·.2)) := ht.entries_perm.map _
  refine ⟨hes.inserted_once, hes.asked_once, hes.pairwise_duplicate, hes.pairwise_rejected,
    fun before m after hsplit hbefore => (hes.rejected_of_refusal hsplit hbefore).2,
    fun m answer hmem => ?_, ht.entries_perm, hmembers, ?_, fun m => ?_⟩
  · obtain ⟨value, rfl⟩ := hes.exists_value hmem
    have hvalue : (m, value) ∈ es.filterMap entry? := List.mem_filterMap.2 ⟨_, hmem, rfl⟩
    -- another value would list the member twice
    refine ⟨value, rfl, fun other => ?_⟩
    rw [ht.entries_perm.mem_iff]
    refine ⟨fun hother => ?_, fun e => e ▸ hvalue⟩
    have hsame := List.inj_on_of_nodup_map hes.nodup_entries hother hvalue rfl
    exact congrArg Prod.snd hsame
  · rw [memberCount, hmembers.length_eq, List.length_map, hes.length_entries]
  · rw [DeclarationTree.isKnown_iff, ht.mem_refused_iff, ht.mem_entries_iff, or_comm]
    simp only [Inserted, Barred, ← exists_or, ← and_or_left]

/-- Three members of one class. The first comes back in a declaration that cannot be extended, the
second is marked as wrong first, the third gets no value. -/
def repeatedInsertions : List (TreeOperation String Nat) :=
  let demo : Namespace := ⟨⟨0⟩, "Demo"⟩
  let home : Container := ⟨[demo], [⟨⟨1⟩, "Sdl", .classType, [], true, none⟩]⟩
  let again : Container := ⟨[demo], [⟨⟨1⟩, "Sdl", .enumType, [], false, none⟩]⟩
  [.insert home ⟨2⟩ fun n => (some "a", n + 1), .prune, .insert again ⟨2⟩ fun n => (some "b", n + 1),
    .refuse ⟨3⟩, .insert home ⟨3⟩ fun n => (some "c", n + 1), .insert home ⟨4⟩ fun n => (none, n + 1),
    .insert home ⟨4⟩ fun n => (some "d", n + 1), .prune]

theorem decidedOnce_repeatedInsertions :
    (∀ m c c' accept accept', .insert c m accept ∈ repeatedInsertions →
      .insert c' m accept' ∈ repeatedInsertions → c.SamePlace c') ∧
    let r := TreeOperation.runAll (fun _ n => n) (empty .imports) 0 repeatedInsertions
    DecidedOnce r.1 r.2.1 := by
  have hplaces : ∀ m c c' accept accept', .insert c m accept ∈ repeatedInsertions →
      .insert c' m accept' ∈ repeatedInsertions → c.SamePlace c' := by
    intro m c c' accept accept' h h'
    simp only [repeatedInsertions, List.mem_cons, List.not_mem_nil, TreeOperation.insert.injEq,
      reduceCtorEq, false_or, or_false] at h h'
    rcases h with ⟨rfl, -, -⟩ | ⟨rfl, -, -⟩ | ⟨rfl, -, -⟩ | ⟨rfl, -, -⟩ | ⟨rfl, -, -⟩ <;>
      rcases h' with ⟨rfl, -, -⟩ | ⟨rfl, -, -⟩ | ⟨rfl, -, -⟩ | ⟨rfl, -, -⟩ | ⟨rfl, -, -⟩ <;>
      exact ⟨rfl, rfl⟩
  exact ⟨hplaces, decidedOnce_runAll .imports (fun _ n => n) 0 repeatedInsertions hplaces⟩

end DeclarationTree
end NativeBindings
