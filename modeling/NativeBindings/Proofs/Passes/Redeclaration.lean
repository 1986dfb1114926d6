import NativeBindings.Proofs.DeclarationTree.Reinsertion
import NativeBindings.Proofs.Passes.Fates

/-!
# Declarations that are repeated

A member may be declared more than once. The first declaration decides: further ones change neither
the tree nor the slots nor what is printed. The only trace that they leave is that a type that
cannot be extended is reported again.

## Main definitions

- `Repeats` — a list with some of its elements repeated further behind
- `DiagnosticField` — the diagnostics of a state
- `AddsReports` — additions do not look at the diagnostics before them

## Main statements

- `repeats_foldl` — repeated declarations repeat reports, and nothing else
- `repeats_run` — both passes are idempotent in this sense
-/

namespace NativeBindings

open DeclarationTree (obstacleDiagnostic Extends Finished)

/-- A list with some elements repeated, each somewhere behind an occurrence that was there
before. -/
inductive Repeats {α : Type} (IsRepeatable : α → Prop) (xs : List α) : List α → Prop where
  | refl : Repeats IsRepeatable xs xs
  | again {before after : List α} {x : α} (h : Repeats IsRepeatable xs (before ++ after))
    (hx : x ∈ before) (hrepeat : IsRepeatable x) : Repeats IsRepeatable xs (before ++ x :: after)

namespace Repeats

variable {α : Type} {P Q : α → Prop} {xs ys : List α}

theorem mono (h : Repeats P xs ys) (hPQ : ∀ x, P x → Q x) : Repeats Q xs ys := by
  induction h with
  | refl => exact .refl
  | again _ hx hrepeat ih => exact ih.again hx (hPQ _ hrepeat)

theorem mem_iff (h : Repeats P xs ys) {x : α} : x ∈ ys ↔ x ∈ xs := by
  induction h with
  | refl => rfl
  | @again before after y _ hy _ ih =>
    rw [← ih, List.perm_middle.mem_iff, List.mem_cons, or_iff_right_iff_imp]
    rintro rfl
    exact List.mem_append_left after hy

theorem filterMap_eq_nil_iff {β : Type} (h : Repeats P xs ys) (f : α → Option β) :
    ys.filterMap f = [] ↔ xs.filterMap f = [] := by
  simp only [List.filterMap_eq_nil_iff, h.mem_iff]

theorem count_le [DecidableEq α] (h : Repeats P xs ys) (x : α) : xs.count x ≤ ys.count x := by
  induction h with
  | refl => exact Nat.le_refl _
  | @again before after y _ _ _ ih =>
    refine Nat.le_trans ih ?_
    rw [List.perm_middle.count_eq]
    exact List.count_le_count_cons

end Repeats

/-! ## Additions that report -/

/-- The diagnostics of a state. -/
structure DiagnosticField (σ : Type) where
  get : σ → List Diagnostic
  set : List Diagnostic → σ → σ
  get_set : ∀ ds s, get (set ds s) = ds
  set_get : ∀ s, set (get s) s = s
  set_set : ∀ ds ds' s, set ds (set ds' s) = set ds s

variable {σ δ : Type}

/-- An addition appends to the diagnostics and does not look at those that are there. -/
def AddsReports (field : DiagnosticField σ) (add : σ → δ → σ) : Prop :=
  ∀ s d, ∃ reports, ∀ ds, add (field.set ds s) d = field.set (ds ++ reports) (add s d)

section Additions

variable {field : DiagnosticField σ} {add : σ → δ → σ}

theorem AddsReports.foldl (hadd : AddsReports field add) (s : σ) (ds : List δ) :
    ∃ reports, ∀ pre,
      ds.foldl add (field.set pre s) = field.set (pre ++ reports) (ds.foldl add s) := by
  induction ds generalizing s with
  | nil => exact ⟨[], fun pre => by rw [List.append_nil]; rfl⟩
  | cons d ds ih =>
    obtain ⟨first, hfirst⟩ := hadd s d
    obtain ⟨rest, hrest⟩ := ih (add s d)
    refine ⟨first ++ rest, fun pre => ?_⟩
    rw [List.foldl_cons, hfirst, hrest, List.append_assoc, List.foldl_cons]

theorem AddsReports.get_subset (hadd : AddsReports field add) (s : σ) (d : δ) :
    field.get s ⊆ field.get (add s d) := by
  obtain ⟨reports, hreports⟩ := hadd s d
  have hself := hreports (field.get s)
  rw [field.set_get] at hself
  rw [hself, field.get_set]
  exact List.subset_append_left _ _

/-- If a declaration that was added before can only add a report that is there already, then
repeated declarations repeat reports and change nothing else. -/
theorem repeats_foldl [DecidableEq δ] (hadd : AddsReports field add) {s : σ}
    {IsReport : δ → Diagnostic → Prop} {ds ds' : List δ} (h : Repeats (fun _ => True) ds ds')
    (hagain : ∀ before ⊆ ds, ∀ d ∈ before, ∃ report : Option Diagnostic,
      add (before.foldl add s) d =
        field.set (field.get (before.foldl add s) ++ report.toList) (before.foldl add s) ∧
      ∀ x ∈ report, x ∈ field.get (before.foldl add s) ∧ IsReport d x) :
    ∃ reports, ds'.foldl add s = field.set reports (ds.foldl add s) ∧
      Repeats (fun x => ∃ d, ds.count d < ds'.count d ∧ IsReport d x)
        (field.get (ds.foldl add s)) reports := by
  induction h with
  | refl => exact ⟨_, (field.set_get _).symm, .refl⟩
  | @again before after d h hd _ ih =>
    obtain ⟨reports, hfold, hrepeats⟩ := ih
    -- adding `d` once more puts `report` in front of what `after` reports
    have hsub : before ⊆ ds := fun x hx => h.mem_iff.1 (List.mem_append_left after hx)
    obtain ⟨report, hsame, hreport⟩ := hagain before hsub d hd
    obtain ⟨tail, htail⟩ := hadd.foldl (before.foldl add s) after
    rw [List.foldl_append] at hfold
    have hreports : reports = field.get (before.foldl add s) ++ tail := by
      have hself := htail (field.get (before.foldl add s))
      rw [field.set_get] at hself
      rw [← field.get_set reports (ds.foldl add s), ← hfold, hself, field.get_set]
    have hcount : ∀ x, ds.count x ≤ (before ++ after).count x := h.count_le
    have hmore : ∀ x, (before ++ after).count x ≤ (before ++ d :: after).count x := by
      intro x
      rw [List.perm_middle.count_eq]
      exact List.count_le_count_cons
    have hrepeats' : Repeats
        (fun x => ∃ d', ds.count d' < (before ++ d :: after).count d' ∧ IsReport d' x)
        (field.get (ds.foldl add s)) (field.get (before.foldl add s) ++ tail) := by
      rw [← hreports]
      exact hrepeats.mono fun x ⟨d', hlt, hx⟩ => ⟨d', Nat.lt_of_lt_of_le hlt (hmore d'), hx⟩
    refine ⟨field.get (before.foldl add s) ++ report.toList ++ tail, ?_, ?_⟩
    · rw [List.foldl_append, List.foldl_cons, hsame, htail, hfold, field.set_set]
    · cases report with
      | none => simpa using hrepeats'
      | some x =>
        obtain ⟨hmem, hx⟩ := hreport x rfl
        have hlt : ds.count d < (before ++ d :: after).count d := by
          rw [List.perm_middle.count_eq, List.count_cons_self]
          exact Nat.lt_succ_of_le (hcount d)
        rw [List.append_assoc]
        exact hrepeats'.again hmem ⟨d, hlt, hx⟩

end Additions

theorem types_subset_enclosingTypes {members : List Member} {m : Member} (h : m ∈ members) :
    m.container.types ⊆ enclosingTypes members :=
  fun _ ht => List.mem_flatMap.2 ⟨m, h, ht⟩

theorem Container.isBlocked_obstacleDiagnostic {pass : Pass} {c : Container} {o : Obstacle}
    (h : c.obstacle? = some o) : c.IsBlocked pass (obstacleDiagnostic pass c o) := by
  obtain ⟨⟨t, depth⟩, hmem, hsome⟩ := List.exists_of_findSome?_eq_some h
  dsimp only at hsome
  split at hsome
  · cases hsome
  · rename_i hext
    cases hsome
    exact ⟨⟨depth, t⟩, List.mk_mem_zipIdx_iff_getElem?.1 hmem, Bool.not_eq_true _ ▸ hext, rfl⟩

/-- What the insertion of a finished member reports was reported before. -/
theorem DeclarationTree.Finished.isBlocked_of_mem {α : Type} {t : DeclarationTree α}
    {diagnostics : List Diagnostic} {c : Container} {member : Symbol} {pass : Pass}
    (h : t.Finished diagnostics c member) (hpass : t.pass = pass) {d : Diagnostic}
    (hd : d ∈ c.obstacle?.map (obstacleDiagnostic pass c)) :
    d ∈ diagnostics ∧ c.IsBlocked pass d := by
  obtain ⟨o, ho, rfl⟩ := Option.map_eq_some_iff.1 (Option.mem_def.1 hd)
  have hreported := h.reported o ho
  rw [hpass] at hreported
  exact ⟨hreported, Container.isBlocked_obstacleDiagnostic ho⟩

/-- A report that further declarations of a member may repeat. -/
def IsRepeatedReport (pass : Pass) (members others : List Member) (d : Diagnostic) : Prop :=
  d.problem = .unsupportedTypeDeclaration ∧
    ∃ m, members.count m < others.count m ∧ m.container.IsBlocked pass d

theorem isRepeatedReport_of_isBlocked {pass : Pass} {members others : List Member} {d : Diagnostic}
    (h : ∃ m, members.count m < others.count m ∧ m.container.IsBlocked pass d) :
    IsRepeatedReport pass members others d := by
  obtain ⟨m, hlt, o, hget, hext, rfl⟩ := h
  exact ⟨rfl, m, hlt, o, hget, hext, rfl⟩

/-! ## The imports pass -/

namespace ImportsPass

variable {rule : AccessRule} {ts : List EnclosingType} {before : List Member} {m : Member}
  {s : ImportsPass}

def diagnosticField : DiagnosticField ImportsPass where
  get := diagnostics
  set := fun ds s => { s with diagnostics := ds }
  get_set := fun _ _ => rfl
  set_get := fun _ => rfl
  set_set := fun _ _ _ => rfl

/-- Puts the binding of a member into the tree, if there is one. -/
def addMember (rule : AccessRule) (s : ImportsPass) (m : Member) : ImportsPass :=
  match Binding.ofMember? m with
  | some b => add rule s b
  | none => s

theorem added_eq (members : List Member) :
    added rule members = members.foldl (addMember rule) {} := by
  rw [added, List.foldl_filterMap]
  congr 1
  funext s m
  rw [addMember]
  cases Binding.ofMember? m <;> rfl

theorem addsReports_add (rule : AccessRule) : AddsReports diagnosticField (add rule) := by
  intro s b
  have hset : ∀ ds, (diagnosticField.set ds s).tree = s.tree := fun _ => rfl
  unfold add DeclarationTree.insert
  simp only [hset]
  cases s.tree.obstacle? b.target.container with
  | some o => exact ⟨[_], fun ds => rfl⟩
  | none =>
    dsimp only
    split
    · exact ⟨[], fun ds => by rw [List.append_nil]; rfl⟩
    · split
      · exact ⟨[], fun ds => by rw [List.append_nil]; rfl⟩
      · split
        · exact ⟨[], fun ds => by rw [List.append_nil]; rfl⟩
        · cases hvalid : b.validate rule with
          | ok kind => exact ⟨[], fun ds => by simp only [accept, hvalid, List.append_nil]; rfl⟩
          | error error => exact ⟨[_], fun ds => by simp only [accept, hvalid]; rfl⟩

theorem addsReports_addMember (rule : AccessRule) :
    AddsReports diagnosticField (addMember rule) := by
  intro s m
  unfold addMember
  cases Binding.ofMember? m with
  | some b => exact addsReports_add rule s b
  | none => exact ⟨[], fun ds => by rw [List.append_nil]⟩

/-- A running pass is finished with the members that it has looked at. -/
structure Processed (ts : List EnclosingType) (before : List Member) (s : ImportsPass) : Prop where
  extends_empty : Extends ts (.empty .imports) s.tree
  finished : ∀ m ∈ before, ∀ b, Binding.ofMember? m = some b →
    s.tree.Finished s.diagnostics m.container m.id

theorem Processed.addMember (h : Processed ts before s) (huniform : AreUniform ts)
    (hbefore : ∀ m ∈ before, m.container.types ⊆ ts) (hm : m.container.types ⊆ ts) :
    Processed ts (before ++ [m]) (addMember rule s m) := by
  have hagree := huniform.agreeOnExtension
  have hsub : s.diagnostics ⊆ (ImportsPass.addMember rule s m).diagnostics :=
    (addsReports_addMember rule).get_subset s m
  have hstep : Extends ts s.tree (ImportsPass.addMember rule s m).tree ∧
      ∀ b, Binding.ofMember? m = some b → (ImportsPass.addMember rule s m).tree.Finished
        (ImportsPass.addMember rule s m).diagnostics m.container m.id := by
    unfold ImportsPass.addMember
    cases hb : Binding.ofMember? m with
    | none =>
      refine ⟨.refl ts s.tree, ?_⟩
      intro b hnone
      cases hnone
    | some b =>
      have htarget := Binding.target_of_ofMember? hb
      have hobstacle := h.extends_empty.obstacle?_eq hagree hm
      subst htarget
      refine ⟨DeclarationTree.extends_insert hagree hm, fun _ _ => ?_⟩
      have hreport : ∀ d e, Effects.diagnostics (Effects.report d e) = e.diagnostics ++ [d] :=
        fun _ _ => rfl
      exact DeclarationTree.finished_insert hobstacle Effects.diagnostics hreport
  refine ⟨h.extends_empty.trans hstep.1, fun m' hm' b hb => ?_⟩
  -- what was finished stays finished in a tree with more nodes
  rcases List.mem_append.1 hm' with hold | hnew
  · exact (h.finished m' hold b hb).mono hstep.1 (hbefore m' hold) hsub
  · obtain rfl := List.mem_singleton.1 hnew
    exact hstep.2 b hb

theorem processed_foldl (rule : AccessRule) (huniform : AreUniform ts)
    (hbefore : ∀ m ∈ before, m.container.types ⊆ ts) :
    Processed ts before (before.foldl (addMember rule) {}) := by
  induction before using List.reverseRecOn with
  | nil => exact ⟨.refl ts _, by simp⟩
  | append_singleton before m ih =>
    rw [List.foldl_concat]
    have hold : ∀ m' ∈ before, m'.container.types ⊆ ts :=
      fun m' hm' => hbefore m' (List.mem_append_left _ hm')
    exact (ih hold).addMember huniform hold (hbefore m (by simp))

/-- A member that was looked at before can only repeat a report. -/
theorem Processed.exists_report (h : Processed ts before s) (huniform : AreUniform ts)
    (hm : m ∈ before) (hts : m.container.types ⊆ ts) : ∃ report : Option Diagnostic,
      ImportsPass.addMember rule s m = { s with diagnostics := s.diagnostics ++ report.toList } ∧
      ∀ d ∈ report, d ∈ s.diagnostics ∧ m.container.IsBlocked .imports d := by
  unfold ImportsPass.addMember
  cases hb : Binding.ofMember? m with
  | none => exact ⟨none, by rw [Option.toList_none, List.append_nil], by simp⟩
  | some b =>
    have hpass : s.tree.pass = .imports := h.extends_empty.pass_eq
    have hfinished := h.finished m hm b hb
    obtain rfl := Binding.target_of_ofMember? hb
    have hobstacle := h.extends_empty.obstacle?_eq huniform.agreeOnExtension hts
    obtain ⟨outcome, hinsert⟩ := hfinished.insert hobstacle Effects.report (accept rule b)
      ⟨s.slots, s.diagnostics⟩
    refine ⟨_, ?_, fun d hd => hfinished.isBlocked_of_mem hpass hd⟩
    dsimp only
    rw [add, hinsert, hpass]
    cases b.target.container.obstacle? with
    | none => simp
    | some o => rfl

/-- Repeated members repeat reports of types that cannot be extended. -/
theorem added_of_repeats (rule : AccessRule) {members others : List Member}
    (huniform : AreUniform (enclosingTypes members))
    (h : Repeats (fun _ => True) members others) : ∃ reports,
      added rule others = { added rule members with diagnostics := reports } ∧
      Repeats (fun d => ∃ m, members.count m < others.count m ∧ m.container.IsBlocked .imports d)
        (added rule members).diagnostics reports := by
  rw [added_eq, added_eq]
  refine repeats_foldl (addsReports_addMember rule) h fun before hsub m hm => ?_
  have hbefore : ∀ m ∈ before, m.container.types ⊆ enclosingTypes members :=
    fun m hm => types_subset_enclosingTypes (hsub hm)
  exact (processed_foldl rule huniform hbefore).exists_report huniform hm (hbefore m hm)

variable {c : Compilation} {members others : List Member}
  {printer : DeclarationTree Binding → SlotTable → String}

/-- Repeated members change nothing but the diagnostics. -/
theorem run_of_repeats (huniform : AreUniform (enclosingTypes members))
    (h : Repeats (fun _ => True) members others) :
    (run c others rule printer).tree = (run c members rule printer).tree ∧
    (run c others rule printer).slots = (run c members rule printer).slots ∧
    (run c others rule printer).output = (run c members rule printer).output ∧
    (run c others rule printer).isAborted = (run c members rule printer).isAborted ∧
    Repeats (IsRepeatedReport .imports members others) (run c members rule printer).diagnostics
      (run c others rule printer).diagnostics := by
  have hnil := h.filterMap_eq_nil_iff Binding.ofMember?
  by_cases hopen : members.filterMap Binding.ofMember? = [] ∨ c.allowsUnsafeCode = true
  · obtain ⟨reports, hadded, hreports⟩ := added_of_repeats rule huniform h
    have hreports' := hreports.mono fun d hd => isRepeatedReport_of_isBlocked hd
    rw [run_eq_print hopen, run_eq_print (hopen.imp_left hnil.2), build_extract, build_extract,
      hadded]
    unfold print
    dsimp only
    split
    · exact ⟨rfl, rfl, rfl, rfl, hreports'⟩
    · exact ⟨rfl, rfl, rfl, rfl, hreports'⟩
  · rw [run_of_gated hopen, run_of_gated (mt (Or.imp_left hnil.1) hopen)]
    exact ⟨rfl, rfl, rfl, rfl, .refl⟩

end ImportsPass

/-! ## The constants pass -/

namespace ConstantsPass

variable {ts : List EnclosingType} {before : List Member} {m : Member} {s : ConstantsPass}

def diagnosticField : DiagnosticField ConstantsPass where
  get := diagnostics
  set := fun ds s => { s with diagnostics := ds }
  get_set := fun _ _ => rfl
  set_get := fun _ => rfl
  set_set := fun _ _ _ => rfl

/-- Puts the constant of a member into the tree, if there is one. -/
def addMember (s : ConstantsPass) (m : Member) : ConstantsPass :=
  match Constant.ofMember? m with
  | some c => add s c
  | none => s

theorem added_eq (members : List Member) : added members = members.foldl addMember {} := by
  rw [added, List.foldl_filterMap]
  congr 1
  funext s m
  rw [addMember]
  cases Constant.ofMember? m <;> rfl

theorem addsReports_add : AddsReports diagnosticField add := by
  intro s c
  have hset : ∀ ds, (diagnosticField.set ds s).tree = s.tree := fun _ => rfl
  unfold add DeclarationTree.insert
  simp only [hset]
  split
  · exact ⟨[], fun ds => by rw [List.append_nil]⟩
  · cases c.evaluate with
    | error error => exact ⟨[_], fun ds => rfl⟩
    | ok value =>
      cases s.tree.obstacle? c.target.container with
      | some o => exact ⟨[_], fun ds => rfl⟩
      | none =>
        dsimp only
        split
        · exact ⟨[], fun ds => by rw [List.append_nil]; rfl⟩
        · split
          · exact ⟨[], fun ds => by rw [List.append_nil]; rfl⟩
          · split
            · exact ⟨[], fun ds => by rw [List.append_nil]; rfl⟩
            · exact ⟨[], fun ds => by rw [List.append_nil]; rfl⟩

theorem addsReports_addMember : AddsReports diagnosticField addMember := by
  intro s m
  unfold addMember
  cases Constant.ofMember? m with
  | some c => exact addsReports_add s c
  | none => exact ⟨[], fun ds => by rw [List.append_nil]⟩

/-- A running pass knows the members that it has looked at or is finished with them. -/
structure Processed (ts : List EnclosingType) (before : List Member) (s : ConstantsPass) :
    Prop where
  extends_empty : Extends ts (.empty .constants) s.tree
  finished : ∀ m ∈ before, ∀ c, Constant.ofMember? m = some c → s.tree.isKnown m.id = true ∨
    (∃ value, c.evaluate = .ok value) ∧ s.tree.Finished s.diagnostics m.container m.id

theorem Processed.addMember (h : Processed ts before s) (huniform : AreUniform ts)
    (hbefore : ∀ m ∈ before, m.container.types ⊆ ts) (hm : m.container.types ⊆ ts) :
    Processed ts (before ++ [m]) (addMember s m) := by
  have hagree := huniform.agreeOnExtension
  have hsub : s.diagnostics ⊆ (ConstantsPass.addMember s m).diagnostics :=
    addsReports_addMember.get_subset s m
  have hstep : Extends ts s.tree (ConstantsPass.addMember s m).tree ∧
      ∀ c, Constant.ofMember? m = some c → (ConstantsPass.addMember s m).tree.isKnown m.id = true ∨
        (∃ value, c.evaluate = .ok value) ∧ (ConstantsPass.addMember s m).tree.Finished
          (ConstantsPass.addMember s m).diagnostics m.container m.id := by
    unfold ConstantsPass.addMember
    cases hc : Constant.ofMember? m with
    | none =>
      refine ⟨.refl ts s.tree, ?_⟩
      intro c hnone
      cases hnone
    | some c =>
      obtain rfl := Constant.target_of_ofMember? hc
      have hobstacle := h.extends_empty.obstacle?_eq hagree hm
      dsimp only
      unfold add
      split
      · rename_i hknown
        exact ⟨.refl ts s.tree, fun _ _ => .inl hknown⟩
      · cases hvalue : c.evaluate with
        | error error =>
          refine ⟨.refuse s.tree c.target.id, fun _ _ => .inl ?_⟩
          rw [DeclarationTree.isKnown_iff]
          exact .inl (DeclarationTree.mem_refused_refuse.2 (.inr rfl))
        | ok value =>
          have hreport : ∀ d (ds : List Diagnostic), id (report d ds) = id ds ++ [d] :=
            fun _ _ => rfl
          refine ⟨DeclarationTree.extends_insert hagree hm, ?_⟩
          intro c' hc'
          obtain rfl := Option.some.inj hc'
          exact .inr ⟨⟨value, hvalue⟩, DeclarationTree.finished_insert hobstacle id hreport⟩
  refine ⟨h.extends_empty.trans hstep.1, fun m' hm' c hc => ?_⟩
  -- a member that is known stays known, and what was finished stays finished
  rcases List.mem_append.1 hm' with hold | hnew
  · exact (h.finished m' hold c hc).imp (hstep.1.isKnown m'.id)
      fun hfinished => hfinished.imp_right fun hf => hf.mono hstep.1 (hbefore m' hold) hsub
  · obtain rfl := List.mem_singleton.1 hnew
    exact hstep.2 c hc

theorem processed_foldl (huniform : AreUniform ts)
    (hbefore : ∀ m ∈ before, m.container.types ⊆ ts) :
    Processed ts before (before.foldl addMember {}) := by
  induction before using List.reverseRecOn with
  | nil => exact ⟨.refl ts _, by simp⟩
  | append_singleton before m ih =>
    rw [List.foldl_concat]
    have hold : ∀ m' ∈ before, m'.container.types ⊆ ts :=
      fun m' hm' => hbefore m' (List.mem_append_left _ hm')
    exact (ih hold).addMember huniform hold (hbefore m (by simp))

/-- A member that was looked at before can only repeat a report. -/
theorem Processed.exists_report (h : Processed ts before s) (huniform : AreUniform ts)
    (hm : m ∈ before) (hts : m.container.types ⊆ ts) : ∃ report : Option Diagnostic,
      ConstantsPass.addMember s m = { s with diagnostics := s.diagnostics ++ report.toList } ∧
      ∀ d ∈ report, d ∈ s.diagnostics ∧ m.container.IsBlocked .constants d := by
  have hnothing : ∃ report : Option Diagnostic,
      s = { s with diagnostics := s.diagnostics ++ report.toList } ∧
      ∀ d ∈ report, d ∈ s.diagnostics ∧ m.container.IsBlocked .constants d :=
    ⟨none, by rw [Option.toList_none, List.append_nil], by simp⟩
  unfold ConstantsPass.addMember
  cases hc : Constant.ofMember? m with
  | none => exact hnothing
  | some c =>
    have hdone := h.finished m hm c hc
    obtain rfl := Constant.target_of_ofMember? hc
    dsimp only
    unfold add
    split
    · exact hnothing
    · rename_i hunknown
      obtain ⟨⟨value, hvalue⟩, hfinished⟩ := hdone.resolve_left hunknown
      have hpass : s.tree.pass = .constants := h.extends_empty.pass_eq
      have hobstacle := h.extends_empty.obstacle?_eq huniform.agreeOnExtension hts
      obtain ⟨outcome, hinsert⟩ := hfinished.insert hobstacle report
        (fun ds => (some value, ds)) s.diagnostics
      refine ⟨_, ?_, fun d hd => hfinished.isBlocked_of_mem hpass hd⟩
      rw [hvalue]
      dsimp only
      rw [hinsert, hpass]
      cases c.target.container.obstacle? with
      | none => simp
      | some o => rfl

/-- Repeated members repeat reports of types that cannot be extended. -/
theorem added_of_repeats {members others : List Member}
    (huniform : AreUniform (enclosingTypes members))
    (h : Repeats (fun _ => True) members others) : ∃ reports,
      added others = { added members with diagnostics := reports } ∧
      Repeats (fun d => ∃ m, members.count m < others.count m ∧ m.container.IsBlocked .constants d)
        (added members).diagnostics reports := by
  rw [added_eq, added_eq]
  refine repeats_foldl addsReports_addMember h fun before hsub m hm => ?_
  have hbefore : ∀ m ∈ before, m.container.types ⊆ enclosingTypes members :=
    fun m hm => types_subset_enclosingTypes (hsub hm)
  exact (processed_foldl huniform hbefore).exists_report huniform hm (hbefore m hm)

variable {c : Compilation} {members others : List Member}
  {printer : DeclarationTree EvaluatedConstant → String}

/-- Repeated members change nothing but the diagnostics. -/
theorem run_of_repeats (huniform : AreUniform (enclosingTypes members))
    (h : Repeats (fun _ => True) members others) :
    (run c others printer).tree = (run c members printer).tree ∧
    (run c others printer).output = (run c members printer).output ∧
    (run c others printer).isAborted = (run c members printer).isAborted ∧
    Repeats (IsRepeatedReport .constants members others) (run c members printer).diagnostics
      (run c others printer).diagnostics := by
  have hnil := h.filterMap_eq_nil_iff Constant.ofMember?
  by_cases hopen : members.filterMap Constant.ofMember? = [] ∨
      c.knowsType Compilation.readOnlySpan = true
  · obtain ⟨reports, hadded, hreports⟩ := added_of_repeats huniform h
    have hreports' := hreports.mono fun d hd => isRepeatedReport_of_isBlocked hd
    rw [run_eq_print hopen, run_eq_print (hopen.imp_left hnil.2), build_extract, build_extract,
      hadded]
    unfold print
    dsimp only
    split
    · exact ⟨rfl, rfl, rfl, hreports'⟩
    · exact ⟨rfl, rfl, rfl, hreports'⟩
  · rw [run_of_gated hopen, run_of_gated (mt (Or.imp_left hnil.1) hopen)]
    exact ⟨rfl, rfl, rfl, .refl⟩

end ConstantsPass

/-- Declaring members again leaves the declarations that were accepted, their slots and the output
as they are; at most it repeats reports of types that cannot be extended. -/
theorem repeats_run (c : Compilation) (members others : List Member) (rule : AccessRule)
    (loader : DeclarationTree Binding → SlotTable → String)
    (printer : DeclarationTree EvaluatedConstant → String)
    (huniform : AreUniform (enclosingTypes members))
    (hrepeats : Repeats (fun _ => True) members others) :
    let imports := ImportsPass.run c members rule loader
    let imports' := ImportsPass.run c others rule loader
    let constants := ConstantsPass.run c members printer
    let constants' := ConstantsPass.run c others printer
    (imports'.tree = imports.tree ∧ imports'.slots = imports.slots ∧
      imports'.output = imports.output ∧ imports'.isAborted = imports.isAborted ∧
      Repeats (IsRepeatedReport .imports members others) imports.diagnostics
        imports'.diagnostics) ∧
    (constants'.tree = constants.tree ∧ constants'.output = constants.output ∧
      constants'.isAborted = constants.isAborted ∧
      Repeats (IsRepeatedReport .constants members others) constants.diagnostics
        constants'.diagnostics) :=
  ⟨ImportsPass.run_of_repeats huniform hrepeats, ConstantsPass.run_of_repeats huniform hrepeats⟩

/-- The second declaration is repeated, which stands in a type that cannot be extended. -/
theorem repeats_mixedDeclarations :
    let others := mixedDeclarations.take 3 ++ mixedDeclarations[1] :: mixedDeclarations.drop 3
    let imports := ImportsPass.run {} mixedDeclarations NamedType.isReachable fun _ _ => ""
    let imports' := ImportsPass.run {} others NamedType.isReachable fun _ _ => ""
    AreUniform (enclosingTypes mixedDeclarations) ∧
    Repeats (fun _ => True) mixedDeclarations others ∧
    imports.diagnostics.length = 2 ∧ imports'.diagnostics.length = 3 ∧
    imports.tree.memberCount = 1 ∧ imports'.tree = imports.tree ∧
    Repeats (IsRepeatedReport .imports mixedDeclarations others) imports.diagnostics
      imports'.diagnostics := by
  have huniform : AreUniform (enclosingTypes mixedDeclarations) := by decide
  have hsplit : Repeats (fun _ => True) mixedDeclarations
      (mixedDeclarations.take 3 ++ mixedDeclarations.drop 3) := by
    rw [List.take_append_drop]
    exact .refl
  have hrepeats := hsplit.again (x := mixedDeclarations[1]) (by decide) trivial
  obtain ⟨⟨htree, -, -, -, hreports⟩, -⟩ := repeats_run {} mixedDeclarations _ NamedType.isReachable
    (fun _ _ => "") (fun _ => "") huniform hrepeats
  exact ⟨huniform, hrepeats, by decide, by decide, by decide, htree, hreports⟩

end NativeBindings
