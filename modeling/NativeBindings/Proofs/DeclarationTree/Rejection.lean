import Mathlib.Data.Nat.Find
import NativeBindings.Proofs.DeclarationTree.Pruning
import NativeBindings.Proofs.DeclarationTree.Reinsertion
import NativeBindings.Proofs.Fragment.Nesting

/-!
# Rejected insertions

An insertion adds the nodes of its container before it can fail, so a rejected one may leave nodes
behind. They have no members, and once the tree is pruned nothing of them is left. An insertion that
is stopped at a type of its container says so itself, in one diagnostic about the outermost type
that has no node and cannot be extended.

## Main definitions

- `DeclarationTree.IsObstacle` — a type of a container that has no node and cannot be extended
- `DeclarationTree.PrunesLike` — two trees that hold the same once they are pruned
- `DeclarationTree.StopsWith` — an insertion that ends with a diagnostic of its own
- `DeclarationTree.RejectsCleanly` — what a rejected insertion leaves behind and reports

## Main statements

- `DeclarationTree.obstacle?_eq_some_iff` — the search for an obstacle finds the outermost one
- `DeclarationTree.prunesLike_insert` — a rejected insertion adds nodes at most
- `DeclarationTree.rejectsCleanly_insert` — insertions are rejected without a trace
-/

namespace NativeBindings

variable {α : Type}

/-! ## Nodes without members -/

namespace TypeForest

/-- Pruning takes out the nodes that were added for a path. -/
theorem prune_ensure (next : ℕ) (ts : List EnclosingType) (f : TypeForest α) :
    (f.ensure next ts).1.prune = f.prune := by
  induction f generalizing next ts with
  | none =>
    rw [prune, prune_eq_none_iff, entries_ensure]
    rfl
  | node number type members nested siblings ihNested ihSiblings =>
    cases ts with
    | nil => rfl
    | cons t ts =>
      simp only [ensure]
      split
      · simp only [prune, ihNested]
      · simp only [prune, ihSiblings]

end TypeForest

namespace NamespaceForest

/-- Pruning takes out the nodes that were added for a path. -/
theorem prune_ensure (next : ℕ) (ns : List Namespace) (f : NamespaceForest α) :
    (f.ensure next ns).1.prune = f.prune := by
  induction f generalizing next ns with
  | none =>
    rw [prune, prune_eq_none_iff, entries_ensure]
    rfl
  | node number decl types children siblings ihChildren ihSiblings =>
    cases ns with
    | nil => rfl
    | cons n ns =>
      simp only [ensure]
      split
      · simp only [prune, ihChildren]
      · simp only [prune, ihSiblings]

/-- Types that are pruned alike can stand for each other. -/
theorem prune_setTypesAt {new : TypeForest α} {ns : List Namespace} {f : NamespaceForest α}
    (h : new.prune = (f.typesAt ns).prune) : (f.setTypesAt new ns).prune = f.prune := by
  induction f generalizing ns with
  | none => cases ns <;> rfl
  | node number decl types children siblings ihChildren ihSiblings =>
    cases ns with
    | nil => rfl
    | cons n ns =>
      simp only [typesAt] at h
      simp only [setTypesAt]
      split
      · rename_i hid
        rw [if_pos hid] at h
        split
        · rename_i hns
          rw [if_pos hns] at h
          simp only [prune, h]
        · rename_i hns
          rw [if_neg hns] at h
          simp only [prune, ihChildren h]
      · rename_i hid
        rw [if_neg hid] at h
        simp only [prune, ihSiblings h]

end NamespaceForest

/-! ## Obstacles -/

/-- The first index at which `S` holds. -/
def IsFirst (S : ℕ → EnclosingType → Prop) (i : ℕ) (u : EnclosingType) : Prop :=
  S i u ∧ ∀ j < i, ∀ v, ¬ S j v

/-- Without a first element all indices go down by one. -/
theorem exists_isFirst_succ {S R : ℕ → EnclosingType → Prop} (hzero : ∀ v, ¬ S 0 v)
    (hsucc : ∀ i v, S (i + 1) v ↔ R i v) {depth d : ℕ} {u : EnclosingType} :
    (∃ i, d = depth + i ∧ IsFirst S i u) ↔ ∃ i, d = depth + 1 + i ∧ IsFirst R i u := by
  constructor
  · rintro ⟨i, hd, h, hfirst⟩
    cases i with
    | zero => exact absurd h (hzero u)
    | succ i =>
      refine ⟨i, by omega, (hsucc i u).1 h, fun j hj v hv => ?_⟩
      exact hfirst (j + 1) (by omega) v ((hsucc j v).2 hv)
  · rintro ⟨i, hd, h, hfirst⟩
    refine ⟨i + 1, by omega, (hsucc i u).2 h, fun j hj v hv => ?_⟩
    cases j with
    | zero => exact hzero v hv
    | succ j => exact hfirst j (by omega) v ((hsucc j v).1 hv)

namespace TypeForest

/-- The type at an index of a path has no node and cannot be given one. -/
structure Stops (f : TypeForest α) (ts : List EnclosingType) (i : ℕ) (u : EnclosingType) : Prop where
  get : ts[i]? = some u
  no_node : f.membersAt? (ts.take (i + 1)) = Option.none
  not_extensible : u.isExtensible = false

section Stops

variable {number i depth : ℕ} {type t u : EnclosingType} {members : List (Symbol × α)}
  {nested siblings : TypeForest α} {ts : List EnclosingType}

theorem stops_none_succ :
    (none : TypeForest α).Stops (t :: ts) (i + 1) u ↔ (none : TypeForest α).Stops ts i u :=
  ⟨fun h => ⟨h.get, membersAt?_none _, h.not_extensible⟩,
    fun h => ⟨h.get, membersAt?_none _, h.not_extensible⟩⟩

theorem not_stops_zero (hid : type.id = t.id) :
    ¬ (node number type members nested siblings).Stops (t :: ts) 0 u := by
  intro h
  have hnone := h.no_node
  simp [membersAt?, hid] at hnone

theorem stops_succ (hid : type.id = t.id) :
    (node number type members nested siblings).Stops (t :: ts) (i + 1) u ↔ nested.Stops ts i u := by
  -- the path goes on below the type
  have hbelow (hget : ts[i]? = some u) :
      (node number type members nested siblings).membersAt? ((t :: ts).take (i + 1 + 1)) =
        nested.membersAt? (ts.take (i + 1)) := by
    have hne : ts ≠ [] := by
      rintro rfl
      cases hget
    simp [membersAt?, hid, hne]
  constructor
  · intro h
    exact ⟨h.get, (hbelow h.get).symm.trans h.no_node, h.not_extensible⟩
  · intro h
    exact ⟨h.get, (hbelow h.get).trans h.no_node, h.not_extensible⟩

theorem stops_of_ne (hid : type.id ≠ t.id) :
    (node number type members nested siblings).Stops (t :: ts) i u ↔
      siblings.Stops (t :: ts) i u := by
  have hbehind : (node number type members nested siblings).membersAt? ((t :: ts).take (i + 1)) =
      siblings.membersAt? ((t :: ts).take (i + 1)) := by
    simp [membersAt?, hid]
  exact ⟨fun h => ⟨h.get, hbehind.symm.trans h.no_node, h.not_extensible⟩,
    fun h => ⟨h.get, hbehind.trans h.no_node, h.not_extensible⟩⟩

end Stops

theorem obstacle?_none_cons (depth : ℕ) (t : EnclosingType) (ts : List EnclosingType) :
    (none : TypeForest α).obstacle? depth (t :: ts) =
      if t.isExtensible then (none : TypeForest α).obstacle? (depth + 1) ts
      else some ⟨depth, t⟩ := by
  cases ts <;> cases h : t.isExtensible <;> simp [obstacle?, h]

/-- The search for an obstacle finds the first type at which a path stops. -/
theorem obstacle?_eq_some_iff {f : TypeForest α} {ts : List EnclosingType} {depth : ℕ}
    {o : Obstacle} : f.obstacle? depth ts = some o ↔
      ∃ i, o.depth = depth + i ∧ IsFirst (f.Stops ts) i o.type := by
  induction f generalizing depth ts with
  | none =>
    induction ts generalizing depth with
    | nil =>
      have hnever (i : ℕ) : ¬ (none : TypeForest α).Stops [] i o.type := fun h => by cases h.get
      simp [obstacle?, IsFirst, hnever]
    | cons t ts ih =>
      rw [obstacle?_none_cons]
      split
      · rename_i hext
        have hzero (v : EnclosingType) : ¬ (none : TypeForest α).Stops (t :: ts) 0 v := by
          intro h
          obtain rfl : t = v := by simpa using h.get
          exact Bool.false_ne_true (h.not_extensible.symm.trans hext)
        rw [ih, exists_isFirst_succ hzero fun i v => stops_none_succ]
      · rename_i hext
        have hstop : (none : TypeForest α).Stops (t :: ts) 0 t :=
          ⟨rfl, membersAt?_none _, by simpa using hext⟩
        constructor
        · rintro ⟨⟩
          exact ⟨0, rfl, hstop, fun j hj => absurd hj (Nat.not_lt_zero j)⟩
        · rintro ⟨i, hdepth, h, hfirst⟩
          cases i with
          | zero =>
            obtain rfl : t = o.type := by simpa using h.get
            rw [← Nat.add_zero depth, ← hdepth]
          | succ i => exact absurd hstop (hfirst 0 (Nat.succ_pos i) t)
  | node number type members nested siblings ihNested ihSiblings =>
    cases ts with
    | nil =>
      have hnever (i : ℕ) : ¬ (node number type members nested siblings).Stops [] i o.type :=
        fun h => by cases h.get
      simp [obstacle?, IsFirst, hnever]
    | cons t ts =>
      simp only [obstacle?]
      split
      · rename_i hid
        rw [ihNested, exists_isFirst_succ (fun v => not_stops_zero hid) fun i v => stops_succ hid]
      · rename_i hid
        rw [ihSiblings]
        simp only [IsFirst, stops_of_ne hid]

end TypeForest

/-- The container of the type at the given depth. -/
def Container.upTo (c : Container) (depth : ℕ) : Container :=
  { c with types := c.types.take (depth + 1) }

namespace DeclarationTree

/-- The innermost type of a container has a node. -/
def HasNode (t : DeclarationTree α) (c : Container) : Prop := t.membersAt? c ≠ none

/-- A type of a container that has no node and cannot be given one. -/
structure IsObstacle (t : DeclarationTree α) (c : Container) (o : Obstacle) : Prop where
  get : c.types[o.depth]? = some o.type
  not_hasNode : ¬ t.HasNode (c.upTo o.depth)
  not_extensible : o.type.isExtensible = false

/-- The outermost obstacle of a container. -/
structure IsOutermost (t : DeclarationTree α) (c : Container) (o : Obstacle) : Prop where
  isObstacle : t.IsObstacle c o
  depth_le : ∀ o', t.IsObstacle c o' → o.depth ≤ o'.depth

variable {t : DeclarationTree α} {c : Container} {o : Obstacle}

theorem isObstacle_iff :
    t.IsObstacle c o ↔ (t.typesAt c.namespaces).Stops c.types o.depth o.type :=
  ⟨fun h => ⟨h.get, not_not.1 h.not_hasNode, h.not_extensible⟩,
    fun h => ⟨h.get, not_not.2 h.no_node, h.not_extensible⟩⟩

/-- The search for an obstacle finds the outermost one. -/
theorem obstacle?_eq_some_iff : t.obstacle? c = some o ↔ t.IsOutermost c o := by
  rw [obstacle?, TypeForest.obstacle?_eq_some_iff]
  constructor
  · rintro ⟨i, hdepth, h, hfirst⟩
    obtain rfl : o.depth = i := by omega
    refine ⟨isObstacle_iff.2 h, fun o' ho' => not_lt.1 fun hlt => ?_⟩
    exact hfirst o'.depth hlt o'.type (isObstacle_iff.1 ho')
  · intro h
    refine ⟨o.depth, (Nat.zero_add _).symm, isObstacle_iff.1 h.isObstacle, fun j hj v hv => ?_⟩
    exact absurd (h.depth_le ⟨j, v⟩ (isObstacle_iff.2 hv)) (not_le.2 hj)

theorem exists_isOutermost (h : t.IsObstacle c o) : ∃ o', t.IsOutermost c o' := by
  classical
  have hsome : ∃ depth o', t.IsObstacle c o' ∧ o'.depth = depth := ⟨_, o, h, rfl⟩
  obtain ⟨o', ho', hdepth⟩ := Nat.find_spec hsome
  exact ⟨o', ho', fun o'' ho'' => hdepth ▸ Nat.find_min' hsome ⟨o'', ho'', rfl⟩⟩

theorem exists_obstacle?_iff : (∃ o, t.obstacle? c = some o) ↔ ∃ o, t.IsObstacle c o := by
  simp only [obstacle?_eq_some_iff]
  constructor
  · rintro ⟨o, ho⟩
    exact ⟨o, ho.isObstacle⟩
  · rintro ⟨o, ho⟩
    exact exists_isOutermost ho

/-! ## Trees that are pruned alike -/

/-- Two trees hold the same once they are pruned. -/
structure PrunesLike (t t' : DeclarationTree α) : Prop where
  types : t.prune.types = t'.prune.types
  namespaces : t.prune.namespaces = t'.prune.namespaces

namespace PrunesLike

variable {t t' t'' : DeclarationTree α}

theorem trans (h : PrunesLike t t') (h' : PrunesLike t' t'') : PrunesLike t t'' :=
  ⟨h.types.trans h'.types, h.namespaces.trans h'.namespaces⟩

theorem fragments_eq (h : PrunesLike t t') (p : TreePrinter α) :
    t.prune.fragments p = t'.prune.fragments p := by
  rw [fragments, h.types, h.namespaces, fragments]

theorem members_eq (h : PrunesLike t t') : t.members = t'.members := by
  have hentries : t.prune.entries = t'.prune.entries := by
    rw [entries, h.types, h.namespaces, entries]
  rw [entries_prune, entries_prune] at hentries
  rw [members, hentries, members]

end PrunesLike

/-- Pruning takes out the nodes that were added for a container. -/
theorem prunesLike_ensure (t : DeclarationTree α) (c : Container) : PrunesLike (t.ensure c) t := by
  have hnamespaces : (t.ensureNamespaces c.namespaces).namespaces.prune = t.namespaces.prune :=
    NamespaceForest.prune_ensure _ _ _
  have htypes : (((t.ensureNamespaces c.namespaces).typesAt c.namespaces).ensure
      (t.ensureNamespaces c.namespaces).nextType c.types).1.prune =
        ((t.ensureNamespaces c.namespaces).typesAt c.namespaces).prune :=
    TypeForest.prune_ensure _ _ _
  rw [typesAt] at htypes
  by_cases hnil : c.namespaces.isEmpty = true
  · rw [if_pos hnil] at htypes
    refine ⟨?_, ?_⟩ <;> simp only [ensure, setTypesAt, typesAt, if_pos hnil, prune]
    · exact htypes
    · exact hnamespaces
  · rw [if_neg hnil] at htypes
    refine ⟨?_, ?_⟩ <;> simp only [ensure, setTypesAt, typesAt, if_neg hnil, prune]
    · rfl
    · exact (NamespaceForest.prune_setTypesAt htypes).trans hnamespaces

theorem prunesLike_refuse (t : DeclarationTree α) (member : Symbol) :
    PrunesLike (t.refuse member) t := by
  unfold refuse
  split <;> exact ⟨rfl, rfl⟩

/-! ## Rejected insertions -/

variable {σ : Type} {member : Symbol} {report : Diagnostic → σ → σ} {accept : σ → Option α × σ}
  {s : σ}

/-- A rejected insertion adds nodes at most. -/
theorem prunesLike_insert (h : (t.insert c member report accept s).1 = .rejected) :
    PrunesLike (t.insert c member report accept s).2.1 t := by
  have hensure := prunesLike_ensure t c
  have hins := t.insert_inserts c member report accept s
  generalize t.insert c member report accept s = r at h hins ⊢
  cases hins with
  | blocked o _ => exact hensure
  | untyped _ => exact hensure
  | present _ => cases h
  | refused _ _ => exact hensure
  | accepted value s' _ _ _ _ _ => cases h
  | declined s' _ _ _ _ _ => exact (prunesLike_refuse _ member).trans hensure

/-- Without an obstacle an insertion leaves the reports to `accept`. -/
theorem insert_state_of_obstacle?_eq_none (h : t.obstacle? c = none) :
    (t.insert c member report accept s).2.2 = s ∨
      (t.insert c member report accept s).2.2 = (accept s).2 := by
  have hins := t.insert_inserts c member report accept s
  generalize t.insert c member report accept s = r at hins ⊢
  cases hins with
  | blocked o ho =>
    rw [h] at ho
    cases ho
  | untyped _ => exact .inl rfl
  | present _ => exact .inl rfl
  | refused _ _ => exact .inl rfl
  | accepted value s' _ _ _ _ haccept => exact .inr (congrArg Prod.snd haccept).symm
  | declined s' _ _ _ _ haccept => exact .inr (congrArg Prod.snd haccept).symm

/-- An insertion ends before `accept` is asked, and reports one diagnostic. -/
def StopsWith (t : DeclarationTree α) (c : Container) (member : Symbol) (d : Diagnostic) : Prop :=
  ∀ (σ : Type) (report : Diagnostic → σ → σ) (accept : σ → Option α × σ) (s : σ),
    (t.insert c member report accept s).1 = .rejected ∧
      (t.insert c member report accept s).2.2 = report d s

theorem stopsWith_of_obstacle (h : t.obstacle? c = some o) :
    t.StopsWith c member (obstacleDiagnostic t.pass c o) := by
  intro σ report accept s
  rw [insert_of_obstacle h]
  exact ⟨rfl, rfl⟩

/-- An insertion that stops has met an obstacle and reports it. -/
theorem StopsWith.exists_obstacle {d : Diagnostic} (h : t.StopsWith c member d) :
    ∃ o, t.obstacle? c = some o ∧ d = obstacleDiagnostic t.pass c o := by
  cases hobstacle : t.obstacle? c with
  | some o =>
    -- a state that keeps the last report tells the two diagnostics apart
    have hlast := (h (Option Diagnostic) (fun d _ => some d) (fun s => (none, s)) none).2
    rw [insert_of_obstacle hobstacle] at hlast
    exact ⟨o, rfl, (Option.some.inj hlast).symm⟩
  | none =>
    have hlast := (h (Option Diagnostic) (fun d _ => some d) (fun s => (none, s)) none).2
    rcases insert_state_of_obstacle?_eq_none hobstacle with hstate | hstate
    · cases hlast.symm.trans hstate
    · cases hlast.symm.trans hstate

/-- The report of a type that cannot be extended, by its parts. -/
structure IsObstacleReport (c : Container) (o : Obstacle) (d : Diagnostic) : Prop where
  problem : d.problem = .unsupportedTypeDeclaration
  location : d.location = o.type.location
  message : startsWith
    ("The type declaration of \"" ++ c.qualifiedName (o.depth + 1) ++ "\" must be a 'partial' type")
    d.message = true

theorem isObstacleReport_obstacleDiagnostic (pass : Pass) (c : Container) (o : Obstacle) :
    IsObstacleReport c o (obstacleDiagnostic pass c o) where
  problem := rfl
  location := rfl
  message := by
    rw [startsWith_iff]
    simp [obstacleDiagnostic, toString, String.toList_append]

/-- What a rejected insertion leaves behind, and what an insertion reports by itself. -/
structure RejectsCleanly (t : DeclarationTree α) (c : Container) (member : Symbol) : Prop where
  /-- A rejected insertion does not change the members. -/
  members_eq : ∀ {σ : Type} (report : Diagnostic → σ → σ) (accept : σ → Option α × σ) (s : σ),
    (t.insert c member report accept s).1 = .rejected →
      (t.insert c member report accept s).2.1.members = t.members
  /-- The nodes that a rejected insertion has added are gone once the tree is pruned. -/
  fragments_eq : ∀ {σ : Type} (report : Diagnostic → σ → σ) (accept : σ → Option α × σ) (s : σ),
    (t.insert c member report accept s).1 = .rejected →
      ∀ p, (t.insert c member report accept s).2.1.prune.fragments p = t.prune.fragments p
  /-- An insertion stops if a type has no node and cannot be given one, and at no other time. -/
  stops_iff : (∃ d, t.StopsWith c member d) ↔ ∃ o, t.IsObstacle c o
  /-- The outermost such type is the one that is reported. -/
  reports_outermost : ∀ d, t.StopsWith c member d → ∃ o, t.IsOutermost c o ∧ IsObstacleReport c o d
  /-- Otherwise an insertion reports nothing of its own. -/
  silent : (¬ ∃ o, t.IsObstacle c o) →
    ∀ {σ : Type} (report : Diagnostic → σ → σ) (accept : σ → Option α × σ) (s : σ),
      (t.insert c member report accept s).2.2 = s ∨
        (t.insert c member report accept s).2.2 = (accept s).2

/-- Whatever a container has in its way, an insertion that is rejected leaves no trace and names the
outermost type that stops it. -/
theorem rejectsCleanly_insert (t : DeclarationTree α) (c : Container) (member : Symbol) :
    t.RejectsCleanly c member where
  members_eq := fun report accept s h => (prunesLike_insert h).members_eq
  fragments_eq := fun report accept s h => (prunesLike_insert h).fragments_eq
  stops_iff := by
    rw [← exists_obstacle?_iff]
    constructor
    · rintro ⟨d, hd⟩
      obtain ⟨o, ho, -⟩ := hd.exists_obstacle
      exact ⟨o, ho⟩
    · rintro ⟨o, ho⟩
      exact ⟨_, stopsWith_of_obstacle ho⟩
  reports_outermost := by
    intro d hd
    obtain ⟨o, ho, rfl⟩ := hd.exists_obstacle
    exact ⟨o, obstacle?_eq_some_iff.1 ho, isObstacleReport_obstacleDiagnostic _ _ _⟩
  silent := by
    intro hnone σ report accept s
    rw [← exists_obstacle?_iff] at hnone
    exact insert_state_of_obstacle?_eq_none
      (Option.eq_none_iff_forall_ne_some.2 fun o ho => hnone ⟨o, ho⟩)

end DeclarationTree
end NativeBindings
