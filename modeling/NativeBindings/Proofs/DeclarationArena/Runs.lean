import NativeBindings.Proofs.DeclarationArena.Forest
import NativeBindings.Proofs.DeclarationArena.Insertion
import NativeBindings.Proofs.DeclarationTree.History

/-!
# Runs of operations on a declaration arena

Operations on an arena do what they do on the tree that it stores, with the same history. So after
any run from the empty arena, the nodes form a forest, every walk over it ends by itself and comes to
each node once, and what the arena shows is what the tree shows.

## Main definitions

- `TreeOperation.runAllOn` — a run of operations on an arena, with its history
- `DeclarationArena.IsTraversed` — what the walks over an arena come to
- `DeclarationArena.Shows` — an arena looks like a tree

## Main statements

- `DeclarationArena.isForest_runAllOn` — arenas are forests after every run
-/

namespace NativeBindings

variable {α σ : Type}

/-! ## Observed runs -/

/-- An insertion whose callback writes down its answer. -/
def DeclarationArena.observe (a : DeclarationArena α) (c : Container) (member : Symbol)
    (report : Diagnostic → σ → σ) (accept : σ → Option α × σ) (s : σ) :
    Option (TreeEvent α × DeclarationArena α × σ) := do
  let (outcome, a', s', answer) ← a.insert c member
    (fun d (s, answer) => (report d s, answer))
    (fun (s, _) => ((accept s).1, (accept s).2, some (accept s).1)) (s, none)
  return (.insertion member outcome answer, a', s')

/-- One operation, with what can be seen of it. -/
def TreeOperation.runOn (report : Diagnostic → σ → σ) (a : DeclarationArena α) (s : σ) :
    TreeOperation α σ → Option (TreeEvent α × DeclarationArena α × σ)
  | insert c member accept => a.observe c member report accept s
  | refuse member => some (.refusal member, a.refuse member, s)
  | prune => a.prune?.map fun a' => (.pruning, a', s)

/-- Operations in order, with their history. -/
def TreeOperation.runAllOn (report : Diagnostic → σ → σ) (a : DeclarationArena α) (s : σ) :
    List (TreeOperation α σ) → Option (List (TreeEvent α) × DeclarationArena α × σ)
  | [] => some ([], a, s)
  | op :: ops => do
    let (e, a', s') ← op.runOn report a s
    let (es, r) ← runAllOn report a' s' ops
    return (e :: es, r)

namespace DeclarationArena

variable {a : DeclarationArena α} {t : DeclarationTree α}

/-! ## What can be seen of an arena -/

/-- The walks over an arena come to all nodes that can be reached, and to no node twice. What a scan
of all types finds, they find. -/
structure IsTraversed (a : DeclarationArena α) : Prop where
  entries : Walk.IsTraversal Walk.entries a
  text : ∀ p : TreePrinter α, Walk.IsTraversal (Walk.text p) a
  prune : Walk.IsTraversal Walk.prune a
  /-- The members of all types in the table are those that the walk lists. -/
  scan : ∃ entries w, (Walk.entries a.size).run ⟨a, []⟩ = some (entries, w) ∧
    (a.types.flatMap (·.members)).Perm entries
  isKnown_iff : ∀ member, a.isKnown member = true ↔
    member ∈ a.refused ∨ ∃ i cell, a.Reaches (.ofType i) ∧ a.types[i]? = some cell ∧
      member ∈ cell.members.map (·.1)

/-- The arena looks like the tree. -/
structure Shows (a : DeclarationArena α) (t : DeclarationTree α) : Prop where
  members?_eq : a.members? = some t.members
  fragments?_eq : ∀ p, a.fragments? p = some (t.fragments p)
  isKnown_eq : ∀ member, a.isKnown member = t.isKnown member
  isEmpty?_eq : a.isEmpty? = some t.isEmpty

namespace Stores

theorem isTraversed (h : a.Stores t) (ht : t.IsNumbered) : a.IsTraversed where
  entries := h.isTraversal_foldNamespace ht _ _
  text _ := h.isTraversal_foldNamespace ht _ _
  prune := h.isTraversal_prune ht
  scan := ⟨_, _, h.run_entries (h.height_le_size ht), h.members_perm ht⟩
  isKnown_iff := h.isKnown_iff_reaches ht

theorem shows (h : a.Stores t) (ht : t.IsNumbered) : a.Shows t where
  members?_eq := h.members?_eq ht
  fragments?_eq := h.fragments?_eq ht
  isKnown_eq := h.isKnown_eq ht
  isEmpty?_eq := h.isEmpty?_eq

/-! ## Runs on a stored tree -/

/-- An operation does on an arena what it does on the tree that the arena stores. -/
theorem exists_runOn (h : a.Stores t) (ht : t.IsNumbered) (report : Diagnostic → σ → σ) (s : σ)
    (op : TreeOperation α σ) :
    ∃ a', op.runOn report a s = some ((op.run report t s).1, a', (op.run report t s).2.2) ∧
      a'.Stores (op.run report t s).2.1 ∧ (op.run report t s).2.1.IsNumbered := by
  cases op with
  | insert c member accept =>
    -- the callbacks also write down the answer
    let report' : Diagnostic → σ × Option (Option α) → σ × Option (Option α) :=
      fun d (s, answer) => (report d s, answer)
    let accept' : σ × Option (Option α) → Option α × σ × Option (Option α) :=
      fun (s, _) => ((accept s).1, (accept s).2, some (accept s).1)
    obtain ⟨a', hrun, hstores⟩ := h.exists_insert ht c member report' accept' (s, none)
    refine ⟨a', ?_, hstores, ht.insert c member report' accept' (s, none)⟩
    rw [TreeOperation.runOn, observe, hrun]
    rfl
  | refuse member => exact ⟨a.refuse member, rfl, h.refuse member, ht.refuse member⟩
  | prune =>
    obtain ⟨a', hrun, hstores⟩ := h.exists_prune? ht
    refine ⟨a', ?_, hstores, ht.prune⟩
    rw [TreeOperation.runOn, hrun]
    rfl

/-- A run of operations does on an arena what it does on the tree that the arena stores. -/
theorem exists_runAllOn (h : a.Stores t) (ht : t.IsNumbered) (report : Diagnostic → σ → σ) (s : σ)
    (ops : List (TreeOperation α σ)) :
    let r := TreeOperation.runAll report t s ops
    ∃ a', TreeOperation.runAllOn report a s ops = some (r.1, a', r.2.2) ∧ a'.Stores r.2.1 ∧
      r.2.1.IsNumbered := by
  induction ops generalizing a t s with
  | nil => exact ⟨a, rfl, h, ht⟩
  | cons op ops ih =>
    obtain ⟨a', hrun, hstores, hnumbered⟩ := h.exists_runOn ht report s op
    obtain ⟨a'', hrun', hstores', hnumbered'⟩ :=
      ih hstores hnumbered (op.run report t s).2.2
    refine ⟨a'', ?_, hstores', hnumbered'⟩
    rw [TreeOperation.runAllOn, hrun]
    simp only [Option.bind_eq_bind, Option.bind_some, hrun']
    rfl

end Stores

/-- After every run of operations from the empty arena, its nodes form a forest with all members below
the global namespace, its walks are traversals, and it looks like the tree after the same run, with
the same history. -/
theorem isForest_runAllOn (pass : Pass) (report : Diagnostic → σ → σ) (s : σ)
    (ops : List (TreeOperation α σ)) :
    let r := TreeOperation.runAll report (.empty pass) s ops
    ∃ a, TreeOperation.runAllOn report (empty pass) s ops = some (r.1, a, r.2.2) ∧ a.IsForest ∧
      a.IsTraversed ∧ a.Shows r.2.1 := by
  obtain ⟨a, hrun, hstores, hnumbered⟩ :=
    (stores_empty pass).exists_runAllOn (DeclarationTree.isNumbered_empty pass) report s ops
  exact ⟨a, hrun, hstores.isForest hnumbered, hstores.isTraversed hnumbered,
    hstores.shows hnumbered⟩

end DeclarationArena
end NativeBindings
