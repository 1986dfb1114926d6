/-!
# Phases

A pass is a list of phases over one state. It stops after a phase that aborts it.
-/

namespace NativeBindings

/-- A named step of a pass. -/
structure Phase (σ : Type) where
  name : String
  description : String
  run : σ → σ

/-- Runs phases in order as long as the state is not aborted. -/
def Phase.runAll {σ : Type} (isAborted : σ → Bool) (phases : List (Phase σ)) (s : σ) : σ :=
  phases.foldl (fun s p => if isAborted s then s else p.run s) s

end NativeBindings
