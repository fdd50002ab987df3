import HostBoundary.Wire
import HostBoundary.World

namespace HostBoundary

-- An environment as foreign code holds it. Holding one counts as one reference.
structure ForeignEnvironment where
  environment : EnvironmentId
  surface : Surface
  deriving DecidableEq

-- The native side of the boundary: what happens when the engine calls a routine of the
-- host. Foreign routines see handle words and wire values, and answer whether they
-- succeeded along with the result they wrote.
structure Host (σ : Type) where
  function : Code → EnvironmentId → Option Handle → List Tagged → Act σ (Option Tagged)
  getter : Code → EnvironmentId → Handle → Act σ (Option Tagged)
  setter : Code → EnvironmentId → Handle → Tagged → Act σ Bool
  foreignFunction : Code → ForeignEnvironment → UInt64 → List WireValue → Act σ (Bool × WireValue)
  foreignGetter : Code → ForeignEnvironment → UInt64 → Act σ (Bool × WireValue)
  foreignSetter : Code → ForeignEnvironment → UInt64 → WireValue → Act σ Bool
  reclaim : ReclaimHook → Fields → Act σ Unit
  release : ReleaseHook → HostMemory → Act σ Unit
  jobBudget : Nat

namespace Host

variable {σ : Type}

def inert : Host σ where
  function _ _ _ _ := pure none
  getter _ _ _ := pure none
  setter _ _ _ _ := pure true
  foreignFunction _ _ _ _ := pure (true, .null)
  foreignGetter _ _ _ := pure (true, .null)
  foreignSetter _ _ _ _ := pure true
  reclaim _ _ := pure ()
  release _ _ := pure ()
  jobBudget := 0

end Host

end HostBoundary
