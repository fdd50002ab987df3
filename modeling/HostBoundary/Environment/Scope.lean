import HostBoundary.Engine.Collection
import HostBoundary.Environment.Conversion

namespace HostBoundary.Environment

variable {σ : Type}

def pushScope (n : EnvironmentId) : Act σ Unit := do
  onHeap n fun h => ((), h.pushScope)
  Act.updateEnvironment n fun env => { env with scopeDepth := env.scopeDepth + 1 }

def popScope (host : Host σ) (n : EnvironmentId) : Act σ Unit := do
  let env ← Act.environment n
  if env.scopeDepth ≠ 0 then
    Act.updateEnvironment n ({ · with scopeDepth := env.scopeDepth - 1 })
    Engine.popScope host env.engine

end HostBoundary.Environment
