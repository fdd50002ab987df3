import HostBoundary.Heap.Collect
import HostBoundary.Host

namespace HostBoundary.Engine

variable {σ : Type}

def collectGarbage (host : Host σ) (e : EngineId) : Act σ Unit := do
  let reclaimed ← Act.onHeap e (·.collect)
  reclaimed.hooks.forM fun (hook, fields) => host.reclaim hook fields
  reclaimed.releases.forM fun (hook, memory) => host.release hook memory

def popScope (host : Host σ) (e : EngineId) : Act σ Unit := do
  if ← Act.onHeap e (·.popScope) then collectGarbage host e

-- The only command an engine knows is to collect. The answer is always null.
def command (host : Host σ) (e : EngineId) (command : Int32) : Act σ Pointer := do
  if command = 1 then collectGarbage host e
  return 0

end HostBoundary.Engine
