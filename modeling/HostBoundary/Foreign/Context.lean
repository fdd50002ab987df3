import HostBoundary.Environment.Lifetime
import HostBoundary.Heap.Evaluate

namespace HostBoundary.Foreign

variable {σ : Type}

-- Foreign code knows an engine by the number of its context. Numbers are not used twice.
def registerContext (e : EngineId) : Act σ UInt64 :=
  modifyGet fun w =>
    (w.nextContext,
      { w with
        contexts := w.contexts ++ [(w.nextContext, e)]
        nextContext := w.nextContext + 1 })

def newContext (limits : HeapLimits) : Act σ UInt64 := do
  let e ← modifyGet (·.addEngine { heap := .fresh limits })
  registerContext e

-- Ends a context and tells its environment. The engine goes unless someone else holds it.
def endContext (host : Host σ) (context : UInt64) : Act σ Bool := do
  let some e := (← get).contexts.lookup context | return false
  modify fun w => { w with contexts := w.contexts.filter (·.1 ≠ context) }
  Environment.teardown e
  Environment.reap host e
  return true

def getEnvironment (context : UInt64) (version : Int32) : Act σ (Option ForeignEnvironment) := do
  let some e := (← get).contexts.lookup context | return none
  Environment.negotiate e version

def release (host : Host σ) (env : ForeignEnvironment) : Act σ Unit :=
  Environment.drop host env.environment

end HostBoundary.Foreign
