import HostBoundary.Engine.Call

namespace HostBoundary.Environment

variable {σ : Type} {α : Type}

def engineOf (n : EnvironmentId) : Act σ EngineId := do return (← Act.environment n).engine

def onHeap (n : EnvironmentId) (f : Heap → α × Heap) : Act σ α := do
  Act.onHeap (← engineOf n) f

def heapOf (n : EnvironmentId) : Act σ Heap := do Act.heap (← engineOf n)

def wrap (r : ObjectRef) : Handle := .transient r

def allocated (n : EnvironmentId) (f : Heap → ObjectRef × Heap) : Act σ Handle := do
  return wrap (← onHeap n f)

def allocated? (n : EnvironmentId) (f : Heap → Option ObjectRef × Heap) : Act σ (Option Handle) := do
  return (← onHeap n f).map wrap

def resolve (n : EnvironmentId) (handle : Handle) : Act σ (Option ObjectRef) :=
  onHeap n (·.resolveHandle handle)

def inspect (n : EnvironmentId) (handle : Handle) (f : Heap → ObjectRef → Option α) :
    Act σ (Option α) := do
  let some r ← resolve n handle | return none
  return f (← heapOf n) r

def toValue (n : EnvironmentId) (value : Tagged) : Act σ (Option Value) := do
  return (← onHeap n (·.ofTagged value)).toOption

def toValues (n : EnvironmentId) (values : List Tagged) : Act σ (Option (List Value)) := do
  return (← onHeap n (·.ofTaggedAll values)).toOption

def recordThrow (n : EnvironmentId) (thrown : Throw) : Act σ Unit :=
  Act.setException n (.engine thrown.report)

def deliver (n : EnvironmentId) (flags : Flags) : Except Throw Value → Act σ (Option Tagged)
  | .ok value => do return ((← heapOf n).toTagged flags value).toOption
  | .error thrown => do
    recordThrow n thrown
    return none

def succeeded (n : EnvironmentId) : Except Throw Unit → Act σ Bool
  | .ok () => pure true
  | .error thrown => do
    recordThrow n thrown
    return false

end HostBoundary.Environment
