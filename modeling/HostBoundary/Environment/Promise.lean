import HostBoundary.Engine.Jobs
import HostBoundary.Environment.Conversion

namespace HostBoundary.Environment

variable {σ : Type}

def createResolver (n : EnvironmentId) : Act σ Handle := allocated n (·.newResolver)

def resolverPromise (n : EnvironmentId) (resolver : Handle) : Act σ (Option Handle) := do
  let some r ← resolve n resolver | return none
  allocated? n (·.resolverPromise r)

def settleWith (n : EnvironmentId) (resolver : Handle) (value : Tagged)
    (f : Heap → ObjectRef → Value → Bool × Heap) : Act σ Bool := do
  let r ← resolve n resolver
  let value ← toValue n value
  match r, value with
  | some r, some value => onHeap n (f · r value)
  | _, _ => return false

def resolvePromise (n : EnvironmentId) (resolver : Handle) (value : Tagged) : Act σ Bool :=
  settleWith n resolver value Heap.resolve

def rejectPromise (n : EnvironmentId) (resolver : Handle) (value : Tagged) : Act σ Bool :=
  settleWith n resolver value Heap.reject

def handleWith (n : EnvironmentId) (promise handler : Handle)
    (f : Heap → ObjectRef → ObjectRef → Option ObjectRef × Heap) : Act σ Bool := do
  let p ← resolve n promise
  let f? ← resolve n handler
  match p, f? with
  | some p, some h => return (← onHeap n (f · p h)).isSome
  | _, _ => return false

def promiseThen (n : EnvironmentId) (promise handler : Handle) : Act σ Bool :=
  handleWith n promise handler fun h p f => h.thenPromise p (some f) none

def promiseCatch (n : EnvironmentId) (promise handler : Handle) : Act σ Bool :=
  handleWith n promise handler fun h p f => h.thenPromise p none (some f)

def promiseHandled (n : EnvironmentId) (promise : Handle) : Act σ Bool := do
  return (← inspect n promise fun h r => some (h.promiseHandled r)).getD false

def promiseState (n : EnvironmentId) (promise : Handle) : Act σ (Option PromiseState) :=
  inspect n promise (·.promiseState?)

def promiseResult (n : EnvironmentId) (promise : Handle) (flags : Flags) :
    Act σ (Option Tagged) := do
  let some value ← inspect n promise (·.promiseResult?) | return none
  return ((← heapOf n).toTagged flags value).toOption

end HostBoundary.Environment
