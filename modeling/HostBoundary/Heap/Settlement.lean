import HostBoundary.Heap.Failure

namespace HostBoundary.Heap

def promise? (h : Heap) (r : ObjectRef) : Option Promise :=
  match h.body? r with
  | some (.promise state) => some state
  | _ => none

def setPromise (h : Heap) (r : ObjectRef) (state : Promise) : Heap :=
  h.modifyObject r ({ · with body := .promise state })

def settle (h : Heap) (r : ObjectRef) (state : PromiseState) (value : Value) : Heap :=
  match h.promise? r with
  | none => h
  | some promise =>
    let (jobs, promise) := promise.settle state value
    (h.setPromise r promise).enqueue (jobs.getD [])

def react (h : Heap) (r : ObjectRef) (promise : Promise) (reaction : Reaction) : Heap :=
  let (job, promise) := promise.react reaction true
  (h.setPromise r promise).enqueue job.toList

-- Fulfils a promise, or makes it follow the value if that is a promise. A promise that
-- would follow itself is rejected.
def fulfil (h : Heap) (r : ObjectRef) (value : Value) : Heap :=
  match value with
  | .object inner =>
    if inner = r then
      let (error, h) := h.newError .typeError "promise resolved with itself"
      h.settle r .rejected error
    else
      match h.promise? inner with
      | some promise => h.react inner promise { derived := r }
      | none => h.settle r .fulfilled value
  | _ => h.settle r .fulfilled value

def newPromise (h : Heap) : ObjectRef × Heap := h.allocate (.ofBody (.promise {}))

def newResolver (h : Heap) : ObjectRef × Heap :=
  let (promise, h) := h.newPromise
  h.allocate (.ofBody (.resolver promise))

def resolverPromise (h : Heap) (r : ObjectRef) : Option ObjectRef × Heap :=
  match h.body? r with
  | some (.resolver promise) => (some promise, h.root promise)
  | _ => (none, h)

def lockResolver (h : Heap) (r : ObjectRef) : Option ObjectRef × Heap :=
  match h.resolverPromise r with
  | (none, h) => (none, h)
  | (some target, h) =>
    match h.promise? target with
    | some promise =>
      if !promise.locked && promise.state = .pending then
        (some target, h.setPromise target { promise with locked := true })
      else (none, h)
    | none => (none, h)

def resolve (h : Heap) (r : ObjectRef) (value : Value) : Bool × Heap :=
  match h.lockResolver r with
  | (some promise, h) => (true, h.fulfil promise value)
  | (none, h) => (false, h)

def reject (h : Heap) (r : ObjectRef) (value : Value) : Bool × Heap :=
  match h.lockResolver r with
  | (some promise, h) => (true, h.settle promise .rejected value)
  | (none, h) => (false, h)

def thenPromise (h : Heap) (r : ObjectRef) (onFulfilled onRejected : Option ObjectRef) :
    Option ObjectRef × Heap :=
  match h.promise? r with
  | none => (none, h)
  | some promise =>
    let (derived, h) := h.newPromise
    (some derived, h.react r promise { onFulfilled, onRejected, derived })

def promiseState? (h : Heap) (r : ObjectRef) : Option PromiseState := (h.promise? r).map (·.state)

def promiseResult? (h : Heap) (r : ObjectRef) : Option Value :=
  (h.promise? r).bind fun promise => if promise.state = .pending then none else some promise.result

def promiseHandled (h : Heap) (r : ObjectRef) : Bool := ((h.promise? r).map (·.handled)).getD false

def nextJob (h : Heap) : Option (Job × Heap) :=
  match h.jobs with
  | [] => none
  | job :: rest => some (job, job.references.foldl root { h with jobs := rest })

end HostBoundary.Heap
