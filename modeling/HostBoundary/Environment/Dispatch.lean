import HostBoundary.Foreign.Adapter
import HostBoundary.Heap.Convert
import HostBoundary.Heap.Failure

namespace HostBoundary

inductive InvocationKind where
  | call
  | construct
  | get
  | set (value : Value)
  deriving DecidableEq

structure Invocation where
  kind : InvocationKind
  this : Value
  args : List Value
  deriving DecidableEq

abbrev Completion := Except Value Value

namespace Environment

variable {σ : Type}

def throwPending (n : EnvironmentId) : Act σ Value := do
  let env ← Act.environment n
  Act.setException n {}
  let message := env.exception.message
  Act.onHeap env.engine
    (·.newError .error (if message.isEmpty then "native callback failed" else message))

-- What a native routine made of the call. An exception wins over a result.
def complete (n : EnvironmentId) (result : Option Tagged) : Act σ Completion := do
  let env ← Act.environment n
  if env.exception.isSet then return .error (← throwPending n)
  match result with
  | none => return .ok .undefined
  | some value =>
    match ← Act.onHeap env.engine (·.ofTagged value) with
    | .ok value => return .ok value
    | .error e =>
      Act.setException n (.native s!"result conversion failed: {e.message}")
      return .error (← throwPending n)

-- Runs a native function. Arguments are passed in order; if one does not convert,
-- nothing runs.
def invoke (host : Host σ) (n : EnvironmentId) (f : NativeFunction) (flags : Flags)
    (this : Option Handle) (args : List Value) : Act σ Completion := do
  let env ← Act.environment n
  match (← Act.heap env.engine).toTaggedAll flags args with
  | .ok args => complete n (← f.call host n this args)
  | .error e =>
    Act.setException n (.native s!"argument conversion failed: {e.message}")
    return .error (← throwPending n)

-- Lets a finalizer run once the object is found unreachable. Nobody holds the weak
-- slot; it goes with the object.
def attachFinalizer (target : ObjectRef) (finalizer : ReclaimHook) (h : Heap) : Heap :=
  match h.persist target with
  | (some slot, h) => (h.weaken slot (some finalizer)).2
  | (none, h) => h

def assign (host : Host σ) (n : EnvironmentId) (name : String) (setter : NativeFunction)
    (flags : Flags) (this : Option Handle) (value : Value) : Act σ Completion := do
  let env ← Act.environment n
  match (← Act.heap env.engine).toTagged flags value with
  | .error e =>
    Act.setException n (.native s!"cannot assign property '{name}': {e.message}")
    return .error (← throwPending n)
  | .ok value =>
    let accepted ← match this with
      | some receiver => setter.set host n receiver value
      | none => pure false
    if !accepted && !(← Act.environment n).exception.isSet then
      Act.setException n (.native s!"property '{name}' rejected the assigned value")
    complete n none

def invokeMember (host : Host σ) (n : EnvironmentId) (member : MemberEntry) (i : Invocation) :
    Act σ Completion := do
  let this := i.this.object?.map Handle.transient
  match member, i.kind with
  | .construct function flags finalizer, .construct =>
    match ← invoke host n function flags this i.args with
    | .error thrown => return .error thrown
    | .ok _ =>
      match i.this.object?, finalizer with
      | some target, some finalizer =>
        Act.updateHeap (← Act.environment n).engine (attachFinalizer target finalizer)
      | _, _ => pure ()
      return .ok i.this
  | .construct function flags _, _ => invoke host n function flags this i.args
  | .method entry, _ => invoke host n entry.function entry.flags this i.args
  | .property _ (some getter) _ _, .get =>
    match this with
    | some receiver => complete n (← getter.get host n receiver)
    | none => complete n none
  | .property name _ (some setter) flags, .set value => assign host n name setter flags this value
  | .property _ _ _ _, _ => return .ok .undefined

def dispatch (host : Host σ) (n : EnvironmentId) (data : CallbackData) (i : Invocation) :
    Act σ Completion := do
  let env ← Act.environment n
  match env.tables.lookup? data with
  | none => return .error (← Act.onHeap env.engine (·.newError .error "native callback not found"))
  | some (.domain entry) | some (.function entry) =>
    let this := entry.owner <|> i.this.object?.map Handle.transient
    invoke host n entry.function entry.flags this i.args
  | some (.member member) => invokeMember host n member i

end Environment

end HostBoundary
