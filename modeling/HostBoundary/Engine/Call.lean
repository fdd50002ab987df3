import HostBoundary.Environment.Dispatch
import HostBoundary.Heap.ClassTemplate
import HostBoundary.Heap.Evaluate
import HostBoundary.Heap.Property

namespace HostBoundary.Engine

variable {σ : Type}

def raise {α : Type} (e : EngineId) (name : ErrorName) (message : String) : Act σ (Except Throw α) :=
  Act.onHeap e fun h =>
    let (thrown, h) := h.raise name message
    (.error thrown, h)

def dispatcher? (e : EngineId) : Act σ (Option EnvironmentId) := do
  let w ← get
  return (w.engine e).dispatcher.filter w.isLive

-- Calls native code in a scope of its own. What it returns or throws outlives that
-- scope, and leaving it never collects, since the caller is in the middle of its work.
def dispatch (host : Host σ) (e : EngineId) (data : CallbackData) (i : Invocation) :
    Act σ Completion := do
  match ← dispatcher? e with
  | none =>
    return .error (← Act.onHeap e (·.newError .error "no native dispatcher installed"))
  | some n =>
    Act.updateHeap e (·.pushScope)
    Act.updateEnvironment n fun env => { env with running := env.running + 1 }
    let completion ← Environment.dispatch host n data i
    Act.updateEnvironment n fun env => { env with running := env.running - 1 }
    Act.updateHeap e fun h =>
      let h := h.popScope.2
      match completion with
      | .ok (.object r) | .error (.object r) => h.root r
      | _ => h
    return completion

def outcome (e : EngineId) : Completion → Act σ (Except Throw Value)
  | .ok value => pure (.ok value)
  | .error thrown => do return .error ((← Act.heap e).throwing thrown)

def getProperty (host : Host σ) (e : EngineId) (r : ObjectRef) (key : Value) :
    Act σ (Except Throw Value) := do
  let h ← Act.heap e
  let key := h.keyOf key
  if !h.isAlive r then raise e .typeError "cannot read properties of a collected object"
  else
    match h.lookup r key with
    | .value v => return .ok v
    | .missing => return .ok .undefined
    | .getter data => outcome e (← dispatch host e data ⟨.get, .object r, []⟩)

def setProperty (host : Host σ) (e : EngineId) (r : ObjectRef) (key value : Value) :
    Act σ (Except Throw Unit) := do
  let h ← Act.heap e
  let key := h.keyOf key
  if !h.isAlive r then raise e .typeError "cannot set properties of a collected object"
  else
    match h.storePlan r key with
    | .readOnly => return .ok ()
    | .define =>
      let stored ← Act.onHeap e fun h =>
        match h.storeOwn r key value with
        | some h => (true, h)
        | none => (false, h)
      if stored then return .ok () else raise e .rangeError "Invalid array length"
    | .setter data =>
      return (← outcome e (← dispatch host e data ⟨.set value, .object r, []⟩)).map fun _ => ()

def functionBody (e : EngineId) (f : ObjectRef) : Act σ (Except Throw FunctionBody) := do
  match (← Act.heap e).body? f with
  | some (.function body) => return .ok body
  | some _ => raise e .typeError "object is not a function"
  | none => raise e .typeError "function has been collected"

def call (host : Host σ) (e : EngineId) (f : ObjectRef) (this : Value) (args : List Value) :
    Act σ (Except Throw Value) := do
  match ← functionBody e f with
  | .error thrown => return .error thrown
  | .ok body =>
    let h ← Act.heap e
    let data := match body with
      | .native data => some data
      | .template template => h.constructor? template
    match data with
    | none => raise e .typeError "Illegal invocation"
    | some data => outcome e (← dispatch host e data ⟨.call, this, args⟩)

def constructTarget (e : EngineId) (f : ObjectRef) :
    Act σ (Except Throw (CallbackData × ObjectRef)) := do
  match ← functionBody e f with
  | .error thrown => return .error thrown
  | .ok (.native data) => return .ok (data, ← Act.onHeap e (·.newObject))
  | .ok (.template template) =>
    match (← Act.heap e).constructor? template with
    | none => raise e .typeError "Illegal constructor"
    | some data =>
      match ← Act.onHeap e (·.newInstance template) with
      | some target => return .ok (data, target)
      | none => raise e .typeError "class template has been discarded"

def construct (host : Host σ) (e : EngineId) (f : ObjectRef) (args : List Value) :
    Act σ (Except Throw ObjectRef) := do
  match ← constructTarget e f with
  | .error thrown => return .error thrown
  | .ok (data, target) =>
    let result ← outcome e (← dispatch host e data ⟨.construct, .object target, args⟩)
    return result.map fun value => value.object?.getD target

end HostBoundary.Engine
