import HostBoundary.Engine.Collection
import HostBoundary.Engine.Jobs
import HostBoundary.Heap.View

namespace HostBoundary.Engine

-- What can be asked of an engine itself, with no environment between. Objects `o`,
-- persistent slots `p`, values `v`, templates `t` and element kinds `k` are left open.
inductive Request (o p v t k : Type) where
  | pushScope
  | popScope
  | collect
  | statistics
  | global
  | isAlive (object : o)
  | objectKind (object : o)
  | display (value : v)
  | newPersistent (object : o)
  | persistentTarget (slot : p)
  | setWeak (slot : p) (hook : Option ReclaimHook)
  | disposePersistent (slot : p)
  | executeScript (code : Units) (file : String) (startLine : Int)
  | newObject
  | get (object : o) (key : v)
  | set (object : o) (key value : v)
  | ownPropertyNames (object : o)
  | field (object : o) (index : Nat)
  | setField (object : o) (index : Nat) (word : Pointer)
  | newError (message : String)
  | newArray (length : Nat)
  | arrayLength (object : o)
  | newFunction (data : CallbackData) (name : Option String)
  | call (function : o) (this : v) (args : List v)
  | construct (function : o) (args : List v)
  | newTemplate (parent : Option t) (name : Option String) (constructor : Option CallbackData)
      (fields : Nat)
  | addAccessor (template : t) (name : String) (getter setter : Option CallbackData)
  | addMethod (template : t) (name : String) (data : CallbackData)
  | isConstructible (template : t)
  | templateFunction (template : t)
  | newInstance (template : t)
  | discardTemplate (template : t)
  | newArrayBuffer (length : Nat)
  | newTypedArray (kind : k) (buffer : o) (byteOffset length : Nat)
  | typedArrayView (object : o)
  | dataView (object : o)
  | newResolver
  | resolverPromise (resolver : o)
  | resolve (resolver : o) (value : v)
  | reject (resolver : o) (value : v)
  | promiseThen (promise : o) (onFulfilled onRejected : Option o)
  | promiseState (promise : o)
  | promiseResult (promise : o)
  | promiseHandled (promise : o)
  | runMicrotasks

namespace Request

abbrev Known := Request ObjectRef PersistentRef Value TemplateRef ElementKind

structure Operands (m : Type → Type) (o p v t k o' p' v' t' k' : Type) where
  object : o → m o'
  slot : p → m p'
  value : v → m v'
  template : t → m t'
  elementKind : k → m k'

variable {m : Type → Type} [Monad m] {o p v t k o' p' v' t' k' : Type}

def resolveWith (r : Operands m o p v t k o' p' v' t' k') :
    Request o p v t k → m (Request o' p' v' t' k')
  | .pushScope => pure .pushScope
  | .popScope => pure .popScope
  | .collect => pure .collect
  | .statistics => pure .statistics
  | .global => pure .global
  | .isAlive x => return .isAlive (← r.object x)
  | .objectKind x => return .objectKind (← r.object x)
  | .display value => return .display (← r.value value)
  | .newPersistent x => return .newPersistent (← r.object x)
  | .persistentTarget s => return .persistentTarget (← r.slot s)
  | .setWeak s hook => return .setWeak (← r.slot s) hook
  | .disposePersistent s => return .disposePersistent (← r.slot s)
  | .executeScript code file line => pure (.executeScript code file line)
  | .newObject => pure .newObject
  | .get x key => return .get (← r.object x) (← r.value key)
  | .set x key value => return .set (← r.object x) (← r.value key) (← r.value value)
  | .ownPropertyNames x => return .ownPropertyNames (← r.object x)
  | .field x i => return .field (← r.object x) i
  | .setField x i word => return .setField (← r.object x) i word
  | .newError message => pure (.newError message)
  | .newArray size => pure (.newArray size)
  | .arrayLength x => return .arrayLength (← r.object x)
  | .newFunction data name => pure (.newFunction data name)
  | .call f this args => return .call (← r.object f) (← r.value this) (← args.mapM r.value)
  | .construct f args => return .construct (← r.object f) (← args.mapM r.value)
  | .newTemplate parent name ctor fields =>
    return .newTemplate (← parent.mapM r.template) name ctor fields
  | .addAccessor x name getter setter => return .addAccessor (← r.template x) name getter setter
  | .addMethod x name data => return .addMethod (← r.template x) name data
  | .isConstructible x => return .isConstructible (← r.template x)
  | .templateFunction x => return .templateFunction (← r.template x)
  | .newInstance x => return .newInstance (← r.template x)
  | .discardTemplate x => return .discardTemplate (← r.template x)
  | .newArrayBuffer size => pure (.newArrayBuffer size)
  | .newTypedArray kind buffer offset size =>
    return .newTypedArray (← r.elementKind kind) (← r.object buffer) offset size
  | .typedArrayView x => return .typedArrayView (← r.object x)
  | .dataView x => return .dataView (← r.object x)
  | .newResolver => pure .newResolver
  | .resolverPromise x => return .resolverPromise (← r.object x)
  | .resolve x value => return .resolve (← r.object x) (← r.value value)
  | .reject x value => return .reject (← r.object x) (← r.value value)
  | .promiseThen x f g =>
    return .promiseThen (← r.object x) (← f.mapM r.object) (← g.mapM r.object)
  | .promiseState x => return .promiseState (← r.object x)
  | .promiseResult x => return .promiseResult (← r.object x)
  | .promiseHandled x => return .promiseHandled (← r.object x)
  | .runMicrotasks => pure .runMicrotasks

end Request

inductive Reply where
  | done
  | statistics (live depth jobs : Nat)
  | boolean (b : Bool)
  | count (n : Option Nat)
  | pointer (p : Option Pointer)
  | text (s : String)
  | object (r : Option ObjectRef)
  | slot (r : Option PersistentRef)
  | template (r : Option TemplateRef)
  | kind (kind : Option ObjectKind)
  | value (v : Option Value)
  | values (vs : Option (List Value))
  | thrown (t : Throw)
  | typedArray (view : Option TypedArrayView)
  | dataView (view : Option DataView)
  | promiseState (state : Option PromiseState)
  deriving DecidableEq

variable {σ : Type}

def fieldIndex? : Nat → Option Heap.FieldIndex
  | 0 => some .data
  | 1 => some .extra
  | _ => none

def outcomeReply : Except Throw Value → Reply
  | .ok value => .value (some value)
  | .error thrown => .thrown thrown

def serve (host : Host σ) (e : EngineId) : Request.Known → Act σ Reply
  | .pushScope => do Act.updateHeap e (·.pushScope); return .done
  | .popScope => do popScope host e; return .done
  | .collect => do collectGarbage host e; return .done
  | .statistics => do
    let h ← Act.heap e
    return .statistics h.liveObjects h.scopeDepth h.jobs.length
  | .global => return .object (← Act.heap e).global
  | .isAlive r => return .boolean ((← Act.heap e).isAlive r)
  | .objectKind r => return .kind ((← Act.heap e).kind? r)
  | .display value => return .text ((← Act.heap e).display value)
  | .newPersistent r => return .slot (← Act.onHeap e (·.persist r))
  | .persistentTarget s => return .object (← Act.onHeap e (·.target s))
  | .setWeak s hook => return .boolean (← Act.onHeap e (·.weaken s hook))
  | .disposePersistent s => return .boolean (← Act.onHeap e (·.dispose s))
  | .executeScript code file line =>
    return outcomeReply (← Act.onHeap e (·.execute code file line))
  | .newObject => return .object (some (← Act.onHeap e (·.newObject)))
  | .get r key => return outcomeReply (← getProperty host e r key)
  | .set r key value => do
    match ← setProperty host e r key value with
    | .ok () => return .boolean true
    | .error thrown => return .thrown thrown
  | .ownPropertyNames r => return .values ((← Act.heap e).ownNames? r)
  | .field r i => do
    let h ← Act.heap e
    return .pointer ((fieldIndex? i).bind (h.field? r))
  | .setField r i word => do
    match fieldIndex? i with
    | some i => return .boolean (← Act.onHeap e (·.setField r i word))
    | none => return .boolean false
  | .newError message => return .value (some (← Act.onHeap e (·.newError .error message)))
  | .newArray length => return .object (some (← Act.onHeap e (·.newArray length)))
  | .arrayLength r => return .count ((← Act.heap e).arrayLength? r)
  | .newFunction data name => return .object (some (← Act.onHeap e (·.newFunction data name)))
  | .call f this args => return outcomeReply (← call host e f this args)
  | .construct f args => do
    match ← construct host e f args with
    | .ok r => return .object (some r)
    | .error thrown => return .thrown thrown
  | .newTemplate parent className constructor fields =>
    return .template (← Act.onHeap e
      (·.newTemplate { className, constructor, parent, fieldCount := min fields 2 }))
  | .addAccessor r name getter setter =>
    return .boolean (← Act.onHeap e (·.addAccessor r name getter setter))
  | .addMethod r name data => return .boolean (← Act.onHeap e (·.addMethod r name data))
  | .isConstructible r => return .boolean ((← Act.heap e).constructor? r).isSome
  | .templateFunction r => return .object (← Act.onHeap e (·.templateFunction r))
  | .newInstance r => return .object (← Act.onHeap e (·.newInstance r))
  | .discardTemplate r => do Act.updateHeap e (·.discardTemplate r); return .done
  | .newArrayBuffer length => return .object (some (← Act.onHeap e (·.newArrayBuffer length)))
  | .newTypedArray kind buffer offset length =>
    return .object (← Act.onHeap e (·.newTypedArray kind buffer offset length))
  | .typedArrayView r => return .typedArray ((← Act.heap e).typedArray? r)
  | .dataView r => return .dataView ((← Act.heap e).dataView? r)
  | .newResolver => return .object (some (← Act.onHeap e (·.newResolver)))
  | .resolverPromise r => return .object (← Act.onHeap e (·.resolverPromise r))
  | .resolve r value => return .boolean (← Act.onHeap e (·.resolve r value))
  | .reject r value => return .boolean (← Act.onHeap e (·.reject r value))
  | .promiseThen r f g => return .object (← Act.onHeap e (·.thenPromise r f g))
  | .promiseState r => return .promiseState ((← Act.heap e).promiseState? r)
  | .promiseResult r => return .value ((← Act.heap e).promiseResult? r)
  | .promiseHandled r => return .boolean ((← Act.heap e).promiseHandled r)
  | .runMicrotasks => do runMicrotasks host e; return .done

end HostBoundary.Engine
