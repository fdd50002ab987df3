import HostBoundary.Environment.Buffer
import HostBoundary.Environment.Class
import HostBoundary.Environment.Promise
import HostBoundary.Environment.Reference
import HostBoundary.Environment.Scope

namespace HostBoundary.Environment

-- Everything a host can ask of an environment. Objects `h`, values `v`, classes `k`,
-- element kinds `t` and exception kinds `x` are left open, so that a request can be
-- written down before what it names is known.
inductive Operation (h v k t x : Type) where
  | info
  | addReference
  | releaseReference
  | command (code : Int32)
  | hasException
  | exception
  | takeException
  | clearException
  | setException (kind : x) (message : String)
  | executeScript (code : v) (file : Option String) (startLine : Int) (flags : Flags)
  | registerCallback (owner : Option h) (domain : String) (flags : Flags) (f : NativeFunction)
  | newFunction (flags : Flags) (f : NativeFunction)
  | createClass (parent : Option k) (definition : ClassDefinition)
  | getClass (name : String)
  | newInstance (c : k)
  | newInstanceWithConstructor (c : k) (args : List v)
  | classConstructor (c : k)
  | objectType (object : h)
  | typedArrayType (object : h)
  | newReference (object : h)
  | newWeakReference (object : h) (hook : Option ReclaimHook)
  | makeWeak (object : h) (hook : Option ReclaimHook)
  | deleteReference (object : h)
  | field (i : Heap.FieldIndex) (object : h)
  | setField (i : Heap.FieldIndex) (object : h) (word : Pointer)
  | globalObject
  | getGlobal (key : v) (flags : Flags)
  | setGlobal (key value : v)
  | getProperty (object : h) (key : v) (flags : Flags)
  | setProperty (object : h) (key value : v)
  | setPropertyValue (object : h) (name : String) (value : v)
  | propertyNames (object : h)
  | length (object : h)
  | getIndex (object : h) (index : UInt32) (flags : Flags)
  | setIndex (object : h) (index : UInt32) (value : v)
  | call (this : Option h) (args : List v) (function : h) (flags : Flags)
  | construct (args : List v) (function : h)
  | newObject
  | newArray (length : Nat)
  | newArrayWithValues (args : List v)
  | newTypedArray (kind : t) (count : Nat)
  | newTypedArrayOnBuffer (kind : t) (buffer : h) (offset count : Nat)
  | typedArrayCount (object : h)
  | typedArrayBuffer (object : h)
  | typedArrayPointer (object : h) (offset : Nat)
  | newDataView (buffer : h) (offset length : Nat)
  | dataViewLength (object : h)
  | dataViewBuffer (object : h)
  | newArrayBuffer (length : Nat)
  | newExternalArrayBuffer (memory : Option (Array UInt8)) (release : Option ReleaseHook)
      (address : Pointer := 0)
  | arrayBufferLength (object : h)
  | readBuffer (object : h)
  | writeBuffer (object : h) (offset : Nat) (bytes : List UInt8)
  | createResolver
  | resolverPromise (resolver : h)
  | resolve (resolver : h) (value : v)
  | reject (resolver : h) (value : v)
  | promiseThen (promise handler : h)
  | promiseCatch (promise handler : h)
  | promiseHandled (promise : h)
  | promiseState (promise : h)
  | promiseResult (promise : h) (flags : Flags)
  | runMicrotasks
  | pushScope
  | popScope

namespace Operation

abbrev Known := Operation Handle Tagged ClassId ElementKind ExceptionKind

structure Operands (m : Type → Type) (h v k t x h' v' k' t' x' : Type) where
  handle : h → m h'
  value : v → m v'
  klass : k → m k'
  elementKind : t → m t'
  exceptionKind : x → m x'

variable {m : Type → Type} [Monad m] {h v k t x h' v' k' t' x' : Type}

def resolveWith (r : Operands m h v k t x h' v' k' t' x') :
    Operation h v k t x → m (Operation h' v' k' t' x')
  | .info => pure .info
  | .addReference => pure .addReference
  | .releaseReference => pure .releaseReference
  | .command code => pure (.command code)
  | .hasException => pure .hasException
  | .exception => pure .exception
  | .takeException => pure .takeException
  | .clearException => pure .clearException
  | .setException kind message => return .setException (← r.exceptionKind kind) message
  | .executeScript code file line flags => return .executeScript (← r.value code) file line flags
  | .registerCallback owner domain flags f => do
    return .registerCallback (← owner.mapM r.handle) domain flags f
  | .newFunction flags f => pure (.newFunction flags f)
  | .createClass parent definition => return .createClass (← parent.mapM r.klass) definition
  | .getClass name => pure (.getClass name)
  | .newInstance c => return .newInstance (← r.klass c)
  | .newInstanceWithConstructor c args =>
    return .newInstanceWithConstructor (← r.klass c) (← args.mapM r.value)
  | .classConstructor c => return .classConstructor (← r.klass c)
  | .objectType o => return .objectType (← r.handle o)
  | .typedArrayType o => return .typedArrayType (← r.handle o)
  | .newReference o => return .newReference (← r.handle o)
  | .newWeakReference o hook => return .newWeakReference (← r.handle o) hook
  | .makeWeak o hook => return .makeWeak (← r.handle o) hook
  | .deleteReference o => return .deleteReference (← r.handle o)
  | .field i o => return .field i (← r.handle o)
  | .setField i o word => return .setField i (← r.handle o) word
  | .globalObject => pure .globalObject
  | .getGlobal key flags => return .getGlobal (← r.value key) flags
  | .setGlobal key value => return .setGlobal (← r.value key) (← r.value value)
  | .getProperty o key flags => return .getProperty (← r.handle o) (← r.value key) flags
  | .setProperty o key value =>
    return .setProperty (← r.handle o) (← r.value key) (← r.value value)
  | .setPropertyValue o name value =>
    return .setPropertyValue (← r.handle o) name (← r.value value)
  | .propertyNames o => return .propertyNames (← r.handle o)
  | .length o => return .length (← r.handle o)
  | .getIndex o index flags => return .getIndex (← r.handle o) index flags
  | .setIndex o index value => return .setIndex (← r.handle o) index (← r.value value)
  | .call this args f flags =>
    return .call (← this.mapM r.handle) (← args.mapM r.value) (← r.handle f) flags
  | .construct args f => return .construct (← args.mapM r.value) (← r.handle f)
  | .newObject => pure .newObject
  | .newArray size => pure (.newArray size)
  | .newArrayWithValues args => return .newArrayWithValues (← args.mapM r.value)
  | .newTypedArray kind count => return .newTypedArray (← r.elementKind kind) count
  | .newTypedArrayOnBuffer kind buffer offset count =>
    return .newTypedArrayOnBuffer (← r.elementKind kind) (← r.handle buffer) offset count
  | .typedArrayCount o => return .typedArrayCount (← r.handle o)
  | .typedArrayBuffer o => return .typedArrayBuffer (← r.handle o)
  | .typedArrayPointer o offset => return .typedArrayPointer (← r.handle o) offset
  | .newDataView buffer offset size => return .newDataView (← r.handle buffer) offset size
  | .dataViewLength o => return .dataViewLength (← r.handle o)
  | .dataViewBuffer o => return .dataViewBuffer (← r.handle o)
  | .newArrayBuffer size => pure (.newArrayBuffer size)
  | .newExternalArrayBuffer memory release address =>
    pure (.newExternalArrayBuffer memory release address)
  | .arrayBufferLength o => return .arrayBufferLength (← r.handle o)
  | .readBuffer o => return .readBuffer (← r.handle o)
  | .writeBuffer o offset bytes => return .writeBuffer (← r.handle o) offset bytes
  | .createResolver => pure .createResolver
  | .resolverPromise o => return .resolverPromise (← r.handle o)
  | .resolve o value => return .resolve (← r.handle o) (← r.value value)
  | .reject o value => return .reject (← r.handle o) (← r.value value)
  | .promiseThen p f => return .promiseThen (← r.handle p) (← r.handle f)
  | .promiseCatch p f => return .promiseCatch (← r.handle p) (← r.handle f)
  | .promiseHandled p => return .promiseHandled (← r.handle p)
  | .promiseState p => return .promiseState (← r.handle p)
  | .promiseResult p flags => return .promiseResult (← r.handle p) flags
  | .runMicrotasks => pure .runMicrotasks
  | .pushScope => pure .pushScope
  | .popScope => pure .popScope

inductive Operand (h v k : Type) where
  | handle (o : h)
  | value (x : v)
  | klass (c : k)

def leading : Operation h v k t x → List (Operand h v k)
  | .registerCallback owner _ _ _ => owner.toList.map .handle
  | .createClass parent _ => parent.toList.map .klass
  | .newInstanceWithConstructor _ args => args.map .value
  | .setPropertyValue _ _ value => [.value value]
  | .setIndex _ _ value => [.value value]
  | .call this args _ _ => this.toList.map .handle ++ args.map .value
  | .construct args _ => args.map .value
  | .newArrayWithValues args => args.map .value
  | _ => []

end Operation

structure Info where
  version : Int32
  refCount : Nat
  destroyed : Bool
  scopeDepth : Nat
  deriving DecidableEq

inductive Answer where
  | done
  | info (i : Info)
  | boolean (b : Bool)
  | count (n : Nat)
  | pointer (p : Pointer)
  | exception (e : Exception)
  | tagged (value : Option Tagged)
  | handle (object : Option Handle)
  | klass (c : Option ClassId)
  | classError (e : ClassError)
  | type (t : ValueType)
  | elementKind (kind : Option ElementKind)
  | promiseState (state : Option PromiseState)
  | offset (n : Option Nat)
  | bytes (contents : Option (Array UInt8))
  deriving DecidableEq

variable {σ : Type}

def info (n : EnvironmentId) : Act σ Info := do
  let env ← Act.environment n
  return ⟨Surface.full.version, env.refCount, env.destroyed, env.scopeDepth⟩

def takeException (n : EnvironmentId) : Act σ Exception := do
  let exception := (← Act.environment n).exception
  Act.setException n {}
  return exception

def perform (host : Host σ) (n : EnvironmentId) : Operation.Known → Act σ Answer
  | .info => return .info (← info n)
  | .addReference => do addReference n; return .done
  | .releaseReference => do release n; return .done
  | .command code => do return .pointer (← Engine.command host (← engineOf n) code)
  | .hasException => return .boolean (← Act.environment n).exception.isSet
  | .exception => return .exception (← Act.environment n).exception
  | .takeException => return .exception (← takeException n)
  | .clearException => do Act.setException n {}; return .done
  | .setException kind message => do Act.setException n ⟨kind, message⟩; return .done
  | .executeScript code file line flags => return .tagged (← executeScript n code file line flags)
  | .registerCallback owner domain flags f =>
    return .boolean (← registerCallback host n owner domain flags f)
  | .newFunction flags f => return .handle (some (← newFunction n flags f))
  | .createClass parent definition => do
    match ← createClass n definition parent with
    | .ok c => return .klass (some c)
    | .error e => return .classError e
  | .getClass name => return .klass (← getClass n name)
  | .newInstance c => return .handle (← newInstance n c)
  | .newInstanceWithConstructor c args =>
    return .handle (← newInstanceWithConstructor host n c args)
  | .classConstructor c => return .handle (← classConstructor n c)
  | .objectType o => return .type (← objectType n o)
  | .typedArrayType o => return .elementKind (← elementKind n o)
  | .newReference o => return .handle (← newReference n o)
  | .newWeakReference o hook => return .handle (← newWeakReference n o hook)
  | .makeWeak o hook => return .handle (← makeWeak n o hook)
  | .deleteReference o => do discard (releaseHandle n o); return .done
  | .field i o => return .pointer (← field n i o)
  | .setField i o word => return .boolean (← setField n i o word)
  | .globalObject => return .handle (some (← globalObject n))
  | .getGlobal key flags => return .tagged (← getGlobal host n key flags)
  | .setGlobal key value => return .boolean (← setGlobal host n key value)
  | .getProperty o key flags => return .tagged (← getProperty host n o key flags)
  | .setProperty o key value => return .boolean (← setProperty host n o key value)
  | .setPropertyValue o name value => return .boolean (← setProperty host n o (.utf8 name) value)
  | .propertyNames o => return .handle (← propertyNames host n o)
  | .length o => return .count (← length n o)
  | .getIndex o index flags => return .tagged (← getIndex host n o index flags)
  | .setIndex o index value => return .boolean (← setIndex host n o index value)
  | .call this args f flags => return .tagged (← callFunction host n f this args flags)
  | .construct args f => return .handle (← callAsConstructor host n f args)
  | .newObject => return .handle (some (← allocated n (·.newObject)))
  | .newArray length => return .handle (some (← allocated n (·.newArray length)))
  | .newArrayWithValues args => return .handle (← newArrayWithValues host n args)
  | .newTypedArray kind count => return .handle (← newTypedArray n kind count)
  | .newTypedArrayOnBuffer kind buffer offset count =>
    return .handle (← newTypedArrayOnBuffer n kind buffer offset count)
  | .typedArrayCount o => return .count (← typedArrayCount n o)
  | .typedArrayBuffer o => return .handle (← typedArrayBuffer n o)
  | .typedArrayPointer o offset => return .offset (← typedArrayPointer n o offset)
  | .newDataView buffer offset length => return .handle (← newDataView n buffer offset length)
  | .dataViewLength o => return .count (← dataViewLength n o)
  | .dataViewBuffer o => return .handle (← dataViewBuffer n o)
  | .newArrayBuffer length => return .handle (← newArrayBuffer n length)
  | .newExternalArrayBuffer memory release address =>
    return .handle (← newExternalArrayBuffer n memory release address)
  | .arrayBufferLength o => return .count (← arrayBufferLength n o)
  | .readBuffer o => return .bytes (← contents n o)
  | .writeBuffer o offset bytes => return .boolean (← writeContents n o offset bytes)
  | .createResolver => return .handle (some (← createResolver n))
  | .resolverPromise o => return .handle (← resolverPromise n o)
  | .resolve o value => return .boolean (← resolvePromise n o value)
  | .reject o value => return .boolean (← rejectPromise n o value)
  | .promiseThen p f => return .boolean (← promiseThen n p f)
  | .promiseCatch p f => return .boolean (← promiseCatch n p f)
  | .promiseHandled p => return .boolean (← promiseHandled n p)
  | .promiseState p => return .promiseState (← promiseState n p)
  | .promiseResult p flags => return .tagged (← promiseResult n p flags)
  | .runMicrotasks => do Engine.runMicrotasks host (← engineOf n); return .done
  | .pushScope => do pushScope n; return .done
  | .popScope => do popScope host n; return .done

end HostBoundary.Environment
