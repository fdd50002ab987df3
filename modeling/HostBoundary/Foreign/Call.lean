import HostBoundary.Environment.Operation

namespace HostBoundary.Foreign

abbrev ForeignText := Option (List UInt8)

def ForeignText.text? (s : ForeignText) : Option String :=
  s.bind fun bytes => String.fromUTF8? ⟨(bytes.takeWhile (· ≠ 0)).toArray⟩

structure PropertyRecord where
  name : ForeignText
  getter : Option Code := none
  setter : Option Code := none
  flags : Flags := 0
  deriving DecidableEq

structure MethodRecord where
  name : ForeignText
  function : Option Code := none
  flags : Flags := 0
  deriving DecidableEq

structure ClassRecord where
  name : ForeignText
  constructor : Option Code := none
  constructorFlags : Flags := 0
  finalizer : Option Code := none
  properties : List PropertyRecord := []
  methods : List MethodRecord := []
  deriving DecidableEq

namespace ClassRecord

def routine (code : Code) : NativeFunction := ⟨code, some .full⟩

def propertiesOf : List PropertyRecord → List PropertyDefinition
  | [] => []
  | p :: rest =>
    match p.name.text? with
    | none => []
    | some name =>
      { name, getter := p.getter.map routine, setter := p.setter.map routine, flags := p.flags } ::
        propertiesOf rest

def methodsOf : List MethodRecord → List MethodDefinition
  | [] => []
  | m :: rest =>
    match m.name.text? with
    | none => []
    | some name =>
      (m.function.toList.map fun code => { name, function := routine code, flags := m.flags }) ++
        methodsOf rest

def toDefinition (r : ClassRecord) : ClassDefinition where
  name := r.name.text?
  constructor := r.constructor.map fun code => (routine code, r.constructorFlags)
  finalizer := r.finalizer.map fun code => { code }
  properties := propertiesOf r.properties
  methods := methodsOf r.methods

end ClassRecord

structure Arguments (v : Type) where
  values : Option (List v) := none
  count : Int := 0

-- The entry points for foreign code. Handles `h` are words, values `v` are addresses of
-- wire values, and classes `k` are addresses.
inductive Call (h v k : Type) where
  | getVersion
  | dispatchCommand (command : Int32)
  | hasException
  | getException (kindWanted : Bool) (out : Bool)
  | setException (kind : Int32) (message : ForeignText)
  | clearException
  | registerCallback (owner : h) (domain : ForeignText) (f : Option Code) (flags : Flags)
  | executeScript (code : v) (out : Bool) (file : ForeignText) (startLine : Int) (flags : Flags)
  | newFunction (f : Option Code) (flags : Flags)
  | createClass (definition : Option ClassRecord) (parent : k)
  | getClass (name : ForeignText)
  | newInstance (c : k)
  | newInstanceWithConstructor (c : k) (args : Arguments v)
  | classConstructor (c : k)
  | objectType (object : h)
  | typedArrayType (object : h)
  | newReference (object : h)
  | newWeakReference (object : h) (hook : Option ReclaimHook)
  | deleteReference (object : h)
  | field (i : Heap.FieldIndex) (object : h)
  | setField (i : Heap.FieldIndex) (object : h) (word : Pointer)
  | globalObject
  | setGlobal (key value : v)
  | getGlobal (key : v) (out : Bool) (flags : Flags)
  | getProperty (object : h) (key : v) (out : Bool) (flags : Flags)
  | setProperty (object : h) (key value : v)
  | propertyNames (object : h)
  | objectLength (object : h)
  | getIndex (object : h) (index : UInt32) (out : Bool) (flags : Flags)
  | setIndex (object : h) (index : UInt32) (value : v)
  | callFunction (function this : h) (args : Arguments v) (out : Bool) (flags : Flags)
  | callAsConstructor (function : h) (args : Arguments v)
  | newObject
  | newArray (length : Nat)
  | newArrayWithValues (args : Arguments v)
  | newTypedArray (kind : Int32) (count : Nat)
  | newTypedArrayOnBuffer (kind : Int32) (buffer : h) (offset count : Nat)
  | typedArrayCount (object : h)
  | typedArrayPointer (object : h) (offset : Nat)
  | typedArrayBuffer (object : h)
  | newDataView (buffer : h) (offset length : Nat)
  | dataViewLength (object : h)
  | newArrayBuffer (length : Nat)
  | newExternalArrayBuffer (memory : Option (Array UInt8)) (release : Option ReleaseHook)
      (address : Pointer := 0)
  | arrayBufferLength (object : h)
  | arrayBufferPointer (object : h)
  | createResolver
  | resolverPromise (resolver : h)
  | resolve (resolver : h) (value : v)
  | reject (resolver : h) (value : v)
  | promiseThen (promise handler : h)
  | promiseCatch (promise handler : h)
  | promiseHandled (promise : h)
  | promiseState (promise : h)
  | promiseResult (promise : h) (out : Bool) (flags : Flags)
  | pushScope
  | popScope

namespace Call

abbrev Known := Call UInt64 (Option WireValue) (Option ClassId)

structure Operands (m : Type → Type) (h v k h' v' k' : Type) where
  handle : h → m h'
  value : v → m v'
  klass : k → m k'

variable {m : Type → Type} [Monad m] {h v k h' v' k' : Type}

def arguments (r : Operands m h v k h' v' k') (args : Arguments v) : m (Arguments v') := do
  return ⟨← args.values.mapM (·.mapM r.value), args.count⟩

def resolveWith (r : Operands m h v k h' v' k') : Call h v k → m (Call h' v' k')
  | .getVersion => pure .getVersion
  | .dispatchCommand command => pure (.dispatchCommand command)
  | .hasException => pure .hasException
  | .getException kindWanted out => pure (.getException kindWanted out)
  | .setException kind message => pure (.setException kind message)
  | .clearException => pure .clearException
  | .registerCallback owner domain f flags =>
    return .registerCallback (← r.handle owner) domain f flags
  | .executeScript code out file line flags =>
    return .executeScript (← r.value code) out file line flags
  | .newFunction f flags => pure (.newFunction f flags)
  | .createClass definition parent => return .createClass definition (← r.klass parent)
  | .getClass name => pure (.getClass name)
  | .newInstance c => return .newInstance (← r.klass c)
  | .newInstanceWithConstructor c args => do
    let args ← arguments r args
    return .newInstanceWithConstructor (← r.klass c) args
  | .classConstructor c => return .classConstructor (← r.klass c)
  | .objectType o => return .objectType (← r.handle o)
  | .typedArrayType o => return .typedArrayType (← r.handle o)
  | .newReference o => return .newReference (← r.handle o)
  | .newWeakReference o hook => return .newWeakReference (← r.handle o) hook
  | .deleteReference o => return .deleteReference (← r.handle o)
  | .field i o => return .field i (← r.handle o)
  | .setField i o word => return .setField i (← r.handle o) word
  | .globalObject => pure .globalObject
  | .setGlobal key value => return .setGlobal (← r.value key) (← r.value value)
  | .getGlobal key out flags => return .getGlobal (← r.value key) out flags
  | .getProperty o key out flags => return .getProperty (← r.handle o) (← r.value key) out flags
  | .setProperty o key value =>
    return .setProperty (← r.handle o) (← r.value key) (← r.value value)
  | .propertyNames o => return .propertyNames (← r.handle o)
  | .objectLength o => return .objectLength (← r.handle o)
  | .getIndex o index out flags => return .getIndex (← r.handle o) index out flags
  | .setIndex o index value => return .setIndex (← r.handle o) index (← r.value value)
  | .callFunction f this args out flags => do
    let args ← arguments r args
    return .callFunction (← r.handle f) (← r.handle this) args out flags
  | .callAsConstructor f args => do
    let args ← arguments r args
    return .callAsConstructor (← r.handle f) args
  | .newObject => pure .newObject
  | .newArray size => pure (.newArray size)
  | .newArrayWithValues args => return .newArrayWithValues (← arguments r args)
  | .newTypedArray kind count => pure (.newTypedArray kind count)
  | .newTypedArrayOnBuffer kind buffer offset count =>
    return .newTypedArrayOnBuffer kind (← r.handle buffer) offset count
  | .typedArrayCount o => return .typedArrayCount (← r.handle o)
  | .typedArrayPointer o offset => return .typedArrayPointer (← r.handle o) offset
  | .typedArrayBuffer o => return .typedArrayBuffer (← r.handle o)
  | .newDataView buffer offset size => return .newDataView (← r.handle buffer) offset size
  | .dataViewLength o => return .dataViewLength (← r.handle o)
  | .newArrayBuffer size => pure (.newArrayBuffer size)
  | .newExternalArrayBuffer memory release address =>
    pure (.newExternalArrayBuffer memory release address)
  | .arrayBufferLength o => return .arrayBufferLength (← r.handle o)
  | .arrayBufferPointer o => return .arrayBufferPointer (← r.handle o)
  | .createResolver => pure .createResolver
  | .resolverPromise o => return .resolverPromise (← r.handle o)
  | .resolve o value => return .resolve (← r.handle o) (← r.value value)
  | .reject o value => return .reject (← r.handle o) (← r.value value)
  | .promiseThen p f => return .promiseThen (← r.handle p) (← r.handle f)
  | .promiseCatch p f => return .promiseCatch (← r.handle p) (← r.handle f)
  | .promiseHandled p => return .promiseHandled (← r.handle p)
  | .promiseState p => return .promiseState (← r.handle p)
  | .promiseResult p out flags => return .promiseResult (← r.handle p) out flags
  | .pushScope => pure .pushScope
  | .popScope => pure .popScope

end Call

end HostBoundary.Foreign
