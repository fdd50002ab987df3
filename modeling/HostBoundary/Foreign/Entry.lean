import HostBoundary.Foreign.Call

namespace HostBoundary.Foreign

inductive Answer where
  | done
  | boolean (b : Bool)
  | integer (n : Int)
  | pointer (p : Pointer)
  | handle (word : UInt64)
  | klass (c : Option ClassId)
  | out (ok : Bool) (value : WireValue)
  | exception (ok : Bool) (kind : Int32) (message : WireValue)
  | offset (n : Option Nat)
  | memory (length : Nat) (bytes : Option (Array UInt8))
  deriving DecidableEq

variable {σ : Type}

def anyEnvironment (env : Option ForeignEnvironment) : Option EnvironmentId := env.map (·.environment)

def fullEnvironment (env : Option ForeignEnvironment) : Option EnvironmentId :=
  env.bind fun env => if env.surface = .full then some env.environment else none

def readValue (v : Option WireValue) : Option Tagged := v.bind fun v => v.toTagged.toOption

def readValues (args : Arguments (Option WireValue)) : Option (List Tagged) :=
  if args.count ≤ 0 then some []
  else args.values.bind fun values => (values.take args.count.toNat).mapM readValue

def writeValue (out : Bool) : Option Tagged → Answer
  | none => .out false .null
  | some value => .out true (if out then .ofTagged value else .null)

def handleAnswer (h : Option Handle) : Answer := .handle ((h.map (·.raw)).getD 0)

-- Runs what needs the full surface; without it the answer is the failing one and
-- nothing happens.
def withFull (env : Option ForeignEnvironment) (failure : Answer)
    (f : EnvironmentId → Act σ Answer) : Act σ Answer :=
  match fullEnvironment env with
  | some n => f n
  | none => pure failure

def withObject (env : Option ForeignEnvironment) (object : UInt64) (failure : Answer)
    (f : EnvironmentId → Handle → Act σ Answer) : Act σ Answer :=
  withFull env failure fun n =>
    match Handle.ofRaw? object with
    | some handle => f n handle
    | none => pure failure

def noHandle : Answer := .handle 0

def getException (env : Option ForeignEnvironment) (kindWanted out : Bool) : Act σ Answer := do
  match anyEnvironment env with
  | none => return .exception false (-1) .null
  | some n =>
    let exception := (← Act.environment n).exception
    return .exception true (if kindWanted then exception.kind.code else -1)
      (if out then .ofTagged (.utf8 exception.message) else .null)

-- An unknown kind counts as native, and a message that does not read as empty.
def setException (env : Option ForeignEnvironment) (kind : Int32) (message : ForeignText) :
    Act σ Answer := do
  if let some n := anyEnvironment env then
    Act.setException n
      ⟨(ExceptionKind.ofCode? kind).getD .nativeRuntime, message.text?.getD ""⟩
  return .done

def registerCallback (host : Host σ) (env : Option ForeignEnvironment) (owner : UInt64)
    (domain : ForeignText) (f : Option Code) (flags : Flags) : Act σ Answer := do
  match env, domain.text?, f with
  | some env, some domain, some code =>
    return .boolean (← Environment.registerCallback host env.environment (Handle.ofRaw? owner)
      domain flags ⟨code, some env.surface⟩)
  | _, _, _ => return .boolean false

def executeScript (env : Option ForeignEnvironment) (code : Option WireValue) (out : Bool)
    (file : ForeignText) (startLine : Int) (flags : Flags) : Act σ Answer := do
  match env, readValue code with
  | some env, some code =>
    let flags := if env.surface = .first then 0 else flags
    return writeValue out
      (← Environment.executeScript env.environment code file.text? startLine flags)
  | _, _ => return .out false .null

def createClass (env : Option ForeignEnvironment) (definition : Option ClassRecord)
    (parent : Option ClassId) : Act σ Answer :=
  withFull env (.klass none) fun n => do
    let some definition := definition | return .klass none
    match ← Environment.createClass n definition.toDefinition parent with
    | .ok c => return .klass (some c)
    | .error e =>
      Act.setException n (.native e.message)
      return .klass none

def readWeakInfo (info : Option (Pointer × Fields)) (places : Pointer × Fields) : Pointer × Fields :=
  info.getD places

open Environment in
def perform (host : Host σ) (env : Option ForeignEnvironment) : Call.Known → Act σ Answer
  | .getVersion => pure (.integer ((env.map (·.surface.version.toInt)).getD 0))
  | .dispatchCommand command => do
    match anyEnvironment env with
    | some n => return .pointer (← Engine.command host (← engineOf n) command)
    | none => return .pointer 0
  | .hasException => do
    match anyEnvironment env with
    | some n => return .boolean (← Act.environment n).exception.isSet
    | none => return .boolean false
  | .getException kindWanted out => getException env kindWanted out
  | .setException kind message => setException env kind message
  | .clearException => do
    if let some n := anyEnvironment env then Act.setException n {}
    return .done
  | .registerCallback owner domain f flags => Foreign.registerCallback host env owner domain f flags
  | .executeScript code out file line flags => Foreign.executeScript env code out file line flags
  | .newFunction f flags =>
    withFull env noHandle fun n => do
      let some code := f | return noHandle
      return handleAnswer (some (← newFunction n flags ⟨code, some .full⟩))
  | .createClass definition parent => Foreign.createClass env definition parent
  | .getClass name =>
    withFull env (.klass none) fun n => do
      let some name := name.text? | return .klass none
      return .klass (← getClass n name)
  | .newInstance c =>
    withFull env noHandle fun n => do
      let some c := c | return noHandle
      return handleAnswer (← newInstance n c)
  | .newInstanceWithConstructor c args =>
    withFull env noHandle fun n => do
      match c, readValues args with
      | some c, some args => return handleAnswer (← newInstanceWithConstructor host n c args)
      | _, _ => return noHandle
  | .classConstructor c =>
    withFull env noHandle fun n => do
      let some c := c | return noHandle
      return handleAnswer (← classConstructor n c)
  | .objectType o =>
    withObject env o (.integer ValueType.null.code.toInt) fun n o => do
      return .integer (← objectType n o).code.toInt
  | .typedArrayType o =>
    withObject env o (.integer (-1)) fun n o => do
      return .integer (((← elementKind n o).map (·.code.toInt)).getD (-1))
  | .newReference o =>
    withObject env o noHandle fun n o => do return handleAnswer (← newReference n o)
  | .newWeakReference o hook =>
    withObject env o noHandle fun n o => do return handleAnswer (← newWeakReference n o hook)
  | .deleteReference o =>
    withObject env o .done fun n o => do discard (releaseHandle n o); return .done
  | .field i o => withObject env o (.pointer 0) fun n o => do return .pointer (← field n i o)
  | .setField i o word =>
    withObject env o (.boolean false) fun n o => do return .boolean (← setField n i o word)
  | .globalObject =>
    withFull env noHandle fun n => do return handleAnswer (some (← globalObject n))
  | .setGlobal key value =>
    withFull env (.boolean false) fun n => do
      match readValue key, readValue value with
      | some key, some value => return .boolean (← setGlobal host n key value)
      | _, _ => return .boolean false
  | .getGlobal key out flags =>
    withFull env (.out false .null) fun n => do
      let some key := readValue key | return .out false .null
      return writeValue out (← getGlobal host n key flags)
  | .getProperty o key out flags =>
    withObject env o (.out false .null) fun n o => do
      let some key := readValue key | return .out false .null
      return writeValue out (← getProperty host n o key flags)
  | .setProperty o key value =>
    withObject env o (.boolean false) fun n o => do
      match readValue key, readValue value with
      | some key, some value => return .boolean (← setProperty host n o key value)
      | _, _ => return .boolean false
  | .propertyNames o =>
    withObject env o noHandle fun n o => do return handleAnswer (← propertyNames host n o)
  | .objectLength o => withObject env o (.integer 0) fun n o => do return .integer (← length n o)
  | .getIndex o index out flags =>
    withObject env o (.out false .null) fun n o => do
      return writeValue out (← getIndex host n o index flags)
  | .setIndex o index value =>
    withObject env o (.boolean false) fun n o => do
      let some value := readValue value | return .boolean false
      return .boolean (← setIndex host n o index value)
  | .callFunction f this args out flags =>
    withObject env f (.out false .null) fun n f => do
      let some args := readValues args | return .out false .null
      return writeValue out (← callFunction host n f (Handle.ofRaw? this) args flags)
  | .callAsConstructor f args =>
    withObject env f noHandle fun n f => do
      let some args := readValues args | return noHandle
      return handleAnswer (← callAsConstructor host n f args)
  | .newObject =>
    withFull env noHandle fun n => do return handleAnswer (some (← allocated n (·.newObject)))
  | .newArray size =>
    withFull env noHandle fun n => do return handleAnswer (some (← allocated n (·.newArray size)))
  | .newArrayWithValues args =>
    withFull env noHandle fun n => do
      let some args := readValues args | return noHandle
      return handleAnswer (← newArrayWithValues host n args)
  | .newTypedArray kind count =>
    withFull env noHandle fun n => do
      let some kind := ElementKind.ofCode? kind | return noHandle
      return handleAnswer (← newTypedArray n kind count)
  | .newTypedArrayOnBuffer kind buffer offset count =>
    withObject env buffer noHandle fun n buffer => do
      let some kind := ElementKind.ofCode? kind | return noHandle
      return handleAnswer (← newTypedArrayOnBuffer n kind buffer offset count)
  | .typedArrayCount o =>
    withObject env o (.integer 0) fun n o => do return .integer (← typedArrayCount n o)
  | .typedArrayPointer o offset =>
    withObject env o (.offset none) fun n o => do return .offset (← typedArrayPointer n o offset)
  | .typedArrayBuffer o =>
    withObject env o noHandle fun n o => do return handleAnswer (← typedArrayBuffer n o)
  | .newDataView buffer offset size =>
    withObject env buffer noHandle fun n buffer => do
      return handleAnswer (← newDataView n buffer offset size)
  | .dataViewLength o =>
    withObject env o (.integer 0) fun n o => do return .integer (← dataViewLength n o)
  | .newArrayBuffer size =>
    withFull env noHandle fun n => do return handleAnswer (← newArrayBuffer n size)
  | .newExternalArrayBuffer memory release address =>
    withFull env noHandle fun n => do
      return handleAnswer (← newExternalArrayBuffer n memory release address)
  | .arrayBufferLength o =>
    withObject env o (.integer 0) fun n o => do return .integer (← arrayBufferLength n o)
  | .arrayBufferPointer o =>
    withObject env o (.memory 0 none) fun n o => do
      match ← contents n o with
      | some bytes => return .memory bytes.size (some bytes)
      | none => return .memory 0 none
  | .createResolver =>
    withFull env noHandle fun n => do return handleAnswer (some (← createResolver n))
  | .resolverPromise o =>
    withObject env o noHandle fun n o => do return handleAnswer (← resolverPromise n o)
  | .resolve o value =>
    withObject env o (.boolean false) fun n o => do
      let some value := readValue value | return .boolean false
      return .boolean (← resolvePromise n o value)
  | .reject o value =>
    withObject env o (.boolean false) fun n o => do
      let some value := readValue value | return .boolean false
      return .boolean (← rejectPromise n o value)
  | .promiseThen p f =>
    withObject env p (.boolean false) fun n p => do
      let some f := Handle.ofRaw? f | return .boolean false
      return .boolean (← promiseThen n p f)
  | .promiseCatch p f =>
    withObject env p (.boolean false) fun n p => do
      let some f := Handle.ofRaw? f | return .boolean false
      return .boolean (← promiseCatch n p f)
  | .promiseHandled p =>
    withObject env p (.boolean false) fun n p => do return .boolean (← promiseHandled n p)
  | .promiseState p =>
    withObject env p (.integer (-1)) fun n p => do
      return .integer (((← promiseState n p).map (·.code.toInt)).getD (-1))
  | .promiseResult p out flags =>
    withObject env p (.out false .null) fun n p => do
      return writeValue out (← promiseResult n p flags)
  | .pushScope => withFull env .done fun n => do pushScope n; return .done
  | .popScope => withFull env .done fun n => do popScope host n; return .done

end HostBoundary.Foreign
