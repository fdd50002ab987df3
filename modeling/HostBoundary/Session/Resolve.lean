import HostBoundary.Session.State

namespace HostBoundary.Session

def lookup (name : String) : Attempt Binding := do
  match (← Run.state).binding? name with
  | some binding => return binding
  | none => throw (.unbound name)

def handleOf : HandleTerm → Attempt Handle
  | .literal handle => return handle
  | .variable name => do
    match ← lookup name with
    | .handle h => return h
    | .value v =>
      match v.handle? with
      | some h => return h
      | none => throw .notHandle
    | _ => throw .notHandle

def retype (handle : Handle) (code : Int32) : Attempt Tagged :=
  match ValueType.ofCode? code with
  | some (.object kind) => return .object kind handle
  | _ => throw .notValue

def valueOf : ValueTerm → Attempt Tagged
  | .literal value => return value
  | .variable name retyped => do
    match ← lookup name, retyped with
    | .handle h, none => return .object .plain h
    | .handle h, some code => retype h code
    | .value v, none => return v
    | .value v, some code =>
      match v.handle? with
      | some h => retype h code
      | none => throw .notHandle
    | _, _ => throw .notValue

def classOf (name : String) : Attempt ClassId := do
  match ← lookup name with
  | .klass c => return c
  | _ => throw .notClass

def templateOf (name : String) : Attempt TemplateRef := do
  match ← lookup name with
  | .template t => return t
  | .klass c =>
    match (← get).class? c with
    | some compiled => return compiled.template
    | none => throw .notTemplate
  | _ => throw .notTemplate

def elementKindOf (code : Int32) : Attempt ElementKind :=
  match ElementKind.ofCode? code with
  | some kind => return kind
  | none => throw .badElementKind

def exceptionKindOf (code : Int32) : Attempt ExceptionKind :=
  match ExceptionKind.ofCode? code with
  | some kind => return kind
  | none => throw .badExceptionKind

def objectOfHandle : Handle → Attempt ObjectRef
  | .transient r => return r
  | .persistent slot => do
    match ← Run.slotTarget slot with
    | some r => return r
    | none => throw .deadPersistent

def objectOf (term : HandleTerm) : Attempt ObjectRef := do objectOfHandle (← handleOf term)

def slotOf (term : HandleTerm) : Attempt PersistentRef := do
  match ← handleOf term with
  | .persistent slot => return slot
  | .transient _ => throw .notPersistent

def engineValueOf : EngineTerm → Attempt Value
  | .literal value => return value
  | .handle h => return .object (← objectOfHandle h)
  | .variable name => return .object (← objectOf (.variable name))

def wordOf : WordTerm → Attempt UInt64
  | .zero => return 0
  | .word w => return w
  | .object term => do return (← handleOf term).raw

def wireOf : WireTerm → Attempt (Option WireValue)
  | .nullAddress => return none
  | .wire value => return some value
  | .value term => do return some (.ofTagged (← valueOf term))

def environmentOperands : Environment.Operation.Operands Attempt HandleTerm ValueTerm String Int32
    Int32 Handle Tagged ClassId ElementKind ExceptionKind where
  handle := handleOf
  value := valueOf
  klass := classOf
  elementKind := elementKindOf
  exceptionKind := exceptionKindOf

def engineOperands : Engine.Request.Operands Attempt HandleTerm HandleTerm EngineTerm String Int32
    ObjectRef PersistentRef Value TemplateRef ElementKind where
  object := objectOf
  slot := slotOf
  value := engineValueOf
  template := templateOf
  elementKind := elementKindOf

def foreignOperands : Foreign.Call.Operands Attempt WordTerm WireTerm (Option String) UInt64
    (Option WireValue) (Option ClassId) where
  handle := wordOf
  value := wireOf
  klass name := name.mapM classOf

def checkLeading (op : EnvironmentStep) : Attempt Unit :=
  op.leading.forM fun operand =>
    match operand with
    | .handle term => discard (handleOf term)
    | .value term => discard (valueOf term)
    | .klass name => discard (classOf name)

def holdingOf (name : Option String) : Attempt Holding := do
  match (← Run.state).holding? name with
  | some holding => return holding
  | none => throw .noEnvironment

def fullHolding (name : Option String) : Attempt EnvironmentId := do
  let holding ← holdingOf name
  match holding.surface with
  | .full => return holding.environment
  | .first => throw .firstSurface

-- The foreign handle a call goes through. Where none is named it is that of the running
-- foreign routine, else the one called `c`, else null.
def foreignOf : Through → Attempt (Option ForeignEnvironment)
  | .null => return none
  | .named name => do
    match (← Run.state).foreigners.find? name with
    | some env => return some env
    | none => throw .noForeignEnvironment
  | .atHand => do
    let s ← Run.state
    match s.frame with
    | some { caller := .foreign env, .. } => return some env
    | _ => return s.foreigners.find? "c"

end HostBoundary.Session
