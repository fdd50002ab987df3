import HostBoundary.Session.Resolve

namespace HostBoundary.Session

inductive Effect where
  | keep
  | unbind
  | bind (b : Binding)

def bindIf {α : Type} (f : α → Binding) : Option α → Effect
  | some x => .bind (f x)
  | none => .unbind

def answerEffect : Environment.Answer → Effect
  | .tagged value => bindIf .value value
  | .handle object => bindIf .handle object
  | .klass c => bindIf .klass c
  | _ => .keep

def replyEffect : Engine.Reply → Effect
  | .object r => bindIf (.handle ∘ .transient) r
  | .slot s => bindIf (.handle ∘ .persistent) s
  | .template t => bindIf .template t
  | .value v => bindIf (.handle ∘ .transient) (v.bind (·.object?))
  | _ => .keep

def foreignEffect : Foreign.Answer → Effect
  | .handle word => bindIf .handle (Handle.ofRaw? word)
  | .klass c => bindIf .klass c
  | .out true value => bindIf .value value.toTagged.toOption
  | .out false _ => .unbind
  | _ => .keep

def applyEffect (target : Option String) (effect : Effect) : Run Unit :=
  match target, effect with
  | some name, .bind b => Run.update fun s => { s with bindings := s.bindings.insert name b }
  | some name, .unbind => Run.update fun s => { s with bindings := s.bindings.erase name }
  | _, _ => pure ()

def viewOf (c : ClassId) : Run (Option ClassView) := do
  let w ← get
  return (w.class? c).map fun compiled =>
    { name := compiled.name
      template := compiled.template
      constructible := compiled.constructible
      parent := (compiled.parent.bind w.class?).bind (·.name) }

def operate (host : Host State) (target : Option String) (n : EnvironmentId)
    (op : Environment.Operation.Known) : Run Result := do
  let answer ← Environment.perform host n op
  applyEffect target (answerEffect answer)
  match answer with
  | .klass (some c) => return .klass (← viewOf c)
  | answer => return .environment answer

def store (host : Host State) (name : String) (holding : Holding) : Run Bool := do
  let before := (← Run.state).environments.find? name
  Run.update fun s => { s with environments := s.environments.insert name holding }
  match before with
  | some old =>
    Environment.drop host old.environment
    return true
  | none => return false

def callForeign (host : Host State) (target : Option String) (env : Option ForeignEnvironment)
    (call : Foreign.Call.Known) : Run Result := do
  let answer ← Foreign.perform host env call
  applyEffect target (foreignEffect answer)
  match answer with
  | .klass (some c) => return .foreignClass (← viewOf c)
  | .klass none => return .foreignClass none
  | answer => return .foreign answer

def storeForeign (host : Host State) (name : String) (env : ForeignEnvironment) : Run Unit := do
  let before := (← Run.state).foreigners.find? name
  Run.update fun s => { s with foreigners := s.foreigners.insert name env }
  before.forM (Foreign.release host)

def attachAs (host : Host State) (target : String) : Run Result := do
  let environment ← Environment.attach (← Run.state).engine
  discard (store host target { environment })
  return .surface (some .full)

def negotiateAs (host : Host State) (target : String) (version : Int32) : Run Result := do
  match ← Environment.negotiate (← Run.state).engine version with
  | some env =>
    discard (store host target ⟨env.environment, env.surface, false⟩)
    return .surface (some env.surface)
  | none => return .surface none

def acquireAs (host : Host State) (target : String) (environment : EnvironmentId) : Run Bool := do
  Environment.acquire environment
  store host target { environment }

def dropNamed (host : Host State) (name : String) : Run Result := do
  match (← Run.state).environments.find? name with
  | some holding =>
    Run.update fun s => { s with environments := s.environments.erase name }
    Environment.drop host holding.environment
    return .boolean true
  | none => return .boolean false

def teardown : Run Result := do
  Environment.teardown (← Run.state).engine
  return .done

def ask (host : Host State) (target : Option String) (r : Engine.Request.Known) : Run Result := do
  let reply ← Engine.serve host (← Run.state).engine r
  applyEffect target (replyEffect reply)
  return .engine reply

def display (value : Tagged) : Run Result := do
  let e := (← Run.state).engine
  match ← Act.onHeap e (·.ofTagged value) with
  | .ok value => return .text ((← Act.heap e).display value)
  | .error e => return .conversionError e

def releaseHandle (handle : Handle) : Run Result := do
  return .boolean (← Act.onHeap (← Run.state).engine (·.releaseHandle handle))

def decodeHandle (handle : Handle) : Run Result := do
  return .decoded (← Act.onHeap (← Run.state).engine (·.resolveHandle handle)) handle.isPersistent

def registerContext : Run Result := do
  return .context (← Foreign.registerContext (← Run.state).engine)

def newContext : Run Result := do return .context (← Foreign.newContext {})

def getEnvironmentAs (host : Host State) (target : String) (context : UInt64) (version : Int32) :
    Run Result := do
  match ← Foreign.getEnvironment context version with
  | some env =>
    storeForeign host target env
    return .version (some env.surface.version)
  | none => return .version none

def releaseNamed (host : Host State) (name : String) : Run Result := do
  match (← Run.state).foreigners.find? name with
  | some env =>
    Run.update fun s => { s with foreigners := s.foreigners.erase name }
    Foreign.release host env
    return .boolean true
  | none => return .boolean false

def execute (host : Host State) (step : Step) : Attempt Result := do
  match step.action with
  | .operation environment op =>
    checkLeading op
    let n ← fullHolding environment
    operate host step.target n (← op.resolveWith environmentOperands)
  | .narrowed environment op =>
    let op ← op.resolveWith environmentOperands
    operate host step.target (← holdingOf environment).environment op
  | .narrowedVersion environment =>
    return .version (some (← holdingOf environment).surface.version)
  | .attach target => attachAs host target
  | .negotiate target version => negotiateAs host target version
  | .acquire environment target =>
    discard (acquireAs host target (← fullHolding environment))
    return .surface (some .full)
  | .dropEnvironment name => dropNamed host name
  | .cloneEnvironment name target =>
    match (← Run.state).environments.find? name with
    | some { environment, plain := true, .. } => return .boolean (← acquireAs host target environment)
    | _ => throw .noEnvironment
  | .sameEnvironment a b =>
    let first ← fullHolding (some a)
    let second ← fullHolding (some b)
    return .boolean (first = second)
  | .teardown => teardown
  | .sameClass a b =>
    let first ← classOf a
    let second ← classOf b
    return .boolean (first = second)
  | .request r => ask host step.target (← r.resolveWith engineOperands)
  | .display value => display (← valueOf value)
  | .releaseHandle object => releaseHandle (← handleOf object)
  | .decodeHandle object => decodeHandle (← handleOf object)
  | .rawHandle object => return .word (← handleOf object).raw
  | .foreign through call =>
    let env ← foreignOf through
    callForeign host step.target env (← call.resolveWith foreignOperands)
  | .foreignSameClass a b =>
    let first ← a.mapM classOf
    let second ← b.mapM classOf
    return .boolean (first = second)
  | .registerContext => registerContext
  | .newContext => newContext
  | .endContext context => return .boolean (← Foreign.endContext host context)
  | .getEnvironment context version target => getEnvironmentAs host target context version
  | .releaseForeign name => releaseNamed host name
  | .weakInfoOfNull data fields =>
    let (data, fields) := Foreign.readWeakInfo none (data, fields)
    return .weakInfo data fields
  | .unknown name => throw (.unknownStep name)

def runStep (host : Host State) (step : Step) : Run StepAnswer := do
  let (result, events) ← Run.withEvents (execute host step).run
  let exception ← do
    match (← Run.state).shown? with
    | some n => pure (some (← Act.environment n).exception)
    | none => pure none
  return .mk result events (exception.filter (·.isSet))

end HostBoundary.Session
